/-!
Native types: the closed set of representations that generated code can give to
a Python value.
-/

namespace NativeTyping

/-- How the text of a string is held: in static memory, on the heap, or borrowed
from another string. -/
inductive StringKind where
  | literal
  | runtime
  | slice
  deriving DecidableEq, Repr

inductive Facility where
  | file
  | hashObject
  | path
  | socket
  | dbConnection
  | dbCursor
  | dbRow
  | exception (name : String)
  deriving DecidableEq, Repr

/-! `index` is the pointer-sized unsigned integer of loop counters, `closure`
names a nested function that captures variables of the functions around it,
`callable` erases which function-like value it holds, `object` is an instance of
a user class, and `unknown` stands for a type that was not determined. -/

inductive Ty where
  | int
  | bigInt
  | index
  | float
  | bool
  | str (kind : StringKind)
  | array (element : Ty) (length : Nat)
  | list (element : Ty)
  | dict (key value : Ty)
  | set (element : Ty)
  | tuple (elements : List Ty)
  | function (params : List Ty) (result : Ty)
  | closure (name : String)
  | callable
  | object (className : String)
  | optional (inner : Ty)
  | none
  | library (facility : Facility)
  | unknown
  deriving Repr

namespace Ty

instance : Inhabited Ty := ⟨.unknown⟩

/-! ## Equality -/

mutual

def same : Ty → Ty → Bool
  | .int, .int => true
  | .bigInt, .bigInt => true
  | .index, .index => true
  | .float, .float => true
  | .bool, .bool => true
  | .str left, .str right => left == right
  | .array left leftLength, .array right rightLength =>
      same left right && leftLength == rightLength
  | .list left, .list right => same left right
  | .dict leftKey leftValue, .dict rightKey rightValue =>
      same leftKey rightKey && same leftValue rightValue
  | .set left, .set right => same left right
  | .tuple left, .tuple right => sameEach left right
  | .function leftParams leftResult, .function rightParams rightResult =>
      sameEach leftParams rightParams && same leftResult rightResult
  | .closure left, .closure right => left == right
  | .callable, .callable => true
  | .object left, .object right => left == right
  | .optional left, .optional right => same left right
  | .none, .none => true
  | .library left, .library right => left == right
  | .unknown, .unknown => true
  | _, _ => false

def sameEach : List Ty → List Ty → Bool
  | [], [] => true
  | left :: lefts, right :: rights => same left right && sameEach lefts rights
  | _, _ => false

end

mutual

theorem same_self (type : Ty) : type.same type = true := by
  cases type with
  | array element length => simp [same, same_self element]
  | list element => simp [same, same_self element]
  | dict key value => simp [same, same_self key, same_self value]
  | set element => simp [same, same_self element]
  | tuple elements => simp [same, sameEach_self elements]
  | function params result => simp [same, sameEach_self params, same_self result]
  | optional inner => simp [same, same_self inner]
  | _ => simp [same]

theorem sameEach_self (types : List Ty) : sameEach types types = true := by
  cases types with
  | nil => simp [sameEach]
  | cons type rest => simp [sameEach, same_self type, sameEach_self rest]

end

mutual

theorem eq_of_same {left right : Ty} (equal : left.same right = true) : left = right := by
  cases left with
  | array element length =>
      cases right <;> simp [same] at equal
      exact congr (congrArg _ (eq_of_same equal.1)) equal.2
  | list element =>
      cases right <;> simp [same] at equal
      exact congrArg _ (eq_of_same equal)
  | dict key value =>
      cases right <;> simp [same] at equal
      exact congr (congrArg _ (eq_of_same equal.1)) (eq_of_same equal.2)
  | set element =>
      cases right <;> simp [same] at equal
      exact congrArg _ (eq_of_same equal)
  | tuple elements =>
      cases right <;> simp [same] at equal
      exact congrArg _ (eq_of_sameEach equal)
  | function params result =>
      cases right <;> simp [same] at equal
      exact congr (congrArg _ (eq_of_sameEach equal.1)) (eq_of_same equal.2)
  | optional inner =>
      cases right <;> simp [same] at equal
      exact congrArg _ (eq_of_same equal)
  | _ => cases right <;> simp_all [same]

theorem eq_of_sameEach {lefts rights : List Ty} (equal : sameEach lefts rights = true) :
    lefts = rights := by
  cases lefts with
  | nil => cases rights <;> simp_all [sameEach]
  | cons left rest =>
      cases rights <;> simp [sameEach] at equal
      exact congr (congrArg _ (eq_of_same equal.1)) (eq_of_sameEach equal.2)

end

theorem same_iff_eq {left right : Ty} : left.same right = true ↔ left = right :=
  ⟨eq_of_same, fun equal => equal ▸ same_self left⟩

instance : DecidableEq Ty := fun left right =>
  decidable_of_iff (left.same right = true) same_iff_eq

/-! ## Shapes -/

inductive Shape where
  | int
  | bigInt
  | index
  | float
  | bool
  | str
  | array
  | list
  | dict
  | set
  | tuple
  | function
  | closure
  | callable
  | object
  | optional
  | none
  | library
  | unknown
  deriving DecidableEq, Repr

def shape : Ty → Shape
  | .int => .int
  | .bigInt => .bigInt
  | .index => .index
  | .float => .float
  | .bool => .bool
  | .str _ => .str
  | .array _ _ => .array
  | .list _ => .list
  | .dict _ _ => .dict
  | .set _ => .set
  | .tuple _ => .tuple
  | .function _ _ => .function
  | .closure _ => .closure
  | .callable => .callable
  | .object _ => .object
  | .optional _ => .optional
  | .none => .none
  | .library _ => .library
  | .unknown => .unknown

def sameShape (left right : Ty) : Bool :=
  left.shape = right.shape

def uniform : List Ty → Bool
  | [] => true
  | first :: rest => rest.all first.sameShape

/-! ## Classes of types -/

def isUnknown : Ty → Bool
  | .unknown => true
  | _ => false

def isString : Ty → Bool
  | .str _ => true
  | _ => false

def isInteger : Ty → Bool
  | .int | .bigInt | .index => true
  | _ => false

def isNumeric : Ty → Bool
  | .float => true
  | other => other.isInteger

def isFunctionLike : Ty → Bool
  | .function _ _ | .closure _ | .callable => true
  | _ => false

def isContainer : Ty → Bool
  | .array _ _ | .list _ | .dict _ _ | .set _ | .tuple _ => true
  | _ => false

/-! ## Frequent types -/

def text : Ty := .str .runtime

def orUnknown (type : Option Ty) : Ty :=
  type.getD .unknown

end Ty

end NativeTyping

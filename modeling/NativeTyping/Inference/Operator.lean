import NativeTyping.Inference.Context
import NativeTyping.Program.Expr
/-!
Types of operators, subscripts, slices and literals.
-/

namespace NativeTyping

def Literal.type : Literal → Ty
  | .int _ => .int
  | .bigInt _ => .bigInt
  | .float _ => .float
  | .str _ | .bytes _ => .str .literal
  | .bool _ => .bool
  | .none => .none

/-! ## Operators

A class gives an operator a meaning by a method of its own. Otherwise strings and
containers have a say first, and what is left is arithmetic.
-/

def BinaryOp.method? : BinaryOp → Option String
  | .add => some "__add__"
  | .sub => some "__sub__"
  | .mul => some "__mul__"
  | .mod => some "__mod__"
  | _ => none

def BinaryOp.isBitwise : BinaryOp → Bool
  | .leftShift | .rightShift | .bitAnd | .bitOr | .bitXor => true
  | _ => false

namespace Ty

def isWord : Ty → Bool
  | .int | .bool | .index => true
  | _ => false

def sequenceElement? : Ty → Option Ty
  | .list element | .array element _ => some element
  | _ => Option.none

def repeatsString (type : Ty) : Bool :=
  type.isInteger || type = .bool

def arithmetic (left right : Ty) : Ty :=
  (promote? left right).getD (widen left right)

def addType (left right : Ty) : Ty :=
  if left.isString || right.isString then text
  else
    match left.sequenceElement?, right.sequenceElement? with
    | some leftElement, some rightElement => .list (widen leftElement rightElement).owned
    | _, _ =>
        match left, right with
        | .tuple lefts, .tuple rights => .tuple (lefts ++ rights)
        | _, _ => arithmetic left right

def mulType (left right : Ty) : Ty :=
  if (left.isString && right.repeatsString) || (right.isString && left.repeatsString) then text
  else
    match left.sequenceElement? with
    | some element => if right.isInteger then .list element.owned else arithmetic left right
    | Option.none => arithmetic left right

def otherType (op : BinaryOp) (left right : Ty) : Ty :=
  match op, left, right with
  | .mod, .str _, _ => text
  | .bitOr, .set leftElement, .set rightElement
  | .bitAnd, .set leftElement, .set rightElement
  | .bitXor, .set leftElement, .set rightElement
  | .sub, .set leftElement, .set rightElement => .set (widen leftElement rightElement)
  | .bitOr, .dict leftKey leftValue, .dict rightKey rightValue =>
      (widen (.dict leftKey leftValue) (.dict rightKey rightValue)).owned
  | _, _, _ =>
      if op.isBitwise && left.isWord && right.isWord then .int else arithmetic left right

def operatorType (op : BinaryOp) (left right : Ty) : Ty :=
  match op with
  | .div => .float
  | .add => addType left right
  | .mul => mulType left right
  | _ => otherType op left right

def unaryType : UnaryOp → Ty → Ty
  | .not, _ => .bool
  | .bitNot, operand =>
      match operand with
      | .bigInt => .bigInt
      | .unknown => .unknown
      | _ => .int
  | _, .bool => .int
  | _, operand => operand

end Ty

namespace Environment

def binaryType (env : Environment) (op : BinaryOp) (left right : Ty) : Ty :=
  let own? := match left with
    | .object className => op.method?.bind (env.methodReturn? className)
    | _ => none
  own?.getD (Ty.operatorType op left right)

end Environment

/-! ## Subscripts and slices

The literal positions of a tuple are signed words of 64 bits, and so is the length
that they are compared with.
-/

def Expr.wordLiteral? (expr : Expr) : Option Int64 :=
  expr.intLiteral?.map Int64.ofInt

namespace Ty

def fromStart (length index : Int64) : Int64 :=
  if index < 0 then length + index else index

/-- The position that a literal index selects in a tuple. A tuple whose length is no
word has no literal positions. -/
def tuplePosition? (length : Nat) (index : Int64) : Option Nat :=
  if length ≤ Int64.maxValue.toInt then
    let size := Int64.ofNat length
    let position := fromStart size index
    if 0 ≤ position && position < size then some position.toNatClampNeg else Option.none
  else Option.none

def tupleElement? (elements : List Ty) (index : Int64) : Option Ty :=
  (tuplePosition? elements.length index).bind fun position => elements[position]?

/-!
The bounds of a slice are counted from the start and kept within the length, and a slice
whose bounds cross is empty.
-/

def clampBound (length bound : Int64) : Int64 :=
  let position := fromStart length bound
  if bound < 0 then max position 0 else min position length

def slicePosition? (length default : Int64) : Option Expr → Option Int64
  | Option.none => some default
  | some expr => expr.wordLiteral?.map (clampBound length)

def tupleSlice (elements : List Ty) (start stop : Option Expr) : Ty :=
  let length := Int64.ofNat elements.length
  match slicePosition? length 0 start, slicePosition? length length stop with
  | some first, some last =>
      if first ≤ last then
        .tuple ((elements.take last.toNatClampNeg).drop first.toNatClampNeg)
      else .tuple []
  | _, _ => .unknown

def sliceType (base : Ty) (start stop step : Option Expr) : Ty :=
  match base with
  | .str _ => .str .slice
  | .array element _ | .list element => .list element
  | .tuple elements => if step.isSome then .unknown else tupleSlice elements start stop
  | _ => .unknown

end Ty

namespace Environment

def subscriptType (env : Environment) (index : Expr) : Ty → Ty
  | .str _ => .str .slice
  | .array element _ | .list element => element
  | .dict _ value => value
  | .tuple elements => Ty.orUnknown (index.wordLiteral?.bind (Ty.tupleElement? elements))
  | .optional inner => env.subscriptType index inner
  | .object className => Ty.orUnknown (env.methodReturn? className "__getitem__")
  | _ => .unknown

end Environment

/-! ## Displays -/

namespace Ty

/-- A list display: a fixed array if its items are constants of one shape and
literal arrays are wanted. -/
def listDisplay (config : Config) (items : List Expr) (types : List Ty) : Ty :=
  if items.isEmpty then .list .unknown
  else if config.literalArrays && items.all (fun item => item.literal?.isSome) && uniform types
  then .array (widenAll types) items.length
  else .list (widenAll types).owned

/-- A dict display. Keys are strings; values of more than one known shape are held
as strings, so that one kind of map serves them all. -/
def dictDisplay (values : List Ty) : Ty :=
  if uniform (values.filter fun type => !type.isUnknown) then .dict text (widenAll values).owned
  else .dict text text

end Ty

end NativeTyping

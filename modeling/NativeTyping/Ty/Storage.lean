import NativeTyping.Ty.Widen
/-!
How values of a type are iterated over, kept and handed around.
-/

namespace NativeTyping

namespace Ty

def iterElement : Ty → Ty
  | .list element => element
  | .set element => element
  | .array element _ => element
  | .dict key _ => key
  | .tuple elements => widenAll elements
  | .str _ => .str .slice
  | .library .file => text
  | .library .dbCursor => .library .dbRow
  | _ => .unknown

/-! ## Storage form

A value that outlives the expression that made it owns its strings: literal and
borrowed strings become runtime strings at every depth of its containers.
-/

mutual

def owned : Ty → Ty
  | .str _ => text
  | .array element length => .array element.owned length
  | .list element => .list element.owned
  | .set element => .set element.owned
  | .dict key value => .dict key.owned value.owned
  | .tuple elements => .tuple (ownedEach elements)
  | .optional inner => .optional inner.owned
  | other => other
termination_by structural type => type

def ownedEach : List Ty → List Ty
  | [] => []
  | type :: rest => type.owned :: ownedEach rest
termination_by structural types => types

end

@[simp] theorem ownedEach_eq_map (types : List Ty) : ownedEach types = types.map owned := by
  induction types with
  | nil => rfl
  | cons type rest induction => simp [ownedEach, induction]

mutual

theorem owned_owned (type : Ty) : type.owned.owned = type.owned := by
  cases type with
  | array element length | list element | set element | optional element =>
      simp only [owned, owned_owned element]
  | dict key value => simp only [owned, owned_owned key, owned_owned value]
  | tuple elements => simp only [owned, ownedEach_ownedEach elements]
  | _ => rfl

theorem ownedEach_ownedEach (types : List Ty) :
    ownedEach (ownedEach types) = ownedEach types := by
  cases types with
  | nil => rfl
  | cons type rest => simp only [ownedEach, owned_owned type, ownedEach_ownedEach rest]

end

/-! ## Calling conventions -/

/-- Whether a generated function that handles this type takes an allocator. A
closure carries no result type, so it counts as needing one. -/
def needsAllocator : Ty → Bool
  | .function _ result => result.needsAllocator
  | .optional inner => inner.needsAllocator
  | .int | .index | .float | .bool | .none | .library _ => false
  | _ => true

/-- Whether making a value of this type can fail, so that a function returning
one carries an error channel. -/
def canFail : Ty → Bool
  | .str _ | .bigInt | .object _ | .unknown => true
  | .optional inner => inner.canFail
  | other => other.isContainer

def promoteArray : Ty → Ty
  | .array element _ => .list element
  | other => other

def isArray : Ty → Bool
  | .array _ _ => true
  | _ => false

end Ty

end NativeTyping

import NativeTyping.Ty.Basic
/-!
Merging types: `widen` gives the type that represents the values of both its
arguments, wherever two control-flow paths must agree on one representation.

* `unknown` adds nothing to the other type.
* A string absorbs everything else; strings held in different ways meet at the
  runtime string.
* Numbers are promoted along index, int, big int, float.
* `none` makes the other type optional, and an optional merges inside.
* Containers of one kind merge element by element; a fixed array that meets a
  list or an array of another length becomes a list.
* Different function-like values meet at the erased callable.
* Any other two types that differ have no common representation: `unknown`.
-/

namespace NativeTyping

namespace Ty

def numericRank : Ty → Option Nat
  | .index => some 0
  | .int => some 1
  | .bigInt => some 2
  | .float => some 3
  | _ => Option.none

def widenLeaf (left right : Ty) : Ty :=
  match left.numericRank, right.numericRank with
  | some leftRank, some rightRank => if leftRank ≤ rightRank then right else left
  | _, _ =>
      if left = right then left
      else if left.isFunctionLike && right.isFunctionLike then .callable
      else .unknown

/-- Merges `self` with another type, where `merge` says what happens to a type
that has no rule of its own against every `self`. -/
def settle (self : Ty) (merge : Ty → Ty) : Ty → Ty
  | .unknown => self
  | .str _ => text
  | .none => .optional self
  | .optional inner => .optional (settle self merge inner)
  | other => merge other

mutual

def widen : Ty → Ty → Ty
  | .unknown, other => other
  | .str kind, other =>
      match other with
      | .unknown => .str kind
      | .str otherKind => if kind = otherKind then .str kind else text
      | _ => text
  | .none, other =>
      match other with
      | .unknown => .none
      | .str _ => text
      | .none => .none
      | .optional inner => .optional inner
      | plain => .optional plain
  | .optional inner, other =>
      match other with
      | .unknown => .optional inner
      | .str _ => text
      | .none => .optional inner
      | .optional otherInner => .optional (widen inner otherInner)
      | plain => .optional (widen inner plain)
  | .array element length, other =>
      settle (.array element length) (fun
        | .array otherElement otherLength =>
            if length = otherLength then .array (widen element otherElement) length
            else .list (widen element otherElement)
        | .list otherElement => .list (widen element otherElement)
        | _ => .unknown) other
  | .list element, other =>
      settle (.list element) (fun
        | .list otherElement => .list (widen element otherElement)
        | .array otherElement _ => .list (widen element otherElement)
        | _ => .unknown) other
  | .dict key value, other =>
      settle (.dict key value) (fun
        | .dict otherKey otherValue => .dict (widen key otherKey) (widen value otherValue)
        | _ => .unknown) other
  | .set element, other =>
      settle (.set element) (fun
        | .set otherElement => .set (widen element otherElement)
        | _ => .unknown) other
  | .tuple elements, other =>
      settle (.tuple elements) (fun
        | .tuple otherElements =>
            if elements.length = otherElements.length then
              .tuple (widenEach elements otherElements)
            else .unknown
        | _ => .unknown) other
  | leaf, other => settle leaf (widenLeaf leaf) other
termination_by structural left => left

def widenEach : List Ty → List Ty → List Ty
  | left :: lefts, right :: rights => widen left right :: widenEach lefts rights
  | _, _ => []
termination_by structural lefts => lefts

end

def widenAll (types : List Ty) : Ty :=
  types.foldl widen .unknown

/-- The number a value counts as in arithmetic: booleans count as integers. -/
def asNumber? : Ty → Option Ty
  | .bool => some .int
  | other => if other.isNumeric then some other else Option.none

def promote? (left right : Ty) : Option Ty := do
  let leftNumber ← left.asNumber?
  let rightNumber ← right.asNumber?
  return widen leftNumber rightNumber

end Ty

end NativeTyping

import Mathlib.Data.List.Forall2
import NativeTyping.Ty.Widen
/-!
How `Ty.widen` works on the shapes of its arguments.

Text, `none`, optionals and unknown types have their own rules against every type.
The other types are plain: two of them merge part by part if they are containers of one
kind, and otherwise as leaves. `Ty.merge_induction` follows these cases through both
arguments at once.
-/

namespace NativeTyping

namespace Ty

/-- Whether a type has no rule that holds against every type. -/
def isPlain : Ty → Bool
  | .unknown | .str _ | .none | .optional _ => false
  | _ => true

def alike : Ty → Ty → Bool
  | .array _ _, .array _ _ | .array _ _, .list _ | .list _, .array _ _ | .list _, .list _ => true
  | .dict _ _, .dict _ _ | .set _, .set _ => true
  | .tuple lefts, .tuple rights => lefts.length == rights.length
  | _, _ => false

theorem alike_self {type : Ty} (container : type.isContainer = true) :
    type.alike type = true := by
  cases type with
  | tuple elements => exact beq_self_eq_true elements.length
  | array _ _ | list _ | dict _ _ | set _ => rfl
  | _ => cases container

/-! ## Conflicts -/

def mergeableLeaf (left right : Ty) : Bool :=
  (left.numericRank.isSome && right.numericRank.isSome) || left = right ||
    (left.isFunctionLike && right.isFunctionLike)

/-- Whether merging with some type finds a common representation, where `merge` says so
for a type that has no rule of its own. -/
def settles (merge : Ty → Bool) : Ty → Bool
  | .unknown | .str _ | .none => true
  | .optional inner => settles merge inner
  | other => merge other

mutual

/-- Whether merging two types finds a common representation wherever their parts meet,
and nowhere gives `unknown` for two types that differ. -/
def mergeable : Ty → Ty → Bool
  | .unknown, _ | .str _, _ | .none, _ => true
  | .optional inner, other =>
      match other with
      | .unknown | .str _ | .none => true
      | .optional otherInner => mergeable inner otherInner
      | plain => mergeable inner plain
  | .array element _, other =>
      settles (fun
        | .array otherElement _ | .list otherElement => mergeable element otherElement
        | _ => false) other
  | .list element, other =>
      settles (fun
        | .array otherElement _ | .list otherElement => mergeable element otherElement
        | _ => false) other
  | .dict key value, other =>
      settles (fun
        | .dict otherKey otherValue => mergeable key otherKey && mergeable value otherValue
        | _ => false) other
  | .set element, other =>
      settles (fun
        | .set otherElement => mergeable element otherElement
        | _ => false) other
  | .tuple elements, other =>
      settles (fun
        | .tuple otherElements =>
            elements.length == otherElements.length && mergeableEach elements otherElements
        | _ => false) other
  | leaf, other => settles (mergeableLeaf leaf) other
termination_by structural left => left

def mergeableEach : List Ty → List Ty → Bool
  | left :: lefts, right :: rights => mergeable left right && mergeableEach lefts rights
  | _, _ => true
termination_by structural lefts => lefts

end

/-! ## Rules by shape -/

@[simp] theorem unknown_widen (right : Ty) : widen .unknown right = right := rfl

@[simp] theorem widen_unknown (left : Ty) : widen left .unknown = left := by
  cases left <;> rfl

theorem str_widen (kind : StringKind) (right : Ty) :
    widen (.str kind) right =
      if right = .unknown ∨ right = .str kind then .str kind else text := by
  cases right with
  | str otherKind => simp [widen, eq_comm]
  | _ => simp [widen]

theorem widen_str (left : Ty) (kind : StringKind) :
    widen left (.str kind) =
      if left = .unknown ∨ left = .str kind then .str kind else text := by
  cases left with
  | str otherKind =>
      simp only [widen]
      split <;> simp_all
  | _ => simp [widen, settle]

@[simp] theorem text_widen (right : Ty) : widen text right = text := by
  rw [text, str_widen, text, ite_self]

@[simp] theorem none_widen_none : widen .none .none = .none := rfl

@[simp] theorem none_widen_optional (inner : Ty) :
    widen .none (.optional inner) = .optional inner := rfl

@[simp] theorem optional_widen_none (inner : Ty) :
    widen (.optional inner) .none = .optional inner := rfl

@[simp] theorem optional_widen_optional (left right : Ty) :
    widen (.optional left) (.optional right) = .optional (widen left right) := rfl

theorem none_widen_plain {right : Ty} (plain : right.isPlain = true) :
    widen .none right = .optional right := by
  cases right <;> first | rfl | cases plain

theorem plain_widen_none {left : Ty} (plain : left.isPlain = true) :
    widen left .none = .optional left := by
  cases left <;> first | rfl | cases plain

theorem optional_widen_plain (inner : Ty) {right : Ty} (plain : right.isPlain = true) :
    widen (.optional inner) right = .optional (widen inner right) := by
  cases right <;> first | rfl | cases plain

theorem plain_widen_optional {left : Ty} (plain : left.isPlain = true) (inner : Ty) :
    widen left (.optional inner) = .optional (widen left inner) := by
  cases left <;> first | rfl | cases plain

private theorem settle_plain (self : Ty) (merge : Ty → Ty) {other : Ty}
    (plain : other.isPlain = true) :
    settle self merge other = merge other := by
  cases other <;> first | rfl | cases plain

/-- Plain types that are not alike containers merge as leaves. -/
theorem widen_eq_widenLeaf {left right : Ty} (plainLeft : left.isPlain = true)
    (plainRight : right.isPlain = true) (apart : left.alike right = false) :
    widen left right = widenLeaf left right := by
  cases left with
  | unknown | str _ | none | optional _ => cases plainLeft
  | tuple lefts =>
      rw [widen, settle_plain _ _ plainRight]
      cases right with
      | tuple rights =>
          have lengths : lefts.length ≠ rights.length := by simpa [alike] using apart
          have different : lefts ≠ rights := fun equal => lengths (congrArg _ equal)
          simp [widenLeaf, numericRank, isFunctionLike, lengths, different]
      | _ => rfl
  | array _ _ | list _ | dict _ _ | set _ =>
      rw [widen, settle_plain _ _ plainRight]
      cases right <;> first | rfl | cases apart
  | _ => exact settle_plain _ _ plainRight

/-! ## Where `none` comes from -/

private theorem widenLeaf_ne_none {left right : Ty} (some : left ≠ .none) (more : right ≠ .none) :
    widenLeaf left right ≠ .none := by
  rw [widenLeaf]
  split
  · split
    · exact more
    · exact some
  · split
    · exact some
    · split <;> nofun

private theorem settle_ne_none {self other : Ty} {merge : Ty → Ty} (some : self ≠ .none)
    (merged : merge other ≠ .none) : settle self merge other ≠ .none := by
  cases other with
  | unknown => exact some
  | str _ | none | optional _ => nofun
  | _ => exact merged

private theorem widen_ne_none {left right : Ty} (some : left ≠ .none) (more : right ≠ .none) :
    widen left right ≠ .none := by
  cases left with
  | unknown => exact more
  | none => exact absurd rfl some
  | str kind =>
      rw [str_widen]
      split <;> nofun
  | optional inner => cases right <;> nofun
  | array _ _ | tuple _ =>
      apply settle_ne_none some
      split
      · split <;> nofun
      all_goals nofun
  | list _ | dict _ _ | set _ =>
      apply settle_ne_none some
      split <;> nofun
  | _ => exact settle_ne_none some (widenLeaf_ne_none some more)

theorem widenAll_ne_none {types : List Ty} (kept : Ty.none ∉ types) : widenAll types ≠ .none := by
  suffices folded : ∀ start : Ty, start ≠ .none → types.foldl widen start ≠ .none from
    folded .unknown nofun
  induction types with
  | nil => exact fun _ some => some
  | cons type rest induction =>
      rw [List.mem_cons, not_or] at kept
      intro start some
      exact induction kept.2 _ (widen_ne_none some (Ne.symm kept.1))

/-! ## Conflicts by shape -/

@[simp] theorem mergeable_unknown (left : Ty) : mergeable left .unknown = true := by
  cases left <;> rfl

@[simp] theorem mergeable_str (left : Ty) (kind : StringKind) :
    mergeable left (.str kind) = true := by
  cases left <;> rfl

@[simp] theorem mergeable_none (left : Ty) : mergeable left .none = true := by
  cases left <;> rfl

@[simp] theorem optional_mergeable_optional (left right : Ty) :
    mergeable (.optional left) (.optional right) = mergeable left right := rfl

theorem optional_mergeable_plain (inner : Ty) {right : Ty} (plain : right.isPlain = true) :
    mergeable (.optional inner) right = mergeable inner right := by
  cases right <;> first | rfl | cases plain

theorem plain_mergeable_optional {left : Ty} (plain : left.isPlain = true) (inner : Ty) :
    mergeable left (.optional inner) = mergeable left inner := by
  cases left <;> first | rfl | cases plain

private theorem settles_plain (merge : Ty → Bool) {other : Ty} (plain : other.isPlain = true) :
    settles merge other = merge other := by
  cases other <;> first | rfl | cases plain

theorem mergeable_eq_mergeableLeaf {left right : Ty} (plainLeft : left.isPlain = true)
    (plainRight : right.isPlain = true) (apart : left.alike right = false) :
    mergeable left right = mergeableLeaf left right := by
  cases left with
  | unknown | str _ | none | optional _ => cases plainLeft
  | tuple lefts =>
      rw [mergeable, settles_plain _ plainRight]
      cases right with
      | tuple rights =>
          have lengths : lefts.length ≠ rights.length := by simpa [alike] using apart
          have different : lefts ≠ rights := fun equal => lengths (congrArg _ equal)
          simp [mergeableLeaf, numericRank, isFunctionLike, lengths, different]
      | _ => rfl
  | array _ _ | list _ | dict _ _ | set _ =>
      rw [mergeable, settles_plain _ plainRight]
      cases right <;> first | rfl | cases apart
  | _ => exact settles_plain _ plainRight

/-! ## Induction on two types -/

/-- Goes through two types at once, the way that merging does. -/
@[elab_as_elim]
theorem merge_induction {motive : Ty → Ty → Prop}
    (unknownLeft : ∀ right, motive .unknown right)
    (unknownRight : ∀ left, motive left .unknown)
    (strLeft : ∀ kind right, motive (.str kind) right)
    (strRight : ∀ left kind, motive left (.str kind))
    (noneLeft : ∀ right, motive .none right)
    (noneRight : ∀ left, motive left .none)
    (optionals : ∀ left right, motive left right → motive (.optional left) (.optional right))
    (optionalLeft : ∀ left right, right.isPlain = true → motive left right →
      motive (.optional left) right)
    (optionalRight : ∀ left right, left.isPlain = true → motive left right →
      motive left (.optional right))
    (arrays : ∀ left leftLength right rightLength, motive left right →
      motive (.array left leftLength) (.array right rightLength))
    (arrayList : ∀ left length right, motive left right →
      motive (.array left length) (.list right))
    (listArray : ∀ left right length, motive left right →
      motive (.list left) (.array right length))
    (lists : ∀ left right, motive left right → motive (.list left) (.list right))
    (dicts : ∀ leftKey leftValue rightKey rightValue, motive leftKey rightKey →
      motive leftValue rightValue → motive (.dict leftKey leftValue) (.dict rightKey rightValue))
    (sets : ∀ left right, motive left right → motive (.set left) (.set right))
    (tuples : ∀ lefts rights, List.Forall₂ motive lefts rights →
      motive (.tuple lefts) (.tuple rights))
    (apart : ∀ left right, left.isPlain = true → right.isPlain = true →
      left.alike right = false → motive left right)
    (left right : Ty) : motive left right := by
  -- Every case leads to smaller types, on one side or on both.
  induction measured : sizeOf left + sizeOf right using Nat.strongRecOn
    generalizing left right with
  | _ size induction =>
  subst measured
  cases plainLeft : left.isPlain with
  | false =>
      cases left with
      | unknown => exact unknownLeft right
      | str kind => exact strLeft kind right
      | none => exact noneLeft right
      | optional inner =>
          cases right with
          | unknown => exact unknownRight _
          | str kind => exact strRight _ kind
          | none => exact noneRight _
          | optional otherInner =>
              exact optionals _ _ (induction _ (by simp; omega) _ _ rfl)
          | _ => exact optionalLeft _ _ rfl (induction _ (by simp) _ _ rfl)
      | _ => cases plainLeft
  | true =>
      cases plainRight : right.isPlain with
      | false =>
          cases right with
          | unknown => exact unknownRight _
          | str kind => exact strRight _ kind
          | none => exact noneRight _
          | optional inner =>
              exact optionalRight _ _ plainLeft (induction _ (by simp) _ _ rfl)
          | _ => cases plainRight
      | true =>
          cases similar : left.alike right with
          | false => exact apart _ _ plainLeft plainRight similar
          | true =>
              cases left with
              | array left leftLength =>
                  cases right with
                  | array right rightLength =>
                      exact arrays _ _ _ _ (induction _ (by simp; omega) _ _ rfl)
                  | list right => exact arrayList _ _ _ (induction _ (by simp; omega) _ _ rfl)
                  | _ => cases similar
              | list left =>
                  cases right with
                  | array right length =>
                      exact listArray _ _ _ (induction _ (by simp; omega) _ _ rfl)
                  | list right => exact lists _ _ (induction _ (by simp; omega) _ _ rfl)
                  | _ => cases similar
              | dict leftKey leftValue =>
                  cases right with
                  | dict rightKey rightValue =>
                      exact dicts _ _ _ _ (induction _ (by simp; omega) _ _ rfl)
                        (induction _ (by simp; omega) _ _ rfl)
                  | _ => cases similar
              | set left =>
                  cases right with
                  | set right => exact sets _ _ (induction _ (by simp; omega) _ _ rfl)
                  | _ => cases similar
              | tuple lefts =>
                  cases right with
                  | tuple rights =>
                      apply tuples
                      apply List.forall₂_iff_zip.mpr
                      refine ⟨by simpa [alike] using similar, ?_⟩
                      intro left right paired
                      have members := List.of_mem_zip paired
                      have leftSmaller := List.sizeOf_lt_of_mem members.1
                      have rightSmaller := List.sizeOf_lt_of_mem members.2
                      exact induction _ (by simp; omega) _ _ rfl
                  | _ => cases similar
              | _ => cases right <;> cases similar

end Ty

end NativeTyping

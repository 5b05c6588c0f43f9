import NativeTyping.Proofs.Widening
import NativeTyping.Ty.Render
import NativeTyping.Ty.Storage
/-!
The storage form of a type against merging and spelling.

Storage only makes strings runtime strings, and it keeps the shape of every type. So the
rule by which two types merge is the rule by which their storage forms merge, and it does
not matter whether values are stored before or after they are merged. Generated code has
one name for all strings, so it does not see storage at all.
-/

namespace NativeTyping

namespace Ty

/-! ## What storage keeps -/

@[simp] theorem isPlain_owned (type : Ty) : type.owned.isPlain = type.isPlain := by
  cases type <;> rfl

@[simp] theorem isContainer_owned (type : Ty) : type.owned.isContainer = type.isContainer := by
  cases type <;> rfl

@[simp] theorem isString_owned (type : Ty) : type.owned.isString = type.isString := by
  cases type <;> rfl

@[simp] theorem isFunctionLike_owned (type : Ty) :
    type.owned.isFunctionLike = type.isFunctionLike := by
  cases type <;> rfl

@[simp] theorem numericRank_owned (type : Ty) : type.owned.numericRank = type.numericRank := by
  cases type <;> rfl

@[simp] theorem alike_owned (left right : Ty) :
    left.owned.alike right.owned = left.alike right := by
  cases left with
  | tuple lefts => cases right <;> simp [alike, owned, text]
  | _ => cases right <;> rfl

private theorem owned_of_isContainer_eq_false {type : Ty} (plain : type.isPlain = true)
    (single : type.isContainer = false) : type.owned = type := by
  cases type with
  | str _ | optional _ => cases plain
  | array _ _ | list _ | dict _ _ | set _ | tuple _ => cases single
  | _ => rfl

/-! ## Merging -/

/-- Plain types that do not merge part by part are told apart by their storage forms. -/
theorem eq_of_owned_eq {left right : Ty} (plainLeft : left.isPlain = true)
    (plainRight : right.isPlain = true) (apart : left.alike right = false)
    (same : left.owned = right.owned) : left = right := by
  have containers : left.isContainer = right.isContainer := by
    rw [← isContainer_owned left, same, isContainer_owned]
  cases container : left.isContainer with
  | true =>
      have similar : left.alike right = true := by
        rw [← alike_owned, ← same, alike_self (by rw [isContainer_owned, container])]
      rw [similar] at apart
      cases apart
  | false =>
      rw [← owned_of_isContainer_eq_false plainLeft container, same,
        owned_of_isContainer_eq_false plainRight (containers ▸ container)]

private theorem owned_widenLeaf {left right : Ty} (plainLeft : left.isPlain = true)
    (plainRight : right.isPlain = true) (apart : left.alike right = false) :
    (widenLeaf left right).owned = widenLeaf left.owned right.owned := by
  have same : left.owned = right.owned ↔ left = right :=
    ⟨eq_of_owned_eq plainLeft plainRight apart, fun equal => equal ▸ rfl⟩
  simp only [widenLeaf, numericRank_owned, isFunctionLike_owned, same]
  split
  · exact apply_ite owned _ _ _
  · rw [apply_ite owned, apply_ite owned]
    rfl

private theorem ownedEach_widenEach {lefts rights : List Ty}
    (each : List.Forall₂ (fun left right => (widen left right).owned =
      widen left.owned right.owned) lefts rights) :
    ownedEach (widenEach lefts rights) = widenEach (ownedEach lefts) (ownedEach rights) := by
  induction each with
  | nil => rfl
  | cons first _ induction => simp only [widenEach, ownedEach, first, induction]

private theorem owned_widen (left right : Ty) :
    (widen left right).owned = widen left.owned right.owned := by
  induction left, right using merge_induction with
  | unknownLeft right => rfl
  | unknownRight left =>
      rw [widen_unknown]
      exact (widen_unknown _).symm
  | strLeft kind right =>
      rw [str_widen, apply_ite owned, owned, text_widen]
      exact ite_self _
  | strRight left kind =>
      rw [widen_str, owned, text, widen_str, apply_ite owned, text, ite_self]
      exact ite_self _
  | noneLeft right => cases right <;> rfl
  | noneRight left => cases left <;> rfl
  | optionals left right induction => simp only [optional_widen_optional, owned, induction]
  | optionalLeft left right plain induction =>
      rw [optional_widen_plain left plain, owned, induction, owned,
        optional_widen_plain _ (by rw [isPlain_owned, plain])]
  | optionalRight left right plain induction =>
      rw [plain_widen_optional plain, owned, induction, owned,
        plain_widen_optional (by rw [isPlain_owned, plain])]
  | arrays left leftLength right rightLength induction =>
      simp only [widen, settle, owned]
      split <;> simp only [owned, induction]
  | arrayList left length right induction => simp only [widen, settle, owned, induction]
  | listArray left right length induction => simp only [widen, settle, owned, induction]
  | lists left right induction => simp only [widen, settle, owned, induction]
  | dicts leftKey leftValue rightKey rightValue keys values =>
      simp only [widen, settle, owned, keys, values]
  | sets left right induction => simp only [widen, settle, owned, induction]
  | tuples lefts rights each =>
      simp only [widen, settle, owned, each.length_eq, ownedEach_eq_map, List.length_map, if_true]
      rw [← ownedEach_eq_map, ownedEach_widenEach each, ownedEach_eq_map, ownedEach_eq_map]
  | apart left right plainLeft plainRight apart =>
      rw [widen_eq_widenLeaf plainLeft plainRight apart,
        owned_widenLeaf plainLeft plainRight apart, widen_eq_widenLeaf]
      · rw [isPlain_owned, plainLeft]
      · rw [isPlain_owned, plainRight]
      · rw [alike_owned, apart]

/-! ## Spelling -/

mutual

private theorem nativeName_owned (type : Ty) : type.owned.nativeName = type.nativeName := by
  cases type with
  | str kind => rfl
  | array element length | list element | optional element =>
      simp only [owned, nativeName, nativeName_owned element]
  | set element => simp only [owned, nativeName, isString_owned, nativeName_owned element]
  | dict key value =>
      simp only [owned, nativeName, isString_owned, nativeName_owned key, nativeName_owned value]
  | tuple elements => simp only [owned, nativeName, nativeNames_ownedEach elements]
  | _ => rfl

private theorem nativeNames_ownedEach (types : List Ty) :
    nativeNames (ownedEach types) = nativeNames types := by
  cases types with
  | nil => rfl
  | cons type rest =>
      simp only [ownedEach, nativeNames, nativeName_owned type, nativeNames_ownedEach rest]

end

/-- Storing merged values is merging stored values, storing twice is storing once, and
generated code calls a type and its storage form by one name. -/
theorem owned_merges_unseen (left right : Ty) :
    (widen left right).owned = widen left.owned right.owned ∧
    left.owned.owned = left.owned ∧
    left.owned.nativeName = left.nativeName :=
  ⟨owned_widen left right, owned_owned left, nativeName_owned left⟩

end Ty

end NativeTyping

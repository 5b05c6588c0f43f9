import Mathlib.Data.List.Induction
import NativeTyping.Proofs.Widening
/-!
When a merged type covers what was merged into it.

A type covers another if merging the other into it changes nothing. Covering is a
preorder, and a merge covers both sides exactly if it meets no conflict. A conflict
leaves `unknown`, which takes on whatever is merged next: so a sequence covers its
members as long as no merge of it meets a conflict.
-/

namespace NativeTyping

namespace Ty

/-- Merging the second type into the first changes nothing. -/
def Covers (general special : Ty) : Prop :=
  widen general special = general

mutual

@[simp] theorem widen_self (type : Ty) : widen type type = type := by
  cases type with
  | str kind => simp [widen]
  | array element length => simp [widen, settle, widen_self element]
  | list element => simp [widen, settle, widen_self element]
  | dict key value => simp [widen, settle, widen_self key, widen_self value]
  | set element => simp [widen, settle, widen_self element]
  | tuple elements => simp [widen, settle, widenEach_self elements]
  | optional inner => simp [widen_self inner]
  | none | unknown => rfl
  | _ => simp [widen, settle, widenLeaf, numericRank]

@[simp] theorem widenEach_self (types : List Ty) : widenEach types types = types := by
  cases types with
  | nil => rfl
  | cons type rest => simp [widenEach, widen_self type, widenEach_self rest]

end

namespace Covers

theorem refl (type : Ty) : Covers type type :=
  widen_self type

theorem unknown (general : Ty) : Covers general .unknown :=
  widen_unknown general

theorem text (special : Ty) : Covers text special :=
  text_widen special

end Covers

/-! ## What each type covers -/

theorem unknown_covers_iff {special : Ty} : Covers .unknown special ↔ special = .unknown := by
  rw [Covers, unknown_widen]

theorem str_covers_iff {kind : StringKind} {special : Ty} :
    Covers (.str kind) special ↔
      special = .unknown ∨ special = .str kind ∨ .str kind = text := by
  rw [Covers, str_widen, ← or_assoc]
  split
  · rename_i same
    exact iff_of_true rfl (.inl same)
  · simp_all [eq_comm]

theorem covers_str_iff {general : Ty} {kind : StringKind} :
    Covers general (.str kind) ↔ general = .str kind ∨ general = text := by
  rw [Covers, widen_str]
  split
  · rename_i same
    rcases same with rfl | rfl <;> simp [text]
  · simp_all [eq_comm]

theorem none_covers_iff {special : Ty} :
    Covers .none special ↔ special = .unknown ∨ special = .none := by
  cases special <;> simp [Covers, widen, text]

private theorem optional_covers_iff {inner special : Ty} :
    Covers (.optional inner) special ↔
      special = .unknown ∨ special = .none ∨ (∃ other, special = .optional other ∧
        Covers inner other) ∨ (special.isPlain = true ∧ Covers inner special) := by
  cases special <;> simp [Covers, widen, text, isPlain]

theorem array_covers_iff {element special : Ty} {length : Nat} :
    Covers (.array element length) special ↔
      special = .unknown ∨ ∃ other, special = .array other length ∧ Covers element other := by
  cases special with
  | array other otherLength =>
      by_cases same : length = otherLength <;>
        simp [Covers, widen, settle, same, eq_comm]
  | _ => simp [Covers, widen, settle, text]

theorem list_covers_iff {element special : Ty} :
    Covers (.list element) special ↔
      special = .unknown ∨ (∃ other, special = .list other ∧ Covers element other) ∨
        ∃ other length, special = .array other length ∧ Covers element other := by
  cases special <;> simp [Covers, widen, settle, text]

theorem dict_covers_iff {key value special : Ty} :
    Covers (.dict key value) special ↔
      special = .unknown ∨ ∃ otherKey otherValue, special = .dict otherKey otherValue ∧
        Covers key otherKey ∧ Covers value otherValue := by
  cases special <;> simp [Covers, widen, settle, text]

theorem set_covers_iff {element special : Ty} :
    Covers (.set element) special ↔
      special = .unknown ∨ ∃ other, special = .set other ∧ Covers element other := by
  cases special <;> simp [Covers, widen, settle, text]

private theorem forall₂_covers_iff {generals specials : List Ty} :
    List.Forall₂ Covers generals specials ↔
      generals.length = specials.length ∧ widenEach generals specials = generals := by
  induction generals generalizing specials with
  | nil => cases specials <;> simp [widenEach]
  | cons general rest induction =>
      cases specials with
      | nil => simp
      | cons special others => simp [widenEach, induction, Covers, and_left_comm]

theorem tuple_covers_iff {elements : List Ty} {special : Ty} :
    Covers (.tuple elements) special ↔
      special = .unknown ∨ ∃ others, special = .tuple others ∧
        List.Forall₂ Covers elements others := by
  simp only [forall₂_covers_iff]
  cases special with
  | tuple others =>
      by_cases same : elements.length = others.length <;> simp [Covers, widen, settle, same]
  | _ => simp [Covers, widen, settle, text]

private theorem eq_unknown_or_isPlain {general special : Ty} (plain : general.isPlain = true)
    (covers : Covers general special) : special = .unknown ∨ special.isPlain = true := by
  cases special with
  | unknown => exact .inl rfl
  | str kind =>
      rcases covers_str_iff.mp covers with rfl | rfl <;> cases plain
  | none =>
      rw [Covers, plain_widen_none plain] at covers
      rw [← covers] at plain
      cases plain
  | optional inner =>
      rw [Covers, plain_widen_optional plain] at covers
      rw [← covers] at plain
      cases plain
  | _ => exact .inr rfl

/-! ## Leaves -/

theorem numericRank_injective {left right : Ty} {rank : Nat}
    (leftRank : left.numericRank = some rank) (rightRank : right.numericRank = some rank) :
    left = right := by
  have placed : ∀ {type : Ty}, type.numericRank = some rank →
      [.index, .int, .bigInt, .float][rank]? = some type := by
    intro type ranked
    cases type <;> cases ranked <;> rfl
  exact Option.some.inj ((placed leftRank).symm.trans (placed rightRank))

theorem widenLeaf_cases (left right : Ty) :
    (∃ leftRank rightRank, left.numericRank = some leftRank ∧
      right.numericRank = some rightRank ∧
      widenLeaf left right = if leftRank ≤ rightRank then right else left) ∨
    (left = right ∧ widenLeaf left right = left) ∨
    (left.isFunctionLike = true ∧ right.isFunctionLike = true ∧
      widenLeaf left right = .callable) ∨
    (mergeableLeaf left right = false ∧ widenLeaf left right = .unknown) := by
  rw [widenLeaf]
  cases leftRanked : left.numericRank with
  | some leftRank =>
      cases rightRanked : right.numericRank with
      | some rightRank => exact .inl ⟨leftRank, rightRank, rfl, rfl, rfl⟩
      | none => by_cases same : left = right <;> simp_all [mergeableLeaf]
  | none => by_cases same : left = right <;> simp_all [mergeableLeaf]

theorem leaf_of_numericRank {type : Ty} {rank : Nat} (ranked : type.numericRank = some rank) :
    type.isPlain = true ∧ type.isContainer = false := by
  cases type <;> first | exact ⟨rfl, rfl⟩ | cases ranked

theorem leaf_of_isFunctionLike {type : Ty} (functions : type.isFunctionLike = true) :
    type.isContainer = false ∧ type.numericRank = Option.none := by
  cases type <;> first | exact ⟨rfl, rfl⟩ | cases functions

theorem alike_eq_false {left : Ty} (leaf : left.isContainer = false) (right : Ty) :
    left.alike right = false := by
  cases left <;> first | rfl | cases leaf

private theorem covers_of_numericRank {general special : Ty} {top bottom : Nat}
    (topRank : general.numericRank = some top) (bottomRank : special.numericRank = some bottom)
    (ordered : bottom ≤ top) : Covers general special := by
  have generalLeaf := leaf_of_numericRank topRank
  have specialLeaf := leaf_of_numericRank bottomRank
  by_cases reversed : top ≤ bottom
  · cases Nat.le_antisymm reversed ordered
    cases numericRank_injective topRank bottomRank
    exact .refl general
  · rw [Covers, widen_eq_widenLeaf generalLeaf.1 specialLeaf.1
      (alike_eq_false generalLeaf.2 special), widenLeaf, topRank, bottomRank]
    exact if_neg reversed

private theorem callable_covers {special : Ty} (functions : special.isFunctionLike = true) :
    Covers .callable special := by
  cases special <;> first | rfl | cases functions

theorem covers_apart_cases {general special : Ty} (plainGeneral : general.isPlain = true)
    (plainSpecial : special.isPlain = true) (apart : general.alike special = false)
    (covers : Covers general special) :
    general = special ∨ (general = .callable ∧ special.isFunctionLike = true) ∨
      ∃ top bottom, general.numericRank = some top ∧ special.numericRank = some bottom ∧
        bottom ≤ top := by
  rw [Covers, widen_eq_widenLeaf plainGeneral plainSpecial apart] at covers
  rcases widenLeaf_cases general special with ⟨top, bottom, topRank, bottomRank, merged⟩ |
    ⟨same, _⟩ | ⟨_, functions, merged⟩ | ⟨_, merged⟩
  · rw [merged] at covers
    by_cases reversed : top ≤ bottom
    · rw [if_pos reversed] at covers
      exact .inl covers.symm
    · exact .inr (.inr ⟨top, bottom, topRank, bottomRank, by omega⟩)
  · exact .inl same
  · exact .inr (.inl ⟨covers.symm.trans merged, functions⟩)
  · rw [← covers, merged] at plainGeneral
    cases plainGeneral

/-! ## Covering is transitive -/

private theorem forall₂_covers_trans {generals middles specials : List Ty}
    (each : List.Forall₂ (fun general middle => ∀ {special}, Covers general middle →
      Covers middle special → Covers general special) generals middles)
    (upper : List.Forall₂ Covers generals middles)
    (lower : List.Forall₂ Covers middles specials) :
    List.Forall₂ Covers generals specials := by
  induction each generalizing specials with
  | nil =>
      cases lower
      exact .nil
  | cons induction _ restInduction =>
      cases upper with
      | cons first others =>
          cases lower with
          | cons firstLower othersLower =>
              exact .cons (induction first firstLower) (restInduction others othersLower)

theorem covers_trans {general middle special : Ty} (upper : Covers general middle)
    (lower : Covers middle special) : Covers general special := by
  induction general, middle using merge_induction generalizing special with
  | unknownLeft middle =>
      rw [unknown_covers_iff] at upper
      exact upper ▸ lower
  | unknownRight general =>
      rw [unknown_covers_iff] at lower
      exact lower ▸ .unknown general
  | strLeft kind middle =>
      rcases str_covers_iff.mp upper with rfl | rfl | isText
      · rw [unknown_covers_iff] at lower
        exact lower ▸ .unknown _
      · exact lower
      · exact isText ▸ .text special
  | strRight general kind =>
      rcases covers_str_iff.mp upper with rfl | rfl
      · exact lower
      · exact .text special
  | noneLeft middle =>
      rcases none_covers_iff.mp upper with rfl | rfl
      · rw [unknown_covers_iff] at lower
        exact lower ▸ .unknown _
      · exact lower
  | noneRight general =>
      rcases none_covers_iff.mp lower with rfl | rfl
      · exact .unknown general
      · exact upper
  | optionals inner other induction =>
      have innerCovers : Covers inner other := by simpa [Covers] using upper
      apply optional_covers_iff.mpr
      rcases optional_covers_iff.mp lower with absent | isNone | ⟨third, rfl, covers⟩ |
        ⟨plain, covers⟩
      · exact .inl absent
      · exact .inr (.inl isNone)
      · exact .inr (.inr (.inl ⟨third, rfl, induction innerCovers covers⟩))
      · exact .inr (.inr (.inr ⟨plain, induction innerCovers covers⟩))
  | optionalLeft inner middle plain induction =>
      have innerCovers : Covers inner middle := by
        simpa [Covers, optional_widen_plain inner plain] using upper
      apply optional_covers_iff.mpr
      rcases eq_unknown_or_isPlain plain lower with absent | plainSpecial
      · exact .inl absent
      · exact .inr (.inr (.inr ⟨plainSpecial, induction innerCovers lower⟩))
  | optionalRight general inner plain induction =>
      rcases eq_unknown_or_isPlain plain upper with absent | plainMiddle
      · cases absent
      · cases plainMiddle
  | arrays element length other otherLength induction =>
      rcases array_covers_iff.mp upper with absent | ⟨middle, same, covers⟩
      · cases absent
      · cases same
        apply array_covers_iff.mpr
        rcases array_covers_iff.mp lower with absent | ⟨third, rfl, lowerCovers⟩
        · exact .inl absent
        · exact .inr ⟨third, rfl, induction covers lowerCovers⟩
  | arrayList element length other induction =>
      rcases array_covers_iff.mp upper with absent | ⟨middle, same, _⟩
      · cases absent
      · cases same
  | listArray element other length induction =>
      have elementCovers : Covers element other := by simpa [list_covers_iff] using upper
      apply list_covers_iff.mpr
      rcases array_covers_iff.mp lower with absent | ⟨third, rfl, covers⟩
      · exact .inl absent
      · exact .inr (.inr ⟨third, length, rfl, induction elementCovers covers⟩)
  | lists element other induction =>
      have elementCovers : Covers element other := by simpa [list_covers_iff] using upper
      apply list_covers_iff.mpr
      rcases list_covers_iff.mp lower with absent | ⟨third, rfl, covers⟩ |
        ⟨third, length, rfl, covers⟩
      · exact .inl absent
      · exact .inr (.inl ⟨third, rfl, induction elementCovers covers⟩)
      · exact .inr (.inr ⟨third, length, rfl, induction elementCovers covers⟩)
  | dicts key value otherKey otherValue keys values =>
      have partsCover : Covers key otherKey ∧ Covers value otherValue := by
        simpa [dict_covers_iff] using upper
      apply dict_covers_iff.mpr
      rcases dict_covers_iff.mp lower with absent | ⟨thirdKey, thirdValue, rfl, covers⟩
      · exact .inl absent
      · exact .inr ⟨thirdKey, thirdValue, rfl, keys partsCover.1 covers.1,
          values partsCover.2 covers.2⟩
  | sets element other induction =>
      have elementCovers : Covers element other := by simpa [set_covers_iff] using upper
      apply set_covers_iff.mpr
      rcases set_covers_iff.mp lower with absent | ⟨third, rfl, covers⟩
      · exact .inl absent
      · exact .inr ⟨third, rfl, induction elementCovers covers⟩
  | tuples elements others each =>
      have elementsCover : List.Forall₂ Covers elements others := by
        simpa [tuple_covers_iff] using upper
      apply tuple_covers_iff.mpr
      rcases tuple_covers_iff.mp lower with absent | ⟨thirds, rfl, covers⟩
      · exact .inl absent
      · exact .inr ⟨thirds, rfl, forall₂_covers_trans each elementsCover covers⟩
  | apart general middle plainGeneral plainMiddle apart =>
      -- A leaf covers only leaves, so the lower step is one between leaves too.
      rcases eq_unknown_or_isPlain plainMiddle lower with rfl | plainSpecial
      · exact .unknown general
      rcases covers_apart_cases plainGeneral plainMiddle apart upper with rfl |
        ⟨rfl, functions⟩ | ⟨top, between, topRank, betweenRank, ordered⟩
      · exact lower
      · have leaf := leaf_of_isFunctionLike functions
        rcases covers_apart_cases plainMiddle plainSpecial (alike_eq_false leaf.1 special) lower
          with rfl | ⟨_, functions⟩ | ⟨_, _, ranked, _⟩
        · exact upper
        · exact callable_covers functions
        · rw [leaf.2] at ranked
          cases ranked
      · have leaf := leaf_of_numericRank betweenRank
        rcases covers_apart_cases plainMiddle plainSpecial (alike_eq_false leaf.2 special) lower
          with rfl | ⟨rfl, _⟩ | ⟨rank, bottom, ranked, bottomRank, below⟩
        · exact upper
        · cases betweenRank
        · rw [betweenRank, Option.some_inj] at ranked
          exact covers_of_numericRank topRank bottomRank (by omega)

/-! ## A merge covers both sides -/

private theorem forall₂_widenEach_covers {lefts rights : List Ty}
    (each : List.Forall₂ (fun left right => mergeable left right = true →
      Covers (widen left right) left ∧ Covers (widen left right) right) lefts rights)
    (mergeable : mergeableEach lefts rights = true) :
    List.Forall₂ Covers (widenEach lefts rights) lefts ∧
      List.Forall₂ Covers (widenEach lefts rights) rights := by
  induction each with
  | nil => exact ⟨.nil, .nil⟩
  | cons covers _ induction =>
      rw [mergeableEach, Bool.and_eq_true] at mergeable
      have first := covers mergeable.1
      have rest := induction mergeable.2
      exact ⟨.cons first.1 rest.1, .cons first.2 rest.2⟩

theorem widen_covers {left right : Ty} (free : mergeable left right = true) :
    Covers (widen left right) left ∧ Covers (widen left right) right := by
  induction left, right using merge_induction with
  | unknownLeft right => exact ⟨.unknown right, .refl right⟩
  | unknownRight left =>
      rw [widen_unknown]
      exact ⟨.refl left, .unknown left⟩
  | strLeft kind right =>
      rw [str_widen]
      split
      · rename_i same
        rcases same with rfl | rfl
        · exact ⟨.refl _, .unknown _⟩
        · exact ⟨.refl _, .refl _⟩
      · exact ⟨.text _, .text _⟩
  | strRight left kind =>
      rw [widen_str]
      split
      · rename_i same
        rcases same with rfl | rfl
        · exact ⟨.unknown _, .refl _⟩
        · exact ⟨.refl _, .refl _⟩
      · exact ⟨.text _, .text _⟩
  | noneLeft right =>
      cases right with
      | unknown => exact ⟨.refl _, .unknown _⟩
      | str kind => exact ⟨.text _, .text _⟩
      | none => exact ⟨.refl _, .refl _⟩
      | optional inner => exact ⟨optional_covers_iff.mpr (.inr (.inl rfl)), .refl _⟩
      | _ => exact ⟨optional_covers_iff.mpr (.inr (.inl rfl)),
          optional_covers_iff.mpr (.inr (.inr (.inr ⟨rfl, .refl _⟩)))⟩
  | noneRight left =>
      cases left with
      | unknown => exact ⟨.unknown _, .refl _⟩
      | str kind => exact ⟨.text _, .text _⟩
      | none => exact ⟨.refl _, .refl _⟩
      | optional inner => exact ⟨.refl _, optional_covers_iff.mpr (.inr (.inl rfl))⟩
      | _ => exact ⟨optional_covers_iff.mpr (.inr (.inr (.inr ⟨rfl, .refl _⟩))),
          optional_covers_iff.mpr (.inr (.inl rfl))⟩
  | optionals left right induction =>
      have covers := induction free
      simpa [optional_covers_iff, isPlain] using covers
  | optionalLeft left right plain induction =>
      rw [optional_mergeable_plain left plain] at free
      rw [optional_widen_plain left plain]
      have covers := induction free
      exact ⟨optional_covers_iff.mpr (.inr (.inr (.inl ⟨left, rfl, covers.1⟩))),
        optional_covers_iff.mpr (.inr (.inr (.inr ⟨plain, covers.2⟩)))⟩
  | optionalRight left right plain induction =>
      rw [plain_mergeable_optional plain] at free
      rw [plain_widen_optional plain]
      have covers := induction free
      exact ⟨optional_covers_iff.mpr (.inr (.inr (.inr ⟨plain, covers.1⟩))),
        optional_covers_iff.mpr (.inr (.inr (.inl ⟨right, rfl, covers.2⟩)))⟩
  | arrays left leftLength right rightLength induction =>
      have covers := induction free
      by_cases same : leftLength = rightLength
      · simpa [widen, settle, same, array_covers_iff] using covers
      · simpa [widen, settle, same, list_covers_iff] using covers
  | arrayList left length right induction
  | listArray left right length induction
  | lists left right induction =>
      have covers := induction free
      simpa [widen, settle, list_covers_iff] using covers
  | dicts leftKey leftValue rightKey rightValue keys values =>
      have both : mergeable leftKey rightKey = true ∧ mergeable leftValue rightValue = true := by
        simpa [mergeable, settles] using free
      have keysCover := keys both.1
      have valuesCover := values both.2
      simp [widen, settle, dict_covers_iff, keysCover, valuesCover]
  | sets left right induction =>
      have covers := induction free
      simpa [widen, settle, set_covers_iff] using covers
  | tuples lefts rights each =>
      have lengths := each.length_eq
      have eachFree : mergeableEach lefts rights = true := by
        simpa [mergeable, settles, lengths] using free
      have covers := forall₂_widenEach_covers each eachFree
      simpa [widen, settle, lengths, tuple_covers_iff] using covers
  | apart left right plainLeft plainRight apart =>
      rw [mergeable_eq_mergeableLeaf plainLeft plainRight apart] at free
      rw [widen_eq_widenLeaf plainLeft plainRight apart]
      rcases widenLeaf_cases left right with
        ⟨leftRank, rightRank, leftRanked, rightRanked, merged⟩ | ⟨rfl, merged⟩ |
        ⟨leftFunctions, rightFunctions, merged⟩ | ⟨conflict, _⟩
      · rw [merged]
        split
        · rename_i ordered
          exact ⟨covers_of_numericRank rightRanked leftRanked ordered, .refl _⟩
        · exact ⟨.refl _, covers_of_numericRank leftRanked rightRanked (by omega)⟩
      · rw [merged]
        exact ⟨.refl _, .refl _⟩
      · rw [merged]
        exact ⟨callable_covers leftFunctions, callable_covers rightFunctions⟩
      · rw [conflict] at free
        cases free

/-! ## A conflict is never covered -/

private theorem mergeableEach_of_covers {lefts rights : List Ty}
    (each : List.Forall₂ (fun left right => Covers (widen left right) right →
      mergeable left right = true) lefts rights)
    (covers : List.Forall₂ Covers (widenEach lefts rights) rights) :
    mergeableEach lefts rights = true := by
  induction each with
  | nil => rfl
  | cons free _ induction =>
      cases covers with
      | cons first rest => rw [mergeableEach, free first, induction rest, Bool.and_self]

theorem mergeable_of_covers {left right : Ty} (covers : Covers (widen left right) right) :
    mergeable left right = true := by
  induction left, right using merge_induction with
  | unknownLeft right => rfl
  | unknownRight left => exact mergeable_unknown left
  | strLeft kind right => rfl
  | strRight left kind => exact mergeable_str left kind
  | noneLeft right => rfl
  | noneRight left => exact mergeable_none left
  | optionals left right induction =>
      apply induction
      simpa [optional_covers_iff, isPlain] using covers
  | optionalLeft left right plain induction =>
      rw [optional_mergeable_plain left plain]
      rw [Covers, optional_widen_plain left plain, optional_widen_plain _ plain] at covers
      exact induction (optional.inj covers)
  | optionalRight left right plain induction =>
      rw [plain_mergeable_optional plain]
      rw [Covers, plain_widen_optional plain, optional_widen_optional] at covers
      exact induction (optional.inj covers)
  | arrays left leftLength right rightLength induction =>
      apply induction
      by_cases same : leftLength = rightLength
      · simpa [widen, settle, same, array_covers_iff] using covers
      · simpa [widen, settle, same, list_covers_iff] using covers
  | arrayList left length right induction
  | listArray left right length induction
  | lists left right induction =>
      apply induction
      simpa [widen, settle, list_covers_iff] using covers
  | dicts leftKey leftValue rightKey rightValue keys values =>
      have both : Covers (widen leftKey rightKey) rightKey ∧
          Covers (widen leftValue rightValue) rightValue := by
        simpa [widen, settle, dict_covers_iff] using covers
      simp [mergeable, settles, keys both.1, values both.2]
  | sets left right induction =>
      apply induction
      simpa [widen, settle, set_covers_iff] using covers
  | tuples lefts rights each =>
      have lengths := each.length_eq
      have eachCovers : List.Forall₂ Covers (widenEach lefts rights) rights := by
        simpa [widen, settle, lengths, tuple_covers_iff] using covers
      simp [mergeable, settles, lengths, mergeableEach_of_covers each eachCovers]
  | apart left right plainLeft plainRight apart =>
      rw [mergeable_eq_mergeableLeaf plainLeft plainRight apart]
      rw [widen_eq_widenLeaf plainLeft plainRight apart] at covers
      rcases widenLeaf_cases left right with ⟨leftRank, rightRank, leftRanked, rightRanked, _⟩ |
        ⟨rfl, _⟩ | ⟨leftFunctions, rightFunctions, _⟩ | ⟨_, conflict⟩
      · simp [mergeableLeaf, leftRanked, rightRanked]
      · simp [mergeableLeaf]
      · simp [mergeableLeaf, leftFunctions, rightFunctions]
      · rw [conflict, unknown_covers_iff] at covers
        rw [covers] at plainRight
        cases plainRight

/-! ## Sequences -/

/-- Whether no merge meets a conflict when types are merged, one after the other, into
what was merged before. -/
def mergeableAll (merged : Ty) : List Ty → Bool
  | [] => true
  | type :: rest => mergeable merged type && mergeableAll (widen merged type) rest

private theorem foldl_widen_covers {merged : Ty} {types : List Ty}
    (free : mergeableAll merged types = true) : Covers (types.foldl widen merged) merged := by
  induction types generalizing merged with
  | nil => exact .refl merged
  | cons type rest induction =>
      rw [mergeableAll, Bool.and_eq_true] at free
      exact covers_trans (induction free.2) (widen_covers free.1).1

private theorem foldl_widen_covers_head {merged type : Ty} {rest : List Ty}
    (free : mergeableAll merged (type :: rest) = true) :
    Covers ((type :: rest).foldl widen merged) type := by
  rw [mergeableAll, Bool.and_eq_true] at free
  have later : Covers (rest.foldl widen (widen merged type)) (widen merged type) :=
    foldl_widen_covers free.2
  exact covers_trans later (widen_covers free.1).2

private theorem mergeableAll_append {merged : Ty} {start rest : List Ty} :
    mergeableAll merged (start ++ rest) = true ↔
      mergeableAll merged start = true ∧
        mergeableAll (start.foldl widen merged) rest = true := by
  induction start generalizing merged with
  | nil => simp [mergeableAll]
  | cons type start induction => simp [mergeableAll, induction, and_assoc]

private theorem widenAll_append (start rest : List Ty) :
    widenAll (start ++ rest) = rest.foldl widen (widenAll start) :=
  List.foldl_append

private theorem mergeableAll_of_covers {types : List Ty}
    (covered : ∀ start rest, types = start ++ rest → ∀ type ∈ start,
      Covers (widenAll start) type) : mergeableAll .unknown types = true := by
  induction types using List.reverseRecOn with
  | nil => rfl
  | append_singleton types type induction =>
      rw [mergeableAll_append]
      refine ⟨induction ?_, ?_⟩
      · intro start rest split
        exact covered start (rest ++ [type]) (by rw [split, List.append_assoc])
      · have covers := covered (types ++ [type]) [] (by simp) type (by simp)
        rw [widenAll_append] at covers
        rw [mergeableAll, mergeableAll, Bool.and_true]
        exact mergeable_of_covers covers

/-- A merged sequence covers a member if no merge from that member on meets a conflict.
Every beginning of a sequence covers all its members exactly if no merge at all does. -/
theorem widenAll_covers (types : List Ty) :
    (∀ start type rest, types = start ++ type :: rest →
      mergeableAll (widenAll start) (type :: rest) = true →
        widen (widenAll types) type = widenAll types) ∧
    ((∀ start rest, types = start ++ rest → ∀ type ∈ start,
      widen (widenAll start) type = widenAll start) ↔ mergeableAll .unknown types = true) := by
  refine ⟨?_, ?_, ?_⟩
  · rintro start type rest rfl free
    rw [widenAll_append]
    exact foldl_widen_covers_head free
  · intro covered
    exact mergeableAll_of_covers covered
  · rintro free start rest rfl type member
    rcases List.append_of_mem member with ⟨before, after, rfl⟩
    have startFree := (mergeableAll_append.mp free).1
    rw [widenAll_append]
    exact foldl_widen_covers_head (mergeableAll_append.mp startFree).2

theorem widenAll_covers_index :
    ([.bool, .int, .index, .float, .none] : List Ty) =
        [.bool, .int] ++ .index :: [.float, .none] ∧
      mergeableAll (widenAll [.bool, .int]) [.index, .float, .none] = true ∧
      widen (widenAll [.bool, .int, .index, .float, .none]) .index =
        widenAll [.bool, .int, .index, .float, .none] :=
  ⟨rfl, by decide, (widenAll_covers _).1 [.bool, .int] .index [.float, .none] rfl (by decide)⟩

/-- After a conflict the merged type no longer covers what was merged into it. -/
theorem widenAll_conflict :
    ¬ ∀ type ∈ [Ty.int, .bool], widen (widenAll [.int, .bool]) type = widenAll [.int, .bool] := by
  decide

end Ty

end NativeTyping

import NativeTyping.Proofs.Covering
/-!
When the order of merging does not matter.

Merging two types is symmetric. Merging three is not associative, since a conflict leaves
`unknown`, which the next type replaces. Away from conflicts the merge of a sequence is
the least type that covers all its members, and so it depends on the members alone.
-/

namespace NativeTyping

namespace Ty

/-! ## Two types -/

private theorem widenLeaf_comm (left right : Ty) : widenLeaf left right = widenLeaf right left := by
  by_cases same : left = right
  · rw [same]
  · rw [widenLeaf, widenLeaf]
    cases leftRanked : left.numericRank with
    | none => simp [same, Ne.symm same, Bool.and_comm]
    | some leftRank =>
        cases rightRanked : right.numericRank with
        | none => simp [same, Ne.symm same, Bool.and_comm]
        | some rightRank =>
            have different : leftRank ≠ rightRank := by
              rintro rfl
              exact same (numericRank_injective leftRanked rightRanked)
            by_cases ordered : leftRank ≤ rightRank
            · have notReversed : ¬ rightRank ≤ leftRank := by omega
              simp [ordered, notReversed]
            · have reversed : rightRank ≤ leftRank := by omega
              simp [ordered, reversed]

private theorem alike_comm (left right : Ty) : left.alike right = right.alike left := by
  cases left with
  | tuple lefts =>
      cases right with
      | tuple rights => exact Bool.beq_comm
      | _ => rfl
  | _ => cases right <;> rfl

private theorem tuple_widen_tuple {lefts rights : List Ty}
    (lengths : lefts.length = rights.length) :
    widen (.tuple lefts) (.tuple rights) = .tuple (widenEach lefts rights) := by
  simp [widen, settle, lengths]

private theorem widenEach_comm {lefts rights : List Ty}
    (each : List.Forall₂ (fun left right => widen left right = widen right left) lefts rights) :
    widenEach lefts rights = widenEach rights lefts := by
  induction each with
  | nil => rfl
  | cons same _ induction => rw [widenEach, widenEach, same, induction]

private theorem widen_comm (left right : Ty) : widen left right = widen right left := by
  induction left, right using merge_induction with
  | unknownLeft right => rw [unknown_widen, widen_unknown]
  | unknownRight left => rw [unknown_widen, widen_unknown]
  | strLeft kind right => rw [str_widen, widen_str]
  | strRight left kind => rw [str_widen, widen_str]
  | noneLeft right => cases right <;> rfl
  | noneRight left => cases left <;> rfl
  | optionals left right induction => exact congrArg optional induction
  | optionalLeft left right plain induction =>
      rw [optional_widen_plain left plain, plain_widen_optional plain, induction]
  | optionalRight left right plain induction =>
      rw [optional_widen_plain right plain, plain_widen_optional plain, induction]
  | arrays left leftLength right rightLength induction =>
      by_cases same : leftLength = rightLength
      · simp [widen, settle, same, induction]
      · simp [widen, settle, same, Ne.symm same, induction]
  | arrayList left length right induction
  | listArray left right length induction
  | lists left right induction => exact congrArg list induction
  | dicts leftKey leftValue rightKey rightValue keys values =>
      simp [widen, settle, keys, values]
  | sets left right induction => exact congrArg set induction
  | tuples lefts rights each =>
      have lengths := each.length_eq
      rw [tuple_widen_tuple lengths, tuple_widen_tuple lengths.symm, widenEach_comm each]
  | apart left right plainLeft plainRight apart =>
      have reversed : right.alike left = false := (alike_comm right left).trans apart
      rw [widen_eq_widenLeaf plainLeft plainRight apart,
        widen_eq_widenLeaf plainRight plainLeft reversed, widenLeaf_comm]

private theorem mergeable_symm {left right : Ty} (free : mergeable left right = true) :
    mergeable right left = true := by
  apply mergeable_of_covers
  rw [widen_comm]
  exact (widen_covers free).1

/-- The merge of two types does not depend on which one comes first, and neither does
whether it meets a conflict. -/
theorem merge_symmetric (left right : Ty) :
    widen left right = widen right left ∧ mergeable left right = mergeable right left := by
  refine ⟨widen_comm left right, ?_⟩
  rw [Bool.eq_iff_iff]
  exact ⟨mergeable_symm, mergeable_symm⟩

/-! ## Merging a type with itself -/

theorem widenAll_of_forall_eq {type : Ty} {types : List Ty} (nonempty : types ≠ [])
    (same : ∀ other ∈ types, other = type) : widenAll types = type := by
  have stays (rest : List Ty) (same : ∀ other ∈ rest, other = type) :
      rest.foldl widen type = type := by
    induction rest with
    | nil => rfl
    | cons other rest induction =>
        rw [List.forall_mem_cons] at same
        rw [List.foldl_cons, same.1, widen_self, induction same.2]
  cases types with
  | nil => exact absurd rfl nonempty
  | cons first rest =>
      rw [List.forall_mem_cons] at same
      rw [widenAll, List.foldl_cons, unknown_widen, same.1, stays rest same.2]

/-- A type merged with itself stays as it is, at every depth and without a conflict, and
so does a type that is observed any number of times. -/
theorem merge_idempotent (type : Ty) :
    widen type type = type ∧ mergeable type type = true ∧
      ∀ count, widenAll (List.replicate (count + 1) type) = type := by
  have covered : Covers (widen type type) type := by
    rw [widen_self]
    exact Covers.refl type
  refine ⟨widen_self type, mergeable_of_covers covered, fun count => ?_⟩
  apply widenAll_of_forall_eq
  · exact List.cons_ne_nil _ _
  · intro other member
    exact List.eq_of_mem_replicate member

/-! ## Least covers -/

private theorem covers_antisymm {left right : Ty} (upper : Covers left right)
    (lower : Covers right left) : left = right :=
  calc
    left = widen left right := upper.symm
    _ = widen right left := widen_comm left right
    _ = right := lower

private theorem covers_none_iff {general : Ty} :
    Covers general .none ↔
      general = .none ∨ general = text ∨ ∃ inner, general = .optional inner := by
  cases general <;> simp [Covers, widen, settle, text, eq_comm]

private theorem covers_optional_iff {general special : Ty} :
    Covers general (.optional special) ↔
      general = text ∨ ∃ inner, general = .optional inner ∧ Covers inner special := by
  cases general <;> simp [Covers, widen, settle, text, eq_comm]

private theorem alike_of_covers {general special : Ty} (plainGeneral : general.isPlain = true)
    (plainSpecial : special.isPlain = true) (container : special.isContainer = true)
    (covers : Covers general special) : general.alike special = true := by
  cases similar : general.alike special with
  | true => rfl
  | false =>
      rcases covers_apart_cases plainGeneral plainSpecial similar covers with rfl |
        ⟨_, functions⟩ | ⟨_, _, _, ranked, _⟩
      · rw [alike_self container] at similar
        cases similar
      · rw [(leaf_of_isFunctionLike functions).1] at container
        cases container
      · rw [(leaf_of_numericRank ranked).2] at container
        cases container

private theorem covers_of_plain {left right merged : Ty} (plainLeft : left.isPlain = true)
    (plainRight : right.isPlain = true) (settled : merged = .unknown ∨ merged.isPlain = true)
    (plainly : ∀ {upper : Ty}, upper.isPlain = true → Covers upper left → Covers upper right →
      Covers upper merged)
    (upper : Ty) (coversLeft : Covers upper left) (coversRight : Covers upper right) :
    Covers upper merged := by
  cases upper with
  | unknown =>
      rw [unknown_covers_iff.mp coversLeft] at plainLeft
      cases plainLeft
  | str kind =>
      rcases str_covers_iff.mp coversLeft with rfl | rfl | isText
      · cases plainLeft
      · cases plainLeft
      · exact isText ▸ .text merged
  | none =>
      rcases none_covers_iff.mp coversLeft with rfl | rfl <;> cases plainLeft
  | optional inner =>
      rw [Covers, optional_widen_plain inner plainLeft] at coversLeft
      rw [Covers, optional_widen_plain inner plainRight] at coversRight
      have innerCovers := covers_of_plain plainLeft plainRight settled plainly inner
        (optional.inj coversLeft) (optional.inj coversRight)
      rcases settled with rfl | plain
      · exact .unknown _
      · rw [Covers, optional_widen_plain inner plain, innerCovers]
  | _ => exact plainly rfl coversLeft coversRight

private theorem covers_none_widen {upper right : Ty} (coversNone : Covers upper .none)
    (coversRight : Covers upper right) : Covers upper (widen .none right) := by
  rcases covers_none_iff.mp coversNone with rfl | rfl | ⟨inner, rfl⟩
  · rw [show widen .none right = .none from coversRight]
    exact .refl .none
  · exact .text _
  · cases right with
    | unknown => exact coversNone
    | str kind =>
        rcases covers_str_iff.mp coversRight with absurdity | absurdity <;> cases absurdity
    | none | optional _ => exact coversRight
    | _ => exact coversRight

private theorem widenLeaf_settled {left right : Ty} (plainLeft : left.isPlain = true)
    (plainRight : right.isPlain = true) :
    widenLeaf left right = .unknown ∨ (widenLeaf left right).isPlain = true := by
  rcases widenLeaf_cases left right with ⟨_, _, _, _, merged⟩ | ⟨_, merged⟩ | ⟨_, _, merged⟩ |
    ⟨_, merged⟩
  · rw [merged]
    split
    · exact .inr plainRight
    · exact .inr plainLeft
  · rw [merged]
    exact .inr plainLeft
  · rw [merged]
    exact .inr rfl
  · exact .inl merged

private theorem covers_widenLeaf {upper left right : Ty} (plainUpper : upper.isPlain = true)
    (plainLeft : left.isPlain = true) (plainRight : right.isPlain = true)
    (apart : left.alike right = false) (coversLeft : Covers upper left)
    (coversRight : Covers upper right) : Covers upper (widenLeaf left right) := by
  rcases widenLeaf_cases left right with ⟨_, _, _, _, merged⟩ | ⟨_, merged⟩ |
    ⟨functions, _, merged⟩ | ⟨_, merged⟩
  · rw [merged]
    split
    · exact coversRight
    · exact coversLeft
  · rw [merged]
    exact coversLeft
  · have leaf := leaf_of_isFunctionLike functions
    have unlike : upper.alike left = false := by
      rw [alike_comm]
      exact alike_eq_false leaf.1 upper
    rcases covers_apart_cases plainUpper plainLeft unlike coversLeft with rfl | ⟨rfl, _⟩ |
      ⟨_, _, _, ranked, _⟩
    · have kept : widenLeaf upper right = upper := by
        rw [← widen_eq_widenLeaf plainLeft plainRight apart]
        exact coversRight
      rw [kept]
      exact .refl upper
    · rw [merged]
      exact .refl .callable
    · rw [leaf.2] at ranked
      cases ranked
  · rw [merged]
    exact .unknown upper

private theorem forall₂_covers_widenEach {uppers lefts rights : List Ty}
    (each : List.Forall₂ (fun left right => ∀ upper, Covers upper left → Covers upper right →
      Covers upper (widen left right)) lefts rights)
    (coverLefts : List.Forall₂ Covers uppers lefts)
    (coverRights : List.Forall₂ Covers uppers rights) :
    List.Forall₂ Covers uppers (widenEach lefts rights) := by
  induction each generalizing uppers with
  | nil =>
      cases coverLefts
      exact .nil
  | cons step _ induction =>
      cases coverLefts with
      | cons coversLeft coverLefts =>
          cases coverRights with
          | cons coversRight coverRights =>
              exact .cons (step _ coversLeft coversRight) (induction coverLefts coverRights)

/-- Whatever covers two types covers their merge. -/
theorem covers_widen {upper left right : Ty} (coversLeft : Covers upper left)
    (coversRight : Covers upper right) : Covers upper (widen left right) := by
  induction left, right using merge_induction generalizing upper with
  | unknownLeft right => exact coversRight
  | unknownRight left =>
      rw [widen_unknown]
      exact coversLeft
  | strLeft kind right =>
      rcases covers_str_iff.mp coversLeft with rfl | rfl
      · rw [show widen (.str kind) right = .str kind from coversRight]
        exact .refl _
      · exact .text _
  | strRight left kind =>
      rw [widen_comm]
      rcases covers_str_iff.mp coversRight with rfl | rfl
      · rw [show widen (.str kind) left = .str kind from coversLeft]
        exact .refl _
      · exact .text _
  | noneLeft right => exact covers_none_widen coversLeft coversRight
  | noneRight left =>
      rw [widen_comm]
      exact covers_none_widen coversRight coversLeft
  | optionals left right induction =>
      rw [optional_widen_optional]
      apply covers_optional_iff.mpr
      rcases covers_optional_iff.mp coversLeft with isText | ⟨inner, rfl, innerCovers⟩
      · exact .inl isText
      · have otherCovers : Covers inner right := by simpa [Covers] using coversRight
        exact .inr ⟨inner, rfl, induction innerCovers otherCovers⟩
  | optionalLeft left right plain induction =>
      rw [optional_widen_plain left plain]
      apply covers_optional_iff.mpr
      rcases covers_optional_iff.mp coversLeft with isText | ⟨inner, rfl, innerCovers⟩
      · exact .inl isText
      · have otherCovers : Covers inner right := by
          simpa [Covers, optional_widen_plain inner plain] using coversRight
        exact .inr ⟨inner, rfl, induction innerCovers otherCovers⟩
  | optionalRight left right plain induction =>
      rw [plain_widen_optional plain]
      apply covers_optional_iff.mpr
      rcases covers_optional_iff.mp coversRight with isText | ⟨inner, rfl, innerCovers⟩
      · exact .inl isText
      · have otherCovers : Covers inner left := by
          simpa [Covers, optional_widen_plain inner plain] using coversLeft
        exact .inr ⟨inner, rfl, induction otherCovers innerCovers⟩
  | arrays left leftLength right rightLength induction =>
      apply covers_of_plain rfl rfl _ _ upper coversLeft coversRight
      · by_cases same : leftLength = rightLength <;> simp [widen, settle, same, isPlain]
      · intro upper plain coversLeft coversRight
        have similar := alike_of_covers plain rfl rfl coversLeft
        cases upper with
        | array element length =>
            rcases array_covers_iff.mp coversLeft with absurdity | ⟨_, isLeft, leftCovers⟩
            · cases absurdity
            rcases array_covers_iff.mp coversRight with absurdity | ⟨_, isRight, rightCovers⟩
            · cases absurdity
            cases isLeft
            cases isRight
            simp [widen, settle, array_covers_iff, induction leftCovers rightCovers]
        | list element =>
            have leftCovers : Covers element left := by simpa [list_covers_iff] using coversLeft
            have rightCovers : Covers element right := by
              simpa [list_covers_iff] using coversRight
            have covers := induction leftCovers rightCovers
            by_cases same : leftLength = rightLength <;>
              simp [widen, settle, same, list_covers_iff, covers]
        | _ => cases similar
  | arrayList left length right induction
  | listArray left right length induction
  | lists left right induction =>
      apply covers_of_plain rfl rfl (.inr rfl) _ upper coversLeft coversRight
      intro upper plain coversLeft coversRight
      have similar := alike_of_covers plain rfl rfl coversLeft
      cases upper with
      | list element =>
          have leftCovers : Covers element left := by simpa [list_covers_iff] using coversLeft
          have rightCovers : Covers element right := by
            simpa [list_covers_iff] using coversRight
          simp [widen, settle, list_covers_iff, induction leftCovers rightCovers]
      | array element length => simp [array_covers_iff] at coversLeft coversRight
      | _ => cases similar
  | dicts leftKey leftValue rightKey rightValue keys values =>
      apply covers_of_plain rfl rfl (.inr rfl) _ upper coversLeft coversRight
      intro upper plain coversLeft coversRight
      have similar := alike_of_covers plain rfl rfl coversLeft
      cases upper with
      | dict key value =>
          have leftCovers : Covers key leftKey ∧ Covers value leftValue := by
            simpa [dict_covers_iff] using coversLeft
          have rightCovers : Covers key rightKey ∧ Covers value rightValue := by
            simpa [dict_covers_iff] using coversRight
          simp [widen, settle, dict_covers_iff, keys leftCovers.1 rightCovers.1,
            values leftCovers.2 rightCovers.2]
      | _ => cases similar
  | sets left right induction =>
      apply covers_of_plain rfl rfl (.inr rfl) _ upper coversLeft coversRight
      intro upper plain coversLeft coversRight
      have similar := alike_of_covers plain rfl rfl coversLeft
      cases upper with
      | set element =>
          have leftCovers : Covers element left := by simpa [set_covers_iff] using coversLeft
          have rightCovers : Covers element right := by simpa [set_covers_iff] using coversRight
          simp [widen, settle, set_covers_iff, induction leftCovers rightCovers]
      | _ => cases similar
  | tuples lefts rights each =>
      rw [tuple_widen_tuple each.length_eq]
      apply covers_of_plain rfl rfl (.inr rfl) _ upper coversLeft coversRight
      intro upper plain coversLeft coversRight
      have similar := alike_of_covers plain rfl rfl coversLeft
      cases upper with
      | tuple elements =>
          have leftCovers : List.Forall₂ Covers elements lefts := by
            simpa [tuple_covers_iff] using coversLeft
          have rightCovers : List.Forall₂ Covers elements rights := by
            simpa [tuple_covers_iff] using coversRight
          simp [tuple_covers_iff, forall₂_covers_widenEach each leftCovers rightCovers]
      | _ => cases similar
  | apart left right plainLeft plainRight apart =>
      rw [widen_eq_widenLeaf plainLeft plainRight apart]
      exact covers_of_plain plainLeft plainRight (widenLeaf_settled plainLeft plainRight)
        (fun plain => covers_widenLeaf plain plainLeft plainRight apart) upper coversLeft
        coversRight

/-! ## Conflicts stay away

If three types meet no conflict pairwise, neither do the merge of two of them and the
third.
-/

private def inside : Ty → Ty
  | .optional inner => inner
  | other => other

private theorem optional_mergeable (inner third : Ty) :
    mergeable (.optional inner) third = mergeable inner third.inside := by
  cases third with
  | unknown => exact (mergeable_unknown inner).symm
  | str kind => exact (mergeable_str inner kind).symm
  | none => exact (mergeable_none inner).symm
  | _ => rfl

private theorem plain_mergeable {left : Ty} (plain : left.isPlain = true) (third : Ty) :
    mergeable left third = mergeable left third.inside := by
  cases third with
  | optional inner => exact plain_mergeable_optional plain inner
  | _ => rfl

private theorem mergeableLeaf_iff {left right : Ty} :
    mergeableLeaf left right = true ↔
      (∃ rank, left.numericRank = some rank) ∧ (∃ rank, right.numericRank = some rank) ∨
        left = right ∨ left.isFunctionLike = true ∧ right.isFunctionLike = true := by
  simp [mergeableLeaf, Option.isSome_iff_exists, or_assoc]

private theorem alike_of_mergeable {left third : Ty} (plainLeft : left.isPlain = true)
    (plainThird : third.isPlain = true) (container : left.isContainer = true)
    (free : mergeable left third = true) : left.alike third = true := by
  cases similar : left.alike third with
  | true => rfl
  | false =>
      rw [mergeable_eq_mergeableLeaf plainLeft plainThird similar, mergeableLeaf_iff] at free
      rcases free with ⟨⟨_, ranked⟩, _⟩ | rfl | ⟨functions, _⟩
      · rw [(leaf_of_numericRank ranked).2] at container
        cases container
      · rw [alike_self container] at similar
        cases similar
      · rw [(leaf_of_isFunctionLike functions).1] at container
        cases container

private theorem mergeable_of_plain {left right merged : Ty} (plainLeft : left.isPlain = true)
    (plainRight : right.isPlain = true) (plainMerged : merged.isPlain = true)
    (plainly : ∀ {third : Ty}, third.isPlain = true → mergeable left third = true →
      mergeable right third = true → mergeable merged third = true)
    (third : Ty) (leftFree : mergeable left third = true)
    (rightFree : mergeable right third = true) : mergeable merged third = true := by
  cases third with
  | unknown => exact mergeable_unknown merged
  | str kind => exact mergeable_str merged kind
  | none => exact mergeable_none merged
  | optional inner =>
      rw [plain_mergeable plainLeft] at leftFree
      rw [plain_mergeable plainRight] at rightFree
      rw [plain_mergeable plainMerged]
      exact mergeable_of_plain plainLeft plainRight plainMerged plainly inner leftFree rightFree
  | _ => exact plainly rfl leftFree rightFree

private theorem none_mergeable_widen {right third : Ty} (rightFree : mergeable right third = true) :
    mergeable (widen .none right) third = true := by
  cases right with
  | unknown | str _ | none => rfl
  | optional inner => exact rightFree
  | _ =>
      rw [none_widen_plain rfl, optional_mergeable, ← plain_mergeable rfl]
      exact rightFree

private theorem length_widenEach {lefts rights : List Ty} (lengths : lefts.length = rights.length) :
    (widenEach lefts rights).length = lefts.length := by
  induction lefts generalizing rights with
  | nil => rfl
  | cons left rest induction =>
      cases rights with
      | nil => cases lengths
      | cons right others => simp [widenEach, induction (Nat.succ.inj lengths)]

private theorem mergeableEach_widenEach {lefts rights thirds : List Ty}
    (each : List.Forall₂ (fun left right => ∀ {third}, mergeable left right = true →
      mergeable left third = true → mergeable right third = true →
        mergeable (widen left right) third = true) lefts rights)
    (free : mergeableEach lefts rights = true) (leftFree : mergeableEach lefts thirds = true)
    (rightFree : mergeableEach rights thirds = true) :
    mergeableEach (widenEach lefts rights) thirds = true := by
  induction each generalizing thirds with
  | nil => rfl
  | cons step _ induction =>
      cases thirds with
      | nil => rfl
      | cons third thirds =>
          rw [mergeableEach, Bool.and_eq_true] at free leftFree rightFree
          rw [widenEach, mergeableEach, step free.1 leftFree.1 rightFree.1,
            induction free.2 leftFree.2 rightFree.2, Bool.and_self]

private theorem callable_mergeable {left third : Ty} (functions : left.isFunctionLike = true)
    (plain : left.isPlain = true) (free : mergeable left third = true) :
    mergeable .callable third = true := by
  apply mergeable_of_plain plain plain rfl _ third free free
  intro third plainThird free _
  have leaf := leaf_of_isFunctionLike functions
  rw [mergeable_eq_mergeableLeaf plain plainThird (alike_eq_false leaf.1 third),
    mergeableLeaf_iff] at free
  rw [mergeable_eq_mergeableLeaf rfl plainThird rfl, mergeableLeaf_iff]
  rcases free with ⟨⟨_, ranked⟩, _⟩ | rfl | ⟨_, thirdFunctions⟩
  · rw [leaf.2] at ranked
    cases ranked
  · exact .inr (.inr ⟨rfl, functions⟩)
  · exact .inr (.inr ⟨rfl, thirdFunctions⟩)

private theorem mergeable_widenLeaf {left right third : Ty} (plain : left.isPlain = true)
    (free : mergeableLeaf left right = true) (leftFree : mergeable left third = true)
    (rightFree : mergeable right third = true) :
    mergeable (widenLeaf left right) third = true := by
  rcases widenLeaf_cases left right with ⟨_, _, _, _, merged⟩ | ⟨_, merged⟩ |
    ⟨functions, _, merged⟩ | ⟨conflict, _⟩
  · rw [merged]
    split
    · exact rightFree
    · exact leftFree
  · rw [merged]
    exact leftFree
  · rw [merged]
    exact callable_mergeable functions plain leftFree
  · rw [conflict] at free
    cases free

/-- Of three types that meet no conflict pairwise, the merge of the first two meets none
with the third. -/
theorem mergeable_widen {left right third : Ty} (free : mergeable left right = true)
    (leftFree : mergeable left third = true) (rightFree : mergeable right third = true) :
    mergeable (widen left right) third = true := by
  induction left, right using merge_induction generalizing third with
  | unknownLeft right => exact rightFree
  | unknownRight left =>
      rw [widen_unknown]
      exact leftFree
  | strLeft kind right =>
      rw [str_widen]
      split <;> rfl
  | strRight left kind =>
      rw [widen_str]
      split <;> rfl
  | noneLeft right => exact none_mergeable_widen rightFree
  | noneRight left =>
      rw [widen_comm]
      exact none_mergeable_widen leftFree
  | optionals left right induction =>
      rw [optional_mergeable] at leftFree rightFree
      rw [optional_widen_optional, optional_mergeable]
      exact induction free leftFree rightFree
  | optionalLeft left right plain induction =>
      rw [optional_mergeable_plain left plain] at free
      rw [optional_mergeable] at leftFree
      rw [plain_mergeable plain] at rightFree
      rw [optional_widen_plain left plain, optional_mergeable]
      exact induction free leftFree rightFree
  | optionalRight left right plain induction =>
      rw [plain_mergeable_optional plain] at free
      rw [plain_mergeable plain] at leftFree
      rw [optional_mergeable] at rightFree
      rw [plain_widen_optional plain, optional_mergeable]
      exact induction free leftFree rightFree
  | arrays left leftLength right rightLength induction =>
      -- Whether a sequence meets a conflict does not depend on its length.
      have merged : mergeable (widen (.array left leftLength) (.array right rightLength)) third =
          mergeable (.list (widen left right)) third := by
        by_cases same : leftLength = rightLength <;> simp only [widen, settle, same] <;> rfl
      rw [merged]
      apply mergeable_of_plain rfl rfl rfl _ third leftFree rightFree
      intro third plain leftFree rightFree
      have similar := alike_of_mergeable rfl plain rfl leftFree
      cases third with
      | array element _ => exact induction free leftFree rightFree
      | list element => exact induction free leftFree rightFree
      | _ => cases similar
  | arrayList left length right induction
  | listArray left right length induction
  | lists left right induction =>
      apply mergeable_of_plain rfl rfl rfl _ third leftFree rightFree
      intro third plain leftFree rightFree
      have similar := alike_of_mergeable rfl plain rfl leftFree
      cases third with
      | array element _ => exact induction free leftFree rightFree
      | list element => exact induction free leftFree rightFree
      | _ => cases similar
  | dicts leftKey leftValue rightKey rightValue keys values =>
      apply mergeable_of_plain rfl rfl rfl _ third leftFree rightFree
      intro third plain leftFree rightFree
      have similar := alike_of_mergeable rfl plain rfl leftFree
      cases third with
      | dict key value =>
          simp only [mergeable, settles, Bool.and_eq_true] at free leftFree rightFree
          simp [widen, settle, mergeable, settles, keys free.1 leftFree.1 rightFree.1,
            values free.2 leftFree.2 rightFree.2]
      | _ => cases similar
  | sets left right induction =>
      apply mergeable_of_plain rfl rfl rfl _ third leftFree rightFree
      intro third plain leftFree rightFree
      have similar := alike_of_mergeable rfl plain rfl leftFree
      cases third with
      | set element => exact induction free leftFree rightFree
      | _ => cases similar
  | tuples lefts rights each =>
      rw [tuple_widen_tuple each.length_eq]
      apply mergeable_of_plain rfl rfl rfl _ third leftFree rightFree
      intro third plain leftFree rightFree
      have similar := alike_of_mergeable rfl plain rfl leftFree
      cases third with
      | tuple thirds =>
          simp only [mergeable, settles, Bool.and_eq_true, beq_iff_eq] at free leftFree rightFree
          have lengths := (length_widenEach each.length_eq).trans leftFree.1
          simp [mergeable, settles, lengths,
            mergeableEach_widenEach each free.2 leftFree.2 rightFree.2]
      | _ => cases similar
  | apart left right plainLeft plainRight apart =>
      rw [mergeable_eq_mergeableLeaf plainLeft plainRight apart] at free
      rw [widen_eq_widenLeaf plainLeft plainRight apart]
      exact mergeable_widenLeaf plainLeft free leftFree rightFree

/-! ## Sequences -/

/-- The least type that covers all members of a sequence. -/
structure IsLeastCover (types : List Ty) (general : Ty) : Prop where
  covers : ∀ type ∈ types, Covers general type
  least : ∀ upper, (∀ type ∈ types, Covers upper type) → Covers upper general

namespace IsLeastCover

/-- A least cover depends on the members alone. -/
theorem unique {types others : List Ty} {left right : Ty} (leftLeast : IsLeastCover types left)
    (rightLeast : IsLeastCover others right) (same : ∀ type, type ∈ types ↔ type ∈ others) :
    left = right := by
  apply covers_antisymm
  · apply rightLeast.least
    intro type member
    exact leftLeast.covers type ((same type).mpr member)
  · apply leftLeast.least
    intro type member
    exact rightLeast.covers type ((same type).mp member)

private theorem single (type : Ty) : IsLeastCover [type] type where
  covers other member := by
    rw [List.mem_singleton.mp member]
    exact .refl type
  least upper coversAll := coversAll type List.mem_cons_self

private theorem widen {types others : List Ty} {left right : Ty}
    (leftLeast : IsLeastCover types left)
    (rightLeast : IsLeastCover others right) (free : mergeable left right = true) :
    IsLeastCover (types ++ others) (left.widen right) where
  covers type member := by
    have merged := widen_covers free
    rcases List.mem_append.mp member with inTypes | inOthers
    · exact covers_trans merged.1 (leftLeast.covers type inTypes)
    · exact covers_trans merged.2 (rightLeast.covers type inOthers)
  least upper coversAll := by
    apply covers_widen
    · exact leftLeast.least upper fun type member => coversAll type (List.mem_append_left _ member)
    · exact rightLeast.least upper fun type member =>
        coversAll type (List.mem_append_right _ member)

end IsLeastCover

def ConflictFree (types : List Ty) : Prop :=
  types.Pairwise fun left right => mergeable left right = true

instance (types : List Ty) : Decidable (ConflictFree types) :=
  inferInstanceAs (Decidable (types.Pairwise _))

private theorem ConflictFree.perm {types others : List Ty} (free : ConflictFree types)
    (permuted : types.Perm others) : ConflictFree others :=
  (permuted.pairwise_iff mergeable_symm).mp free

private theorem foldl_widen_isLeastCover {before types : List Ty} {merged : Ty}
    (least : IsLeastCover before merged) (free : ConflictFree (merged :: types)) :
    IsLeastCover (before ++ types) (types.foldl widen merged) := by
  induction types generalizing before merged with
  | nil =>
      rw [List.append_nil]
      exact least
  | cons type rest induction =>
      simp only [ConflictFree, List.pairwise_cons, List.mem_cons, forall_eq_or_imp] at free
      rcases free with ⟨⟨first, others⟩, later, laterPairs⟩
      rw [← List.singleton_append, ← List.append_assoc]
      apply induction (least.widen (.single type) first)
      -- What was merged so far still meets no conflict with the types to come.
      apply List.pairwise_cons.mpr
      refine ⟨?_, laterPairs⟩
      intro third member
      exact mergeable_widen first (others third member) (later third member)

private theorem widenAll_isLeastCover {types : List Ty} (free : ConflictFree types) :
    IsLeastCover types (widenAll types) := by
  have nothing : IsLeastCover [] .unknown :=
    ⟨fun _ member => absurd member List.not_mem_nil, fun upper _ => .unknown upper⟩
  exact foldl_widen_isLeastCover nothing (List.pairwise_cons.mpr ⟨fun _ _ => rfl, free⟩)

/-- If the members of a sequence meet no conflict pairwise, all orders in which they can be
merged give one type, and so do both ways of bracketing three such types. -/
theorem merge_order_free :
    (∀ types others : List Ty, ConflictFree types → types.Perm others →
      widenAll types = widenAll others) ∧
    ∀ first second third : Ty, ConflictFree [first, second, third] →
      widen (widen first second) third = widen first (widen second third) := by
  constructor
  · intro types others free permuted
    exact (widenAll_isLeastCover free).unique (widenAll_isLeastCover (free.perm permuted))
      fun type => permuted.mem_iff
  · intro first second third free
    simp only [ConflictFree, List.pairwise_cons, List.mem_cons, forall_eq_or_imp] at free
    rcases free with ⟨⟨firstSecond, firstThird, _⟩, ⟨secondThird, _⟩, _⟩
    have leftFirst := ((IsLeastCover.single first).widen (.single second) firstSecond).widen
      (.single third) (mergeable_widen firstSecond firstThird secondThird)
    have rightFirst := (IsLeastCover.single first).widen
      ((IsLeastCover.single second).widen (.single third) secondThird)
      (mergeable_symm (mergeable_widen secondThird (mergeable_symm firstSecond)
        (mergeable_symm firstThird)))
    exact leftFirst.unique rightFirst fun type => by simp

theorem merge_order_free_sequences :
    (ConflictFree [.array .int 2, .none, .array .index 3, .optional (.list .bigInt)] ∧
      [Ty.array .int 2, .none, .array .index 3, .optional (.list .bigInt)].Perm
        [.optional (.list .bigInt), .array .index 3, .array .int 2, .none] ∧
      widenAll [.array .int 2, .none, .array .index 3, .optional (.list .bigInt)] =
        widenAll [.optional (.list .bigInt), .array .index 3, .array .int 2, .none]) ∧
    ConflictFree [.none, .optional .none, .str .literal] ∧
      widen (widen .none (.optional .none)) (.str .literal) =
        widen .none (widen (.optional .none) (.str .literal)) :=
  ⟨⟨by decide, by decide, merge_order_free.1 _ _ (by decide) (by decide)⟩,
    by decide, merge_order_free.2 _ _ _ (by decide)⟩

end Ty

end NativeTyping

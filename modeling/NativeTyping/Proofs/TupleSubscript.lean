import NativeTyping.Inference.Expr
/-!
Literal subscripts and slices of tuples.

What a subscript means is said among all integers: a negative position counts from the
end, and the bounds of a slice are kept within the tuple. The types of subscripts and
slices are computed among words of 64 bits. The only sum there adds a negative index to a
length, which no word is too small for, so both agree for every literal that is a word.
-/

namespace NativeTyping

/-! ## Literals -/

/-- An integer literal under any number of signs denotes a word, where each sign leads
from a word to a word. -/
inductive Expr.Spells : Expr → Int64 → Prop where
  | literal (value : Int64) : Spells (.literal (.int value.toInt)) value
  | pos {operand : Expr} {value : Int64} : Spells operand value →
      Spells (.unary .pos operand) value
  | neg {operand : Expr} {value negated : Int64} : Spells operand value →
      negated.toInt = -value.toInt → Spells (.unary .neg operand) negated

private theorem Expr.Spells.intLiteral?_eq {expr : Expr} {value : Int64}
    (spells : expr.Spells value) :
    expr.intLiteral? = some value.toInt := by
  induction spells with
  | literal value => rfl
  | pos _ induction => exact induction
  | @neg operand value negated _ opposite induction =>
      have notLeast : value.toInt ≠ Int64.minValue.toInt := by
        intro least
        have most : Int64.maxValue.toInt < -Int64.minValue.toInt := by decide
        have inside := negated.toInt_le
        omega
      rw [intLiteral?, induction, Option.bind_some, negate64?, if_neg notLeast, opposite]

private theorem Expr.Spells.wordLiteral?_eq {expr : Expr} {value : Int64}
    (spells : expr.Spells value) :
    expr.wordLiteral? = some value := by
  rw [wordLiteral?, spells.intLiteral?_eq, Option.map_some, Int64.ofInt_toInt]

namespace Ty

/-! ## Positions among all integers -/

def counted (length : Nat) (index : Int) : Int :=
  if index < 0 then length + index else index

private theorem counted_of_start (length : Nat) {index : Int} (started : 0 ≤ index) :
    counted length index = index :=
  if_neg (Int.not_lt.mpr started)

private theorem counted_of_end (length : Nat) {index : Int} (negative : index < 0) :
    counted length index = length + index :=
  if_pos negative

def clamped (length : Nat) (bound : Int) : Nat :=
  (max 0 (min (counted length bound) length)).toNat

def boundPosition (length missing : Nat) (bound : Option Int64) : Nat :=
  bound.elim missing fun bound => clamped length bound.toInt

def between (elements : List Ty) (first last : Nat) : List Ty :=
  (elements.zipIdx.filter fun entry => first ≤ entry.2 ∧ entry.2 < last).map Prod.fst

private theorem filter_zipIdx (elements : List Ty) (first last start : Nat) :
    ((elements.zipIdx start).filter fun entry => first ≤ entry.2 ∧ entry.2 < last).map Prod.fst =
      (elements.take (last - start)).drop (first - start) := by
  induction elements generalizing start with
  | nil => simp
  | cons element rest induction =>
      rw [List.zipIdx_cons, List.filter_cons]
      rcases Nat.lt_or_ge start last with before | after
      · have remaining : last - start = (last - (start + 1)) + 1 := by omega
        rw [remaining, List.take_succ_cons]
        rcases Nat.lt_or_ge start first with outside | inside
        · have skipped : first - start = (first - (start + 1)) + 1 := by omega
          rw [skipped, List.drop_succ_cons, ← induction, if_neg (by simp; omega)]
        · have started : first - start = 0 := by omega
          have later : first - (start + 1) = 0 := by omega
          rw [if_pos (by simp; omega), List.map_cons, induction, started, later, List.drop_zero,
            List.drop_zero]
      · have ended : last - start = 0 := by omega
        have later : last - (start + 1) = 0 := by omega
        rw [if_neg (by simp; omega), induction, ended, later, List.take_zero, List.take_zero,
          List.drop_nil, List.drop_nil]

private theorem between_eq_drop_take (elements : List Ty) (first last : Nat) :
    between elements first last = (elements.take last).drop first :=
  filter_zipIdx elements first last 0

/-! ## Positions among words -/

private theorem toInt_max (left right : Int64) :
    (max left right).toInt = max left.toInt right.toInt := by
  change (if left ≤ right then right else left).toInt = _
  rw [apply_ite Int64.toInt, Int.max_def]
  simp only [Int64.le_iff_toInt_le]

private theorem toInt_min (left right : Int64) :
    (min left right).toInt = min left.toInt right.toInt := by
  change (if left ≤ right then left else right).toInt = _
  rw [apply_ite Int64.toInt, Int.min_def]
  simp only [Int64.le_iff_toInt_le]

section Words

variable {length : Nat} (short : length ≤ Int64.maxValue.toInt)

include short

private theorem toInt_length : (Int64.ofNat length).toInt = length := by
  apply Int64.toInt_ofNat_of_lt
  rw [Int64.toInt_maxValue] at short
  omega

/-- Counting from the end does not leave the words. -/
theorem toInt_fromStart (index : Int64) :
    (fromStart (Int64.ofNat length) index).toInt = counted length index.toInt := by
  have least := index.le_toInt
  have bounded := toInt_length short ▸ (Int64.ofNat length).toInt_lt
  simp only [fromStart, counted, Int64.lt_iff_toInt_lt, Int64.toInt_zero]
  split
  · rw [Int64.toInt_add, toInt_length short]
    apply Int.bmod_eq_of_le <;> omega
  · rfl

private theorem tuplePosition?_eq (index : Int64) :
    tuplePosition? length index =
      if 0 ≤ counted length index.toInt ∧ counted length index.toInt < length then
        some (counted length index.toInt).toNat
      else Option.none := by
  simp only [tuplePosition?, if_pos short, Bool.and_eq_true, decide_eq_true_eq,
    Int64.le_iff_toInt_le, Int64.lt_iff_toInt_lt, Int64.toInt_zero, toInt_fromStart short,
    toInt_length short, Int64.toNatClampNeg]

private theorem toInt_clampBound (bound : Int64) :
    (clampBound (Int64.ofNat length) bound).toInt = clamped length bound.toInt := by
  simp only [clampBound, clamped, Int64.lt_iff_toInt_lt, Int64.toInt_zero]
  split
  · rw [toInt_max, Int64.toInt_zero, toInt_fromStart short, counted]
    omega
  · rw [toInt_min, toInt_length short, toInt_fromStart short, counted]
    omega

private theorem exists_slicePosition {written : Option Expr} {bound : Option Int64}
    (spells : Option.Rel Expr.Spells written bound) {default : Int64} {missing : Nat}
    (same : default.toInt = missing) :
    ∃ position, slicePosition? (Int64.ofNat length) default written = some position ∧
      position.toInt = boundPosition length missing bound := by
  cases spells with
  | none => exact ⟨default, rfl, same⟩
  | @some expr bound spells =>
      refine ⟨clampBound (Int64.ofNat length) bound, ?_, toInt_clampBound short bound⟩
      rw [slicePosition?, spells.wordLiteral?_eq, Option.map_some]

end Words

/-! ## Elements and slices -/

section Elements

variable {elements : List Ty} (short : elements.length ≤ Int64.maxValue.toInt)

include short

private theorem tupleElement?_eq (index : Int64) :
    tupleElement? elements index =
      if 0 ≤ counted elements.length index.toInt then
        elements[(counted elements.length index.toInt).toNat]?
      else Option.none := by
  rw [tupleElement?, tuplePosition?_eq short]
  by_cases started : 0 ≤ counted elements.length index.toInt
  · by_cases inside : counted elements.length index.toInt < elements.length
    · rw [if_pos ⟨started, inside⟩, if_pos started, Option.bind_some]
    · rw [if_neg (fun both => inside both.2), if_pos started, Option.bind_none,
        List.getElem?_eq_none (by omega)]
  · rw [if_neg (fun both => started both.1), if_neg started, Option.bind_none]

private theorem tupleSlice_eq {start stop : Option Expr} {first last : Option Int64}
    (startSpells : Option.Rel Expr.Spells start first)
    (stopSpells : Option.Rel Expr.Spells stop last) :
    tupleSlice elements start stop = .tuple (between elements
      (boundPosition elements.length 0 first)
      (boundPosition elements.length elements.length last)) := by
  rcases exists_slicePosition short startSpells Int64.toInt_zero with ⟨lower, isLower, lowerIs⟩
  rcases exists_slicePosition short stopSpells (toInt_length short) with ⟨upper, isUpper, upperIs⟩
  simp only [tupleSlice, isLower, isUpper, between_eq_drop_take, Int64.le_iff_toInt_le,
    Int64.toNatClampNeg, lowerIs, upperIs, Int.toNat_natCast]
  split
  · rfl
  · rw [List.drop_eq_nil_of_le]
    rw [List.length_take]
    omega

end Elements

structure PositionsFit (length : Nat) : Prop where
  counted (index : Int64) :
    (fromStart (Int64.ofNat length) index).toInt = counted length index.toInt
  selected (index : Int64) : ∀ position ∈ tuplePosition? length index, position < length
  clamped (bound : Int64) : 0 ≤ (clampBound (Int64.ofNat length) bound).toInt ∧
    (clampBound (Int64.ofNat length) bound).toInt ≤ length

private theorem positionsFit {length : Nat} (short : length ≤ Int64.maxValue.toInt) :
    PositionsFit length where
  counted := toInt_fromStart short
  selected index position selected := by
    rw [tuplePosition?_eq short] at selected
    split at selected
    · cases selected
      omega
    · cases selected
  clamped bound := by
    rw [toInt_clampBound short, Ty.clamped]
    omega

end Ty

namespace Context

open Ty

variable (context : Context) {base : Expr} {items : List Ty}
  (typed : context.infer base = .tuple items) (short : items.length ≤ Int64.maxValue.toInt)

include typed

private theorem infer_subscript {index : Expr} {position : Int64} (spells : index.Spells position) :
    context.infer (.subscript base index) = orUnknown (tupleElement? items position) := by
  have unfolded : context.infer (.subscript base index) =
      context.env.subscriptType index (context.infer base) := rfl
  rw [unfolded, typed, Environment.subscriptType, spells.wordLiteral?_eq, Option.bind_some]

include short

private theorem infer_slice {start stop : Option Expr} {first last : Option Int64}
    (startSpells : Option.Rel Expr.Spells start first)
    (stopSpells : Option.Rel Expr.Spells stop last) :
    context.infer (.slice base start stop none) = .tuple (between items
      (boundPosition items.length 0 first) (boundPosition items.length items.length last)) := by
  have unfolded : context.infer (.slice base start stop none) =
      sliceType (context.infer base) start stop none := rfl
  rw [unfolded, typed, sliceType, Option.isSome_none, if_neg Bool.false_ne_true,
    tupleSlice_eq short startSpells stopSpells]

/-- The two slices at a cut make up the whole tuple. -/
theorem infer_slices {cut : Expr} {position : Int64} (spells : cut.Spells position) :
    context.infer (.binary .add (.slice base none (some cut) none)
      (.slice base (some cut) none none)) = .tuple items := by
  have unfolded : context.infer (.binary .add (.slice base none (some cut) none)
        (.slice base (some cut) none none)) =
      context.env.binaryType .add (context.infer (.slice base none (some cut) none))
        (context.infer (.slice base (some cut) none none)) := rfl
  rw [unfolded, infer_slice context typed short .none (.some spells),
    infer_slice context typed short (.some spells) .none, between_eq_drop_take,
    between_eq_drop_take]
  have whole : (items.take (clamped items.length position.toInt)).drop 0 ++
      (items.take items.length).drop (clamped items.length position.toInt) = items := by
    rw [List.drop_zero, List.take_length, List.take_append_drop]
  exact congrArg tuple whole

/-- The types of literal subscripts and slices of a tuple are those of the elements that
the language selects: by position, from the end if it is negative, and with the bounds of
slices kept within the tuple. -/
theorem tuple_subscripts_exact :
    (∀ (index : Expr) (position : Int64), index.Spells position →
      (0 ≤ position.toInt → position.toInt < items.length →
        items[position.toInt.toNat]? = some (context.infer (.subscript base index))) ∧
      (-items.length ≤ position.toInt → position.toInt < 0 →
        items[(items.length + position.toInt).toNat]? =
          some (context.infer (.subscript base index))) ∧
      (position.toInt < -items.length ∨ items.length ≤ position.toInt →
        context.infer (.subscript base index) = .unknown)) ∧
    (∀ (start stop : Option Expr) (first last : Option Int64),
      Option.Rel Expr.Spells start first → Option.Rel Expr.Spells stop last →
      context.infer (.slice base start stop none) = .tuple (between items
        (boundPosition items.length 0 first) (boundPosition items.length items.length last))) ∧
    (∀ (cut : Expr) (position : Int64), cut.Spells position →
      context.infer (.binary .add (.slice base none (some cut) none)
        (.slice base (some cut) none none)) = context.infer base) ∧
    PositionsFit items.length := by
  refine ⟨?_, ?_, ?_, positionsFit short⟩
  · intro index position spells
    rw [infer_subscript context typed spells, tupleElement?_eq short]
    refine ⟨?_, ?_, ?_⟩
    · intro started inside
      rw [counted_of_start _ started, if_pos started, List.getElem?_eq_getElem (by omega)]
      rfl
    · intro inside negative
      rw [counted_of_end _ negative, if_pos (by omega), List.getElem?_eq_getElem (by omega)]
      rfl
    · rintro (before | beyond)
      · rw [counted_of_end _ (by omega), if_neg (by omega)]
        rfl
      · rw [counted_of_start _ (by omega), if_pos (by omega), List.getElem?_eq_none (by omega)]
        rfl
  · intro start stop first last startSpells stopSpells
    exact infer_slice context typed short startSpells stopSpells
  · intro cut position spells
    rw [infer_slices context typed short spells, typed]

end Context

def Expr.triple : Expr :=
  .tuple [.literal (.int 7), .literal (.str "a"), .literal (.bool true)]

def Context.bare : Context :=
  Setting.context { config := {} } {}

theorem Context.tuple_subscripts_exact_triple :
    (bare.infer .triple = .tuple [.int, .str .literal, .bool] ∧
      ([Ty.int, .str .literal, .bool].length : Int) ≤ Int64.maxValue.toInt ∧
      (Expr.unary .neg (.literal (.int 1))).Spells (-1) ∧
      (Expr.literal (.int (-9223372036854775808))).Spells Int64.minValue ∧
      (Expr.literal (.int 9223372036854775807)).Spells Int64.maxValue) ∧
    bare.infer (.subscript .triple (.unary .neg (.literal (.int 1)))) = .bool ∧
    bare.infer (.subscript .triple (.literal (.int (-9223372036854775808)))) = .unknown ∧
    bare.infer (.slice .triple (some (.unary .neg (.literal (.int 1))))
      (some (.literal (.int 9223372036854775807))) none) = .tuple [.bool] ∧
    bare.infer (.binary .add
      (.slice .triple none (some (.literal (.int (-9223372036854775808)))) none)
      (.slice .triple (some (.literal (.int (-9223372036854775808)))) none none)) =
        bare.infer .triple := by
  have typed : bare.infer .triple = .tuple [.int, .str .literal, .bool] := rfl
  have short : ([Ty.int, .str .literal, .bool].length : Int) ≤ Int64.maxValue.toInt := by decide
  have last : (Expr.unary .neg (.literal (.int 1))).Spells (-1) := .neg (.literal 1) rfl
  have least : (Expr.literal (.int (-9223372036854775808))).Spells Int64.minValue :=
    .literal Int64.minValue
  have greatest : (Expr.literal (.int 9223372036854775807)).Spells Int64.maxValue :=
    .literal Int64.maxValue
  have selects := tuple_subscripts_exact bare typed short
  refine ⟨⟨typed, short, last, least, greatest⟩, ?_, ?_, ?_, ?_⟩
  · exact (Option.some.inj ((selects.1 _ _ last).2.1 (by decide) (by decide))).symm
  · exact (selects.1 _ _ least).2.2 (.inl (by decide))
  · exact (selects.2.1 _ _ _ _ (.some last) (.some greatest)).trans (by decide)
  · exact selects.2.2.1 _ _ least

end NativeTyping

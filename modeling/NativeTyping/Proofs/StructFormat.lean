import NativeTyping.Library.StructFormat
/-!
Formats of packed data, part by part.

A format is a list of groups, one for each code: how many values the code adds, and of
which type. Reading a format writes its groups out as long as they stay within the limit,
so it makes no difference which code goes past the limit, and the groups of two formats
that are written one after the other are those of the first and then those of the second.

Main statement: the type of a format that is put together from two follows from the types
of the two, no tuple goes past the limit, and a single code with its count has the values
that the code adds.
-/

namespace NativeTyping

namespace StructFormat

/-! ## Groups -/

/-- What each code adds, in order; `count` is the repeat count that is written before the
format. There are no groups if a count in front of a code is out of range. -/
def groups? (count : Option Nat) : List Char → Option (List (Nat × Ty))
  | [] => some []
  | char :: rest =>
      if char.isDigit then groups? (some (count.getD 0 * 10 + (char.toNat - '0'.toNat))) rest
      else if maxCount < count.getD 1 then none
      else (groups? none rest).map (codeFields char (count.getD 1) :: ·)

def writtenOut (groups : List (Nat × Ty)) : List Ty :=
  groups.flatMap fun group => List.replicate group.1 group.2

def limited (fields : List Ty) : Option (List Ty) :=
  if fields.length ≤ maxFields then some fields else none

@[simp] theorem writtenOut_append (first second : List (Nat × Ty)) :
    writtenOut (first ++ second) = writtenOut first ++ writtenOut second :=
  List.flatMap_append

private theorem limited_eq_some_iff {fields kept : List Ty} :
    limited fields = some kept ↔ fields.length ≤ maxFields ∧ fields = kept :=
  Option.ite_none_right_eq_some.trans (and_congr_right fun _ => Option.some_inj)

private theorem limited_append (first second : List Ty) :
    limited (first ++ second) =
      (limited first).bind fun firsts =>
        (limited second).bind fun seconds => limited (firsts ++ seconds) := by
  ext fields
  simp only [Option.bind_eq_some_iff, limited_eq_some_iff, List.length_append]
  constructor
  · rintro ⟨within, rfl⟩
    exact ⟨first, ⟨by omega, rfl⟩, second, ⟨by omega, rfl⟩, within, rfl⟩
  · rintro ⟨_, ⟨_, rfl⟩, _, ⟨_, rfl⟩, within, rfl⟩
    exact ⟨within, rfl⟩

private theorem limited_append_of_lt {fields : List Ty} (past : maxFields < fields.length)
    (more : List Ty) : limited (fields ++ more) = none := by
  have exceeds : limited fields = none := if_neg (Nat.not_le.mpr past)
  rw [limited_append, exceeds, Option.bind_none]

/-- Reading stops at the code that goes past the limit, and whatever follows it, all of the
groups together are past the limit as well. -/
theorem readFrom_eq (format : List Char) (count : Option Nat) {fields : List Ty}
    (within : fields.length ≤ maxFields) :
    readFrom count fields format =
      (groups? count format).bind fun groups => limited (fields ++ writtenOut groups) := by
  induction format generalizing count fields with
  | nil => simp [readFrom, groups?, writtenOut, limited, within]
  | cons char rest induction =>
      rw [readFrom, groups?]
      split
      · exact induction _ within
      split
      · rfl
      generalize codeFields char (count.getD 1) = group
      rcases group with ⟨repeated, type⟩
      have added (groups : List (Nat × Ty)) :
          fields ++ writtenOut ((repeated, type) :: groups) =
            (fields ++ List.replicate repeated type) ++ writtenOut groups := by
        rw [writtenOut, List.flatMap_cons, ← writtenOut, List.append_assoc]
      have size : (fields ++ List.replicate repeated type).length = fields.length + repeated := by
        rw [List.length_append, List.length_replicate]
      simp only [Option.bind_map, Function.comp_def, added]
      split
      · rename_i fits
        exact induction none (size ▸ fits)
      · rename_i exceeds
        have past : maxFields < (fields ++ List.replicate repeated type).length := by omega
        simp only [limited_append_of_lt past, Option.bind_fun_none]

private theorem fields?_eq (format : List Char) :
    fields? format = (groups? none format).bind fun groups => limited (writtenOut groups) :=
  readFrom_eq format none (Nat.zero_le maxFields)

/-! ## Formats written one after the other -/

private theorem groups?_append_code {code : Char} (isCode : code.isDigit = false)
    (count : Option Nat) (before after : List Char) :
    groups? count (before ++ code :: after) =
      (groups? count (before ++ [code])).bind fun first =>
        (groups? none after).map (first ++ ·) := by
  induction before generalizing count with
  | nil =>
      simp only [List.nil_append, groups?, isCode, Bool.false_eq_true, if_false]
      split
      · rfl
      · rfl
  | cons char before induction =>
      simp only [List.cons_append, groups?, induction]
      split
      · rfl
      split
      · rfl
      · simp [Option.map_bind, Option.bind_map, Function.comp_def]

private theorem groups?_append {first : List Char}
    (complete : ∀ char ∈ first.getLast?, char.isDigit = false) (second : List Char) :
    groups? none (first ++ second) =
      (groups? none first).bind fun groups => (groups? none second).map (groups ++ ·) := by
  rcases List.eq_nil_or_concat first with rfl | ⟨before, code, rfl⟩
  · simp [groups?]
  · have isCode : code.isDigit = false := complete code (by simp)
    rw [List.concat_eq_append, List.append_assoc, List.singleton_append]
    exact groups?_append_code isCode none before second

/-- Two formats, the first of them ending in a code, unpack to the values of both, within
the limit for one. -/
theorem fields?_append {first : List Char}
    (complete : ∀ char ∈ first.getLast?, char.isDigit = false) (second : List Char) :
    fields? (first ++ second) =
      (fields? first).bind fun firsts =>
        (fields? second).bind fun seconds => limited (firsts ++ seconds) := by
  simp only [fields?_eq, groups?_append complete]
  cases groups? none first with
  | none => rfl
  | some firsts =>
      cases groups? none second with
      | none => simp
      | some seconds =>
          simp only [Option.bind_some, Option.map_some, writtenOut_append]
          exact limited_append _ _

/-! ## Single codes -/

def withDigit (count : Nat) (digit : Char) : Nat :=
  count * 10 + (digit.toNat - '0'.toNat)

def countOf : List Char → Nat
  | [] => 1
  | digits => digits.foldl withDigit 0

private theorem groups?_digits {digits : List Char}
    (written : ∀ digit ∈ digits, digit.isDigit = true) (count : Nat) (rest : List Char) :
    groups? (some count) (digits ++ rest) = groups? (some (digits.foldl withDigit count)) rest := by
  induction digits generalizing count with
  | nil => rfl
  | cons digit digits induction =>
      rw [List.forall_mem_cons] at written
      rw [List.cons_append, groups?, if_pos written.1]
      exact induction written.2 _

private theorem groups?_counted {digits : List Char}
    (written : ∀ digit ∈ digits, digit.isDigit = true)
    {code : Char} (isCode : code.isDigit = false) :
    groups? none (digits ++ [code]) =
      if countOf digits ≤ maxCount then some [codeFields code (countOf digits)] else none := by
  have last (count : Option Nat) : groups? count [code] =
      if count.getD 1 ≤ maxCount then some [codeFields code (count.getD 1)] else none := by
    rw [groups?, if_neg (Bool.eq_false_iff.mp isCode)]
    simp only [← Nat.not_le, ite_not]
    rfl
  cases digits with
  | nil => exact last none
  | cons digit digits =>
      rw [List.forall_mem_cons] at written
      rw [List.cons_append, groups?, if_pos written.1]
      exact (groups?_digits written.2 _ [code]).trans (last _)

private theorem fields?_counted {digits : List Char}
    (written : ∀ digit ∈ digits, digit.isDigit = true)
    {code : Char} (isCode : code.isDigit = false) :
    fields? (digits ++ [code]) =
      if countOf digits ≤ maxCount then
        limited (List.replicate (codeFields code (countOf digits)).1
          (codeFields code (countOf digits)).2)
      else none := by
  rw [fields?_eq, groups?_counted written isCode]
  split
  · simp [writtenOut]
  · rfl

private theorem length_le_of_fields? {format : List Char} {fields : List Ty}
    (read : fields? format = some fields) : fields.length ≤ maxFields := by
  rw [fields?_eq, Option.bind_eq_some_iff] at read
  rcases read with ⟨groups, -, kept⟩
  rw [limited_eq_some_iff] at kept
  exact kept.2 ▸ kept.1

end StructFormat

/-! ## Types of formats -/

namespace Ty

open StructFormat

private theorem ofStructFormat_eq_tuple_iff {format : List Char} {fields : List Ty} :
    ofStructFormat format = .tuple fields ↔ fields? format = some fields := by
  unfold ofStructFormat
  cases fields? format <;> simp

private theorem ofStructFormat_eq_unknown_iff {format : List Char} :
    ofStructFormat format = .unknown ↔ fields? format = Option.none := by
  unfold ofStructFormat
  cases fields? format <;> simp

/-- A single code, with the digits of its count in front, is a tuple of as many values as the
code adds, unless the count is out of range or the values go past the limit. -/
theorem ofStructFormat_counted {digits : List Char}
    (written : ∀ digit ∈ digits, digit.isDigit = true) {code : Char}
    (isCode : code.isDigit = false) :
    ofStructFormat (digits ++ [code]) =
      if countOf digits ≤ maxCount ∧ (codeFields code (countOf digits)).1 ≤ maxFields then
        .tuple (List.replicate (codeFields code (countOf digits)).1
          (codeFields code (countOf digits)).2)
      else .unknown := by
  split
  · rename_i fits
    rw [ofStructFormat_eq_tuple_iff, fields?_counted written isCode, if_pos fits.1,
      limited_eq_some_iff, List.length_replicate]
    exact ⟨fits.2, rfl⟩
  · rename_i exceeds
    rw [ofStructFormat_eq_unknown_iff, fields?_counted written isCode, ite_eq_right_iff]
    intro inRange
    refine if_neg fun within => exceeds ⟨inRange, ?_⟩
    rwa [List.length_replicate] at within

/-- A format that is written after another one, where no count is left over between the two,
adds its values to those of the other, as long as all of them are within the limit. In every
other case the type is unknown. However large the counts are, a tuple stays within the
limit. Every format is put together in this way from single codes with their counts, and of
these each has the values that the code adds, so that the type of every format follows. -/
theorem ofStructFormat_append (first second : List Char)
    (complete : ∀ char ∈ first.getLast?, char.isDigit = false) :
    (∀ firsts seconds, ofStructFormat first = .tuple firsts →
      ofStructFormat second = .tuple seconds → firsts.length + seconds.length ≤ maxFields →
        ofStructFormat (first ++ second) = .tuple (firsts ++ seconds)) ∧
    ((¬ ∃ firsts seconds, ofStructFormat first = .tuple firsts ∧
      ofStructFormat second = .tuple seconds ∧ firsts.length + seconds.length ≤ maxFields) →
        ofStructFormat (first ++ second) = .unknown) ∧
    (∀ format fields, ofStructFormat format = .tuple fields → fields.length ≤ maxFields) ∧
    ∀ digits code, (∀ digit ∈ digits, digit.isDigit = true) → code.isDigit = false →
      ofStructFormat (digits ++ [code]) =
        if countOf digits ≤ maxCount ∧ (codeFields code (countOf digits)).1 ≤ maxFields then
          .tuple (List.replicate (codeFields code (countOf digits)).1
            (codeFields code (countOf digits)).2)
        else .unknown := by
  refine ⟨?_, ?_, ?_, fun _ _ written isCode => ofStructFormat_counted written isCode⟩
  · simp only [ofStructFormat_eq_tuple_iff]
    intro firsts seconds isFirst isSecond within
    rw [fields?_append complete, isFirst, isSecond, Option.bind_some, Option.bind_some,
      limited_eq_some_iff, List.length_append]
    exact ⟨within, rfl⟩
  · simp only [ofStructFormat_eq_tuple_iff, ofStructFormat_eq_unknown_iff]
    intro apart
    simp only [fields?_append complete, Option.bind_eq_none_iff]
    intro firsts isFirst seconds isSecond
    refine if_neg fun within => apart ⟨firsts, seconds, isFirst, isSecond, ?_⟩
    rwa [List.length_append] at within
  · intro format fields isTuple
    exact length_le_of_fields? (ofStructFormat_eq_tuple_iff.mp isTuple)

theorem ofStructFormat_append_limit :
    (∀ char ∈ "3x255i".toList.getLast?, char.isDigit = false) ∧
    ofStructFormat ("3x255i".toList ++ "9s".toList) = .tuple (List.replicate 255 .int ++ [text]) ∧
    ofStructFormat ("3x255i".toList ++ "2?".toList) = .unknown := by
  have complete : ∀ char ∈ "3x255i".toList.getLast?, char.isDigit = false := by
    have last : "3x255i".toList.getLast? = some 'i' := rfl
    intro char isLast
    rw [last, Option.mem_some_iff] at isLast
    rw [← isLast]
    rfl
  have numbers : ofStructFormat "3x255i".toList = .tuple (List.replicate 255 .int) := rfl
  have booleans : ofStructFormat "2?".toList = .tuple [.bool, .bool] := rfl
  refine ⟨complete, ?_, ?_⟩
  · have within : (List.replicate 255 Ty.int).length + [text].length ≤ maxFields := by
      rw [List.length_replicate]
      decide
    exact (ofStructFormat_append _ "9s".toList complete).1 _ [text] numbers rfl within
  · apply (ofStructFormat_append _ "2?".toList complete).2.1
    rintro ⟨firsts, seconds, isFirst, isSecond, within⟩
    have sameFirst : List.replicate 255 Ty.int = firsts := tuple.inj (numbers.symm.trans isFirst)
    have sameSecond : [Ty.bool, Ty.bool] = seconds := tuple.inj (booleans.symm.trans isSecond)
    rw [← sameFirst, ← sameSecond, List.length_replicate] at within
    exact absurd within (by decide)

end Ty

end NativeTyping

import NativeTyping.Proofs.Hint.Application
import NativeTyping.Proofs.Widening
/-!
The three spellings of an optional: `Optional[X]`, `X | None` and `Union[X, None]`.

The first wraps the type of `X`. The second puts `None` beside the members of `X`, and the
third beside the type of `X` as a whole. So they give one type exactly if no member of `X`
denotes `None`. Otherwise a union is made optional twice by all but the second, and a hint that
denotes `None` itself is forgotten by all but the first.
-/

namespace NativeTyping

namespace Hint

open Text

def memberTypes (written : List Char) : List Ty :=
  (splitTopLevel '|' (unquote written)).map denote

/-! ## Quotes -/

private theorem isQuote_cases {char : Char} (quote : isQuote char = true) :
    isOpening char = false ∧ isClosing char = false ∧ isBlank char = false ∧ char ≠ '|' := by
  have either : char = '\x22' ∨ char = '\x27' := by simpa [isQuote] using quote
  rcases either with rfl | rfl <;> decide

private theorem not_isQuote_of_isBlank {char : Char} (blank : isBlank char = true) :
    isQuote char = false := by
  rw [Bool.eq_false_iff]
  intro quote
  rw [(isQuote_cases quote).2.2.1] at blank
  exact Bool.false_ne_true blank

section Quotes

variable {quotes : List Char} (quoted : ∀ char ∈ quotes, isQuote char = true)

include quoted

private theorem trim_append_quotes {text : List Char}
    (last : ∀ char ∈ text.getLast?, isBlank char = false) :
    trim (text ++ quotes) = trim text ++ quotes := by
  have notBlank : ∀ char ∈ quotes, isBlank char = false :=
    fun char member => (isQuote_cases (quoted char member)).2.2.1
  have front : (text ++ quotes).dropWhile isBlank = text.dropWhile isBlank ++ quotes :=
    dropWhile_append_kept fun char first => notBlank char (List.mem_of_mem_head? first)
  have back : ∀ char ∈ (text.dropWhile isBlank).getLast?, isBlank char = false :=
    fun char ends => last char (mem_getLast?_of_suffix (List.dropWhile_suffix _) char ends)
  have whole : ∀ char ∈ (text.dropWhile isBlank ++ quotes).getLast?, isBlank char = false := by
    intro char ends
    rw [List.getLast?_append, Option.mem_def, Option.or_eq_some_iff] at ends
    rcases ends with inQuotes | ⟨-, inText⟩
    · exact notBlank char (List.mem_of_mem_getLast? inQuotes)
    · exact back char inText
  rw [trim, trim, trimWhile, trimWhile, front, dropWhileEnd_eq_self whole,
    dropWhileEnd_eq_self back]

private theorem denote_append_quotes {text : List Char}
    (last : ∀ char ∈ text.getLast?, isBlank char = false) :
    denote (text ++ quotes) = denote text := by
  have same : unquote (text ++ quotes) = unquote text := by
    rw [unquote, unquote, trim_append_quotes quoted last, trimWhile_back quoted]
  rw [denote_eq, denote_eq text, denoteStep, denoteStep, same]

private theorem map_denote_append_quotes {hint : List Char}
    (last : ∀ char ∈ hint.getLast?, isBlank char = false) :
    (splitTopLevel '|' (hint ++ quotes)).map denote = (splitTopLevel '|' hint).map denote := by
  have plain : ∀ char ∈ quotes,
      isOpening char = false ∧ isClosing char = false ∧ char ≠ '|' := by
    intro char member
    obtain ⟨opening, closing, -, different⟩ := isQuote_cases (quoted char member)
    exact ⟨opening, closing, different⟩
  obtain ⟨earlier, piece, inHint, whole, extended⟩ := splitFrom_append_plain plain 0 hint
  have ends : ∀ char ∈ piece.getLast?, isBlank char = false :=
    fun char ends => last char (mem_getLast?_of_suffix inHint char ends)
  simp only [splitTopLevel, whole, extended, List.map_append, List.map_singleton, denote_trim,
    denote_append_quotes quoted ends]

end Quotes

/-! ## Outer blanks and quotes -/

private def dropOuter (text : List Char) : List Char :=
  (text.dropWhile isBlank).dropWhile isQuote

private theorem unquote_append {text rest : List Char} (nonempty : rest ≠ [])
    (first : ∀ char ∈ rest.head?, isBlank char = false ∧ isQuote char = false)
    (last : ∀ char ∈ rest.getLast?, isBlank char = false ∧ isQuote char = false) :
    unquote (text ++ rest) = dropOuter text ++ rest := by
  have noBlank : (text ++ rest).dropWhile isBlank = text.dropWhile isBlank ++ rest :=
    dropWhile_append_kept fun char ends => (first char ends).1
  have noQuote : (text.dropWhile isBlank ++ rest).dropWhile isQuote = dropOuter text ++ rest :=
    dropWhile_append_kept fun char ends => (first char ends).2
  have back : ∀ front : List Char, ∀ char ∈ (front ++ rest).getLast?,
      isBlank char = false ∧ isQuote char = false := by
    intro front char ends
    rw [List.getLast?_append_of_ne_nil _ nonempty] at ends
    exact last char ends
  rw [unquote, trim, trimWhile, trimWhile, noBlank,
    dropWhileEnd_eq_self fun char ends => (back _ char ends).1, noQuote,
    dropWhileEnd_eq_self fun char ends => (back _ char ends).2]

private theorem exists_dropOuter (text : List Char) :
    ∃ quotes blanks, (∀ char ∈ quotes, isQuote char = true) ∧
      (∀ char ∈ blanks, isBlank char = true) ∧
      dropOuter text = unquote text ++ quotes ++ blanks := by
  have blank : ∀ char ∈ (text.dropWhile isBlank).rtakeWhile isBlank, isBlank char = true :=
    fun char member => List.mem_rtakeWhile_imp member
  refine ⟨((trim text).dropWhile isQuote).rtakeWhile isQuote,
    (text.dropWhile isBlank).rtakeWhile isBlank, fun char member => List.mem_rtakeWhile_imp member,
    blank, ?_⟩
  have blanks : text.dropWhile isBlank =
      trim text ++ (text.dropWhile isBlank).rtakeWhile isBlank := by
    rw [trim, trimWhile, dropWhileEnd_eq_rdropWhile, List.rdropWhile_append_rtakeWhile]
  have quotes : (trim text).dropWhile isQuote =
      unquote text ++ ((trim text).dropWhile isQuote).rtakeWhile isQuote := by
    rw [unquote, trimWhile, dropWhileEnd_eq_rdropWhile, List.rdropWhile_append_rtakeWhile]
  calc dropOuter text
      = (trim text ++ (text.dropWhile isBlank).rtakeWhile isBlank).dropWhile isQuote := by
        rw [dropOuter, ← blanks]
    _ = (trim text).dropWhile isQuote ++ (text.dropWhile isBlank).rtakeWhile isBlank :=
        dropWhile_append_kept fun char first =>
          not_isQuote_of_isBlank (blank char (List.mem_of_mem_head? first))
    _ = _ := by rw [← quotes]

private theorem closes_dropWhile {drop : Char → Bool}
    (plain : ∀ char, drop char = true → isOpening char = false ∧ isClosing char = false)
    {text : List Char} (closed : closes (fun _ => false) 0 text = true) :
    closes (fun _ => false) 0 (text.dropWhile drop) = true := by
  have front : closes (fun _ => false) 0 (text.takeWhile drop) = true :=
    closes_of_forall fun char member =>
      ⟨(plain char (List.mem_takeWhile_imp member)).1,
        (plain char (List.mem_takeWhile_imp member)).2, rfl⟩
  have scanned : closes (fun _ => false) (0 + 0) (text.takeWhile drop ++ text.dropWhile drop) =
      closes (fun _ => false) 0 (text.dropWhile drop) :=
    closes_append front (fun _ _ same => same) _
  rwa [List.takeWhile_append_dropWhile, closed, eq_comm] at scanned

private theorem closes_dropOuter {text : List Char}
    (closed : closes (fun _ => false) 0 text = true) :
    closes (fun _ => false) 0 (dropOuter text) = true := by
  apply closes_dropWhile
  · intro char quote
    exact ⟨(isQuote_cases quote).1, (isQuote_cases quote).2.1⟩
  · exact closes_dropWhile (fun _ => not_bracket_of_isBlank) closed

/-! ## Unions with `None` -/

private theorem union_append_none (types : List Ty) :
    union (types ++ [.none]) = .optional (Ty.widenAll (types.filter (· ≠ .none))) := by
  simp [union]

private theorem union_of_mem_none {types : List Ty} (member : .none ∈ types) :
    union types = .optional (Ty.widenAll (types.filter (· ≠ .none))) := by
  rw [union, if_pos (by simpa using member)]

private theorem union_of_not_mem_none {types : List Ty} (free : .none ∉ types) :
    union types = Ty.widenAll (types.filter (· ≠ .none)) := by
  rw [union, if_neg (by simpa using free)]

private theorem ne_optional_self (type : Ty) : type ≠ .optional type := by
  intro same
  have sizes := congrArg sizeOf same
  simp at sizes

/-! ## Three spellings -/

section Spellings

variable {hint : List Char}

private theorem memberTypes_ne_nil (hint : List Char) : memberTypes hint ≠ [] := by
  rw [memberTypes, splitTopLevel, ne_eq, List.map_eq_nil_iff, List.map_eq_nil_iff]
  exact splitFrom_ne_nil _ _ _

private theorem denote_of_memberTypes (several : 1 < (memberTypes hint).length) :
    denote hint = union (memberTypes hint) := by
  rw [memberTypes, List.length_map] at several
  apply denote_of_members _ several
  intro none
  rw [none] at several
  exact absurd several (by decide)

variable (inside : trim (unquote hint) = unquote hint)

include inside

private theorem denote_of_memberTypes_single {type : Ty} (single : memberTypes hint = [type]) :
    denote hint = type := by
  rw [memberTypes, splitTopLevel, List.map_map, List.map_eq_singleton_iff] at single
  obtain ⟨piece, uncut, isType⟩ := single
  rw [Function.comp_apply, eq_of_splitFrom_singleton uncut, denote_trim] at isType
  have again : unquote (unquote hint) = unquote hint := by
    rw [unquote, inside]
    exact trimWhile_eq_self head?_trimWhile getLast?_trimWhile
  rw [← isType, denote_eq, denote_eq (unquote hint), denoteStep, denoteStep, again]

private theorem denote_cases :
    memberTypes hint = [denote hint] ∨ denote hint = union (memberTypes hint) := by
  cases types : memberTypes hint with
  | nil => exact absurd types (memberTypes_ne_nil hint)
  | cons type others =>
      cases others with
      | nil => exact .inl (by rw [denote_of_memberTypes_single inside types])
      | cons next others =>
          rw [← types]
          exact .inr (denote_of_memberTypes (by simp [types]))

private theorem denote_of_not_mem_none (free : .none ∉ memberTypes hint) :
    denote hint = Ty.widenAll ((memberTypes hint).filter (· ≠ .none)) := by
  rcases denote_cases inside with single | several
  · have notNone : denote hint ≠ .none := by
      intro isNone
      rw [single, isNone] at free
      exact free List.mem_cons_self
    rw [single]
    simp [notNone, Ty.widenAll]
  · rw [several, union_of_not_mem_none free]

/-- `None` among the members keeps the type of a hint from being what it adds to `None`. -/
theorem denote_of_mem_none (member : .none ∈ memberTypes hint) :
    denote hint ≠ Ty.widenAll ((memberTypes hint).filter (· ≠ .none)) := by
  rcases denote_cases inside with single | several
  · rw [single, List.mem_singleton] at member
    rw [single, ← member]
    decide
  · rw [several, union_of_mem_none member]
    exact (ne_optional_self _).symm

private theorem map_denote_dropOuter :
    (splitTopLevel '|' (dropOuter (hint ++ [' ']))).map denote = memberTypes hint := by
  have same : unquote (hint ++ [' ']) = unquote hint := by
    rw [unquote, unquote, trim_append_blanks (List.forall_mem_singleton.mpr rfl)]
  have last : ∀ char ∈ (unquote hint).getLast?, isBlank char = false := by
    rw [← inside]
    exact getLast?_trimWhile
  obtain ⟨quotes, blanks, quoted, blank, whole⟩ := exists_dropOuter (hint ++ [' '])
  rw [whole, same, splitTopLevel_append_blanks rfl blank, map_denote_append_quotes quoted last,
    memberTypes]

variable (argument : isArgument hint = true)

include argument

omit inside in
private theorem denote_optional : denote (applied "Optional" [hint]) = .optional (denote hint) := by
  rw [denote_applied (by decide) (List.forall_mem_singleton.mpr argument) (List.cons_ne_nil _ _)]
  simp only [denoteApplication, List.map_singleton]
  rw [← denote_trim hint]
  rfl

omit inside in
private theorem denote_unionNone :
    denote (applied "Union" [hint, "None".toList]) = union [denote hint, .none] := by
  have arguments : ∀ text ∈ [hint, "None".toList], isArgument text = true := by
    simpa using ⟨argument, by decide⟩
  have isNone : denote (trim "None".toList) = .none := by decide
  rw [denote_applied (by decide) arguments (List.cons_ne_nil _ _)]
  simp only [denoteApplication, List.map_cons, List.map_nil, isNone, denote_trim]
  rfl

private theorem denote_barNone :
    denote (hint ++ " | None".toList) = union (memberTypes hint ++ [.none]) := by
  have outer : unquote (hint ++ " | None".toList) =
      dropOuter (hint ++ [' ']) ++ "| None".toList := by
    have parted : hint ++ " | None".toList = (hint ++ [' ']) ++ "| None".toList := by simp
    rw [parted]
    apply unquote_append (by decide)
    · simp
      decide
    · simp
      decide
  have closed : closes (fun _ => false) 0 (dropOuter (hint ++ [' '])) = true :=
    closes_dropOuter (closes_append_closes (closes_of_closes argument nofun) (by decide))
  have members : memberTypes (hint ++ " | None".toList) = memberTypes hint ++ [.none] := by
    have cut : splitTopLevel '|' (dropOuter (hint ++ [' ']) ++ '|' :: " None".toList) =
        splitTopLevel '|' (dropOuter (hint ++ [' '])) ++ splitTopLevel '|' " None".toList :=
      splitTopLevel_balanced_append rfl rfl closed _
    have isNone : (splitTopLevel '|' " None".toList).map denote = [.none] := by decide
    rw [memberTypes, outer, ← map_denote_dropOuter inside, ← isNone, ← List.map_append, ← cut]
    rfl
  have several : 1 < (memberTypes (hint ++ " | None".toList)).length := by
    have some := List.length_pos_of_ne_nil (memberTypes_ne_nil hint)
    rw [members, List.length_append, List.length_singleton]
    omega
  rw [denote_of_memberTypes several, members]

end Spellings

end Hint

/-! ## Agreement -/

open Hint Text

/-- The three spellings of an optional agree exactly if no member of the hint denotes `None`.
The first and the last agree also if the hint is a union with `None` among its members. -/
theorem Ty.ofHint_optional_spellings {hint : String} (argument : isArgument hint.toList = true)
    (inside : trim (unquote hint.toList) = unquote hint.toList) :
    (Ty.ofHint ("Optional[" ++ hint ++ "]") = Ty.ofHint (hint ++ " | None") ∧
        Ty.ofHint (hint ++ " | None") = Ty.ofHint ("Union[" ++ hint ++ ", None]") ↔
      .none ∉ memberTypes hint.toList) ∧
    (Ty.ofHint ("Optional[" ++ hint ++ "]") = Ty.ofHint ("Union[" ++ hint ++ ", None]") ↔
      Ty.ofHint hint ≠ .none) ∧
    Ty.ofHint ("Optional[" ++ hint ++ "]") = .optional (Ty.ofHint hint) ∧
    Ty.ofHint (hint ++ " | None") =
      .optional (Ty.widenAll ((memberTypes hint.toList).filter (· ≠ .none))) := by
  have wrapped : Ty.ofHint ("Optional[" ++ hint ++ "]") = .optional (Ty.ofHint hint) := by
    have text : ("Optional[" ++ hint ++ "]").toList = applied "Optional" [hint.toList] := by
      simp [applied, bracketed]
    have read := denote_optional argument
    rw [← text] at read
    exact read
  have beside : Ty.ofHint (hint ++ " | None") =
      .optional (Ty.widenAll ((memberTypes hint.toList).filter (· ≠ .none))) := by
    have text : (hint ++ " | None").toList = hint.toList ++ " | None".toList := by simp
    have read := denote_barNone inside argument
    rw [← text, union_append_none] at read
    exact read
  have joined : Ty.ofHint ("Union[" ++ hint ++ ", None]") =
      .optional (Ty.widenAll ([Ty.ofHint hint].filter (· ≠ .none))) := by
    have text : ("Union[" ++ hint ++ ", None]").toList =
        applied "Union" [hint.toList, "None".toList] := by
      simp [applied, bracketed]
    have read := denote_unionNone argument
    rw [← text, ← List.singleton_append, union_append_none] at read
    exact read
  have outer : Ty.ofHint ("Optional[" ++ hint ++ "]") = Ty.ofHint ("Union[" ++ hint ++ ", None]") ↔
      Ty.ofHint hint ≠ .none := by
    rw [wrapped, joined, Ty.optional.injEq]
    by_cases none : Ty.ofHint hint = .none
    · simp [none, Ty.widenAll]
    · simp [none, Ty.widenAll]
  refine ⟨?_, outer, wrapped, beside⟩
  constructor
  · intro agree member
    have same := agree.1
    rw [wrapped, beside, Ty.optional.injEq] at same
    exact denote_of_mem_none inside member same
  · intro free
    have merged : Ty.ofHint hint =
        Ty.widenAll ((memberTypes hint.toList).filter (· ≠ .none)) :=
      denote_of_not_mem_none inside free
    have notNone : Ty.ofHint hint ≠ .none := by
      rw [merged]
      exact Ty.widenAll_ne_none (by simp)
    have first : Ty.ofHint ("Optional[" ++ hint ++ "]") = Ty.ofHint (hint ++ " | None") := by
      rw [wrapped, beside, merged]
    exact ⟨first, first.symm.trans (outer.mpr notNone)⟩

theorem Ty.ofHint_optional_spellings_nested :
    .none ∉ memberTypes "dict[str, int | None] | 'Shelf'".toList ∧
    Ty.ofHint "Optional[dict[str, int | None] | 'Shelf']" =
      Ty.ofHint "dict[str, int | None] | 'Shelf' | None" ∧
    Ty.ofHint "dict[str, int | None] | 'Shelf' | None" =
      Ty.ofHint "Union[dict[str, int | None] | 'Shelf', None]" := by
  have argument : isArgument "dict[str, int | None] | 'Shelf'".toList = true := by decide
  have inside : trim (unquote "dict[str, int | None] | 'Shelf'".toList) =
      unquote "dict[str, int | None] | 'Shelf'".toList := by decide
  have free : .none ∉ memberTypes "dict[str, int | None] | 'Shelf'".toList := by decide +kernel
  exact ⟨free, (Ty.ofHint_optional_spellings argument inside).1.mpr free⟩

/-- A union with `None` is made optional twice. -/
theorem Ty.ofHint_optional_union :
    isArgument "int | None".toList = true ∧
    trim (unquote "int | None".toList) = unquote "int | None".toList ∧
    Ty.ofHint "Optional[int | None]" = .optional (.optional .int) ∧
    Ty.ofHint "int | None | None" = .optional .int ∧
    Ty.ofHint "Union[int | None, None]" = .optional (.optional .int) := by
  decide +kernel

end NativeTyping

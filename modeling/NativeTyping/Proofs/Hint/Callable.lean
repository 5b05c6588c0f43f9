import NativeTyping.Proofs.Hint.Application
/-!
Hints of callables: the hints of the parameters in brackets, and the hint of the result.

The list of parameters is laid open by taking all closing square brackets off its end, and not
only its own. So a callable keeps the type of every parameter before the last one. The last one
is read without the brackets that its hint ends with: it keeps its type if there are none.
-/

namespace NativeTyping

namespace Hint

open Text

def callableHint (params : List String) (result : String) : String :=
  "Callable[[" ++ ", ".intercalate params ++ "], " ++ result ++ "]"

private theorem toList_callableHint (params : List String) (result : String) :
    (callableHint params result).toList =
      applied "Callable" [bracketed (params.map String.toList), result.toList] := by
  simp [callableHint, applied, bracketed]

/-! ## Closing brackets at the end -/

def withoutClosing (text : List Char) : List Char :=
  dropWhileEnd (· = ']') text

private theorem withoutClosing_concat (text : List Char) :
    withoutClosing (text ++ [']']) = withoutClosing text := by
  rw [withoutClosing, withoutClosing, dropWhileEnd_eq_rdropWhile, dropWhileEnd_eq_rdropWhile,
    List.rdropWhile_concat_pos _ _ _ (by decide)]

private theorem withoutClosing_append (front : List Char) {text : List Char}
    (some : withoutClosing text ≠ []) :
    withoutClosing (front ++ text) = front ++ withoutClosing text := by
  rw [withoutClosing, dropWhileEnd_eq_rdropWhile, List.rdropWhile, ne_eq,
    List.reverse_eq_nil_iff] at some
  rw [withoutClosing, withoutClosing, dropWhileEnd_eq_rdropWhile, dropWhileEnd_eq_rdropWhile,
    List.rdropWhile, List.rdropWhile, List.reverse_append, List.dropWhile_append,
    if_neg (by simpa using some), List.reverse_append, List.reverse_reverse]

private theorem withoutClosing_eq_self {text : List Char} (plain : text.getLast? ≠ some ']') :
    withoutClosing text = text := by
  apply dropWhileEnd_eq_self
  intro char last
  rw [decide_eq_false_iff_not]
  intro closing
  rw [closing] at last
  exact plain last

private theorem exists_append_withoutClosing (text : List Char) :
    ∃ taken : List Char, (∀ char ∈ taken, char = ']') ∧ withoutClosing text ++ taken = text := by
  refine ⟨text.rtakeWhile (fun char => decide (char = ']')), ?_, ?_⟩
  · intro char member
    simpa using List.mem_rtakeWhile_imp member
  · rw [withoutClosing, dropWhileEnd_eq_rdropWhile, List.rdropWhile_append_rtakeWhile]

section Argument

variable {text : List Char} (argument : isArgument text = true)

include argument

private theorem splitTopLevel_withoutClosing :
    splitTopLevel ',' (withoutClosing text) = [trim (withoutClosing text)] := by
  obtain ⟨taken, -, whole⟩ := exists_append_withoutClosing text
  rw [isArgument, ← whole] at argument
  exact splitTopLevel_of_closes_append argument

/-- An argument has something before the closing brackets at its end, since it opens them. -/
theorem trim_withoutClosing_ne_nil (some : trim text ≠ []) : trim (withoutClosing text) ≠ [] := by
  intro none
  obtain ⟨taken, brackets, whole⟩ := exists_append_withoutClosing text
  have blank := trimWhile_eq_nil_iff.mp none
  have noComma : ∀ char, isBlank char = true → (char == ',') = false := by
    intro char isBlank
    rw [beq_eq_false_iff_ne]
    intro comma
    rw [comma] at isBlank
    exact absurd isBlank (by decide)
  have closed : closes (fun char => char == ',') 0 (withoutClosing text) = true :=
    closes_of_blanks noComma blank
  have scanned : closes (fun char => char == ',') (0 + 0) (withoutClosing text ++ taken) =
      closes (fun char => char == ',') 0 taken :=
    closes_append closed (fun _ _ same => same) taken
  cases taken with
  | nil =>
      rw [List.append_nil] at whole
      rw [whole] at none
      exact some none
  | cons bracket others =>
      obtain rfl := brackets bracket List.mem_cons_self
      rw [whole] at scanned
      rw [isArgument, scanned] at argument
      exact Bool.false_ne_true argument

end Argument

/-! ## Parameters -/

private theorem callableParams_eq (params : List Char) :
    callableParams params =
      (splitTopLevel ',' (withoutClosing ((trim params).dropWhile (· = '[')))).filter
        fun param => !(trim param).isEmpty := rfl

private theorem trim_bracketed (texts : List (List Char)) :
    trim (bracketed texts) = bracketed texts := by
  apply trimWhile_eq_self
  · intro char first
    obtain rfl : '[' = char := by simpa [bracketed] using first
    decide
  · intro char last
    rw [bracketed, ← List.cons_append, List.getLast?_concat, Option.mem_some_iff] at last
    obtain rfl := last
    decide

private theorem dropWhile_bracketed {texts : List (List Char)}
    (opening : ∀ text ∈ texts.head?, text ≠ [] ∧ text.head? ≠ some '[') :
    (bracketed texts).dropWhile (fun char => decide (char = '[')) =
      [',', ' '].intercalate texts ++ [']'] := by
  rw [bracketed, List.dropWhile_cons_of_pos (by decide)]
  apply dropWhile_eq_self
  intro char first
  rw [decide_eq_false_iff_not]
  intro bracket
  rw [bracket] at first
  cases texts with
  | nil => simp at first
  | cons text rest =>
      obtain ⟨nonempty, plain⟩ := opening text rfl
      have same : ([',', ' '].intercalate (text :: rest) ++ [']']).head? = text.head? := by
        cases text with
        | nil => exact absurd rfl nonempty
        | cons char more => cases rest <;> simp [List.intercalate_cons_cons]
      rw [same] at first
      exact plain first

private theorem callableParams_nil : callableParams (bracketed []) = [] := by
  decide

section Bracketed

variable {earlier : List (List Char)} {last : List Char}
  (arguments : ∀ text ∈ earlier ++ [last], isArgument text = true)
  (nonblank : ∀ text ∈ earlier ++ [last], trim text ≠ [])

include arguments nonblank

private theorem withoutClosing_intercalate :
    withoutClosing ([',', ' '].intercalate (earlier ++ [last])) =
      [',', ' '].intercalate (earlier ++ [withoutClosing last]) := by
  have isLast : last ∈ earlier ++ [last] := by simp
  have kept : withoutClosing last ≠ [] := by
    intro none
    have some := trim_withoutClosing_ne_nil (arguments last isLast) (nonblank last isLast)
    rw [none] at some
    exact some rfl
  cases earlier with
  | nil => rw [List.nil_append, List.nil_append, List.intercalate_singleton,
      List.intercalate_singleton]
  | cons text rest =>
      rw [intercalate_append _ (List.cons_ne_nil _ _) (List.cons_ne_nil _ _),
        intercalate_append _ (List.cons_ne_nil _ _) (List.cons_ne_nil _ _),
        List.intercalate_singleton, List.intercalate_singleton, ← List.append_assoc,
        withoutClosing_append _ kept, List.append_assoc]

omit nonblank in
private theorem splitTopLevel_params :
    splitTopLevel ',' ([',', ' '].intercalate (earlier ++ [withoutClosing last])) =
      earlier.map trim ++ [trim (withoutClosing last)] := by
  have each : earlier.flatMap (splitTopLevel ',') = earlier.map trim := by
    rw [List.map_eq_flatMap]
    exact List.flatMap_congr fun text member =>
      splitTopLevel_closed (arguments text (List.mem_append_left _ member))
  have parts : splitTopLevel ','
      (([] ++ ',' :: [' ']).intercalate (earlier ++ [withoutClosing last])) =
        (earlier ++ [withoutClosing last]).flatMap (splitTopLevel ',') := by
    apply splitTopLevel_intercalate_flatMap rfl rfl rfl (List.forall_mem_nil _)
      (List.forall_mem_singleton.mpr rfl) (by simp)
    rw [List.dropLast_concat]
    exact fun text member => arguments text (List.mem_append_left _ member)
  rw [List.flatMap_append, each, List.flatMap_singleton,
    splitTopLevel_withoutClosing (arguments last (by simp))] at parts
  exact parts

/-- The closing brackets of the last parameter are taken off with that of the list. -/
theorem callableParams_bracketed
    (opening : ∀ text ∈ (earlier ++ [last]).head?, text.head? ≠ some '[') :
    callableParams (bracketed (earlier ++ [last])) =
      earlier.map trim ++ [trim (withoutClosing last)] := by
  have inner : (bracketed (earlier ++ [last])).dropWhile (fun char => decide (char = '[')) =
      [',', ' '].intercalate (earlier ++ [last]) ++ [']'] := by
    apply dropWhile_bracketed
    intro text first
    refine ⟨?_, opening text first⟩
    intro empty
    apply nonblank text (List.mem_of_mem_head? first)
    rw [empty]
    rfl
  have each : ∀ text ∈ earlier.map trim ++ [trim (withoutClosing last)], trim text ≠ [] := by
    simp only [List.forall_mem_append, List.forall_mem_map, List.forall_mem_singleton, trim_trim]
    exact ⟨fun text member => nonblank text (List.mem_append_left _ member),
      trim_withoutClosing_ne_nil (arguments last (by simp)) (nonblank last (by simp))⟩
  have kept : ∀ text ∈ earlier.map trim ++ [trim (withoutClosing last)],
      (!(trim text).isEmpty) = true := by
    simpa using each
  rw [callableParams_eq, trim_bracketed, inner, withoutClosing_concat,
    withoutClosing_intercalate arguments nonblank, splitTopLevel_params arguments,
    List.filter_eq_self.mpr kept]

end Bracketed

private theorem denote_callableHint {params : List (List Char)} {result : List Char}
    (arguments : ∀ text ∈ params, isArgument text = true) (isResult : isArgument result = true) :
    denote (applied "Callable" [bracketed params, result]) =
      .function ((callableParams (bracketed params)).map denote) (denote result) := by
  have parts : ∀ text ∈ [bracketed params, result], isArgument text = true := by
    simpa using ⟨closes_bracketed arguments, isResult⟩
  rw [denote_applied (by decide) parts (List.cons_ne_nil _ _)]
  simp only [denoteApplication, List.map_cons, List.map_nil, trim_bracketed, denote_trim]
  rfl

end Hint

/-! ## Types of callables -/

open Hint Text

private theorem map_denote_trim (params : List String) :
    ((params.map String.toList).map trim).map denote = params.map Ty.ofHint := by
  rw [List.map_map, List.map_map]
  exact List.map_congr_left fun param _ => denote_trim param.toList

/-- A callable whose list of parameters does not begin with a second bracket keeps the types of
its result and of all parameters before the last one, and that of the last one if its hint does
not end with a bracket. If it does, the last one is read without these brackets. -/
theorem Ty.ofHint_callableHint {params : List String} {result : String}
    (arguments : ∀ text ∈ result :: params, isArgument text.toList = true)
    (nonblank : ∀ param ∈ params, trim param.toList ≠ [])
    (opening : ∀ first ∈ params.head?, first.toList.head? ≠ some '[') :
    ((∀ last ∈ params.getLast?, last.toList.getLast? ≠ some ']') →
      Ty.ofHint (callableHint params result) =
        .function (params.map Ty.ofHint) (Ty.ofHint result)) ∧
    ∀ earlier last, params = earlier ++ [last] →
      Ty.ofHint (callableHint params result) =
        .function
          (earlier.map Ty.ofHint ++ [Ty.ofHint (String.ofList (withoutClosing last.toList))])
          (Ty.ofHint result) := by
  have isResult : isArgument result.toList = true := arguments result List.mem_cons_self
  have areParams : ∀ text ∈ params.map String.toList, isArgument text = true := by
    simpa using fun param member => arguments param (List.mem_cons_of_mem _ member)
  have whole : Ty.ofHint (callableHint params result) =
      .function ((callableParams (bracketed (params.map String.toList))).map denote)
        (Ty.ofHint result) := by
    have read := denote_callableHint areParams isResult
    rw [← toList_callableHint] at read
    exact read
  have general : ∀ earlier last, params = earlier ++ [last] →
      (callableParams (bracketed (params.map String.toList))).map denote =
        earlier.map Ty.ofHint ++ [Ty.ofHint (String.ofList (withoutClosing last.toList))] := by
    intro earlier last parted
    subst parted
    rw [List.map_append, List.map_singleton] at areParams ⊢
    rw [callableParams_bracketed areParams, List.map_append, map_denote_trim, List.map_singleton,
      denote_trim, Ty.ofHint, String.toList_ofList]
    · rfl
    · simpa [or_imp, forall_and] using nonblank
    · cases earlier with
      | nil => simpa using opening
      | cons first rest => simpa using opening
  constructor
  · intro plain
    rw [whole]
    rcases List.eq_nil_or_concat' params with rfl | ⟨earlier, last, rfl⟩
    · rw [List.map_nil, callableParams_nil]
      rfl
    · have kept : withoutClosing last.toList = last.toList :=
        withoutClosing_eq_self (plain last (by simp))
      rw [general earlier last rfl, kept, String.ofList_toList, List.map_append,
        List.map_singleton]
  · intro earlier last parted
    rw [whole, general earlier last parted]

def nestedParams : List String :=
  ["Callable[[int], str]", "dict[str, list[int]]", "float | None"]

theorem Ty.ofHint_callableHint_nested :
    callableHint nestedParams "tuple[int, str]" =
      "Callable[[Callable[[int], str], dict[str, list[int]], float | None], tuple[int, str]]" ∧
    Ty.ofHint (callableHint nestedParams "tuple[int, str]") =
      .function [.function [.int] text, .dict text (.list .int), .optional .float]
        (.tuple [.int, text]) ∧
    Ty.ofHint (callableHint nestedParams.dropLast "bool") =
      .function [.function [.int] text, Ty.ofHint "dict[str, list[int"] .bool := by
  have kept : Ty.ofHint (callableHint nestedParams "tuple[int, str]") =
      .function (nestedParams.map Ty.ofHint) (Ty.ofHint "tuple[int, str]") :=
    (Ty.ofHint_callableHint (by decide) (by decide) (by decide)).1 (by decide)
  have cut : Ty.ofHint (callableHint nestedParams.dropLast "bool") =
      .function (["Callable[[int], str]"].map Ty.ofHint ++
        [Ty.ofHint (String.ofList (withoutClosing "dict[str, list[int]]".toList))])
        (Ty.ofHint "bool") :=
    (Ty.ofHint_callableHint (by decide) (by decide) (by decide)).2 _ _ rfl
  exact ⟨by decide +kernel, kept.trans (by decide +kernel), cut.trans (by decide +kernel)⟩

/-- The type of a list that is the last parameter is lost. -/
theorem Ty.ofHint_callableHint_list :
    isArgument "list[int]".toList = true ∧
    Ty.ofHint (callableHint ["list[int]"] "bool") = .function [.unknown] .bool ∧
    Ty.ofHint (callableHint ["list[int]"] "bool") ≠
      .function (["list[int]"].map Ty.ofHint) (Ty.ofHint "bool") := by
  decide +kernel

end NativeTyping

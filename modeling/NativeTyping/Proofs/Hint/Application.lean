import NativeTyping.Proofs.Hint.Unfolding
/-!
Reading a head with arguments in brackets.

The name in front of the first bracket is the head. Commas outside brackets part the
arguments, and blanks around an argument do not count. So a head with arguments is read back
as this head and these arguments, whatever brackets the arguments have inside.
-/

namespace NativeTyping

namespace Hint

open Text

/-! ## Names -/

def isMark (char : Char) : Bool :=
  isBlank char || isQuote char || ['[', ']', '(', ')', ',', '|', '.'].contains char

def isName (text : List Char) : Bool :=
  !text.isEmpty && text.all fun char => !isMark char

private theorem ne_of_isMark {char : Char} (plain : isMark char = false) (mark : Char)
    (isMark : isMark mark = true) : char ≠ mark := by
  intro same
  rw [← same, plain] at isMark
  exact Bool.false_ne_true isMark

section Name

variable {text : List Char} (name : isName text = true)

include name

theorem ne_nil_of_isName : text ≠ [] := by
  intro empty
  rw [empty] at name
  exact Bool.false_ne_true name

private theorem not_isMark_of_isName {char : Char} (member : char ∈ text) :
    isMark char = false := by
  simp only [isName, Bool.and_eq_true, List.all_eq_true, Bool.not_eq_true'] at name
  exact name.2 char member

theorem not_outer_of_isName {char : Char} (member : char ∈ text) :
    isBlank char = false ∧ isQuote char = false := by
  have plain := not_isMark_of_isName name member
  simp only [isMark, Bool.or_eq_false_iff] at plain
  exact plain.1

private theorem trim_of_isName : trim text = text :=
  trimWhile_eq_self
    (fun _ first => (not_outer_of_isName name (List.mem_of_mem_head? first)).1)
    fun _ last => (not_outer_of_isName name (List.mem_of_mem_getLast? last)).1

theorem closes_of_isName {separator : Char} (mark : isMark separator = true) :
    closes (fun char => char == separator) 0 text = true := by
  apply closes_of_forall
  intro char member
  have plain := not_isMark_of_isName name member
  refine ⟨?_, ?_, ?_⟩
  · simp [isOpening, ne_of_isMark plain '[' (by decide), ne_of_isMark plain '(' (by decide)]
  · simp [isClosing, ne_of_isMark plain ']' (by decide), ne_of_isMark plain ')' (by decide)]
  · simp [ne_of_isMark plain separator mark]

private theorem unqualified_of_isName : unqualified text = text := by
  rw [unqualified]
  apply if_neg
  intro qualified
  obtain ⟨rest, rfl⟩ := List.isPrefixOf_iff_prefix.mp qualified
  have plain : isMark '.' = false :=
    not_isMark_of_isName name (List.mem_append_left _ (by decide))
  exact absurd plain (by decide)

end Name

/-! ## Blanks around hints -/

private theorem unquote_trim (written : List Char) : unquote (trim written) = unquote written := by
  rw [unquote, unquote, trim_trim]

theorem denote_trim (written : List Char) : denote (trim written) = denote written := by
  rw [denote_eq, denote_eq written, denoteStep, denoteStep, unquote_trim]

/-! ## Arguments -/

/-- Whether a text is a single argument: its brackets are closed, and no comma stands outside
them. -/
def isArgument (text : List Char) : Bool :=
  closes (fun char => char == ',') 0 text

def bracketed (texts : List (List Char)) : List Char :=
  '[' :: ([',', ' '].intercalate texts ++ [']'])

theorem closes_bracketed {stop : Char → Bool} {texts : List (List Char)}
    (arguments : ∀ text ∈ texts, isArgument text = true) :
    closes stop 0 (bracketed texts) = true := by
  have inside : closes (fun _ => false) 0 ([',', ' '].intercalate texts) = true :=
    closes_intercalate (by decide) fun text member =>
      closes_of_closes (arguments text member) nofun
  exact closes_brackets inside

def applied (head : String) (texts : List (List Char)) : List Char :=
  head.toList ++ bracketed texts

theorem getLast?_applied (head : String) (texts : List (List Char)) :
    (applied head texts).getLast? = some ']' := by
  rw [applied, bracketed, List.append_cons, ← List.append_assoc, List.getLast?_concat]

section Applied

variable {head : String} (name : isName head.toList = true) {texts : List (List Char)}

include name

private theorem unquote_applied : unquote (applied head texts) = applied head texts := by
  have first : ∀ char ∈ (applied head texts).head?,
      isBlank char = false ∧ isQuote char = false := by
    rw [applied, List.head?_append_of_ne_nil _ (ne_nil_of_isName name)]
    exact fun char ends => not_outer_of_isName name (List.mem_of_mem_head? ends)
  have last : ∀ char ∈ (applied head texts).getLast?,
      isBlank char = false ∧ isQuote char = false := by
    intro char ends
    rw [getLast?_applied, Option.mem_some_iff] at ends
    subst ends
    decide
  have trimmed : trim (applied head texts) = applied head texts :=
    trimWhile_eq_self (fun char ends => (first char ends).1) fun char ends => (last char ends).1
  rw [unquote, trimmed]
  exact trimWhile_eq_self (fun char ends => (first char ends).2)
    fun char ends => (last char ends).2

variable (arguments : ∀ text ∈ texts, isArgument text = true)

include arguments

theorem closes_applied {separator : Char} (mark : isMark separator = true) :
    closes (fun char => char == separator) 0 (applied head texts) = true :=
  closes_append_closes (closes_of_isName name mark) (closes_bracketed arguments)

private theorem application_applied (nonempty : texts ≠ []) :
    application (applied head texts) = (head.toList, texts.map trim) := by
  have beforeBracket : ∀ char ∈ head.toList, decide (char ≠ '[') = true := by
    intro char member
    simpa using ne_of_isMark (not_isMark_of_isName name member) '[' (by decide)
  have cut : splitTopLevel ',' ([',', ' '].intercalate texts) = texts.map trim := by
    have parts : splitTopLevel ',' (([] ++ ',' :: [' ']).intercalate texts) = texts.map trim :=
      splitTopLevel_intercalate rfl rfl rfl (List.forall_mem_nil _)
        (List.forall_mem_singleton.mpr rfl) nonempty arguments
    exact parts
  have parted : (applied head texts).span (fun char => decide (char ≠ '[')) =
      (head.toList, '[' :: ([',', ' '].intercalate texts ++ [']'])) := by
    rw [List.span_eq_takeWhile_dropWhile, applied,
      List.takeWhile_append_of_pos beforeBracket, List.dropWhile_append_of_pos beforeBracket]
    simp [bracketed]
  rw [application, parted]
  simp only [getLast?_applied, if_true, List.dropLast_concat, cut, trim_of_isName name]

/-- A head with arguments has the type that the head makes of the arguments. -/
theorem denote_applied (nonempty : texts ≠ []) :
    denote (applied head texts) = denoteApplication denote head.toList (texts.map trim) := by
  have single : splitTopLevel '|' (applied head texts) = [trim (applied head texts)] :=
    splitTopLevel_closed (closes_applied name arguments (by decide))
  rw [denote_of_application, unquote_applied name, application_applied name arguments nonempty,
    unqualified_of_isName name]
  · rw [unquote_applied name]
    simp [applied, bracketed]
  · rw [unquote_applied name, single, List.length_singleton]

end Applied

end Hint

end NativeTyping

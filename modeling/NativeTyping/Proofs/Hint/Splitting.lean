import Mathlib.Data.List.DropRight
import NativeTyping.Text.Trim
/-!
Trimming texts and cutting them at separators outside brackets.

A text whose brackets are closed and that has no separator outside them is a single piece.
So texts of this kind, joined by separators with blanks around them, are cut into these texts
again.
-/

namespace NativeTyping

theorem intercalate_append {α : Type} (glue : List α) {first second : List (List α)}
    (some : first ≠ []) (more : second ≠ []) :
    glue.intercalate (first ++ second) =
      glue.intercalate first ++ (glue ++ glue.intercalate second) := by
  induction first with
  | nil => exact absurd rfl some
  | cons item rest induction =>
      by_cases last : rest = []
      · rw [last, List.singleton_append, List.intercalate_cons_of_ne_nil more,
          List.intercalate_singleton, List.append_assoc]
      · rw [List.cons_append, List.intercalate_cons_of_ne_nil (by simp [last]),
          List.intercalate_cons_of_ne_nil last, induction last]
        simp only [List.append_assoc]

theorem mem_getLast?_of_suffix {α : Type} {part whole : List α} (suffix : part <:+ whole) :
    ∀ item ∈ part.getLast?, item ∈ whole.getLast? := by
  obtain ⟨front, rfl⟩ := suffix
  intro item last
  rw [Option.mem_def] at last ⊢
  rw [List.getLast?_append, last, Option.some_or]

namespace Text

/-! ## Trimming -/

theorem dropWhileEnd_eq_rdropWhile (drop : Char → Bool) (text : List Char) :
    dropWhileEnd drop text = text.rdropWhile drop := by
  induction text with
  | nil => rfl
  | cons char rest induction =>
      rw [dropWhileEnd, induction, List.rdropWhile, List.rdropWhile, List.reverse_cons,
        List.dropWhile_append]
      cases rest.reverse.dropWhile drop with
      | nil => cases dropped : drop char <;> simp [dropped]
      | cons last earlier =>
          rw [List.isEmpty_cons, if_neg Bool.false_ne_true, List.reverse_append]
          cases kept : (last :: earlier).reverse with
          | nil => simp at kept
          | cons first others => rfl

theorem length_dropWhileEnd_le (drop : Char → Bool) (text : List Char) :
    (dropWhileEnd drop text).length ≤ text.length := by
  rw [dropWhileEnd_eq_rdropWhile]
  exact (List.rdropWhile_prefix drop text).length_le

section Trim

variable {drop : Char → Bool} {text : List Char}

theorem dropWhile_eq_self (first : ∀ char ∈ text.head?, drop char = false) :
    text.dropWhile drop = text := by
  cases text with
  | nil => rfl
  | cons char rest => rw [List.dropWhile_cons_of_neg (by simp [first char rfl])]

theorem dropWhileEnd_eq_self (last : ∀ char ∈ text.getLast?, drop char = false) :
    dropWhileEnd drop text = text := by
  rw [dropWhileEnd_eq_rdropWhile, List.rdropWhile_eq_self_iff]
  intro nonempty
  simp [last _ (List.getLast?_eq_some_getLast nonempty)]

theorem trimWhile_eq_self (first : ∀ char ∈ text.head?, drop char = false)
    (last : ∀ char ∈ text.getLast?, drop char = false) : trimWhile drop text = text := by
  rw [trimWhile, dropWhile_eq_self first, dropWhileEnd_eq_self last]

theorem dropWhile_append_kept {rest : List Char}
    (first : ∀ char ∈ rest.head?, drop char = false) :
    (text ++ rest).dropWhile drop = text.dropWhile drop ++ rest := by
  rw [List.dropWhile_append, dropWhile_eq_self first]
  split
  · rename_i none
    rw [List.isEmpty_iff.mp none, List.nil_append]
  · rfl

theorem length_trimWhile_le : (trimWhile drop text).length ≤ text.length :=
  (length_dropWhileEnd_le drop _).trans (List.dropWhile_suffix drop).length_le

theorem head?_trimWhile : ∀ char ∈ (trimWhile drop text).head?, drop char = false := by
  intro char first
  rw [trimWhile, dropWhileEnd_eq_rdropWhile] at first
  obtain ⟨dropped, whole⟩ := List.rdropWhile_prefix drop (text.dropWhile drop)
  have kept : (text.dropWhile drop).head? = some char := by
    rw [← whole, List.head?_append, first, Option.some_or]
  have failed := List.head?_dropWhile_not drop text
  rw [kept] at failed
  exact failed

theorem getLast?_trimWhile : ∀ char ∈ (trimWhile drop text).getLast?, drop char = false := by
  intro char last
  rw [trimWhile, dropWhileEnd_eq_rdropWhile] at last
  have nonempty : (text.dropWhile drop).rdropWhile drop ≠ [] := by
    intro none
    simp [none] at last
  rw [List.getLast?_eq_some_getLast nonempty, Option.mem_some_iff] at last
  rw [← last]
  simpa using List.rdropWhile_last_not drop _ nonempty

theorem trimWhile_eq_nil_iff : trimWhile drop text = [] ↔ ∀ char ∈ text, drop char = true := by
  rw [trimWhile, dropWhileEnd_eq_rdropWhile, List.rdropWhile_eq_nil_iff]
  constructor
  · intro dropped
    apply List.dropWhile_eq_nil_iff.mp
    cases rest : text.dropWhile drop with
    | nil => rfl
    | cons char others =>
        have failed := List.head?_dropWhile_not drop text
        rw [rest] at failed dropped
        exact absurd (dropped char List.mem_cons_self) (by simpa using failed)
  · intro dropped
    simp [List.dropWhile_eq_nil_iff.mpr dropped]

end Trim

theorem trim_trim (text : List Char) : trim (trim text) = trim text :=
  trimWhile_eq_self head?_trimWhile getLast?_trimWhile

section Ends

variable {drop : Char → Bool} {text ends : List Char}
  (dropped : ∀ char ∈ ends, drop char = true)

include dropped

private theorem trimWhile_front : trimWhile drop (ends ++ text) = trimWhile drop text := by
  rw [trimWhile, trimWhile, List.dropWhile_append_of_pos dropped]

theorem trimWhile_back : trimWhile drop (text ++ ends) = trimWhile drop text := by
  have back : ∀ text : List Char, (text ++ ends).rdropWhile drop = text.rdropWhile drop := by
    intro text
    rw [List.rdropWhile, List.rdropWhile, List.reverse_append,
      List.dropWhile_append_of_pos (by simpa using dropped)]
  simp only [trimWhile, dropWhileEnd_eq_rdropWhile]
  induction text with
  | nil =>
      have none : ends.dropWhile drop = [] := by simpa using dropped
      simp [none]
  | cons char rest induction =>
      cases isDropped : drop char with
      | true =>
          rw [List.cons_append, List.dropWhile_cons_of_pos isDropped,
            List.dropWhile_cons_of_pos isDropped]
          exact induction
      | false =>
          have kept : ∀ rest : List Char, (char :: rest).dropWhile drop = char :: rest :=
            fun _ => List.dropWhile_cons_of_neg (by simp [isDropped])
          rw [List.cons_append, kept, kept, ← List.cons_append, back]

end Ends

private theorem trim_blanks_append {text blanks : List Char}
    (blank : ∀ char ∈ blanks, isBlank char = true) : trim (blanks ++ text) = trim text :=
  trimWhile_front blank

theorem trim_append_blanks {text blanks : List Char}
    (blank : ∀ char ∈ blanks, isBlank char = true) : trim (text ++ blanks) = trim text :=
  trimWhile_back blank

/-! ## Closed texts -/

def isOpening (char : Char) : Bool :=
  char = '[' || char = '('

def isClosing (char : Char) : Bool :=
  char = ']' || char = ')'

/-- Whether a text closes the brackets that it opens, and `depth` more, in an order that never
closes one that is not open, and none of the characters `stop` stands outside all brackets. -/
def closes (stop : Char → Bool) : Nat → List Char → Bool
  | depth, [] => depth = 0
  | depth, char :: rest =>
      if isOpening char then closes stop (depth + 1) rest
      else if isClosing char then 0 < depth && closes stop (depth - 1) rest
      else !(stop char && depth = 0) && closes stop depth rest

section Closed

variable {stop : Char → Bool}

private theorem closes_cons_cases {depth : Nat} {char : Char} {rest : List Char}
    (closed : closes stop depth (char :: rest) = true) :
    (isOpening char = true ∧ closes stop (depth + 1) rest = true) ∨
    (isOpening char = false ∧ isClosing char = true ∧
      ∃ outer, depth = outer + 1 ∧ closes stop outer rest = true) ∨
    (isOpening char = false ∧ isClosing char = false ∧ (depth = 0 → stop char = false) ∧
      closes stop depth rest = true) := by
  rw [closes] at closed
  cases opening : isOpening char with
  | true =>
      rw [opening, if_pos rfl] at closed
      exact .inl ⟨rfl, closed⟩
  | false =>
      rw [opening, if_neg Bool.false_ne_true] at closed
      cases closing : isClosing char with
      | true =>
          rw [closing, if_pos rfl] at closed
          cases depth with
          | zero => simp at closed
          | succ outer => exact .inr (.inl ⟨rfl, rfl, outer, rfl, by simpa using closed⟩)
      | false =>
          rw [closing, if_neg Bool.false_ne_true, Bool.and_eq_true_iff] at closed
          refine .inr (.inr ⟨rfl, rfl, ?_, closed.2⟩)
          intro outside
          simpa [outside] using closed.1

theorem closes_of_forall {text : List Char}
    (plain : ∀ char ∈ text,
      isOpening char = false ∧ isClosing char = false ∧ stop char = false) :
    closes stop 0 text = true := by
  induction text with
  | nil => rfl
  | cons char rest induction =>
      have head := plain char List.mem_cons_self
      have tail := induction fun char member => plain char (List.mem_cons_of_mem _ member)
      simp [closes, head, tail]

/-- After a closed text the scan goes on as if it began there. Inside brackets it does not
matter where the text has its stops. -/
theorem closes_append {inner : Char → Bool} {depth base : Nat} {text : List Char}
    (closed : closes inner depth text = true)
    (stops : base = 0 → ∀ char, stop char = true → inner char = true) (rest : List Char) :
    closes stop (depth + base) (text ++ rest) = closes stop base rest := by
  induction text generalizing depth with
  | nil =>
      have none : depth = 0 := by simpa [closes] using closed
      rw [none, Nat.zero_add, List.nil_append]
  | cons char text induction =>
      obtain ⟨opening, remains⟩ | ⟨opening, closing, outer, rfl, remains⟩ |
        ⟨opening, closing, passes, remains⟩ := closes_cons_cases closed
      · have deeper : depth + base + 1 = depth + 1 + base := by omega
        simp [closes, opening, deeper, induction remains]
      · have isOpen : 0 < outer + 1 + base := by omega
        have shallower : outer + 1 + base - 1 = outer + base := by omega
        simp [closes, opening, closing, isOpen, shallower, induction remains]
      · have goesOn : (stop char && decide (depth + base = 0)) = false := by
          cases stopped : stop char with
          | false => rfl
          | true =>
              have inside : depth + base ≠ 0 := by
                intro outside
                have allowed := stops (by omega) char stopped
                rw [passes (by omega)] at allowed
                exact Bool.false_ne_true allowed
              exact decide_eq_false inside
        rw [List.cons_append, closes, opening, closing, goesOn, induction remains]
        rfl

section Whole

variable {inner : Char → Bool} {text : List Char}

theorem closes_append_closes {rest : List Char} (closed : closes stop 0 text = true)
    (later : closes stop 0 rest = true) : closes stop 0 (text ++ rest) = true := by
  have scanned : closes stop (0 + 0) (text ++ rest) = closes stop 0 rest :=
    closes_append closed (fun _ _ same => same) rest
  exact scanned.trans later

theorem closes_of_closes (closed : closes inner 0 text = true)
    (stops : ∀ char, stop char = true → inner char = true) : closes stop 0 text = true := by
  have scanned : closes stop (0 + 0) (text ++ []) = closes stop 0 [] :=
    closes_append closed (fun _ => stops) []
  rwa [List.append_nil] at scanned

theorem closes_brackets (closed : closes inner 0 text = true) :
    closes stop 0 ('[' :: (text ++ [']'])) = true := by
  have scanned : closes stop (0 + 1) (text ++ [']']) = closes stop 1 [']'] :=
    closes_append closed (fun none => absurd none Nat.one_ne_zero) [']']
  exact scanned

theorem closes_intercalate {glue : List Char} (between : closes stop 0 glue = true)
    {texts : List (List Char)} (closed : ∀ text ∈ texts, closes stop 0 text = true) :
    closes stop 0 (glue.intercalate texts) = true := by
  induction texts with
  | nil => rfl
  | cons text rest induction =>
      have first := closed text List.mem_cons_self
      have later := induction fun text member => closed text (List.mem_cons_of_mem _ member)
      cases rest with
      | nil => rwa [List.intercalate_singleton]
      | cons next rest =>
          rw [List.intercalate_cons_cons]
          exact closes_append_closes (closes_append_closes first between) later

end Whole

/-! ## Cutting -/

section Cutting

variable {separator char : Char} {depth : Int} {rest : List Char}

private theorem splitFrom_opening (opening : isOpening char = true) :
    splitFrom separator depth (char :: rest) =
      extendFirst char (splitFrom separator (depth + 1) rest) := by
  rw [isOpening] at opening
  rw [splitFrom, if_pos opening]

private theorem splitFrom_closing (opening : isOpening char = false)
    (closing : isClosing char = true) :
    splitFrom separator depth (char :: rest) =
      extendFirst char (splitFrom separator (depth - 1) rest) := by
  rw [isOpening] at opening
  rw [isClosing] at closing
  rw [splitFrom, opening, if_neg Bool.false_ne_true, if_pos closing]

private theorem splitFrom_passing (opening : isOpening char = false)
    (closing : isClosing char = false) (passes : char = separator → depth ≠ 0) :
    splitFrom separator depth (char :: rest) =
      extendFirst char (splitFrom separator depth rest) := by
  rw [isOpening] at opening
  rw [isClosing] at closing
  rw [splitFrom, opening, if_neg Bool.false_ne_true, closing, if_neg Bool.false_ne_true,
    if_neg (by simpa using passes)]

private theorem splitFrom_separator (opening : isOpening separator = false)
    (closing : isClosing separator = false) :
    splitFrom separator 0 (separator :: rest) = [] :: splitFrom separator 0 rest := by
  rw [isOpening] at opening
  rw [isClosing] at closing
  rw [splitFrom, opening, if_neg Bool.false_ne_true, closing, if_neg Bool.false_ne_true,
    if_pos (by simp)]

end Cutting

end Closed

/-! ## Pieces -/

section Pieces

variable {separator : Char} {text : List Char}

/-- Cutting a closed text up to any place gives one piece. -/
theorem splitFrom_of_closes_append {depth : Nat} {rest : List Char}
    (closed : closes (fun char => char == separator) depth (text ++ rest) = true) :
    splitFrom separator depth text = [text] := by
  induction text generalizing depth with
  | nil => rfl
  | cons char text induction =>
      rw [List.cons_append] at closed
      obtain ⟨opening, remains⟩ | ⟨opening, closing, outer, rfl, remains⟩ |
        ⟨opening, closing, passes, remains⟩ := closes_cons_cases closed
      · have deeper : (depth : Int) + 1 = ((depth + 1 : Nat) : Int) := by omega
        rw [splitFrom_opening opening, deeper, induction remains, extendFirst]
      · have shallower : ((outer + 1 : Nat) : Int) - 1 = (outer : Int) := by omega
        rw [splitFrom_closing opening closing, shallower, induction remains, extendFirst]
      · have notCut : char = separator → (depth : Int) ≠ 0 := by
          rintro rfl outside
          have different := passes (by omega)
          simp at different
        rw [splitFrom_passing opening closing notCut, induction remains, extendFirst]

theorem splitTopLevel_of_closes_append {rest : List Char}
    (closed : closes (fun char => char == separator) 0 (text ++ rest) = true) :
    splitTopLevel separator text = [trim text] := by
  have whole : splitFrom separator ((0 : Nat) : Int) text = [text] :=
    splitFrom_of_closes_append closed
  rw [splitTopLevel]
  exact congrArg (List.map trim) whole

theorem splitTopLevel_closed (closed : closes (fun char => char == separator) 0 text = true) :
    splitTopLevel separator text = [trim text] :=
  splitTopLevel_of_closes_append (by rwa [List.append_nil])

end Pieces

/-- The pieces and the separators between them make up the text. -/
theorem length_splitFrom (separator : Char) (depth : Int) (text : List Char) :
    (splitFrom separator depth text).flatten.length +
      (splitFrom separator depth text).length = text.length + 1 := by
  have extended : ∀ (char : Char) (pieces : List (List Char)), pieces ≠ [] →
      (extendFirst char pieces).flatten.length + (extendFirst char pieces).length =
        pieces.flatten.length + pieces.length + 1 := by
    intro char pieces nonempty
    cases pieces with
    | nil => exact absurd rfl nonempty
    | cons piece pieces =>
        simp only [extendFirst, List.flatten_cons, List.length_append, List.length_cons]
        omega
  have nonempty : ∀ pieces : List (List Char), ∀ total : Nat,
      pieces.flatten.length + pieces.length = total + 1 → pieces ≠ [] := by
    rintro pieces total counted rfl
    simp at counted
  induction text generalizing depth with
  | nil => rfl
  | cons char rest induction =>
      have deeper := induction (depth + 1)
      have shallower := induction (depth - 1)
      have level := induction depth
      rw [splitFrom]
      split
      · rw [extended char _ (nonempty _ _ deeper), deeper, List.length_cons]
      · split
        · rw [extended char _ (nonempty _ _ shallower), shallower, List.length_cons]
        · split
          · simp only [List.flatten_cons, List.nil_append, List.length_cons]
            omega
          · rw [extended char _ (nonempty _ _ level), level, List.length_cons]

theorem splitFrom_ne_nil (separator : Char) (depth : Int) (text : List Char) :
    splitFrom separator depth text ≠ [] := by
  intro none
  have counted := length_splitFrom separator depth text
  simp [none] at counted

private theorem extendFirst_append (char : Char) {pieces : List (List Char)} (some : pieces ≠ [])
    (later : List (List Char)) :
    extendFirst char (pieces ++ later) = extendFirst char pieces ++ later := by
  cases pieces with
  | nil => exact absurd rfl some
  | cons piece pieces => rfl

private theorem splitFrom_cons_cases (separator char : Char) (depth : Int) :
    (∃ inner, ∀ rest, splitFrom separator depth (char :: rest) =
      extendFirst char (splitFrom separator inner rest)) ∨
    (char = separator ∧ depth = 0 ∧ ∀ rest, splitFrom separator depth (char :: rest) =
      [] :: splitFrom separator depth rest) := by
  simp only [splitFrom]
  split
  · exact .inl ⟨_, fun _ => rfl⟩
  · split
    · exact .inl ⟨_, fun _ => rfl⟩
    · split
      · exact .inr (by simp_all)
      · exact .inl ⟨_, fun _ => rfl⟩

theorem eq_of_splitFrom_singleton {separator : Char} {depth : Int} {text piece : List Char}
    (single : splitFrom separator depth text = [piece]) : piece = text := by
  induction text generalizing depth piece with
  | nil => exact (List.singleton_inj.mp single).symm
  | cons char text induction =>
      obtain ⟨inner, step⟩ | ⟨-, -, step⟩ := splitFrom_cons_cases separator char depth
      · rw [step] at single
        cases pieces : splitFrom separator inner text with
        | nil => exact absurd pieces (splitFrom_ne_nil _ _ _)
        | cons first others =>
            rw [pieces, extendFirst, List.cons_eq_cons] at single
            obtain ⟨rfl, rfl⟩ := single
            rw [induction pieces]
      · rw [step, List.cons_eq_cons] at single
        exact absurd single.2 (splitFrom_ne_nil _ _ _)

private theorem splitFrom_balanced_append {stop : Char → Bool} {separator : Char}
    (opening : isOpening separator = false) (closing : isClosing separator = false)
    {depth : Nat} {text : List Char} (closed : closes stop depth text = true)
    (rest : List Char) :
    splitFrom separator depth (text ++ separator :: rest) =
      splitFrom separator depth text ++ splitFrom separator 0 rest := by
  induction text generalizing depth with
  | nil =>
      have none : depth = 0 := by simpa [closes] using closed
      rw [none, List.nil_append]
      exact splitFrom_separator opening closing
  | cons char text induction =>
      rw [List.cons_append]
      obtain ⟨isOpening, remains⟩ | ⟨isOpening, isClosing, outer, rfl, remains⟩ |
        ⟨isOpening, isClosing, -, remains⟩ := closes_cons_cases closed
      · have deeper : (depth : Int) + 1 = ((depth + 1 : Nat) : Int) := by omega
        rw [splitFrom_opening isOpening, splitFrom_opening isOpening, deeper, induction remains,
          extendFirst_append _ (splitFrom_ne_nil _ _ _)]
      · have shallower : ((outer + 1 : Nat) : Int) - 1 = (outer : Int) := by omega
        rw [splitFrom_closing isOpening isClosing, splitFrom_closing isOpening isClosing,
          shallower, induction remains, extendFirst_append _ (splitFrom_ne_nil _ _ _)]
      · by_cases cut : char = separator ∧ depth = 0
        · obtain ⟨rfl, rfl⟩ := cut
          have later := induction remains
          rw [Int.ofNat_zero] at later ⊢
          rw [splitFrom_separator isOpening isClosing, splitFrom_separator isOpening isClosing,
            later]
          rfl
        · have passes : char = separator → (depth : Int) ≠ 0 := by
            intro same outside
            exact cut ⟨same, by omega⟩
          rw [splitFrom_passing isOpening isClosing passes,
            splitFrom_passing isOpening isClosing passes, induction remains,
            extendFirst_append _ (splitFrom_ne_nil _ _ _)]

theorem splitTopLevel_balanced_append {stop : Char → Bool} {separator : Char}
    (opening : isOpening separator = false) (closing : isClosing separator = false)
    {text : List Char} (closed : closes stop 0 text = true) (rest : List Char) :
    splitTopLevel separator (text ++ separator :: rest) =
      splitTopLevel separator text ++ splitTopLevel separator rest := by
  have parts : splitFrom separator ((0 : Nat) : Int) (text ++ separator :: rest) =
      splitFrom separator ((0 : Nat) : Int) text ++ splitFrom separator 0 rest :=
    splitFrom_balanced_append opening closing closed rest
  rw [splitTopLevel, splitTopLevel, splitTopLevel, ← List.map_append]
  exact congrArg (List.map trim) parts

theorem splitFrom_append_plain {separator : Char} {tail : List Char}
    (plain : ∀ char ∈ tail,
      isOpening char = false ∧ isClosing char = false ∧ char ≠ separator)
    (depth : Int) (text : List Char) :
    ∃ earlier last, last <:+ text ∧ splitFrom separator depth text = earlier ++ [last] ∧
      splitFrom separator depth (text ++ tail) = earlier ++ [last ++ tail] := by
  induction text generalizing depth with
  | nil =>
      refine ⟨[], [], List.suffix_rfl, rfl, ?_⟩
      rw [List.nil_append, List.nil_append]
      induction tail generalizing depth with
      | nil => rfl
      | cons char tail induction =>
          obtain ⟨opening, closing, different⟩ := plain char List.mem_cons_self
          rw [splitFrom_passing opening closing fun same => absurd same different,
            induction fun char member => plain char (List.mem_cons_of_mem _ member)]
          rfl
  | cons char text induction =>
      rw [List.cons_append]
      obtain ⟨inner, step⟩ | ⟨rfl, rfl, step⟩ := splitFrom_cons_cases separator char depth
      · obtain ⟨earlier, last, inText, whole, extended⟩ := induction inner
        rw [step, step, whole, extended]
        cases earlier with
        | nil =>
            obtain rfl := eq_of_splitFrom_singleton whole
            exact ⟨[], char :: last, List.suffix_rfl, rfl, rfl⟩
        | cons piece pieces =>
            exact ⟨(char :: piece) :: pieces, last, inText.trans (List.suffix_cons _ _), rfl, rfl⟩
      · obtain ⟨earlier, last, inText, whole, extended⟩ := induction 0
        rw [step, step, whole, extended]
        exact ⟨[] :: earlier, last, inText.trans (List.suffix_cons _ _), rfl, rfl⟩

theorem length_add_length_splitTopLevel_le {separator : Char} {text piece : List Char}
    (member : piece ∈ splitTopLevel separator text) :
    piece.length + (splitTopLevel separator text).length ≤ text.length + 1 := by
  rw [splitTopLevel] at member
  obtain ⟨cut, isCut, rfl⟩ := List.mem_map.mp member
  have counted := length_splitFrom separator 0 text
  have among : cut.length ≤ (splitFrom separator 0 text).flatten.length := by
    obtain ⟨earlier, later, parted⟩ := List.append_of_mem isCut
    simp only [parted, List.flatten_append, List.flatten_cons, List.length_append]
    omega
  have trimmed : (trim cut).length ≤ cut.length := length_trimWhile_le
  rw [splitTopLevel, List.length_map]
  omega

/-! ## Joined texts -/

theorem not_bracket_of_isBlank {char : Char} (blank : isBlank char = true) :
    isOpening char = false ∧ isClosing char = false := by
  constructor
  · rw [isOpening, Bool.or_eq_false_iff, decide_eq_false_iff_not, decide_eq_false_iff_not]
    constructor
    all_goals
      rintro rfl
      exact absurd blank (by decide)
  · rw [isClosing, Bool.or_eq_false_iff, decide_eq_false_iff_not, decide_eq_false_iff_not]
    constructor
    all_goals
      rintro rfl
      exact absurd blank (by decide)

theorem closes_of_blanks {stop : Char → Bool}
    (passes : ∀ char, isBlank char = true → stop char = false) {blanks : List Char}
    (blank : ∀ char ∈ blanks, isBlank char = true) : closes stop 0 blanks = true :=
  closes_of_forall fun char member =>
    ⟨(not_bracket_of_isBlank (blank char member)).1,
      (not_bracket_of_isBlank (blank char member)).2, passes char (blank char member)⟩

section Joined

variable {separator : Char} (notBlank : isBlank separator = false) {blanks : List Char}
  (blank : ∀ char ∈ blanks, isBlank char = true)

include notBlank blank

private theorem plain_of_blank : ∀ char ∈ blanks,
    isOpening char = false ∧ isClosing char = false ∧ char ≠ separator := by
  intro char member
  have isBlank := blank char member
  refine ⟨(not_bracket_of_isBlank isBlank).1, (not_bracket_of_isBlank isBlank).2, ?_⟩
  intro same
  rw [same, notBlank] at isBlank
  exact Bool.false_ne_true isBlank

private theorem splitTopLevel_blanks_append (rest : List Char) :
    splitTopLevel separator (blanks ++ rest) = splitTopLevel separator rest := by
  have plain := plain_of_blank notBlank blank
  induction blanks with
  | nil => rfl
  | cons char blanks induction =>
      have later := induction (fun char member => blank char (List.mem_cons_of_mem _ member))
        fun char member => plain char (List.mem_cons_of_mem _ member)
      obtain ⟨opening, closing, different⟩ := plain char List.mem_cons_self
      rw [← later, splitTopLevel, splitTopLevel, List.cons_append,
        splitFrom_passing opening closing fun same => absurd same different]
      cases pieces : splitFrom separator 0 (blanks ++ rest) with
      | nil => exact absurd pieces (splitFrom_ne_nil _ _ _)
      | cons piece pieces =>
          have front : trim ([char] ++ piece) = trim piece :=
            trim_blanks_append (List.forall_mem_singleton.mpr (blank char List.mem_cons_self))
          rw [extendFirst, List.map_cons, List.map_cons, ← front, List.singleton_append]

theorem splitTopLevel_append_blanks (text : List Char) :
    splitTopLevel separator (text ++ blanks) = splitTopLevel separator text := by
  obtain ⟨earlier, last, -, whole, extended⟩ :=
    splitFrom_append_plain (plain_of_blank notBlank blank) 0 text
  simp only [splitTopLevel, whole, extended, List.map_append, List.map_singleton,
    trim_append_blanks blank]

end Joined

section Intercalated

variable {separator : Char} (opening : isOpening separator = false)
  (closing : isClosing separator = false) (notBlank : isBlank separator = false)
  {before after : List Char} (blankBefore : ∀ char ∈ before, isBlank char = true)
  (blankAfter : ∀ char ∈ after, isBlank char = true) {texts : List (List Char)}
  (nonempty : texts ≠ [])

include opening closing notBlank blankBefore blankAfter nonempty

/-- Texts joined by separators with blanks around them are cut like each of them on its own, if
all before the last one close their brackets. -/
theorem splitTopLevel_intercalate_flatMap {stop : Char → Bool}
    (closed : ∀ text ∈ texts.dropLast, closes stop 0 text = true) :
    splitTopLevel separator ((before ++ separator :: after).intercalate texts) =
      texts.flatMap (splitTopLevel separator) := by
  induction texts with
  | nil => exact absurd rfl nonempty
  | cons text rest induction =>
      cases rest with
      | nil => rw [List.intercalate_singleton, List.flatMap_singleton]
      | cons next rest =>
          rw [List.dropLast_cons_cons] at closed
          have later := induction (List.cons_ne_nil _ _)
            fun text member => closed text (List.mem_cons_of_mem _ member)
          have first : closes (fun _ => false) 0 (text ++ before) = true :=
            closes_append_closes
              (closes_of_closes (closed text List.mem_cons_self) nofun)
              (closes_of_blanks (fun _ _ => rfl) blankBefore)
          have parted : (before ++ separator :: after).intercalate (text :: next :: rest) =
              (text ++ before) ++ separator ::
                (after ++ (before ++ separator :: after).intercalate (next :: rest)) := by
            simp [List.intercalate_cons_cons]
          rw [parted, splitTopLevel_balanced_append opening closing first,
            splitTopLevel_append_blanks notBlank blankBefore,
            splitTopLevel_blanks_append notBlank blankAfter, later]
          rfl

/-- Closed texts, joined by separators with blanks around them, are cut into these texts. -/
theorem splitTopLevel_intercalate
    (closed : ∀ text ∈ texts, closes (fun char => char == separator) 0 text = true) :
    splitTopLevel separator ((before ++ separator :: after).intercalate texts) =
      texts.map trim := by
  have each : texts.flatMap (splitTopLevel separator) = texts.flatMap fun text => [trim text] :=
    List.flatMap_congr fun text member => splitTopLevel_closed (closed text member)
  rw [splitTopLevel_intercalate_flatMap opening closing notBlank blankBefore blankAfter nonempty
    fun text member => closed text (List.dropLast_subset _ member), each, List.map_eq_flatMap]

end Intercalated

end Text

end NativeTyping

import NativeTyping.Proofs.Hint.Application
import NativeTyping.Surface.Lowering
/-!
Writing a hint and reading it back.

A hint in a syntax tree is made of names, `None`, generic types with arguments and unions.
Its meaning is read off the tree. The text that the tree is written as denotes just that
type: names and brackets keep the parts of the text apart, so that it is cut where the tree
has its parts. Only the grouping of a union is lost in the text, and its meaning does not
depend on it.
-/

namespace NativeTyping

namespace Hint

open Text

/-! ## Meanings -/

/-- The union of some types: `None` is left out and the others are merged in order; the result
is optional if something was left out. -/
def unionType (members : List Ty) : Ty :=
  let kept := members.filter (· ≠ .none)
  let merged := kept.foldl Ty.widen .unknown
  if kept.length < members.length then .optional merged else merged

def eitherType : List Ty → Ty
  | [type] => type
  | members => unionType members

def generics : List String :=
  ["list", "List", "set", "Set", "dict", "Dict", "tuple", "Tuple", "Optional", "Union"]

def genericType (head : String) (arguments : List Ty) : Ty :=
  let first := arguments.headD .unknown
  match head with
  | "list" | "List" => .list first
  | "set" | "Set" => .set first
  | "dict" | "Dict" => .dict first (arguments.tail.headD .unknown)
  | "tuple" | "Tuple" => .tuple arguments
  | "Optional" => .optional first
  | "Union" => unionType arguments
  | _ => .unknown

private theorem union_eq_unionType (members : List Ty) : union members = unionType members := by
  have dropped : members.contains .none = true ↔
      (members.filter (· ≠ .none)).length < members.length := by
    simp [List.length_filter_lt_length_iff_exists]
  simp only [union, unionType, Ty.widenAll, dropped]

end Hint

/-! ## Trees -/

namespace Surface.Expr

inductive IsHint : Expr → Prop
  | name {id : String} (plain : Hint.isName id.toList = true) : IsHint (.name id)
  | none : IsHint (.constant .none)
  | union {left right : Expr} (isLeft : IsHint left) (isRight : IsHint right) :
      IsHint (.binary left .bitOr right)
  | generic {head : String} {argument : Expr} (known : head ∈ Hint.generics)
      (isHint : IsHint argument) : IsHint (.subscript (.name head) argument)
  | generics {head : String} {arguments : List Expr} (known : head ∈ Hint.generics)
      (nonempty : arguments ≠ []) (areHints : ∀ argument ∈ arguments, IsHint argument) :
      IsHint (.subscript (.name head) (.tuple arguments))

mutual

def memberTypes : Expr → List Ty
  | .name id => [Ty.ofHint id]
  | .constant .none => [.none]
  | .binary left .bitOr right => left.memberTypes ++ right.memberTypes
  | .subscript (.name head) (.tuple arguments) =>
      [Hint.genericType head (argumentTypes arguments)]
  | .subscript (.name head) argument =>
      [Hint.genericType head [Hint.eitherType argument.memberTypes]]
  | _ => []
termination_by structural expr => expr

def argumentTypes : List Expr → List Ty
  | [] => []
  | argument :: rest => Hint.eitherType argument.memberTypes :: argumentTypes rest
termination_by structural exprs => exprs

end

def meaning (hint : Expr) : Ty :=
  Hint.eitherType hint.memberTypes

def memberTexts : Expr → List (List Char)
  | .binary left .bitOr right => left.memberTexts ++ right.memberTexts
  | other => [other.hintText.toList]

end Surface.Expr

/-! ## Written hints -/

namespace Hint

open Text

private structure Written (text : List Char) : Prop where
  nonempty : text ≠ []
  first : ∀ char ∈ text.head?, isBlank char = false ∧ isQuote char = false
  last : ∀ char ∈ text.getLast?, isBlank char = false ∧ isQuote char = false
  ne_ellipsis : text ≠ ellipsis
  commas : closes (fun char => char == ',') 0 text = true

namespace Written

variable {text : List Char} (written : Written text)

include written

private theorem isArgument : isArgument text = true :=
  written.commas

private theorem trim_eq : trim text = text :=
  trimWhile_eq_self (fun char ends => (written.first char ends).1)
    fun char ends => (written.last char ends).1

private theorem unquote_eq : unquote text = text := by
  rw [unquote, written.trim_eq]
  exact trimWhile_eq_self (fun char ends => (written.first char ends).2)
    fun char ends => (written.last char ends).2

end Written

private theorem map_trim_of_written {texts : List (List Char)}
    (written : ∀ text ∈ texts, Written text) :
    texts.map trim = texts := by
  have trimmed : texts.map trim = texts.map id :=
    List.map_congr_left fun text member => (written text member).trim_eq
  rw [trimmed, List.map_id]

/-! ### Names -/

private theorem Written.of_isName {text : List Char} (name : isName text = true) :
    Written text := by
  constructor
  case nonempty => exact ne_nil_of_isName name
  case first => exact fun char first => not_outer_of_isName name (List.mem_of_mem_head? first)
  case last => exact fun char last => not_outer_of_isName name (List.mem_of_mem_getLast? last)
  case ne_ellipsis =>
    rintro rfl
    exact absurd name (by decide)
  case commas => exact closes_of_isName name (by decide)

private theorem isName_of_mem_generics {head : String} (known : head ∈ generics) :
    isName head.toList = true := by
  revert head
  decide

/-! ### Unions -/

private theorem Written.union {left right : List Char} (isLeft : Written left)
    (isRight : Written right) :
    Written (left ++ ([' ', '|', ' '] ++ right)) := by
  constructor
  case nonempty => simp [isLeft.nonempty]
  case first =>
    rw [List.head?_append_of_ne_nil _ isLeft.nonempty]
    exact isLeft.first
  case last =>
    rw [← List.append_assoc, List.getLast?_append_of_ne_nil _ isRight.nonempty]
    exact isRight.last
  case ne_ellipsis =>
    intro same
    have bar : '|' ∈ ellipsis := by simp [← same]
    exact absurd bar (by decide)
  case commas =>
    exact closes_append_closes isLeft.commas (closes_append_closes (by decide) isRight.commas)

/-! ### Generic types -/

section Generic

variable {head : String} (known : head ∈ generics) {texts : List (List Char)}
  (written : ∀ text ∈ texts, Written text)

include known written

private theorem Written.applied : Written (applied head texts) := by
  have isHead := Written.of_isName (isName_of_mem_generics known)
  constructor
  case nonempty => simp [Hint.applied, bracketed]
  case first =>
    rw [Hint.applied, List.head?_append_of_ne_nil _ isHead.nonempty]
    exact isHead.first
  case last =>
    intro char last
    rw [getLast?_applied, Option.mem_some_iff] at last
    subst last
    decide
  case ne_ellipsis =>
    intro same
    have bracket := getLast?_applied head texts
    rw [same] at bracket
    exact absurd bracket (by decide)
  case commas =>
    exact closes_applied (isName_of_mem_generics known)
      (fun text member => (written text member).isArgument) (by decide)

private theorem denoteApplication_generic (denote : List Char → Ty) :
    denoteApplication denote head.toList texts = genericType head (texts.map denote) := by
  have first : Ty.orUnknown ((texts[0]?).map denote) = (texts.map denote).headD .unknown := by
    cases texts <;> rfl
  have second : Ty.orUnknown ((texts[1]?).map denote) =
      (texts.map denote).tail.headD .unknown := by
    rcases texts with _ | ⟨_, _ | ⟨_, _⟩⟩ <;> rfl
  have noEllipsis : ∀ text ∈ texts, trim text ≠ ellipsis := by
    intro text member
    rw [(written text member).trim_eq]
    exact (written text member).ne_ellipsis
  have kept : texts.filter (fun text => !decide (trim text = ellipsis)) = texts := by
    simpa using noEllipsis
  have none : (texts.any fun text => trim text = ellipsis) = false := by
    simpa using noEllipsis
  simp only [generics, List.mem_cons, List.not_mem_nil, or_false] at known
  rcases known with rfl | rfl | rfl | rfl | rfl | rfl | rfl | rfl | rfl | rfl
  all_goals
    simp [denoteApplication, genericType, first, second, kept, none, union_eq_unionType]

private theorem denote_generic (nonempty : texts ≠ []) :
    denote (Hint.applied head texts) = genericType head (texts.map denote) := by
  rw [denote_applied (isName_of_mem_generics known)
    (fun text member => (written text member).isArgument) nonempty, map_trim_of_written written,
    denoteApplication_generic known written]

end Generic

end Hint

/-! ## Reading back -/

namespace Surface.Expr

open Hint Text

/-! ### Texts of trees -/

private theorem toList_hintText_union (left right : Expr) :
    (Expr.binary left .bitOr right).hintText.toList =
      left.hintText.toList ++ ([' ', '|', ' '] ++ right.hintText.toList) := by
  simp [hintText]

private theorem IsHint.toList_hintText_generic {argument : Expr} (isHint : IsHint argument)
    (head : String) :
    (Expr.subscript (.name head) argument).hintText.toList =
      applied head [argument.hintText.toList] := by
  cases isHint <;> simp [hintText, applied, bracketed]

private theorem toList_hintText_generics (head : String) (arguments : List Expr) :
    (Expr.subscript (.name head) (.tuple arguments)).hintText.toList =
      applied head (arguments.map fun argument => argument.hintText.toList) := by
  have texts : hintTexts arguments = arguments.map hintText := by
    induction arguments with
    | nil => rfl
    | cons argument rest induction => rw [hintTexts, induction, List.map_cons]
  simp [hintText, applied, bracketed, texts, Function.comp_def]

private theorem IsHint.written {hint : Expr} (isHint : hint.IsHint) :
    Written hint.hintText.toList := by
  induction isHint with
  | name plain => exact .of_isName plain
  | none => exact .of_isName (by decide)
  | union _ _ left right =>
      rw [toList_hintText_union]
      exact left.union right
  | generic known isHint argument =>
      rw [isHint.toList_hintText_generic]
      exact .applied known (by simpa using argument)
  | generics known _ _ arguments =>
      rw [toList_hintText_generics]
      exact .applied known (by simpa using arguments)

/-! ### Members -/

private theorem memberTexts_ne_nil (hint : Expr) : hint.memberTexts ≠ [] := by
  fun_induction memberTexts hint with
  | case1 left right isLeft _ => simp [isLeft]
  | case2 => simp

private theorem intercalate_memberTexts (hint : Expr) :
    [' ', '|', ' '].intercalate hint.memberTexts = hint.hintText.toList := by
  fun_induction memberTexts hint with
  | case1 left right isLeft isRight =>
      rw [intercalate_append _ (memberTexts_ne_nil left) (memberTexts_ne_nil right), isLeft,
        isRight, toList_hintText_union]
  | case2 => exact List.intercalate_singleton

private theorem IsHint.memberTexts_closed {hint : Expr} (isHint : hint.IsHint) :
    ∀ text ∈ hint.memberTexts,
      Written text ∧ closes (fun char => char == '|') 0 text = true := by
  have whole := isHint.written
  induction isHint with
  | name plain =>
      simpa [memberTexts] using ⟨whole, closes_of_isName plain (by decide)⟩
  | none => simpa [memberTexts] using ⟨whole, by decide⟩
  | union isLeft isRight left right =>
      simp only [memberTexts, List.mem_append]
      rintro text (member | member)
      · exact left isLeft.written text member
      · exact right isRight.written text member
  | generic known isHint _ =>
      intro text member
      obtain rfl := List.mem_singleton.mp member
      refine ⟨whole, ?_⟩
      rw [isHint.toList_hintText_generic]
      exact closes_applied (isName_of_mem_generics known)
        (List.forall_mem_singleton.mpr isHint.written.isArgument) (by decide)
  | generics known _ areHints _ =>
      intro text member
      obtain rfl := List.mem_singleton.mp member
      refine ⟨whole, ?_⟩
      rw [toList_hintText_generics]
      exact closes_applied (isName_of_mem_generics known) (by simpa using fun argument among =>
        (areHints argument among).written.isArgument) (by decide)

private theorem IsHint.splitTopLevel {hint : Expr} (isHint : hint.IsHint) :
    splitTopLevel '|' hint.hintText.toList = hint.memberTexts := by
  have members := isHint.memberTexts_closed
  have parts : Text.splitTopLevel '|' (([' '] ++ '|' :: [' ']).intercalate hint.memberTexts) =
      hint.memberTexts.map trim :=
    splitTopLevel_intercalate rfl rfl rfl (List.forall_mem_singleton.mpr rfl)
      (List.forall_mem_singleton.mpr rfl) hint.memberTexts_ne_nil
      fun text member => (members text member).2
  rw [map_trim_of_written fun text member => (members text member).1] at parts
  rw [← intercalate_memberTexts]
  exact parts

/-! ### Types -/

private theorem IsHint.denote_of_members {hint : Expr} (isHint : hint.IsHint)
    (members : hint.memberTexts.map denote = hint.memberTypes) :
    denote hint.hintText.toList = hint.meaning := by
  have whole := intercalate_memberTexts hint
  have parts := isHint.splitTopLevel
  rw [meaning, ← members]
  cases texts : hint.memberTexts with
  | nil => exact absurd texts hint.memberTexts_ne_nil
  | cons text rest =>
      cases rest with
      | nil =>
          rw [texts, List.intercalate_singleton] at whole
          rw [whole]
          rfl
      | cons next rest =>
          rw [texts] at parts
          rw [Hint.denote_of_members, isHint.written.unquote_eq, parts, union_eq_unionType]
          · rfl
          · rw [isHint.written.unquote_eq]
            exact isHint.written.nonempty
          · rw [isHint.written.unquote_eq, parts]
            simp

private theorem argumentTypes_eq_map (arguments : List Expr) :
    argumentTypes arguments = arguments.map meaning := by
  induction arguments with
  | nil => rfl
  | cons argument rest induction => rw [argumentTypes, induction, List.map_cons, meaning]

/-- Each member of a hint denotes what it means: by induction on the tree, since the text of a
generic type is cut into the texts of its arguments. -/
theorem IsHint.map_denote {hint : Expr} (isHint : hint.IsHint) :
    hint.memberTexts.map denote = hint.memberTypes := by
  induction isHint with
  | name plain => rfl
  | none => decide
  | union _ _ left right => rw [memberTexts, memberTypes, List.map_append, left, right]
  | @generic head argument known isHint members =>
      have type : (Expr.subscript (.name head) argument).memberTypes =
          [genericType head [argument.meaning]] := by
        cases isHint <;> rfl
      have text : (Expr.subscript (.name head) argument).memberTexts =
          [applied head [argument.hintText.toList]] := by
        rw [← isHint.toList_hintText_generic]
        rfl
      rw [type, text, List.map_singleton,
        denote_generic known (by simpa using isHint.written) (List.cons_ne_nil _ _),
        List.map_singleton, isHint.denote_of_members members]
  | @generics head arguments known nonempty areHints members =>
      have denoted : (arguments.map fun argument => argument.hintText.toList).map denote =
          arguments.map meaning := by
        rw [List.map_map]
        apply List.map_congr_left
        intro argument among
        rw [Function.comp_apply, (areHints argument among).denote_of_members
          (members argument among)]
      have text : (Expr.subscript (.name head) (.tuple arguments)).memberTexts =
          [applied head (arguments.map fun argument => argument.hintText.toList)] := by
        rw [← toList_hintText_generics]
        rfl
      rw [memberTypes, argumentTypes_eq_map, text, List.map_singleton,
        denote_generic known
          (by simpa using fun argument among => (areHints argument among).written)
          (by simpa using nonempty), denoted]

/-- What a hint is written as denotes what the hint means. -/
theorem ofHint_hintText {hint : Expr} (isHint : hint.IsHint) :
    Ty.ofHint hint.hintText = hint.meaning :=
  isHint.denote_of_members isHint.map_denote

/-! A tuple of a dict with an optional value and a union that is grouped to the right. -/

def grouped : Expr :=
  .subscript (.name "tuple") (.tuple [
    .subscript (.name "dict") (.tuple [.name "str",
      .binary (.subscript (.name "list") (.name "Shelf")) .bitOr (.constant .none)]),
    .binary (.name "int") .bitOr (.binary (.constant .none) .bitOr (.name "float"))])

theorem ofHint_hintText_grouped :
    grouped.IsHint ∧
    grouped.hintText = "tuple[dict[str, list[Shelf] | None], int | None | float]" ∧
    grouped.meaning = .tuple [.dict Ty.text (.optional (.list (.object "Shelf"))),
      .optional .float] ∧
    Ty.ofHint grouped.hintText = grouped.meaning := by
  have isDict : IsHint (.subscript (.name "dict") (.tuple [.name "str",
      .binary (.subscript (.name "list") (.name "Shelf")) .bitOr (.constant .none)])) := by
    apply IsHint.generics (by decide) (List.cons_ne_nil _ _)
    simpa using ⟨.name (by decide), .union (.generic (by decide) (.name (by decide))) .none⟩
  have isUnion : IsHint (.binary (.name "int") .bitOr
      (.binary (.constant .none) .bitOr (.name "float"))) :=
    .union (.name (by decide)) (.union .none (.name (by decide)))
  have isHint : grouped.IsHint := by
    apply IsHint.generics (by decide) (List.cons_ne_nil _ _)
    simpa using ⟨isDict, isUnion⟩
  exact ⟨isHint, by decide +kernel, by decide +kernel, ofHint_hintText isHint⟩

end Surface.Expr

end NativeTyping

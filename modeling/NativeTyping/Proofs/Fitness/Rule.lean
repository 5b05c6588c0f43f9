import NativeTyping.Inference.Operator
import NativeTyping.Inference.Unpack
import NativeTyping.Library.Builtins
import NativeTyping.Library.Facilities
import NativeTyping.Library.Modules
import NativeTyping.Proofs.Fitness.Type
import NativeTyping.Proofs.MutationRules
/-!
The rules of inference that look at types alone keep types fit.

What a hint denotes and what the library is described by lasts, whatever the program is
made of. Operators, displays, library functions and mutating methods turn types that fit
into types that fit, and a mutating method leaves a receiver that lasts one that lasts.
-/

namespace NativeTyping

variable {material : Material} {lifetime : Lifetime}

theorem forall_mem_or {α : Type} {holds : α → Prop} {first second : Option α}
    (inFirst : ∀ value ∈ first, holds value) (inSecond : ∀ value ∈ second, holds value) :
    ∀ value ∈ first.or second, holds value := by
  cases first with
  | none => exact inSecond
  | some present => exact inFirst

/-! ## Hints -/

namespace Hint

private theorem union_fits {members : List Ty}
    (fit : ∀ type ∈ members, type.Fits material lifetime) :
    (union members).Fits material lifetime := by
  have merged : (Ty.widenAll (members.filter (· ≠ .none))).Fits material lifetime := by
    apply Ty.fits_widenAll
    intro type member
    exact fit type (List.mem_of_mem_filter member)
  rw [union]
  split
  · exact merged
  · exact merged

private theorem denoteApplication_fits {denote : List Char → Ty}
    (fit : ∀ written, (denote written).Fits material .lasting) (head : List Char)
    (arguments : List (List Char)) :
    (denoteApplication denote head arguments).Fits material .lasting := by
  have argument : ∀ position : Nat,
      (Ty.orUnknown ((arguments[position]?).map denote)).Fits material .lasting := by
    intro position
    apply Ty.fits_orUnknown
    intro type found
    rcases Option.map_eq_some_iff.mp found with ⟨written, _, rfl⟩
    exact fit written
  have each : ∀ writtens : List (List Char), ∀ type ∈ writtens.map denote,
      type.Fits material .lasting := by
    intro writtens type member
    rcases List.mem_map.mp member with ⟨written, _, rfl⟩
    exact fit written
  unfold denoteApplication
  dsimp only
  split
  -- Tuples, unions, callables and names of classes; the others hold plain arguments.
  case h_20 | h_21 =>
      split
      · apply Ty.fits_orUnknown
        intro type first
        exact each _ type (List.mem_of_mem_head? first)
      · exact Ty.tuple_fits_iff.mpr (each _)
  case h_23 => exact union_fits (each arguments)
  case h_24 =>
      split
      · rename_i params result
        exact Ty.function_fits_iff.mpr ⟨each _, fit result⟩
      · trivial
  case h_29 => split <;> trivial
  all_goals simp [Ty.Fits, Ty.text, argument]

private theorem denoteIn_fits (steps : Nat) (written : List Char) :
    (denoteIn steps written).Fits material .lasting := by
  induction steps generalizing written with
  | zero => trivial
  | succ steps induction =>
      unfold denoteIn
      dsimp only
      split
      · trivial
      split
      · apply union_fits
        intro type member
        rcases List.mem_map.mp member with ⟨part, _, rfl⟩
        exact induction part
      · exact denoteApplication_fits induction _ _

end Hint

private theorem Ty.ofHint_fits (hint : String) : (Ty.ofHint hint).Fits material .lasting :=
  Hint.denoteIn_fits _ _

theorem Config.hintType_fits (config : Config) (hint : Option String) :
    (config.hintType hint).Fits material .lasting := by
  unfold Config.hintType
  split
  · split
    · exact Ty.ofHint_fits _
    · trivial
  · trivial

/-! ## Operators -/

namespace Ty

private theorem asNumber?_fits {type : Ty} :
    ∀ number ∈ type.asNumber?, number.Fits material lifetime := by
  intro number found
  cases type <;> simp [asNumber?, isNumeric, isInteger] at found <;> subst found <;> trivial

private theorem promote?_fits {left right : Ty} :
    ∀ number ∈ promote? left right, number.Fits material lifetime := by
  intro number found
  simp only [promote?, Option.bind_eq_bind, Option.mem_def, Option.bind_eq_some_iff] at found
  rcases found with ⟨leftNumber, isLeft, rightNumber, isRight, merged⟩
  cases merged
  exact (asNumber?_fits _ isLeft).widen (asNumber?_fits _ isRight)

variable {left right : Ty}

private theorem arithmetic_fits (leftFits : left.Fits material lifetime)
    (rightFits : right.Fits material lifetime) :
    (arithmetic left right).Fits material lifetime := by
  rw [arithmetic]
  cases promoted : promote? left right with
  | none => exact leftFits.widen rightFits
  | some number => exact promote?_fits number promoted

private theorem sequenceElement?_fits {type element : Ty} (fits : type.Fits material lifetime)
    (found : type.sequenceElement? = some element) : element.Fits material lifetime := by
  cases type with
  | list inner =>
      cases found
      exact fits
  | array inner length =>
      cases found
      exact fits.2
  | _ => cases found

private theorem addType_fits (leftFits : left.Fits material .passing)
    (rightFits : right.Fits material .passing) : (addType left right).Fits material .passing := by
  unfold addType
  split
  · exact text_fits
  split
  · rename_i leftElement rightElement isLeft isRight
    have merged := (sequenceElement?_fits leftFits isLeft).widen
      (sequenceElement?_fits rightFits isRight)
    exact merged.owned.passing
  split
  · rename_i lefts rights _
    rw [tuple_fits_iff] at leftFits rightFits ⊢
    intro element member
    rcases List.mem_append.mp member with inLeft | inRight
    · exact leftFits element inLeft
    · exact rightFits element inRight
  · exact arithmetic_fits leftFits rightFits

private theorem mulType_fits (leftFits : left.Fits material .passing)
    (rightFits : right.Fits material .passing) : (mulType left right).Fits material .passing := by
  unfold mulType
  split
  · exact text_fits
  split
  · rename_i element isLeft
    split
    · exact (sequenceElement?_fits leftFits isLeft).owned.passing
    · exact arithmetic_fits leftFits rightFits
  · exact arithmetic_fits leftFits rightFits

private theorem otherType_fits (op : BinaryOp) (leftFits : left.Fits material .passing)
    (rightFits : right.Fits material .passing) :
    (otherType op left right).Fits material .passing := by
  unfold otherType
  split
  · exact text_fits
  · exact leftFits.widen rightFits
  · exact leftFits.widen rightFits
  · exact leftFits.widen rightFits
  · exact leftFits.widen rightFits
  · exact (leftFits.widen rightFits).owned.passing
  · split
    · trivial
    · exact arithmetic_fits leftFits rightFits

theorem operatorType_fits (op : BinaryOp) (leftFits : left.Fits material .passing)
    (rightFits : right.Fits material .passing) :
    (operatorType op left right).Fits material .passing := by
  unfold operatorType
  split
  · trivial
  · exact addType_fits leftFits rightFits
  · exact mulType_fits leftFits rightFits
  · exact otherType_fits op leftFits rightFits

theorem unaryType_fits (op : UnaryOp) {operand : Ty} (fits : operand.Fits material .passing) :
    (unaryType op operand).Fits material .passing := by
  unfold unaryType
  split
  · trivial
  · split <;> trivial
  · trivial
  · exact fits

/-! ## Subscripts, slices and displays -/

theorem tupleElement?_fits {elements : List Ty}
    (fit : ∀ element ∈ elements, element.Fits material lifetime) (index : Int64) :
    ∀ element ∈ tupleElement? elements index, element.Fits material lifetime := by
  intro element found
  rcases Option.bind_eq_some_iff.mp found with ⟨position, _, isElement⟩
  exact fit element (List.mem_of_getElem? isElement)

private theorem tupleSlice_fits {elements : List Ty}
    (fit : ∀ element ∈ elements, element.Fits material lifetime) (start stop : Option Expr) :
    (tupleSlice elements start stop).Fits material lifetime := by
  unfold tupleSlice
  dsimp only
  split
  · split
    · apply tuple_fits_iff.mpr
      intro element member
      exact fit element (List.mem_of_mem_take (List.mem_of_mem_drop member))
    · exact tuple_fits_iff.mpr (List.forall_mem_nil _)
  · trivial

theorem sliceType_fits {base : Ty} (fits : base.Fits material .passing)
    (start stop step : Option Expr) :
    (sliceType base start stop step).Fits material .passing := by
  cases base with
  | str kind => exact str_fits .slice
  | array element length => exact fits.2
  | list element => exact fits
  | tuple elements =>
      simp only [sliceType]
      split
      · trivial
      · exact tupleSlice_fits (tuple_fits_iff.mp fits) start stop
  | _ => trivial

theorem listDisplay_fits {config : Config} (arrays : config.literalArrays = true → material.arrays)
    (items : List Expr) {types : List Ty} (fit : ∀ type ∈ types, type.Fits material .passing) :
    (listDisplay config items types).Fits material .passing := by
  unfold listDisplay
  split
  · trivial
  split
  · rename_i literal
    simp only [Bool.and_eq_true] at literal
    exact ⟨arrays literal.1.1, fits_widenAll fit⟩
  · exact (fits_widenAll fit).owned.passing

theorem dictDisplay_fits {values : List Ty} (fit : ∀ type ∈ values, type.Fits material .passing) :
    (dictDisplay values).Fits material .passing := by
  unfold dictDisplay
  split
  · exact ⟨text_fits, (fits_widenAll fit).owned.passing⟩
  · exact ⟨text_fits, text_fits⟩

end Ty

/-! ## Unpacking -/

namespace Target

private theorem itemTypes_fit (items : List Target) {type : Ty}
    (fits : type.Fits material .passing) :
    ∀ item ∈ itemTypes items type, item.Fits material .passing := by
  have repeated : ∀ item ∈ List.replicate items.length type.iterElement,
      item.Fits material .passing := by
    intro item member
    rw [List.eq_of_mem_replicate member]
    exact fits.iterElement
  unfold itemTypes
  split
  · split
    · exact Ty.tuple_fits_iff.mp fits
    · exact repeated
  · exact repeated

mutual

theorem unpack_fits (target : Target) {type : Ty} (fits : type.Fits material .passing) :
    ∀ part ∈ target.unpack type, part.2.Fits material .passing := by
  cases target with
  | place single =>
      intro part member
      rw [List.mem_singleton.mp member]
      exact fits
  | tuple items => exact unpackEach_fits items (itemTypes_fit items fits)
  | starred inner => exact unpack_fits inner fits.owned.passing

theorem unpackEach_fits (items : List Target) {types : List Ty}
    (fit : ∀ type ∈ types, type.Fits material .passing) :
    ∀ part ∈ unpackEach items types, part.2.Fits material .passing := by
  cases items with
  | nil =>
      intro part member
      cases types <;> cases member
  | cons item rest =>
      cases types with
      | nil =>
          intro part member
          cases member
      | cons type others =>
          rw [List.forall_mem_cons] at fit
          intro part member
          rcases List.mem_append.mp member with first | later
          · exact unpack_fits item fit.1 part first
          · exact unpackEach_fits rest fit.2 part later

end

theorem unpackNames_fit (target : Target) {type : Ty} (fits : type.Fits material .passing) :
    ∀ binding ∈ target.unpackNames type, binding.2.Fits material .passing := by
  intro binding member
  rcases List.mem_filterMap.mp member with ⟨part, isPart, isName⟩
  have partFits := unpack_fits target fits part isPart
  split at isName
  · cases isName
    exact partFits
  · cases isName

end Target

/-! ## Library -/

private theorem NameGroups.forall_find? {α : Type} {groups : NameGroups α} {holds : α → Prop}
    (all : ∀ group ∈ groups, holds group.2) (name : String) :
    ∀ entry ∈ groups.find? name, holds entry := by
  intro entry found
  rcases Option.map_eq_some_iff.mp found with ⟨group, isFound, rfl⟩
  exact all group (List.mem_of_find?_eq_some isFound)

namespace StructFormat

private theorem codeFields_fits (code : Char) (count : Nat) :
    (codeFields code count).2.Fits material lifetime := by
  unfold codeFields
  repeat' split
  all_goals simp [Ty.Fits, Ty.text]

private theorem readFrom_fits (format : List Char) {count : Option Nat} {fields : List Ty}
    (fit : ∀ type ∈ fields, type.Fits material lifetime) :
    ∀ types ∈ readFrom count fields format, ∀ type ∈ types, type.Fits material lifetime := by
  induction format generalizing count fields with
  | nil =>
      intro types found
      cases found
      exact fit
  | cons char rest induction =>
      unfold readFrom
      split
      · exact induction fit
      split
      · intro types found
        cases found
      dsimp only
      split
      · apply induction
        intro type member
        rcases List.mem_append.mp member with known | added
        · exact fit type known
        · rw [List.eq_of_mem_replicate added]
          exact codeFields_fits _ _
      · intro types found
        cases found

end StructFormat

private theorem Ty.ofStructFormat_fits (format : List Char) :
    (Ty.ofStructFormat format).Fits material lifetime := by
  unfold Ty.ofStructFormat
  split
  · rename_i fields found
    exact Ty.tuple_fits_iff.mpr (StructFormat.readFrom_fits format (by simp) fields found)
  · trivial

namespace ReturnRule

def Fits (material : Material) : ReturnRule → Prop
  | .fixed type => type.Fits material .lasting
  | _ => True

private theorem promoteAll?_fits {first : Ty} (fits : first.Fits material lifetime)
    (rest : List Ty) :
    ∀ number ∈ promoteAll? first rest, number.Fits material lifetime := by
  induction rest generalizing first with
  | nil =>
      intro number found
      cases found
      exact fits
  | cons type rest induction =>
      intro number found
      rcases Option.bind_eq_some_iff.mp found with ⟨merged, promoted, later⟩
      exact induction (Ty.promote?_fits merged promoted) number later

private theorem dictOf_fits {type : Ty} (fits : type.Fits material .passing) :
    (dictOf type).Fits material .passing := by
  unfold dictOf
  split
  · exact fits.owned.passing
  · rename_i key value
    have parts := Ty.tuple_fits_iff.mp fits
    exact ⟨(parts key (by simp)).owned, (parts value (by simp)).owned.passing⟩
  · exact ⟨Ty.text_fits, trivial⟩

theorem apply_fits {rule : ReturnRule} (ruleFits : rule.Fits material) {args : List Ty}
    (fit : ∀ type ∈ args, type.Fits material .passing) (exprs : List Expr) :
    (rule.apply args exprs).Fits material .passing := by
  have first : (Ty.orUnknown args.head?).Fits material .passing :=
    Ty.fits_orUnknown fun type isFirst => fit type (List.mem_of_mem_head? isFirst)
  cases rule with
  | fixed type => exact ruleFits.passing
  | sameAsArg => exact first
  | elementOfArg => exact first.iterElement
  | listOfElements | setOfElements => exact first.iterElement.owned.passing
  | extremum =>
      unfold apply
      dsimp only
      split
      · exact (fit _ (by simp)).iterElement
      · exact Ty.fits_widenAll fit
  | numeric => exact Ty.fits_orUnknown (promoteAll?_fits first args.tail)
  | sum =>
      unfold apply
      cases promoted : Ty.promote? (Ty.orUnknown args.head?).iterElement ((args[1]?).getD .int) with
      | none => simp only [promoted]; trivial
      | some number =>
          simp only [promoted]
          exact Ty.promote?_fits number promoted
  | round =>
      unfold apply
      dsimp only
      split <;> trivial
  | enumerate => exact ⟨trivial, first.iterElement, trivial⟩
  | zip =>
      apply Ty.tuple_fits_iff.mpr
      intro element member
      rcases List.mem_map.mp member with ⟨arg, isArg, rfl⟩
      exact (fit arg isArg).iterElement
  | structUnpack =>
      unfold apply
      dsimp only
      split
      · exact Ty.ofStructFormat_fits _
      · trivial
  | divMod =>
      have number : (Ty.orUnknown
          (Ty.promote? (Ty.orUnknown args.head?) ((args[1]?).getD .int))).Fits material .passing :=
        Ty.fits_orUnknown Ty.promote?_fits
      exact ⟨number, number, trivial⟩
  | dictFrom => exact dictOf_fits first

end ReturnRule

/-! The tables of the library hold types that last. -/

theorem Facility.method?_fits (facility : Facility) (name : String) :
    ∀ result ∈ facility.method? name, result.Fits material .lasting := by
  apply NameGroups.forall_find?
  cases facility <;> simp [Facility.methods, Ty.Fits, Ty.FitEach, Ty.text]

theorem Facility.attribute?_fits (facility : Facility) (name : String) :
    ∀ type ∈ facility.attribute? name, type.Fits material .lasting := by
  apply NameGroups.forall_find?
  cases facility <;> simp [Facility.attributes, Ty.Fits, Ty.text]

namespace Library

theorem builtinFunction?_fits (name : String) :
    ∀ rule ∈ builtinFunction? name, rule.Fits material := by
  apply NameGroups.forall_find?
  simp [builtinFunctions, ReturnRule.Fits, Ty.Fits, Ty.text]

private def ModuleTable.Fits (material : Material) (table : ModuleTable) : Prop :=
  (∀ entry ∈ table.functions, entry.2.Fits material) ∧
    ∀ rule ∈ table.otherwise, rule.Fits material

private theorem moduleTables_fit : ∀ group ∈ moduleTables, group.2.Fits material := by
  simp only [moduleTables, ModuleTable.Fits, List.forall_mem_cons]
  simp [ReturnRule.Fits, Ty.Fits, Ty.FitEach, Ty.text, floats]

theorem moduleFunction?_fits (source name : String) :
    ∀ rule ∈ moduleFunction? source name, rule.Fits material := by
  intro rule found
  rcases Option.bind_eq_some_iff.mp found with ⟨table, isTable, inTable⟩
  have fits : table.Fits material :=
    NameGroups.forall_find? moduleTables_fit source table isTable
  exact forall_mem_or (NameGroups.forall_find? fits.1 name) fits.2 rule inTable

/-- A constant lasts, or is a string. -/
theorem moduleConstant?_fits (qualified : String) :
    ∀ type ∈ moduleConstant? qualified, type.Fits material .lasting ∨ type.isString = true := by
  apply NameGroups.forall_find?
  simp [moduleConstants, Ty.Fits, Ty.text, Ty.isString]

theorem builtinMethod?_fits {receiver : Ty} (fits : receiver.Fits material .passing)
    (method : String) {args : List Ty} (fit : ∀ type ∈ args, type.Fits material .passing) :
    ∀ result ∈ builtinMethod? receiver method args, result.Fits material .passing := by
  apply NameGroups.forall_find?
  cases receiver with
  | dict key value =>
      have keyFits := fits.1.passing
      have valueFits : value.Fits material .passing := fits.2
      simp only [methodsOf, dictMethods, List.forall_mem_cons]
      simp only [Ty.Fits, Ty.FitEach, fits.1, keyFits, valueFits, List.not_mem_nil, and_self,
        true_and, and_true, IsEmpty.forall_iff, implies_true]
      -- What is left is `get`, which merges the value with a default.
      split
      · rename_i default isSecond
        exact valueFits.widen (fit default (List.mem_of_getElem? isSecond))
      · exact valueFits
  | list element =>
      have elementFits : element.Fits material .passing := fits
      simp [methodsOf, listMethods, Ty.Fits, elementFits]
  | array element length =>
      have elementFits : element.Fits material .passing := fits.2
      simp [methodsOf, listMethods, Ty.Fits, elementFits]
  | set element =>
      have elementFits : element.Fits material .passing := fits
      simp [methodsOf, setMethods, Ty.Fits, elementFits]
  | str kind => simp [methodsOf, stringMethods, Ty.Fits, Ty.FitEach, Ty.text]
  | int | index | bigInt => simp [methodsOf, integerMethods, Ty.Fits, Ty.text]
  | float => simp [methodsOf, floatMethods, Ty.Fits, Ty.FitEach, Ty.text]
  | _ => simp [methodsOf]

end Library

/-! ## Mutating methods -/

namespace Mutation

def Rule.KeepsFit (material : Material) (rule : Rule) : Prop :=
  ∀ {lifetime : Lifetime} {receiver : Ty} {args : List Ty}, receiver.Fits material lifetime →
    (∀ type ∈ args, type.Fits material .passing) →
    ∀ changed ∈ rule.refine? receiver args, changed.Fits material lifetime

private theorem Rule.keepsFit_of_unchanged {rule : Rule}
    (unchanged : ∀ receiver args, ∀ changed ∈ rule.refine? receiver args, changed = receiver) :
    rule.KeepsFit material := by
  intro lifetime receiver args fits fit changed refined
  rw [unchanged receiver args changed refined]
  exact fits

private theorem addToList_keepsFit (method : String) (position : Nat) :
    (addToList method position).KeepsFit material := by
  intro lifetime receiver args fits fit changed refined
  simp only [addToList] at refined
  split at refined
  · rename_i element added isArg
    cases refined
    have elementFits : element.Fits material lifetime := fits
    exact elementFits.widen_owned (fit added (List.mem_of_getElem? isArg))
  · cases refined

private theorem extendList_keepsFit (method : String) : (extendList method).KeepsFit material := by
  intro lifetime receiver args fits fit changed refined
  simp only [extendList] at refined
  split at refined
  · rename_i element added isArg
    cases refined
    have elementFits : element.Fits material lifetime := fits
    exact elementFits.widen_owned (fit added (List.mem_of_mem_head? isArg)).iterElement
  · cases refined

private theorem keepList_keepsFit (method : String) : (keepList method).KeepsFit material := by
  apply Rule.keepsFit_of_unchanged
  intro receiver args changed refined
  cases receiver <;> cases refined
  rfl

private theorem addToSet_keepsFit (method : String) : (addToSet method).KeepsFit material := by
  intro lifetime receiver args fits fit changed refined
  simp only [addToSet] at refined
  split at refined
  · rename_i element added isArg
    cases refined
    have elementFits : element.Fits material lifetime := fits
    exact elementFits.widen_owned (fit added (List.mem_of_mem_head? isArg))
  · cases refined

private theorem extendSet_keepsFit (method : String) : (extendSet method).KeepsFit material := by
  intro lifetime receiver args fits fit changed refined
  simp only [extendSet] at refined
  split at refined
  · rename_i element added isArg
    cases refined
    have elementFits : element.Fits material lifetime := fits
    exact elementFits.widen_owned (fit added (List.mem_of_mem_head? isArg)).iterElement
  · cases refined

private theorem keepSet_keepsFit (method : String) : (keepSet method).KeepsFit material := by
  apply Rule.keepsFit_of_unchanged
  intro receiver args changed refined
  cases receiver <;> cases refined
  rfl

/-- Added keys are not owned once more: they are owned in every dict. -/
theorem extendDict_keepsFit (method : String) : (extendDict method).KeepsFit material := by
  intro lifetime receiver args fits fit changed refined
  simp only [extendDict] at refined
  split at refined
  · rename_i key value addedKey addedValue isArg
    cases refined
    have added := fit _ (List.mem_of_mem_head? isArg)
    exact ⟨fits.1.widen added.1, fits.2.widen_owned added.2⟩
  · cases refined
    exact fits
  · cases refined

private theorem addToDict_keepsFit (method : String) : (addToDict method).KeepsFit material := by
  intro lifetime receiver args fits fit changed refined
  simp only [addToDict] at refined
  split at refined
  · rename_i key value added isArg
    cases refined
    exact ⟨fits.1, fits.2.widen_owned (fit added (List.mem_of_getElem? isArg))⟩
  · cases refined
    exact fits
  · cases refined

private theorem keepDict_keepsFit (method : String) : (keepDict method).KeepsFit material := by
  apply Rule.keepsFit_of_unchanged
  intro receiver args changed refined
  cases receiver <;> cases refined
  rfl

private theorem rules_keepFit : ∀ rule ∈ rules, rule.KeepsFit material := by
  simp only [rules, List.forall_mem_cons]
  simp [addToList_keepsFit, extendList_keepsFit, keepList_keepsFit, addToSet_keepsFit,
    extendSet_keepsFit, keepSet_keepsFit, extendDict_keepsFit, addToDict_keepsFit,
    keepDict_keepsFit]

private theorem containerFor?_fits (method : String) {args : List Ty}
    (fit : ∀ type ∈ args, type.Fits material .passing) :
    ∀ container ∈ containerFor? method args, container.Fits material .lasting := by
  have first : (Ty.orUnknown args.head?).Fits material .passing :=
    Ty.fits_orUnknown fun type isFirst => fit type (List.mem_of_mem_head? isFirst)
  have second : (Ty.orUnknown args[1]?).Fits material .passing :=
    Ty.fits_orUnknown fun type isSecond => fit type (List.mem_of_getElem? isSecond)
  intro container found
  unfold containerFor? at found
  dsimp only at found
  split at found
  · cases found
    exact first.owned
  · cases found
    exact first.iterElement.owned
  · cases found
    exact second.owned
  · cases found
    exact first.owned
  · cases found
    exact first.owned
  · split at found
    · rename_i key value isDict
      cases found
      rw [isDict] at first
      exact first.owned
    · cases found
      exact first.iterElement.owned
  · cases found

theorem refine?_fits {receiver : Ty} (fits : receiver.Fits material lifetime) (method : String)
    {args : List Ty} (fit : ∀ type ∈ args, type.Fits material .passing) :
    ∀ changed ∈ refine? receiver method args, changed.Fits material lifetime := by
  apply forall_mem_or
  · intro changed found
    rcases List.exists_of_findSome?_eq_some found with ⟨rule, isRule, refined⟩
    exact rules_keepFit rule (List.mem_of_mem_filter isRule) fits fit changed refined
  · intro changed found
    split at found
    · exact (containerFor?_fits method fit changed found).of_lasting
    · cases found

theorem refine?_of_isString {receiver : Ty} (isString : receiver.isString = true)
    (method : String) (args : List Ty) : refine? receiver method args = none := by
  rw [Option.eq_none_iff_forall_ne_some]
  intro changed answered
  have refines := refineBy?_refinesTo (fun _ isRule => isRule) answered
  cases receiver with
  | str kind => cases refines
  | _ => cases isString

end Mutation

end NativeTyping

import NativeTyping.Proofs.Widening
import NativeTyping.Ty.Storage
/-!
Types that are fit to be kept.

A type can be held for a while, by an expression or a variable, or it can last, in what is
recorded about functions and classes. A type that lasts owns its strings. The keys of a
dict and the parts of a function type are never taken over again, so these own their
strings wherever they occur. Apart from that, types may only be made of what the program
provides: the closures that it registers, and fixed arrays if it has any.

Merging, owning and taking apart types that fit gives types that fit.
-/

namespace NativeTyping

/-- What the types of a program may be made of: whether there are fixed arrays, and which
names are those of closures. -/
structure Material where
  arrays : Prop
  closures : String → Prop

structure Material.Within (material larger : Material) : Prop where
  arrays : material.arrays → larger.arrays
  closures : ∀ name, material.closures name → larger.closures name

inductive Lifetime where
  | passing
  | lasting
  deriving DecidableEq, Repr

namespace Ty

/-! ## Parts -/

mutual

def parts : Ty → List Ty
  | .array element length => .array element length :: parts element
  | .list element => .list element :: parts element
  | .set element => .set element :: parts element
  | .optional inner => .optional inner :: parts inner
  | .dict key value => .dict key value :: (parts key ++ parts value)
  | .tuple elements => .tuple elements :: partsEach elements
  | .function params result => .function params result :: (partsEach params ++ parts result)
  | leaf => [leaf]
termination_by structural type => type

def partsEach : List Ty → List Ty
  | [] => []
  | type :: rest => parts type ++ partsEach rest
termination_by structural types => types

end

/-! ## Fitness -/

mutual

def Fits (material : Material) : Ty → Lifetime → Prop
  | .str kind, lifetime => lifetime = .lasting → kind = .runtime
  | .array element _, lifetime => material.arrays ∧ Fits material element lifetime
  | .list element, lifetime => Fits material element lifetime
  | .set element, lifetime => Fits material element lifetime
  | .optional inner, lifetime => Fits material inner lifetime
  | .dict key value, lifetime => Fits material key .lasting ∧ Fits material value lifetime
  | .tuple elements, lifetime => FitEach material elements lifetime
  | .function params result, _ => FitEach material params .lasting ∧ Fits material result .lasting
  | .closure name, _ => material.closures name
  | _, _ => True
termination_by structural type => type

def FitEach (material : Material) : List Ty → Lifetime → Prop
  | [], _ => True
  | type :: rest, lifetime => Fits material type lifetime ∧ FitEach material rest lifetime
termination_by structural types => types

end

variable {material : Material} {lifetime : Lifetime}

private theorem fitEach_iff {types : List Ty} :
    FitEach material types lifetime ↔ ∀ type ∈ types, type.Fits material lifetime := by
  induction types with
  | nil => simp [FitEach]
  | cons type rest induction => simp [FitEach, induction]

theorem tuple_fits_iff {elements : List Ty} :
    (tuple elements).Fits material lifetime ↔
      ∀ element ∈ elements, element.Fits material lifetime :=
  fitEach_iff

theorem function_fits_iff {params : List Ty} {result : Ty} :
    (function params result).Fits material lifetime ↔
      (∀ param ∈ params, param.Fits material .lasting) ∧ result.Fits material .lasting :=
  and_congr_left fun _ => fitEach_iff

theorem unknown_fits : unknown.Fits material lifetime :=
  True.intro

theorem text_fits : text.Fits material lifetime :=
  fun _ => rfl

theorem str_fits (kind : StringKind) : (str kind).Fits material .passing :=
  fun isLasting => nomatch isLasting

theorem fits_of_isString {type : Ty} (isString : type.isString = true) :
    type.Fits material .passing := by
  cases type with
  | str kind => exact str_fits kind
  | _ => cases isString

/-! ## More material, and a shorter life -/

mutual

private theorem fits_mono {larger : Material} (within : material.Within larger) (type : Ty)
    {lifetime shorter : Lifetime} (order : shorter = .lasting → lifetime = .lasting)
    (fits : type.Fits material lifetime) : type.Fits larger shorter := by
  cases type with
  | str kind => exact fun isLasting => fits (order isLasting)
  | array element length => exact ⟨within.arrays fits.1, fits_mono within element order fits.2⟩
  | list element | set element | optional element => exact fits_mono within element order fits
  | dict key value => exact ⟨fits_mono within key id fits.1, fits_mono within value order fits.2⟩
  | tuple elements => exact fitEach_mono within elements order fits
  | function params result =>
      exact ⟨fitEach_mono within params id fits.1, fits_mono within result id fits.2⟩
  | closure name => exact within.closures name fits
  | _ => trivial

private theorem fitEach_mono {larger : Material} (within : material.Within larger) (types : List Ty)
    {lifetime shorter : Lifetime} (order : shorter = .lasting → lifetime = .lasting)
    (fits : FitEach material types lifetime) : FitEach larger types shorter := by
  cases types with
  | nil => trivial
  | cons type rest =>
      exact ⟨fits_mono within type order fits.1, fitEach_mono within rest order fits.2⟩

end

theorem Fits.within {larger : Material} {type : Ty} (fits : type.Fits material lifetime)
    (within : material.Within larger) : type.Fits larger lifetime :=
  fits_mono within type id fits

theorem Fits.of_lasting {type : Ty} (fits : type.Fits material .lasting) :
    type.Fits material lifetime :=
  fits_mono ⟨id, fun _ => id⟩ type (fun _ => rfl) fits

theorem Fits.passing {type : Ty} (fits : type.Fits material lifetime) :
    type.Fits material .passing :=
  fits_mono ⟨id, fun _ => id⟩ type nofun fits

/-! ## Merging -/

private theorem fits_widenLeaf {left right : Ty} (leftFits : left.Fits material lifetime)
    (rightFits : right.Fits material lifetime) :
    (widenLeaf left right).Fits material lifetime := by
  rw [widenLeaf]
  split
  · split
    · exact rightFits
    · exact leftFits
  · split
    · exact leftFits
    · split <;> trivial

private theorem fitEach_widenEach {lefts rights : List Ty}
    (each : List.Forall₂ (fun left right => ∀ {lifetime}, left.Fits material lifetime →
      right.Fits material lifetime → (widen left right).Fits material lifetime) lefts rights)
    (leftsFit : FitEach material lefts lifetime) (rightsFit : FitEach material rights lifetime) :
    FitEach material (widenEach lefts rights) lifetime := by
  induction each with
  | nil => trivial
  | cons step _ induction =>
      exact ⟨step leftsFit.1 rightsFit.1, induction leftsFit.2 rightsFit.2⟩

theorem Fits.widen {left right : Ty} {lifetime : Lifetime}
    (leftFits : left.Fits material lifetime) (rightFits : right.Fits material lifetime) :
    (left.widen right).Fits material lifetime := by
  induction left, right using merge_induction generalizing lifetime with
  | unknownLeft right => exact rightFits
  | unknownRight left =>
      rw [widen_unknown]
      exact leftFits
  | strLeft kind right =>
      rw [str_widen]
      split
      · exact leftFits
      · exact text_fits
  | strRight left kind =>
      rw [widen_str]
      split
      · exact rightFits
      · exact text_fits
  | noneLeft right =>
      cases right with
      | unknown | none => trivial
      | str kind => exact text_fits
      | optional inner => exact rightFits
      | _ => exact rightFits
  | noneRight left =>
      cases left with
      | unknown | none => trivial
      | str kind => exact text_fits
      | optional inner => exact leftFits
      | _ => exact leftFits
  | optionals left right induction => exact induction leftFits rightFits
  | optionalLeft left right plain induction =>
      rw [optional_widen_plain left plain]
      exact induction leftFits rightFits
  | optionalRight left right plain induction =>
      rw [plain_widen_optional plain]
      exact induction leftFits rightFits
  | arrays left leftLength right rightLength induction =>
      have merged := induction leftFits.2 rightFits.2
      by_cases same : leftLength = rightLength
      · simp only [Ty.widen, settle, if_pos same]
        exact ⟨leftFits.1, merged⟩
      · simp only [Ty.widen, settle, if_neg same]
        exact merged
  | arrayList left length right induction => exact induction leftFits.2 rightFits
  | listArray left right length induction => exact induction leftFits rightFits.2
  | lists left right induction => exact induction leftFits rightFits
  | dicts leftKey leftValue rightKey rightValue keys values =>
      exact ⟨keys leftFits.1 rightFits.1, values leftFits.2 rightFits.2⟩
  | sets left right induction => exact induction leftFits rightFits
  | tuples lefts rights each =>
      have merged := fitEach_widenEach each leftFits rightFits
      simp only [Ty.widen, settle, if_pos each.length_eq]
      exact merged
  | apart left right plainLeft plainRight apart =>
      rw [widen_eq_widenLeaf plainLeft plainRight apart]
      exact fits_widenLeaf leftFits rightFits

private theorem fits_foldl_widen {merged : Ty} (mergedFits : merged.Fits material lifetime)
    {types : List Ty} (fit : ∀ type ∈ types, type.Fits material lifetime) :
    (types.foldl widen merged).Fits material lifetime := by
  induction types generalizing merged with
  | nil => exact mergedFits
  | cons type rest induction =>
      rw [List.forall_mem_cons] at fit
      exact induction (mergedFits.widen fit.1) fit.2

theorem fits_widenAll {types : List Ty} (fit : ∀ type ∈ types, type.Fits material lifetime) :
    (widenAll types).Fits material lifetime :=
  fits_foldl_widen unknown_fits fit

/-! ## Owning and taking apart -/

mutual

private theorem fits_owned (type : Ty) {lifetime : Lifetime} (fits : type.Fits material lifetime) :
    type.owned.Fits material .lasting := by
  cases type with
  | str kind => exact text_fits
  | array element length => exact ⟨fits.1, fits_owned element fits.2⟩
  | list element | set element | optional element => exact fits_owned element fits
  | dict key value => exact ⟨fits_owned key fits.1, fits_owned value fits.2⟩
  | tuple elements => exact fitEach_ownedEach elements fits
  | function params result => exact fits
  | closure name => exact fits
  | _ => trivial

private theorem fitEach_ownedEach (types : List Ty) {lifetime : Lifetime}
    (fits : FitEach material types lifetime) : FitEach material (ownedEach types) .lasting := by
  cases types with
  | nil => trivial
  | cons type rest => exact ⟨fits_owned type fits.1, fitEach_ownedEach rest fits.2⟩

end

/-- Whatever fits for a while lasts once it is owned. -/
theorem Fits.owned {type : Ty} (fits : type.Fits material lifetime) :
    type.owned.Fits material .lasting :=
  fits_owned type fits

/-- Merging in what is owned keeps the lifetime. -/
theorem Fits.widen_owned {type added : Ty} (fits : type.Fits material lifetime)
    (addedFits : added.Fits material .passing) :
    (type.widen added.owned).Fits material lifetime :=
  fits.widen addedFits.owned.of_lasting

theorem Fits.iterElement {type : Ty} (fits : type.Fits material lifetime) :
    type.iterElement.Fits material .passing := by
  cases type with
  | list element | set element =>
      have elementFits : element.Fits material lifetime := fits
      exact elementFits.passing
  | array element length => exact fits.2.passing
  | dict key value => exact fits.1.passing
  | tuple elements =>
      apply fits_widenAll
      intro element member
      exact (tuple_fits_iff.mp fits element member).passing
  | str kind => exact str_fits .slice
  | library facility => cases facility <;> simp [Ty.iterElement, Fits, text]
  | _ => trivial

theorem Fits.promoteArray {type : Ty} (fits : type.Fits material lifetime) :
    type.promoteArray.Fits material lifetime := by
  cases type with
  | array element length => exact fits.2
  | _ => exact fits

theorem fits_orUnknown {type : Option Ty} (fit : ∀ known ∈ type, known.Fits material lifetime) :
    (orUnknown type).Fits material lifetime := by
  cases type with
  | none => trivial
  | some known => exact fit known rfl

mutual

theorem fits_part (type : Ty) {lifetime : Lifetime} (fits : type.Fits material lifetime)
    {part : Ty} (member : part ∈ type.parts) : part.Fits material lifetime := by
  cases type with
  | array element length =>
      rcases List.mem_cons.mp member with rfl | inside
      · exact fits
      · exact fits_part element fits.2 inside
  | list element | set element | optional element =>
      rcases List.mem_cons.mp member with rfl | inside
      · exact fits
      · exact fits_part element fits inside
  | dict key value =>
      rcases List.mem_cons.mp member with rfl | inside
      · exact fits
      rcases List.mem_append.mp inside with inKey | inValue
      · exact (fits_part key fits.1 inKey).of_lasting
      · exact fits_part value fits.2 inValue
  | tuple elements =>
      rcases List.mem_cons.mp member with rfl | inside
      · exact fits
      · exact fits_partOfEach elements fits inside
  | function params result =>
      rcases List.mem_cons.mp member with rfl | inside
      · exact fits
      rcases List.mem_append.mp inside with inParams | inResult
      · exact (fits_partOfEach params fits.1 inParams).of_lasting
      · exact (fits_part result fits.2 inResult).of_lasting
  | _ =>
      rw [List.mem_singleton.mp member]
      exact fits

theorem fits_partOfEach (types : List Ty) {lifetime : Lifetime}
    (fits : FitEach material types lifetime) {part : Ty} (member : part ∈ partsEach types) :
    part.Fits material lifetime := by
  cases types with
  | nil => cases member
  | cons type rest =>
      rcases List.mem_append.mp member with first | later
      · exact fits_part type fits.1 first
      · exact fits_partOfEach rest fits.2 later

end

end Ty

end NativeTyping

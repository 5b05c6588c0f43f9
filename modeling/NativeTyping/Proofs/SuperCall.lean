import NativeTyping.Inference.Expr
import NativeTyping.Proofs.Hierarchy
/-!
Methods of the base classes, called through `super()`.

Such a call tries the bases of the class one after the other, and searches the hierarchy of each
from its beginning. The order of the class itself is one walk that passes over what it has seen.
With bases that meet further up, the two come by different sequences of classes. The first class
that has the method is still the same: what the one walk passes over was searched before without
success, together with everything above it.
-/

namespace NativeTyping

namespace Environment

/-! ## Walks that pass over names -/

section Passing

variable (classes : Table ClassInfo)

/-- Wherever a walk from some names comes by a name that is to be passed over, everything above
that name is to be passed over as well. -/
def PassesOver (passed names : List String) : Prop :=
  ∀ start ∈ names, ∀ name, Reaches classes start name → name ∈ passed →
    directBases classes name ⊆ passed

variable {classes} {passed : List String}

namespace PassesOver

variable {name : String} {rest : List String} (passing : PassesOver classes passed (name :: rest))

include passing

private theorem bases : PassesOver classes passed (directBases classes name) := by
  intro base isBase other reaches
  exact passing name List.mem_cons_self other (.head isBase reaches)

private theorem tail : PassesOver classes passed rest :=
  fun start member => passing start (List.mem_cons_of_mem _ member)

private theorem bases_subset (isPassed : name ∈ passed) : directBases classes name ⊆ passed :=
  passing name List.mem_cons_self name .refl isPassed

end PassesOver

private theorem filter_append_passed {name : String} (isPassed : name ∈ passed)
    (seen : List String) :
    (seen ++ [name]).filter (· ∉ passed) = seen.filter (· ∉ passed) := by
  simp [isPassed]

private theorem filter_visit_of_passed {names : List String} (seen : List String)
    (passing : PassesOver classes passed names) (start : names ⊆ passed) :
    (visit classes seen names).1.filter (· ∉ passed) = seen.filter (· ∉ passed) := by
  induction seen, names using visit_induction classes with
  | nil seen => rw [visit_nil]
  | known seen name rest isKnown induction =>
      rw [visit_seen _ _ isKnown]
      exact induction passing.tail (List.cons_subset.mp start).2
  | new seen name rest isNew inBases inRest =>
      obtain ⟨isPassed, restPassed⟩ := List.cons_subset.mp start
      rw [visit_new _ _ isNew, inRest passing.tail restPassed,
        inBases passing.bases (passing.bases_subset isPassed), filter_append_passed isPassed]

private theorem exists_visit_passed {name : String} {rest : List String}
    (passing : PassesOver classes passed (name :: rest)) (isPassed : name ∈ passed)
    (seen : List String) :
    ∃ after, (visit classes seen (name :: rest)).1 = (visit classes after rest).1 ∧
      after.filter (· ∉ passed) = seen.filter (· ∉ passed) := by
  by_cases isKnown : name ∈ seen
  · exact ⟨seen, visit_seen _ _ isKnown, rfl⟩
  · refine ⟨_, visit_new _ _ isKnown, ?_⟩
    rw [filter_visit_of_passed _ passing.bases (passing.bases_subset isPassed),
      filter_append_passed isPassed]

/-- Two walks from the same names come by the same names apart from those that are passed over,
if they have seen the same ones apart from those. -/
theorem filter_visit_congr {names left right : List String}
    (passing : PassesOver classes passed names)
    (same : left.filter (· ∉ passed) = right.filter (· ∉ passed)) :
    (visit classes left names).1.filter (· ∉ passed) =
      (visit classes right names).1.filter (· ∉ passed) := by
  have known_iff {name : String} (isOther : name ∉ passed) {left right : List String}
      (same : left.filter (· ∉ passed) = right.filter (· ∉ passed)) :
      name ∈ left ↔ name ∈ right := by
    have member : name ∈ left.filter (· ∉ passed) ↔ name ∈ right.filter (· ∉ passed) := by
      rw [same]
    simpa [isOther] using member
  induction left, names using visit_induction classes generalizing right with
  | nil left => rwa [visit_nil, visit_nil]
  | known left name rest isKnown induction =>
      rw [visit_seen _ _ isKnown]
      by_cases isPassed : name ∈ passed
      · obtain ⟨after, equal, kept⟩ := exists_visit_passed passing isPassed right
        rw [equal]
        exact induction passing.tail (same.trans kept.symm)
      · rw [visit_seen _ _ ((known_iff isPassed same).mp isKnown)]
        exact induction passing.tail same
  | new left name rest isNew inBases inRest =>
      rw [visit_new _ _ isNew]
      by_cases isPassed : name ∈ passed
      · obtain ⟨after, equal, kept⟩ := exists_visit_passed passing isPassed right
        rw [equal]
        apply inRest passing.tail
        rw [filter_visit_of_passed _ passing.bases (passing.bases_subset isPassed),
          filter_append_passed isPassed, same, kept]
      · have stillNew : name ∉ right := fun member => isNew ((known_iff isPassed same).mpr member)
        rw [visit_new _ _ stillNew]
        apply inRest passing.tail
        apply inBases passing.bases
        rw [List.filter_append, List.filter_append, same]

end Passing

/-! ## Searches -/

section Search

variable {α : Type} {classes : Table ClassInfo} {find : String → Option α} {seen : List String}

private theorem findSome?_filter_passed {passed : List String}
    (nothing : ∀ name ∈ passed, find name = none) (names : List String) :
    (names.filter (· ∉ passed)).findSome? find = names.findSome? find := by
  have same : (fun name => if decide (name ∉ passed) = true then find name else none) = find := by
    funext name
    by_cases isPassed : name ∈ passed
    · simp [isPassed, nothing]
    · simp [isPassed]
  rw [← List.head?_filterMap, List.filterMap_filter, same, List.head?_filterMap]

private theorem findSome?_congr {β : Type} {names : List β} {left right : β → Option α}
    (same : ∀ name ∈ names, left name = right name) :
    names.findSome? left = names.findSome? right := by
  rw [← List.head?_filterMap, ← List.head?_filterMap, List.filterMap_congr same]

private theorem findSome?_visit_fresh {names : List String}
    (passing : PassesOver classes seen names) (nothing : ∀ name ∈ seen, find name = none) :
    (visit classes seen names).1.findSome? find = (visit classes [] names).1.findSome? find := by
  have same : seen.filter (· ∉ seen) = ([] : List String).filter (· ∉ seen) := by simp
  rw [← findSome?_filter_passed nothing, filter_visit_congr passing same,
    findSome?_filter_passed nothing]

/-- One walk over several hierarchies finds what walks over one of them after the other find, each
from its beginning. The induction is on the hierarchies: those searched without success are
passed over from then on. -/
theorem findSome?_visit_eq {names : List String} (passing : PassesOver classes seen names)
    (nothing : ∀ name ∈ seen, find name = none) :
    (visit classes seen names).1.findSome? find =
      names.findSome? fun name => (visit classes [] [name]).1.findSome? find := by
  induction names generalizing seen with
  | nil =>
      rw [visit_nil, List.findSome?_nil]
      exact List.findSome?_eq_none_iff.mpr nothing
  | cons name rest induction =>
      have first : (visit classes seen [name]).1.findSome? find =
          (visit classes [] [name]).1.findSome? find := by
        apply findSome?_visit_fresh _ nothing
        intro start isName
        rw [List.mem_singleton.mp isName]
        exact passing name List.mem_cons_self
      have split : (visit classes seen (name :: rest)).1 =
          (visit classes (visit classes seen [name]).1 rest).1 :=
        visit_append classes seen [name] rest
      rw [split, List.findSome?_cons]
      cases found : (visit classes [] [name]).1.findSome? find with
      | some result =>
          obtain ⟨later, whole⟩ := (visit classes (visit classes seen [name]).1 rest).2
          rw [← whole, List.findSome?_append, first, found]
          rfl
      | none =>
          apply induction
          · intro start member other reaches visited
            by_cases before : other ∈ seen
            · exact List.Subset.trans (passing.tail start member other reaches before)
                (visit classes seen [name]).2.subset
            · exact directBases_subset_visit classes seen [name] visited before
          · rw [found] at first
            exact List.findSome?_eq_none_iff.mp first

end Search

/-! ## Past the class itself -/

private theorem exists_visit_bases {env : Environment} {className : String} {info : ClassInfo}
    (registered : env.classes.get? className = some info) :
    ∃ above, (visit env.classes [className] info.bases).1 = className :: above ∧
      className ∉ above ∧
      env.resolutionOrder className = info :: above.filterMap env.classes.get? := by
  have bases : directBases env.classes className = info.bases := by rw [directBases, registered]
  have walk : (visit env.classes [] [className]).1 =
      (visit env.classes [className] info.bases).1 := by
    rw [visit_new _ _ List.not_mem_nil, visit_nil, bases, List.nil_append]
  obtain ⟨above, whole⟩ := (visit env.classes [className] info.bases).2
  have order : (visit env.classes [className] info.bases).1 = className :: above := whole.symm
  have distinct := nodup_visit env.classes [] [className] List.nodup_nil
  rw [walk, order, List.nodup_cons] at distinct
  refine ⟨above, order, distinct.1, ?_⟩
  rw [resolutionOrder_eq, walk, order, List.filterMap_cons, registered]

/-! A search that does not look into the class itself: nothing is lost on the walks from the
bases, and the walk of the class can start with the class as seen. -/

private def otherMethod? (env : Environment) (className method name : String) : Option Ty :=
  if name = className then none else env.ownMethod? name method

private theorem otherMethod?_self (env : Environment) (className method : String) :
    env.otherMethod? className method className = none :=
  if_pos rfl

private theorem findSome?_otherMethod? {env : Environment} {className : String}
    {names : List String} (apart : className ∉ names) (method : String) :
    names.findSome? (env.otherMethod? className method) =
      names.findSome? fun name => env.ownMethod? name method := by
  apply findSome?_congr
  intro name member
  have other : name ≠ className := by
    rintro rfl
    exact apart member
  exact if_neg other

/-- The bases of a class that none of them leads back to, searched one after the other, have the
method of the first class after it in its order. -/
theorem findSome?_methodReturn? {env : Environment} {className : String} {info : ClassInfo}
    (registered : env.classes.get? className = some info)
    (apart : ∀ base ∈ info.bases, ¬ Reaches env.classes base className) (method : String) :
    (info.bases.findSome? fun base => env.methodReturn? base method) =
      (env.resolutionOrder className).tail.findSome? fun info => info.methods.get? method := by
  obtain ⟨above, walk, isApart, order⟩ := exists_visit_bases registered
  have fromBase : ∀ base ∈ info.bases, env.methodReturn? base method =
      (visit env.classes [] [base]).1.findSome? (env.otherMethod? className method) := by
    intro base isBase
    rw [methodReturn?_eq, findSome?_otherMethod?]
    intro visited
    exact apart base isBase ((mem_visit_iff env.classes base className).mp visited)
  have passing : PassesOver env.classes [className] info.bases := by
    intro base isBase name reaches same
    rw [List.mem_singleton.mp same] at reaches
    exact absurd reaches (apart base isBase)
  have nothing : ∀ name ∈ [className], env.otherMethod? className method name = none :=
    List.forall_mem_singleton.mpr (env.otherMethod?_self className method)
  calc (info.bases.findSome? fun base => env.methodReturn? base method)
      = info.bases.findSome? fun base =>
          (visit env.classes [] [base]).1.findSome? (env.otherMethod? className method) :=
        findSome?_congr fromBase
    _ = (className :: above).findSome? (env.otherMethod? className method) := by
        rw [← findSome?_visit_eq passing nothing, walk]
    _ = above.findSome? fun name => env.ownMethod? name method := by
        rw [List.findSome?_cons, otherMethod?_self, findSome?_otherMethod? isApart]
    _ = (env.resolutionOrder className).tail.findSome? fun info => info.methods.get? method := by
        rw [order, List.tail_cons, findSome?_entries]
        rfl

end Environment

/-- Inside a registered class that none of its bases leads back to, a method called through
`super()` is the one of the first class after it in its order that has the method, and there is
none just if no class after it has one. -/
theorem Context.superMethod?_past_class (context : Context) {className : String}
    {info : ClassInfo} (current : context.currentClass = some className)
    (registered : context.env.classes.get? className = some info)
    (apart : ∀ base ∈ info.bases, ¬ Environment.Reaches context.env.classes base className)
    (method : String) :
    ∃ above, context.env.resolutionOrder className = info :: above ∧
      (∀ result, context.superMethod? method = some result ↔
        ∃ passed owner later, above = passed ++ owner :: later ∧
          owner.methods.get? method = some result ∧
          ∀ other ∈ passed, other.methods.get? method = none) ∧
      (context.superMethod? method = none ↔
        ∀ other ∈ above, other.methods.get? method = none) ∧
      (context.isBound "super" = false → ∀ given named args keywords,
        context.infer (.methodCall (.call "super" given named) method args keywords) =
          Ty.orUnknown (above.findSome? fun other => other.methods.get? method)) := by
  obtain ⟨above, -, -, order⟩ := Environment.exists_visit_bases registered
  have found : context.superMethod? method =
      (above.filterMap context.env.classes.get?).findSome? fun other =>
        other.methods.get? method := by
    have classInfo : context.currentClassInfo? = some info := by
      rw [currentClassInfo?, current, Option.bind_some, registered]
    rw [superMethod?, classInfo, Option.bind_some,
      Environment.findSome?_methodReturn? registered apart, order, List.tail_cons]
  refine ⟨_, order, ?_, ?_, ?_⟩
  · intro result
    rw [found, List.findSome?_eq_some_iff]
  · rw [found, List.findSome?_eq_none_iff]
  · intro unbound given named args keywords
    have isSuper : context.isSuperCall (.call "super" given named) = true := by
      simp [isSuperCall, unbound]
    rw [infer, Expr.read, ← found]
    exact if_pos isSuper

/-! A shelf with two bases that share a store. The method of the second base is found, although
the order of the shelf has the store before it. -/

def ClassInfo.board : ClassInfo :=
  { ofName "Board" ["Missing", "Store"] with methods := .ofList [("label", .float)] }

def ClassInfo.shelf : ClassInfo :=
  { ofName "Shelf" ["Rack", "Board"] with methods := .ofList [("label", .int)] }

def Context.labelling : Context where
  config := {}
  currentClass := some "Shelf"
  env :=
    ({} : Environment)
      |>.registerClass (.ofName "Store" [])
      |>.registerClass (.ofName "Rack" ["Store"])
      |>.registerClass .board
      |>.registerClass .shelf

theorem Context.superMethod?_past_class_labelling :
    (labelling.env.classes.get? "Shelf" = some .shelf ∧
      ∀ base ∈ ClassInfo.shelf.bases, ¬ Environment.Reaches labelling.env.classes base "Shelf") ∧
    labelling.env.resolutionOrder "Shelf" =
      [.shelf, .ofName "Rack" ["Store"], .ofName "Store" [], .board] ∧
    labelling.superMethod? "label" = some .float ∧
    labelling.superMethod? "move" = none ∧
    labelling.infer (.methodCall (.call "super" [] []) "label" [] []) = .float := by
  have registered : labelling.env.classes.get? "Shelf" = some .shelf := rfl
  have apart : ∀ base ∈ ClassInfo.shelf.bases,
      ¬ Environment.Reaches labelling.env.classes base "Shelf" := by
    intro base isBase
    have closed : ∀ name ∈ ["Rack", "Board", "Missing", "Store"],
        Environment.directBases labelling.env.classes name ⊆
          ["Rack", "Board", "Missing", "Store"] := by decide
    apply Environment.not_reaches_of_closed closed _ (by decide)
    exact List.mem_append_left ["Missing", "Store"] isBase
  have whole : labelling.env.resolutionOrder "Shelf" =
      [.shelf, .ofName "Rack" ["Store"], .ofName "Store" [], .board] := by decide
  obtain ⟨above, order, found, -, called⟩ :=
    labelling.superMethod?_past_class rfl registered apart "label"
  obtain ⟨others, sameOrder, -, missing, -⟩ :=
    labelling.superMethod?_past_class rfl registered apart "move"
  obtain rfl : [.ofName "Rack" ["Store"], .ofName "Store" [], .board] = above :=
    List.tail_eq_of_cons_eq (whole.symm.trans order)
  obtain rfl : [.ofName "Rack" ["Store"], .ofName "Store" [], .board] = others :=
    List.tail_eq_of_cons_eq (whole.symm.trans sameOrder)
  refine ⟨⟨registered, apart⟩, whole, ?_, ?_, ?_⟩
  · refine (found .float).mpr ⟨[.ofName "Rack" ["Store"], .ofName "Store" []], .board, [], rfl,
      rfl, ?_⟩
    decide
  · refine missing.mpr ?_
    decide
  · exact called rfl [] [] [] []

end NativeTyping

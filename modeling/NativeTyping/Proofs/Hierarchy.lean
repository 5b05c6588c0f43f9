import Mathlib.Data.List.Nodup
import Mathlib.Logic.Relation
import NativeTyping.Environment.Resolution
import NativeTyping.Proofs.Table
/-!
The order in which the classes of a hierarchy are searched.

`Environment.visit` walks a hierarchy the way it is described: a class, then its bases from left
to right with everything above them, and nothing twice. The list of pending names that
`Environment.resolvePending` works off is the same walk, for every registry of classes: bases
may form cycles, meet again further up, or not be registered.
-/

namespace NativeTyping

namespace Environment

def directBases (classes : Table ClassInfo) (name : String) : List String :=
  match classes.get? name with
  | some info => info.bases
  | none => []

/-! ## Names not yet seen -/

def unseen (classes : Table ClassInfo) (seen : List String) : List String :=
  classes.keys.filter (· ∉ seen)

section Unseen

variable {classes : Table ClassInfo} {seen : List String}

private theorem length_unseen_le {after : List String} (more : seen ⊆ after) :
    (unseen classes after).length ≤ (unseen classes seen).length := by
  apply List.Sublist.length_le
  apply List.monotone_filter_right
  intro name new
  simp only [decide_eq_true_eq] at new ⊢
  exact fun member => new (more member)

private theorem unseen_append_lt {name : String} (new : name ∉ seen) :
    (unseen classes (seen ++ [name])).length < (unseen classes seen).length ∨
      directBases classes name = [] := by
  cases found : classes.get? name with
  | none => exact .inr (by rw [directBases, found])
  | some info =>
      have registered : name ∈ classes.keys := by
        rw [← Table.contains_iff_mem_keys, Table.contains, found, Option.isSome_some]
      have fewer : unseen classes (seen ++ [name]) =
          (unseen classes seen).filter fun other => decide (other ≠ name) := by
        simp [unseen, List.filter_filter, and_comm]
      rw [fewer, List.length_filter_lt_length_iff_exists]
      exact .inl ⟨name, by simp [unseen, registered, new], by simp⟩

end Unseen

/-! ## Depth-first order -/

/-- Visits names from left to right, after those in `seen`, and gives all names in the order of
their visits. A name that was seen is passed over. Any other is followed by all that its bases
lead to. -/
def visit (classes : Table ClassInfo) (seen : List String) :
    List String → { after : List String // seen <+: after }
  | [] => ⟨seen, List.prefix_rfl⟩
  | name :: rest =>
      if name ∈ seen then visit classes seen rest
      else
        let below := visit classes (seen ++ [name]) (directBases classes name)
        let after := visit classes below.1 rest
        ⟨after.1, (List.prefix_append _ _).trans (below.2.trans after.2)⟩
termination_by names => ((unseen classes seen).length, names.length)
decreasing_by
  · exact Prod.Lex.right _ (Nat.lt_succ_self _)
  · obtain fewer | none := unseen_append_lt ‹name ∉ seen›
    · exact Prod.Lex.left _ _ fewer
    · rw [none]
      exact Prod.Lex.right' _ (length_unseen_le (List.subset_append_left _ _)) (Nat.zero_lt_succ _)
  · have more : seen ⊆ below.1 := ((List.prefix_append _ _).trans below.2).subset
    exact Prod.Lex.right' _ (length_unseen_le more) (Nat.lt_succ_self _)

section Visit

variable (classes : Table ClassInfo) (seen : List String)

theorem visit_nil : (visit classes seen []).1 = seen := by
  rw [visit]

variable {seen} {name : String} (rest : List String)

theorem visit_seen (known : name ∈ seen) :
    (visit classes seen (name :: rest)).1 = (visit classes seen rest).1 := by
  rw [visit, if_pos known]

theorem visit_new (new : name ∉ seen) :
    (visit classes seen (name :: rest)).1 =
      (visit classes (visit classes (seen ++ [name]) (directBases classes name)).1 rest).1 := by
  rw [visit, if_neg new]

@[elab_as_elim]
theorem visit_induction {motive : List String → List String → Prop}
    (nil : ∀ seen, motive seen [])
    (known : ∀ seen name rest, name ∈ seen → motive seen rest → motive seen (name :: rest))
    (new : ∀ seen name rest, name ∉ seen →
      motive (seen ++ [name]) (directBases classes name) →
      motive (visit classes (seen ++ [name]) (directBases classes name)).1 rest →
      motive seen (name :: rest))
    (seen names : List String) : motive seen names := by
  induction seen, names using visit.induct classes with
  | case1 seen => exact nil seen
  | case2 seen name rest isKnown induction => exact known seen name rest isKnown induction
  | case3 seen name rest isNew below inBases inRest =>
      exact new seen name rest isNew inBases inRest

end Visit

/-! ## What is visited -/

def Reaches (classes : Table ClassInfo) : String → String → Prop :=
  Relation.ReflTransGen fun name base => base ∈ directBases classes name

theorem not_reaches_of_closed {classes : Table ClassInfo} {inside : List String}
    (closed : ∀ name ∈ inside, directBases classes name ⊆ inside) {start other : String}
    (isInside : start ∈ inside) (outside : other ∉ inside) : ¬ Reaches classes start other := by
  intro reaches
  apply outside
  clear outside
  induction reaches with
  | refl => exact isInside
  | tail _ isBase stays => exact closed _ stays isBase

section Visited

variable (classes : Table ClassInfo) (seen names : List String)

theorem nodup_visit (distinct : seen.Nodup) : (visit classes seen names).1.Nodup := by
  induction seen, names using visit_induction classes with
  | nil seen => rwa [visit_nil]
  | known seen name rest isKnown induction =>
      rw [visit_seen _ _ isKnown]
      exact induction distinct
  | new seen name rest isNew inBases inRest =>
      rw [visit_new _ _ isNew]
      have more : (seen ++ [name]).Nodup := by
        rw [← List.concat_eq_append]
        exact List.Nodup.concat isNew distinct
      exact inRest (inBases more)

theorem subset_visit : names ⊆ (visit classes seen names).1 := by
  induction seen, names using visit_induction classes with
  | nil seen => exact List.nil_subset _
  | known seen name rest isKnown induction =>
      rw [visit_seen _ _ isKnown]
      exact List.cons_subset.mpr ⟨(visit classes seen rest).2.subset isKnown, induction⟩
  | new seen name rest isNew inBases inRest =>
      rw [visit_new _ _ isNew]
      have below := (visit classes (seen ++ [name]) (directBases classes name)).2
      have after := (visit classes
        (visit classes (seen ++ [name]) (directBases classes name)).1 rest).2
      exact List.cons_subset.mpr ⟨(below.trans after).subset (by simp), inRest⟩

theorem directBases_subset_visit {other : String}
    (visited : other ∈ (visit classes seen names).1) (new : other ∉ seen) :
    directBases classes other ⊆ (visit classes seen names).1 := by
  induction seen, names using visit_induction classes with
  | nil seen =>
      rw [visit_nil] at visited
      exact absurd visited new
  | known seen name rest isKnown induction =>
      rw [visit_seen _ _ isKnown] at visited ⊢
      exact induction visited new
  | new seen name rest isNew inBases inRest =>
      rw [visit_new _ _ isNew] at visited ⊢
      have after := (visit classes
        (visit classes (seen ++ [name]) (directBases classes name)).1 rest).2.subset
      by_cases below : other ∈ (visit classes (seen ++ [name]) (directBases classes name)).1
      · refine List.Subset.trans ?_ after
        by_cases same : other = name
        · rw [same]
          exact subset_visit classes _ _
        · exact inBases below (by simp [new, same])
      · exact inRest visited below

private theorem reaches_of_mem_visit {other : String}
    (visited : other ∈ (visit classes seen names).1) :
    other ∈ seen ∨ ∃ start ∈ names, Reaches classes start other := by
  induction seen, names using visit_induction classes with
  | nil seen =>
      rw [visit_nil] at visited
      exact .inl visited
  | known seen name rest isKnown induction =>
      rw [visit_seen _ _ isKnown] at visited
      obtain before | ⟨start, member, reaches⟩ := induction visited
      · exact .inl before
      · exact .inr ⟨start, List.mem_cons_of_mem _ member, reaches⟩
  | new seen name rest isNew inBases inRest =>
      rw [visit_new _ _ isNew] at visited
      obtain below | ⟨start, member, reaches⟩ := inRest visited
      · obtain before | ⟨base, isBase, reaches⟩ := inBases below
        · rw [List.mem_append, List.mem_singleton] at before
          obtain before | same := before
          · exact .inl before
          · rw [same]
            exact .inr ⟨name, List.mem_cons_self, .refl⟩
        · exact .inr ⟨name, List.mem_cons_self, .head isBase reaches⟩
      · exact .inr ⟨start, List.mem_cons_of_mem _ member, reaches⟩

theorem mem_visit_iff (start other : String) :
    other ∈ (visit classes [] [start]).1 ↔ Reaches classes start other := by
  constructor
  · intro visited
    obtain before | ⟨name, single, reaches⟩ := reaches_of_mem_visit classes [] [start] visited
    · cases before
    · rwa [← List.mem_singleton.mp single]
  · intro reaches
    induction reaches with
    | refl => exact subset_visit classes [] [start] List.mem_cons_self
    | tail _ isBase visited =>
        exact directBases_subset_visit classes [] [start] visited List.not_mem_nil isBase

theorem visit_append (more : List String) :
    (visit classes seen (names ++ more)).1 =
      (visit classes (visit classes seen names).1 more).1 := by
  induction seen, names using visit_induction classes with
  | nil seen => rw [List.nil_append, visit_nil]
  | known seen name rest isKnown induction =>
      rw [List.cons_append, visit_seen _ _ isKnown, visit_seen _ _ isKnown, induction]
  | new seen name rest isNew inBases inRest =>
      rw [List.cons_append, visit_new _ _ isNew, visit_new _ _ isNew, inRest]

end Visited

/-! ## Changes of a registry -/

/-- Changing a class without its bases keeps every hierarchy. -/
theorem visit_congr {classes changed : Table ClassInfo}
    (same : ∀ name, directBases changed name = directBases classes name)
    (seen names : List String) : (visit changed seen names).1 = (visit classes seen names).1 := by
  induction seen, names using visit_induction classes with
  | nil seen => rw [visit_nil, visit_nil]
  | known seen name rest isKnown induction =>
      rw [visit_seen _ _ isKnown, visit_seen _ _ isKnown, induction]
  | new seen name rest isNew inBases inRest =>
      rw [visit_new _ _ isNew, visit_new _ _ isNew, same, inBases, inRest]

theorem directBases_modify (classes : Table ClassInfo) (owner : String)
    {change : ClassInfo → ClassInfo} (keeps : ∀ info, (change info).bases = info.bases)
    (name : String) :
    directBases (classes.modify owner change) name = directBases classes name := by
  rw [directBases, directBases, Table.get?_modify]
  cases classes.get? name with
  | none => rfl
  | some info =>
      by_cases changed : name = owner
      · simp [changed, keeps]
      · simp [changed]

/-! ## Pending names -/

def baseCount (classes : Table ClassInfo) : Nat :=
  (classes.values.flatMap ClassInfo.bases).length

private theorem baseCount_erase {classes : Table ClassInfo} {name : String} {info : ClassInfo}
    (found : classes.get? name = some info) :
    baseCount (classes.erase name) + info.bases.length = baseCount classes := by
  obtain ⟨earlier, later, whole, -⟩ := List.lookup_eq_some_iff.mp found
  have others : ∀ entry ∈ earlier ++ later, decide (entry.1 ≠ name) = true := by
    have distinct := classes.distinct
    rw [whole, List.map_append, List.map_cons, List.nodup_middle, List.nodup_cons,
      ← List.map_append] at distinct
    intro entry member
    rw [decide_eq_true_eq]
    intro same
    exact distinct.1 (List.mem_map.mpr ⟨entry, member, same⟩)
  have erased : (classes.erase name).entries = earlier ++ later := by
    calc (classes.erase name).entries
        = (earlier ++ (name, info) :: later).filter (fun entry => decide (entry.1 ≠ name)) := by
          rw [← whole]
          rfl
      _ = (earlier ++ later).filter (fun entry => decide (entry.1 ≠ name)) := by
          rw [List.filter_append, List.filter_cons_of_neg (by simp), List.filter_append]
      _ = earlier ++ later := List.filter_eq_self.mpr others
  simp only [baseCount, Table.values, erased, whole, List.map_append, List.map_cons,
    List.flatMap_append, List.flatMap_cons, List.length_append]
  omega

def LeftAfter (classes : Table ClassInfo) (seen : List String) (remaining : Table ClassInfo) :
    Prop :=
  ∀ name, remaining.get? name = if name ∈ seen then none else classes.get? name

namespace LeftAfter

variable {classes remaining : Table ClassInfo} {seen : List String} {name : String}
  (left : LeftAfter classes seen remaining)

include left

private theorem pass (missing : remaining.get? name = none) :
    LeftAfter classes (seen ++ [name]) remaining := by
  intro other
  by_cases same : other = name
  · rw [same, missing, if_pos (by simp)]
  · rw [left other]
    simp [same]

private theorem erase : LeftAfter classes (seen ++ [name]) (remaining.erase name) := by
  intro other
  rw [Table.get?_erase, left other]
  by_cases same : other = name
  · simp [same]
  · simp [same]

end LeftAfter

/-- Working off pending names lists the entries of the names that a visit adds. The induction is
on the steps, of which there are enough for all pending names and all bases that can follow. -/
theorem filterMap_visit (classes : Table ClassInfo) {steps : Nat} {remaining : Table ClassInfo}
    {seen pending : List String} (left : LeftAfter classes seen remaining)
    (enough : pending.length + baseCount remaining ≤ steps) :
    (visit classes seen pending).1.filterMap classes.get? =
      seen.filterMap classes.get? ++ resolvePending steps remaining pending := by
  induction steps generalizing remaining seen pending with
  | zero =>
      obtain rfl : pending = [] := List.eq_nil_of_length_eq_zero (by omega)
      rw [visit_nil, resolvePending, List.append_nil]
  | succ steps induction =>
      cases pending with
      | nil => rw [visit_nil, resolvePending, List.append_nil]
      | cons name pending =>
          rw [List.length_cons] at enough
          by_cases isSeen : name ∈ seen
          · have missing : remaining.get? name = none := by rw [left, if_pos isSeen]
            simp only [resolvePending, missing]
            rw [visit_seen _ _ isSeen]
            exact induction left (by omega)
          · have same : remaining.get? name = classes.get? name := by rw [left, if_neg isSeen]
            rw [visit_new _ _ isSeen]
            cases found : classes.get? name with
            | none =>
                have noBases : directBases classes name = [] := by rw [directBases, found]
                rw [noBases, visit_nil, induction (left.pass (same.trans found)) (by omega)]
                simp [resolvePending, same, found]
            | some info =>
                have bases : directBases classes name = info.bases := by rw [directBases, found]
                have fewer := baseCount_erase (same.trans found)
                have enoughLeft : (info.bases ++ pending).length +
                    baseCount (remaining.erase name) ≤ steps := by
                  rw [List.length_append]
                  omega
                rw [bases, ← visit_append, induction left.erase enoughLeft]
                simp [resolvePending, same, found]

/-! ## Resolution order -/

/-- The registered classes of the hierarchy of a class: the class, then its bases depth-first in
order of declaration, each once. -/
def depthFirst (env : Environment) (className : String) : List String :=
  (visit env.classes [] [className]).1.filter env.isClass

theorem resolutionOrder_eq (env : Environment) (className : String) :
    env.resolutionOrder className =
      (visit env.classes [] [className]).1.filterMap env.classes.get? := by
  have all : LeftAfter env.classes [] env.classes := fun name => by simp
  have enough : [className].length + baseCount env.classes ≤ resolutionSteps env.classes :=
    Nat.le_of_eq (Nat.add_comm _ _)
  rw [filterMap_visit env.classes all enough]
  rfl

theorem findSome?_entries {α : Type} (classes : Table ClassInfo) (find : ClassInfo → Option α)
    (names : List String) :
    (names.filterMap classes.get?).findSome? find =
      names.findSome? fun name => (classes.get? name).bind find := by
  rw [← List.head?_filterMap, List.filterMap_filterMap, List.head?_filterMap]

def ownMethod? (env : Environment) (className method : String) : Option Ty :=
  (env.classes.get? className).bind fun info => info.methods.get? method

theorem methodReturn?_eq (env : Environment) (className method : String) :
    env.methodReturn? className method =
      (visit env.classes [] [className]).1.findSome? fun name => env.ownMethod? name method := by
  rw [methodReturn?, resolutionOrder_eq, findSome?_entries]
  rfl

private theorem head?_depthFirst (env : Environment) (className : String) :
    (env.depthFirst className).head? =
      if env.isClass className then some className else none := by
  rw [depthFirst, visit_new _ _ List.not_mem_nil, visit_nil, List.nil_append]
  split
  · rename_i registered
    obtain ⟨later, whole⟩ :=
      (visit env.classes [className] (directBases env.classes className)).2
    rw [← whole, List.singleton_append, List.filter_cons_of_pos registered, List.head?_cons]
  · rename_i unregistered
    have missing : env.classes.get? className = none := by
      simpa [isClass, Table.contains] using unregistered
    have noBases : directBases env.classes className = [] := by rw [directBases, missing]
    rw [noBases, visit_nil, List.filter_cons_of_neg unregistered]
    rfl

/-- The classes are searched in depth-first order, for every hierarchy. The order has no class
twice, begins with the class itself, and has just the registered classes that it leads to. -/
theorem resolutionOrder_depthFirst (env : Environment) (className : String) :
    (env.resolutionOrder className).map some =
      (env.depthFirst className).map env.classes.get? ∧
    (env.depthFirst className).Nodup ∧
    (env.depthFirst className).head? =
      (if env.isClass className then some className else none) ∧
    ∀ name, name ∈ env.depthFirst className ↔
      env.isClass name = true ∧ Reaches env.classes className name := by
  refine ⟨?_, ?_, env.head?_depthFirst className, ?_⟩
  · rw [resolutionOrder_eq, List.map_filterMap_some_eq_filter_map_isSome, List.filter_map]
    rfl
  · exact (nodup_visit env.classes [] [className] List.nodup_nil).filter _
  · intro name
    rw [depthFirst, List.mem_filter, mem_visit_iff, and_comm]

/-- A class that inherits one base twice, in a cycle and with a base that is not registered. -/
example :
    let classes := Table.ofList
      [("Root", ClassInfo.ofName "Root" ["Leaf"]), ("Left", ClassInfo.ofName "Left" ["Root"]),
        ("Right", ClassInfo.ofName "Right" ["Missing", "Root"]),
        ("Leaf", ClassInfo.ofName "Leaf" ["Left", "Right"])]
    (({ classes := classes } : Environment).resolutionOrder "Leaf").map ClassInfo.name =
      ["Leaf", "Left", "Root", "Right"] := by
  decide

end Environment

end NativeTyping

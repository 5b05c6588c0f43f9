import NativeTyping.Proofs.Steps
/-!
What the visit of one function settles.

The functions of a program are visited one after another, and those nested in a function
during its visit. If the names of all functions differ, then each visit of a program comes
to a function once. What that visit establishes lasts, if the steps of the functions outside
of it keep it.
-/

namespace NativeTyping

def Site.subtree (site : Site) : List Site :=
  site.definition.sites site.name site.enclosing

theorem Site.mem_subtree (site : Site) : site ∈ site.subtree := by
  rw [Site.subtree, FunctionDef.sites_eq]
  exact List.mem_cons_self

private theorem Site.subtree_subset_flatMap {α : Type} {sites : α → List Site} {items : List α}
    {site : Site} (whole : ∀ item ∈ items, site ∈ sites item → site.subtree ⊆ sites item)
    (member : site ∈ items.flatMap sites) : site.subtree ⊆ items.flatMap sites := by
  rcases List.mem_flatMap.mp member with ⟨item, isItem, inside⟩
  intro other nested
  exact List.mem_flatMap.mpr ⟨item, isItem, whole item isItem inside nested⟩

private theorem FunctionDef.subtree_subset {definition : FunctionDef} {name : String}
    {enclosing : List (String × FunctionDef)} {site : Site}
    (member : site ∈ definition.sites name enclosing) :
    site.subtree ⊆ definition.sites name enclosing := by
  induction definition using FunctionDef.nested_induction generalizing name enclosing with
  | step definition induction =>
  rw [FunctionDef.sites_eq] at member
  rcases List.mem_cons.mp member with same | inside
  · subst same
    exact List.Subset.refl _
  · rw [FunctionDef.sites_eq]
    apply List.subset_cons_of_subset
    exact Site.subtree_subset_flatMap (fun inner isNested => induction inner isNested) inside

private theorem Stmt.subtree_subset {stmt : Stmt} {site : Site} (member : site ∈ stmt.sites) :
    site.subtree ⊆ stmt.sites :=
  Site.subtree_subset_flatMap (fun _ _ => FunctionDef.subtree_subset) member

theorem Program.subtree_subset {program : Program} {site : Site}
    (member : site ∈ program.sites) : site.subtree ⊆ program.sites := by
  rw [Program.sites_eq] at member ⊢
  exact Site.subtree_subset_flatMap (fun _ _ => Stmt.subtree_subset) member

/-- `Ready` holds until the function of a site is visited, and `Settled` from then on,
whatever the functions `away` from it do. -/
structure Settles (config : Config) (site : Site) (visited away : String → FunctionDef → Prop)
    (Ready Settled : Environment → Prop) : Prop where
  ready : ∀ {env after : Environment}, env.Step visited after → Ready env → Ready after
  settled : ∀ {env after : Environment}, env.Step away after → Settled env → Settled after
  visit : ∀ {setting : Setting}, setting.config = config → ∀ (className : Option String)
    {env : Environment}, Ready env →
      Settled (site.definition.visit setting site.name className env)

/-- Some functions with different names, all of them visited, of which one is the function
of a site. The others are nested in it or away from it. -/
structure Site.Among (site : Site) (sites : List Site)
    (visited away : String → FunctionDef → Prop) : Prop where
  member : site ∈ sites
  distinct : (sites.map Site.name).Nodup
  visits : ∀ other ∈ sites, visited other.name other.definition
  others : ∀ other ∈ sites, other ∈ site.subtree ∨ away other.name other.definition

private theorem Site.Among.perm {site : Site} {sites reordered : List Site}
    {visited away : String → FunctionDef → Prop} (among : site.Among sites visited away)
    (order : sites.Perm reordered) : site.Among reordered visited away where
  member := order.mem_iff.mp among.member
  distinct := (order.map Site.name).nodup_iff.mp among.distinct
  visits other isOther := among.visits other (order.mem_iff.mpr isOther)
  others other isOther := among.others other (order.mem_iff.mpr isOther)

namespace Settles

variable {config : Config} {site : Site} {visited away : String → FunctionDef → Prop}
  {Ready Settled : Environment → Prop}

/-- A visit of several items settles what the visit of the one with the site settles. -/
theorem foldl (settles : Settles config site visited away Ready Settled) {α : Type}
    {visit : Environment → α → Environment} {sites : α → List Site} (items : List α)
    (among : site.Among (items.flatMap sites) visited away)
    (whole : ∀ item ∈ items, site ∈ sites item → site.subtree ⊆ sites item)
    (steps : ∀ item ∈ items, ∀ {reached : String → FunctionDef → Prop},
      (∀ other ∈ sites item, reached other.name other.definition) →
        ∀ env : Environment, env.Steps reached (visit env item))
    (establishes : ∀ item ∈ items, site.Among (sites item) visited away →
      ∀ {env : Environment}, Ready env → Settled (visit env item))
    {env : Environment} (ready : Ready env) : Settled (items.foldl visit env) := by
  induction items generalizing env with
  | nil => cases among.member
  | cons item rest induction =>
      rcases among with ⟨member, distinct, visits, others⟩
      rw [List.flatMap_cons, List.map_append, List.nodup_append'] at distinct
      rw [List.flatMap_cons, List.forall_mem_append] at visits others
      rw [List.forall_mem_cons] at whole steps establishes
      by_cases here : site ∈ sites item
      · have reached : Settled (visit env item) :=
          establishes.1 ⟨here, distinct.1, visits.1, others.1⟩ ready
        refine List.foldlRecOn (motive := Settled) rest visit reached ?_
        intro later settled next isNext
        refine (steps.2 next isNext ?_ later).keep settles.settled settled
        intro other isOther
        have inRest : other ∈ rest.flatMap sites := List.mem_flatMap.mpr ⟨next, isNext, isOther⟩
        rcases others.2 other inRest with nested | isAway
        · exact absurd (List.mem_map_of_mem inRest)
            (distinct.2.2 (List.mem_map_of_mem (whole.1 here nested)))
        · exact isAway
      · rw [List.flatMap_cons, List.mem_append] at member
        have later := member.resolve_left here
        rw [List.foldl_cons]
        exact induction ⟨later, distinct.2.1, visits.2, others.2⟩ whole.2 steps.2 establishes.2
          ((steps.1 visits.1 env).keep settles.ready ready)

/-- The visit of a function settles what the visit of a function nested in it settles. The
induction is over the nested functions. What remains of the visit, a second sweep and the
record of the result, is away from the site, since the names differ. -/
theorem visitFunction (settles : Settles config site visited away Ready Settled)
    {setting : Setting} (configured : setting.config = config) (definition : FunctionDef)
    {name : String} {enclosing : List (String × FunctionDef)} (className : Option String)
    (among : site.Among (definition.sites name enclosing) visited away) {env : Environment}
    (ready : Ready env) : Settled (definition.visit setting name className env) := by
  induction definition using FunctionDef.nested_induction
    generalizing name enclosing className env with
  | step definition induction =>
  rcases among with ⟨member, distinct, visits, others⟩
  rw [FunctionDef.sites_eq] at member distinct visits others
  rw [List.map_cons, List.nodup_cons] at distinct
  rw [List.forall_mem_cons] at visits others
  rcases List.mem_cons.mp member with rfl | nestedMember
  · exact settles.visit configured className ready
  have whole : site.subtree ⊆ definition.nested.flatMap fun inner =>
      inner.sites (Dotted.join name inner.name) (enclosing ++ [(name, definition)]) :=
    Site.subtree_subset_flatMap (fun _ _ => FunctionDef.subtree_subset) nestedMember
  have isAway : away name definition := by
    rcases others.1 with inSubtree | isAway
    · exact absurd (List.mem_map_of_mem (whole inSubtree)) distinct.1
    · exact isAway
  have first : (env.enterScope name).Steps visited
      (definition.firstSweep setting name className (env.enterScope name)) :=
    definition.firstSweep_steps setting className visits.1 rfl
  have nested : Settled (definition.visitNested setting name
      (definition.firstSweep setting name className (env.enterScope name))) := by
    refine settles.foldl definition.nested ⟨nestedMember, distinct.2, visits.2, others.2⟩ ?_
      ?_ ?_ (first.keep settles.ready (settles.ready (.move _) ready))
    · intro inner _ innerMember
      exact FunctionDef.subtree_subset innerMember
    · intro inner _ reached visits env
      exact inner.visit_steps setting none visits env
    · intro inner isNested among env ready
      exact induction inner isNested none among ready
  have nonempty : definition.nested.isEmpty = false := by
    rcases List.mem_flatMap.mp nestedMember with ⟨inner, isNested, _⟩
    exact List.isEmpty_eq_false_iff.mpr (List.ne_nil_of_mem isNested)
  have second := (definition.sweep_steps setting isAway
    (definition.currentScope?_secondSweep setting name className _)).keep settles.settled nested
  rw [FunctionDef.visit_eq, Environment.inScope, FunctionDef.secondSweep, nonempty]
  have recorded := (setting.recordReturn_steps className isAway).keep settles.settled second
  exact settles.settled (.move _) recorded

/-! ## Classes and programs -/

private theorem visitClass (settles : Settles config site visited away Ready Settled)
    (definition : ClassDef)
    (among : site.Among (Stmt.classDef definition).sites visited away) {env : Environment}
    (ready : Ready env) : Settled (definition.visit config env) := by
  have attributes : env.Steps visited (definition.body.foldl
      (Setting.visitClassAttribute { config := config, currentClass := some definition.name }
        definition.name) env) :=
    Environment.Steps.foldl _ (fun stmt _ env =>
      .of_outside (Setting.visitClassAttribute_writes _ _ stmt env)) env
  rw [Stmt.sites, Stmt.rootFunctions, List.flatMap_map] at among
  refine settles.foldl definition.visitOrder
    (among.perm (definition.visitOrder_perm.symm.flatMap_right _)) ?_ ?_ ?_
    (attributes.keep settles.ready ready)
  · intro method _ member
    exact FunctionDef.subtree_subset member
  · intro method _ reached visits env
    exact method.visit_steps _ _ visits env
  · intro method _ among env ready
    exact settles.visitFunction rfl method _ among ready

private theorem visitDefinition (settles : Settles config site visited away Ready Settled)
    (stmt : Stmt) (among : site.Among stmt.sites visited away) {env : Environment}
    (ready : Ready env) : Settled (stmt.visitDefinition config env) := by
  cases stmt with
  | functionDef definition =>
      rw [Stmt.sites, Stmt.rootFunctions, List.flatMap_singleton] at among
      exact settles.visitFunction rfl definition none among ready
  | classDef definition => exact settles.visitClass definition among ready
  | _ => cases among.member

private theorem visitDefinitions (settles : Settles config site visited away Ready Settled)
    {program : Program} (among : site.Among program.sites visited away) {env : Environment}
    (ready : Ready env) : Settled (program.visitDefinitions config env) := by
  rw [Program.sites_eq] at among
  refine settles.foldl program.body among ?_ ?_ ?_ ready
  · intro stmt _ member
    exact Stmt.subtree_subset member
  · intro stmt _ reached visits env
    exact stmt.visitDefinition_steps config visits env
  · intro stmt _ among env ready
    exact settles.visitDefinition stmt among ready

theorem withVisit (settles : Settles config site visited away Ready Settled)
    {program : Program} (among : site.Among program.sites visited away) {env : Environment}
    (outside : env.scopeStack = []) (ready : Ready env) :
    Settled (program.withVisit config env) := by
  have before := (program.visitStatements_steps config outside).keep settles.ready ready
  have definitions := settles.visitDefinitions among before
  refine (program.visitStatements_steps config ?_).keep settles.settled definitions
  rw [Program.scopeStack_visitDefinitions, Program.scopeStack_visitStatements, outside]

end Settles

end NativeTyping

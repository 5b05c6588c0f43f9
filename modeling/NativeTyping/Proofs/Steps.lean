import NativeTyping.Analysis
import NativeTyping.Proofs.CaptureSets
import NativeTyping.Proofs.Writes
/-!
What a visit can do, one step at a time.

The visits of functions and classes, and of the statements around them, consist of steps:
a write of a sweep, a record of the parameters or of the result of the function that is
visited, or a move to another scope. Which functions are visited is said by the program
alone, and so a property that every step keeps holds after all visits.
-/

namespace NativeTyping

open Relation (ReflTransGen)

/-! ## The functions of a program -/

/-- The functions that a program defines under a dotted name: at its top level, in the
body of a class there, or in the control flow of such a function, at any depth. -/
inductive Program.Defines (program : Program) : String → FunctionDef → Prop
  | function {definition : FunctionDef} : .functionDef definition ∈ program.body →
      Defines program definition.name definition
  | method {owner : ClassDef} {definition : FunctionDef} : .classDef owner ∈ program.body →
      .functionDef definition ∈ owner.body →
      Defines program (Dotted.join owner.name definition.name) definition
  | nested {name : String} {outer inner : FunctionDef} : Defines program name outer →
      .functionDef inner ∈ Block.statements outer.body →
      Defines program (Dotted.join name inner.name) inner

theorem Program.defines_of_mem {program : Program} {site : Site} (member : site ∈ program.sites) :
    program.Defines site.name site.definition := by
  induction Program.mem_sites_iff.mp member with
  | function standing => exact .function standing
  | method standing inside => exact .method standing inside
  | nested has standing induction =>
      exact .nested (induction (Program.mem_sites_iff.mpr has))
        (Block.mem_statements_iff.mpr standing)

theorem Program.exists_site_of_defines {program : Program} {name : String}
    {definition : FunctionDef} (defined : program.Defines name definition) :
    ∃ site ∈ program.sites, site.name = name ∧ site.definition = definition := by
  induction defined with
  | function standing => exact ⟨_, Program.mem_sites_iff.mpr (.function standing), rfl, rfl⟩
  | method standing inside =>
      exact ⟨_, Program.mem_sites_iff.mpr (.method standing inside), rfl, rfl⟩
  | nested _ standing induction =>
      rcases induction with ⟨site, member, rfl, rfl⟩
      have isNested := FunctionDef.mem_nested_iff.mpr standing
      exact ⟨_, Program.mem_sites_of_nested member isNested, rfl, rfl⟩

/-! ## Steps -/

def FunctionDef.variables (definition : FunctionDef) : List String :=
  definition.params.map Param.name ++ Block.assigned definition.body

/-- One step of a visit: a write from outside all functions, a write from inside a visited
function, a record of its parameters or of its result, which for a method is also kept
with its class, or a move to another scope. -/
inductive Environment.Step (visited : String → FunctionDef → Prop) :
    Environment → Environment → Prop
  | outside {env after : Environment} {assigned declared : List String} :
      env.Write none assigned declared after → Step visited env after
  | inside {env after : Environment} {name : String} {definition : FunctionDef} :
      visited name definition →
      env.Write (some name) definition.variables (Block.declared definition.body) after →
      Step visited env after
  | setParams {env : Environment} {name : String} {definition : FunctionDef} (types : List Ty) :
      visited name definition → Step visited env (env.setParams name types)
  | setReturn {env : Environment} {name : String} {definition : FunctionDef} (result : Ty) :
      visited name definition → Step visited env (env.setReturn name result)
  | setMethod {env : Environment} {name : String} {definition : FunctionDef} (className : String)
      (result : Ty) : visited name definition →
      Step visited env
        (env.modifyClass className fun info => info.setMethod definition.name result)
  | move {env : Environment} (stack : List String) :
      Step visited env { env with scopeStack := stack }

abbrev Environment.Steps (visited : String → FunctionDef → Prop) :
    Environment → Environment → Prop :=
  ReflTransGen (Environment.Step visited)

namespace Environment.Steps

variable {visited : String → FunctionDef → Prop} {env after : Environment}

theorem keep {Holds : Environment → Prop}
    (step : ∀ {env after : Environment}, env.Step visited after → Holds env → Holds after)
    (steps : env.Steps visited after) (holds : Holds env) : Holds after := by
  induction steps with
  | refl => exact holds
  | tail _ next induction => exact step next induction

theorem of_outside {assigned declared : List String}
    (writes : env.Writes none assigned declared after) : env.Steps visited after :=
  writes.keep (fun write steps => steps.tail (.outside write)) .refl

private theorem of_inside {name : String} {definition : FunctionDef}
    (isVisited : visited name definition)
    (writes : env.Writes (some name) definition.variables (Block.declared definition.body) after) :
    env.Steps visited after :=
  writes.keep (fun write steps => steps.tail (.inside isVisited write)) .refl

theorem foldl {α : Type} {visit : Environment → α → Environment} (items : List α)
    (step : ∀ item ∈ items, ∀ env : Environment, env.Steps visited (visit env item))
    (env : Environment) : env.Steps visited (items.foldl visit env) := by
  induction items generalizing env with
  | nil => exact .refl
  | cons item rest induction =>
      have first := step item List.mem_cons_self env
      exact first.trans
        (induction (fun item member => step item (List.mem_cons_of_mem _ member)) _)

end Environment.Steps

/-! ## Functions -/

section Functions

variable {visited : String → FunctionDef → Prop} {place : Option String}
  {assigned declared : List String} {env : Environment} (setting : Setting)

theorem Setting.bindPlainParams_writes (params : List Param) (args : List Ty)
    (current : env.currentScope? = place) (binds : params.map Param.name ⊆ assigned) :
    env.Writes place assigned declared (setting.bindPlainParams params args env).2 := by
  induction params generalizing args env with
  | nil => exact .refl
  | cons param rest induction =>
      rw [List.map_cons, List.cons_subset] at binds
      have first : env.Writes place assigned declared
          (env.putVar param.name (setting.paramType env param args.head?)) :=
        .single (.bind _ current binds.1)
      exact first.trans (induction args.tail (first.currentScope?.trans current) binds.2)

theorem Setting.bindParams_writes (definition : FunctionDef) (className : Option String)
    (current : env.currentScope? = place)
    (binds : definition.params.map Param.name ⊆ assigned) :
    env.Writes place assigned declared (setting.bindParams definition className env).2 := by
  unfold Setting.bindParams
  dsimp only
  split
  · rename_i owner receiver rest isMethod
    rw [isMethod] at binds
    split
    · exact setting.bindPlainParams_writes _ _ current binds
    · rw [List.map_cons, List.cons_subset] at binds
      have first : env.Writes place assigned declared
          (env.putVar receiver.name (.object owner)) := .single (.bind _ current binds.1)
      exact first.trans
        (setting.bindPlainParams_writes _ _ (first.currentScope?.trans current) binds.2)
  · exact setting.bindPlainParams_writes _ _ current binds

/-! A visit ends in the scope that it started in. -/

private theorem Block.scopeStack_visit (body : Block) (env : Environment) :
    (Block.visit setting body env).scopeStack = env.scopeStack :=
  (Block.visit_writes setting rfl body (List.Subset.refl _) (List.Subset.refl _)).scopeStack

theorem FunctionDef.scopeStack_firstSweep (definition : FunctionDef) (qualified : String)
    (className : Option String) (env : Environment) :
    (definition.firstSweep setting qualified className env).scopeStack = env.scopeStack := by
  have bound : env.Writes env.currentScope? (definition.params.map Param.name) []
      (setting.bindParams definition className env).2 :=
    setting.bindParams_writes definition className rfl (List.Subset.refl _)
  rw [FunctionDef.firstSweep, Block.scopeStack_visit]
  exact bound.scopeStack

private theorem FunctionDef.scopeStack_visit (definition : FunctionDef) (qualified : String)
    (className : Option String) (env : Environment) :
    (definition.visit setting qualified className env).scopeStack = env.scopeStack := by
  have anywhere : Invariant (fun _ => True) (fun _ => True) := by
    constructor <;> intros <;> trivial
  exact (anywhere.simulation.visitFunction setting definition className trivial
    ⟨rfl, rfl, trivial⟩).placed

private theorem FunctionDef.scopeStack_visitNested (definition : FunctionDef) (qualified : String)
    (env : Environment) :
    (definition.visitNested setting qualified env).scopeStack = env.scopeStack := by
  refine List.foldlRecOn
    (motive := fun later : Environment => later.scopeStack = env.scopeStack) _ _ rfl ?_
  intro later same inner _
  rw [inner.scopeStack_visit, same]

theorem FunctionDef.currentScope?_secondSweep (definition : FunctionDef) (qualified : String)
    (className : Option String) (env : Environment) :
    (definition.visitNested setting qualified
      (definition.firstSweep setting qualified className env)).currentScope? =
        env.currentScope? := by
  rw [Environment.currentScope?, definition.scopeStack_visitNested,
    definition.scopeStack_firstSweep]
  rfl

theorem Setting.recordReturn_steps {definition : FunctionDef} {qualified : String}
    (className : Option String) (isVisited : visited qualified definition) :
    env.Steps visited (setting.recordReturn definition qualified className env) := by
  unfold Setting.recordReturn
  split
  · have recorded : env.Steps visited
        (env.setReturn qualified (setting.bodyResult env definition.body)) :=
      .single (.setReturn _ isVisited)
    dsimp only
    split
    · exact recorded.tail (.setMethod _ _ isVisited)
    · exact recorded
  · exact .refl

theorem FunctionDef.sweep_steps {definition : FunctionDef} {qualified : String}
    (isVisited : visited qualified definition) (current : env.currentScope? = some qualified) :
    env.Steps visited (Block.visit setting definition.body env) :=
  .of_inside isVisited (Block.visit_writes setting current definition.body
    (List.subset_append_right _ _) (List.Subset.refl _))

theorem FunctionDef.firstSweep_steps {definition : FunctionDef} {qualified : String}
    (className : Option String) (isVisited : visited qualified definition)
    (current : env.currentScope? = some qualified) :
    env.Steps visited (definition.firstSweep setting qualified className env) := by
  have bound : env.Writes (some qualified) definition.variables
      (Block.declared definition.body) (setting.bindParams definition className env).2 :=
    setting.bindParams_writes definition className current (List.subset_append_left _ _)
  have recorded : env.Steps visited _ := (Environment.Steps.of_inside isVisited bound).tail
    (.setParams (setting.bindParams definition className env).1 isVisited)
  exact recorded.trans
    (definition.sweep_steps setting isVisited (bound.currentScope?.trans current))

theorem FunctionDef.secondSweep_steps {definition : FunctionDef} {qualified : String}
    (isVisited : visited qualified definition) (current : env.currentScope? = some qualified)
    (nested : ∀ env : Environment,
      env.Steps visited (definition.visitNested setting qualified env)) :
    env.Steps visited (definition.secondSweep setting qualified env) := by
  have there : (definition.visitNested setting qualified env).currentScope? =
      some qualified := by
    rw [Environment.currentScope?, definition.scopeStack_visitNested]
    exact current
  rw [FunctionDef.secondSweep]
  split
  · exact .refl
  · exact (nested env).trans (definition.sweep_steps setting isVisited there)

/-- The visit of a function consists of steps in it and in the functions nested in it. -/
theorem FunctionDef.visit_steps (definition : FunctionDef) {qualified : String}
    {enclosing : List (String × FunctionDef)} (className : Option String)
    (visits : ∀ site ∈ definition.sites qualified enclosing, visited site.name site.definition)
    (env : Environment) : env.Steps visited (definition.visit setting qualified className env) := by
  induction definition using FunctionDef.nested_induction
    generalizing qualified enclosing className env with
  | step definition induction =>
  rw [FunctionDef.sites_eq, List.forall_mem_cons] at visits
  rcases visits with ⟨isVisited, nestedVisited⟩
  have nestedSteps (env : Environment) :
      env.Steps visited (definition.visitNested setting qualified env) := by
    refine Environment.Steps.foldl _ ?_ env
    intro inner isNested env
    apply induction inner isNested none
    intro site member
    exact nestedVisited site (List.mem_flatMap.mpr ⟨inner, isNested, member⟩)
  rw [FunctionDef.visit_eq, Environment.inScope]
  have entered : env.Steps visited (env.enterScope qualified) := .single (.move _)
  have swept := entered.trans (definition.firstSweep_steps setting className isVisited rfl)
  have current : (definition.firstSweep setting qualified className
      (env.enterScope qualified)).currentScope? = some qualified := by
    rw [Environment.currentScope?, definition.scopeStack_firstSweep]
    rfl
  have again := definition.secondSweep_steps setting isVisited current nestedSteps
  have recorded : env.Steps visited _ := (swept.trans again).trans
    (setting.recordReturn_steps className isVisited)
  exact recorded.tail (.move _)

theorem FunctionDef.visitNested_steps (definition : FunctionDef) {qualified : String}
    {enclosing : List (String × FunctionDef)}
    (visits : ∀ site ∈ definition.sites qualified enclosing, visited site.name site.definition)
    (env : Environment) : env.Steps visited (definition.visitNested setting qualified env) := by
  rw [FunctionDef.sites_eq, List.forall_mem_cons] at visits
  refine Environment.Steps.foldl _ ?_ env
  intro inner isNested env
  exact inner.visit_steps setting none
    (fun site member => visits.2 site (List.mem_flatMap.mpr ⟨inner, isNested, member⟩)) env

end Functions

/-! ## Classes and programs -/

section Programs

variable {visited : String → FunctionDef → Prop} (config : Config)

theorem Setting.visitClassAttribute_writes (setting : Setting) (className : String)
    (stmt : Stmt) (env : Environment) :
    env.Writes none [] [] (setting.visitClassAttribute className env stmt) := by
  unfold Setting.visitClassAttribute
  split
  · exact .single (.changeClass _ fun _ => rfl)
  · exact .refl

theorem ClassDef.visitOrder_perm (definition : ClassDef) :
    definition.visitOrder.Perm definition.methods := by
  have order := List.filter_append_perm (fun method : FunctionDef => method.name = "__init__")
    definition.methods
  simpa [ClassDef.visitOrder] using order

private theorem ClassDef.visit_steps (definition : ClassDef)
    (visits : ∀ method ∈ definition.methods,
      ∀ site ∈ method.sites (Dotted.join definition.name method.name) [],
        visited site.name site.definition)
    (env : Environment) : env.Steps visited (definition.visit config env) := by
  unfold ClassDef.visit
  dsimp only
  refine ReflTransGen.trans (Environment.Steps.foldl definition.body ?_ env)
    (Environment.Steps.foldl definition.visitOrder ?_ _)
  · intro stmt _ env
    exact .of_outside (Setting.visitClassAttribute_writes _ _ stmt env)
  · intro method member env
    exact method.visit_steps _ _ (visits method (definition.visitOrder_perm.mem_iff.mp member)) env

private theorem ClassDef.scopeStack_visit (definition : ClassDef) (env : Environment) :
    (definition.visit config env).scopeStack = env.scopeStack := by
  unfold ClassDef.visit
  dsimp only
  refine List.foldlRecOn
    (motive := fun later : Environment => later.scopeStack = env.scopeStack) _ _ ?_ ?_
  · refine List.foldlRecOn
      (motive := fun later : Environment => later.scopeStack = env.scopeStack) _ _ rfl ?_
    intro later same stmt _
    rw [(Setting.visitClassAttribute_writes _ _ stmt later).scopeStack, same]
  · intro later same method _
    rw [method.scopeStack_visit, same]

def Stmt.rootFunctions : Stmt → List (String × FunctionDef)
  | .functionDef definition => [(definition.name, definition)]
  | .classDef definition =>
      definition.methods.map fun method =>
        (Dotted.join definition.name method.name, method)
  | _ => []

def Stmt.sites (stmt : Stmt) : List Site :=
  stmt.rootFunctions.flatMap fun root => root.2.sites root.1 []

theorem Program.sites_eq (program : Program) :
    program.sites = program.body.flatMap Stmt.sites := by
  have roots : program.rootFunctions = program.body.flatMap Stmt.rootFunctions := rfl
  rw [Program.sites, roots, List.flatMap_assoc]
  rfl

theorem Stmt.visitDefinition_steps (stmt : Stmt)
    (visits : ∀ site ∈ stmt.sites, visited site.name site.definition)
    (env : Environment) : env.Steps visited (stmt.visitDefinition config env) := by
  cases stmt with
  | functionDef definition =>
      have inside : ∀ site ∈ definition.sites definition.name [],
          visited site.name site.definition := by
        intro site member
        exact visits site (List.mem_flatMap.mpr ⟨_, List.mem_cons_self, member⟩)
      exact definition.visit_steps _ none inside env
  | classDef definition =>
      apply definition.visit_steps config
      intro method isMethod site member
      exact visits site (List.mem_flatMap.mpr ⟨_, List.mem_map_of_mem isMethod, member⟩)
  | _ => exact .refl

private theorem Stmt.scopeStack_visitDefinition (stmt : Stmt) (env : Environment) :
    (stmt.visitDefinition config env).scopeStack = env.scopeStack := by
  cases stmt with
  | functionDef definition => exact definition.scopeStack_visit _ _ none env
  | classDef definition => exact definition.scopeStack_visit config env
  | _ => rfl

namespace Program

variable (program : Program)

private theorem visitDefinitions_steps
    (visits : ∀ site ∈ program.sites, visited site.name site.definition) (env : Environment) :
    env.Steps visited (program.visitDefinitions config env) := by
  refine Environment.Steps.foldl _ ?_ env
  intro stmt standing env
  apply stmt.visitDefinition_steps config
  intro site member
  apply visits
  rw [Program.sites_eq]
  exact List.mem_flatMap.mpr ⟨stmt, standing, member⟩

theorem scopeStack_visitDefinitions (env : Environment) :
    (program.visitDefinitions config env).scopeStack = env.scopeStack := by
  refine List.foldlRecOn
    (motive := fun later : Environment => later.scopeStack = env.scopeStack) _ _ rfl ?_
  intro later same stmt _
  rw [stmt.scopeStack_visitDefinition, same]

theorem visitStatements_steps {env : Environment} (outside : env.scopeStack = []) :
    env.Steps visited (program.visitStatements config env) := by
  have current : env.currentScope? = none := by rw [Environment.currentScope?, outside]; rfl
  exact .of_outside (Block.visit_writes _ current _ (List.Subset.refl _) (List.Subset.refl _))

theorem scopeStack_visitStatements (env : Environment) :
    (program.visitStatements config env).scopeStack = env.scopeStack :=
  Block.scopeStack_visit _ _ env

theorem withReturns_steps
    (visits : ∀ site ∈ program.sites, visited site.name site.definition) (env : Environment) :
    env.Steps visited (program.withReturns config env) := by
  unfold withReturns
  split
  · exact program.visitDefinitions_steps config visits env
  · exact .refl

theorem scopeStack_withReturns (env : Environment) :
    (program.withReturns config env).scopeStack = env.scopeStack := by
  unfold withReturns
  split
  · exact program.scopeStack_visitDefinitions config env
  · rfl

theorem withVisit_steps
    (visits : ∀ site ∈ program.sites, visited site.name site.definition) {env : Environment}
    (outside : env.scopeStack = []) : env.Steps visited (program.withVisit config env) := by
  have before : env.Steps visited (program.visitStatements config env) :=
    program.visitStatements_steps config outside
  have definitions := program.visitDefinitions_steps config visits
    (program.visitStatements config env)
  refine (before.trans definitions).trans (program.visitStatements_steps config ?_)
  rw [scopeStack_visitDefinitions, scopeStack_visitStatements, outside]

theorem scopeStack_withVisit (env : Environment) :
    (program.withVisit config env).scopeStack = env.scopeStack := by
  rw [withVisit, scopeStack_visitStatements, scopeStack_visitDefinitions,
    scopeStack_visitStatements]

end Program

end Programs

end NativeTyping

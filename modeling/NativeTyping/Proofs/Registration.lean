import NativeTyping.Proofs.Fitness.Analysis
import NativeTyping.Proofs.Owner
import NativeTyping.Proofs.Promotion
import NativeTyping.Proofs.Steps
/-!
Which functions and classes an environment knows of.

The stages find the functions of a program each on its own: to determine captures, to
register signatures, and to visit bodies. All of them arrive at the same names. The
signatures fix the order of the registries, and no later stage adds to them.
-/

namespace NativeTyping

/-! ## Names of a program -/

namespace Program

def functionNames (program : Program) : List String :=
  (NameSet.ofList (program.sites.map Site.name)).names

def nestedNames (program : Program) : List String :=
  (NameSet.ofList
    ((program.sites.filter fun site => !site.enclosing.isEmpty).map Site.name)).names

def classNames (program : Program) : List String :=
  (NameSet.ofList (program.classes.map ClassDef.name)).names

theorem mem_functionNames_iff {program : Program} {name : String} :
    name ∈ program.functionNames ↔ ∃ definition, program.Defines name definition := by
  rw [functionNames, NameSet.mem_names_ofList, List.mem_map]
  constructor
  · rintro ⟨site, member, rfl⟩
    exact ⟨site.definition, Program.defines_of_mem member⟩
  · rintro ⟨definition, defined⟩
    rcases Program.exists_site_of_defines defined with ⟨site, member, named, _⟩
    exact ⟨site, member, named⟩

theorem mem_nestedNames_iff {program : Program} {name : String} :
    name ∈ program.nestedNames ↔
      ∃ outerName outer inner, program.Defines outerName outer ∧
        .functionDef inner ∈ Block.statements outer.body ∧
        name = Dotted.join outerName inner.name := by
  rw [nestedNames, NameSet.mem_names_ofList, List.mem_map]
  simp only [List.mem_filter, Bool.not_eq_true', List.isEmpty_eq_false_iff]
  constructor
  · rintro ⟨site, ⟨member, nested⟩, rfl⟩
    rcases Program.mem_sites_cases member with isRoot | ⟨parent, parentMember, isInside⟩
    · exact absurd isRoot nested
    · exact ⟨parent.name, parent.definition, site.definition, Program.defines_of_mem parentMember,
        FunctionDef.mem_nested_iff.mp isInside.nested, isInside.name⟩
  · rintro ⟨outerName, outer, inner, defined, standing, rfl⟩
    rcases Program.exists_site_of_defines defined with ⟨parent, parentMember, rfl, rfl⟩
    refine ⟨_, ⟨Program.mem_sites_of_nested parentMember (FunctionDef.mem_nested_iff.mpr standing),
      ?_⟩, rfl⟩
    simp

end Program

/-! ## Signatures -/

namespace Environment

/-- Between two environments, functions and classes of some names were registered, in
this order. Apart from these and from imports, nothing has changed. -/
structure Signed (functions classes : List String) (before after : Environment) : Prop where
  returns : after.returns.keySet = before.returns.keySet.insertMany functions
  params : after.params.keySet = before.params.keySet.insertMany functions
  classes : after.classes.keySet = before.classes.keySet.insertMany classes
  others : after = { before with
    returns := after.returns
    params := after.params
    classes := after.classes
    imports := after.imports }

namespace Signed

variable {functions moreFunctions classes moreClasses : List String}
  {before between after : Environment}

private theorem refl (env : Environment) : Signed [] [] env env where
  returns := rfl
  params := rfl
  classes := rfl
  others := rfl

private theorem trans (left : Signed functions classes before between)
    (right : Signed moreFunctions moreClasses between after) :
    Signed (functions ++ moreFunctions) (classes ++ moreClasses) before after where
  returns := by rw [NameSet.insertMany_append, ← left.returns, right.returns]
  params := by rw [NameSet.insertMany_append, ← left.params, right.params]
  classes := by rw [NameSet.insertMany_append, ← left.classes, right.classes]
  others := by rw [right.others, left.others]

private theorem foldl {α : Type} {register : Environment → α → Environment}
    {functions classes : α → List String} (items : List α)
    (step : ∀ item ∈ items, ∀ env : Environment,
      env.Signed (functions item) (classes item) (register env item)) (env : Environment) :
    env.Signed (items.flatMap functions) (items.flatMap classes) (items.foldl register env) := by
  induction items generalizing env with
  | nil => exact refl env
  | cons item rest induction =>
      rw [List.foldl_cons, List.flatMap_cons, List.flatMap_cons]
      have first := step item List.mem_cons_self env
      exact first.trans
        (induction (fun later member => step later (List.mem_cons_of_mem item member)) _)

private theorem foldl_functions {α : Type} {register : Environment → α → Environment}
    {functions : α → List String} (items : List α)
    (step : ∀ item ∈ items, ∀ env : Environment,
      env.Signed (functions item) [] (register env item)) (env : Environment) :
    env.Signed (items.flatMap functions) [] (items.foldl register env) := by
  have noClass : items.flatMap (fun _ => ([] : List String)) = [] := by simp
  rw [← noClass]
  exact foldl items step env

private theorem setSignature (env : Environment) (name : String) (result : Ty) (types : List Ty) :
    env.Signed [name] [] ((env.setReturn name result).setParams name types) where
  returns := env.returns.keySet_insert name result
  params := env.params.keySet_insert name types
  classes := rfl
  others := rfl

private theorem registerClass (env : Environment) (info : ClassInfo) :
    env.Signed [] [info.name] (env.registerClass info) where
  returns := rfl
  params := rfl
  classes := env.classes.keySet_insert info.name info
  others := rfl

private theorem addImport (env : Environment) (name target : String) :
    env.Signed [] [] (env.addImport name target) where
  returns := rfl
  params := rfl
  classes := rfl
  others := rfl

private theorem registerImports (env : Environment) (stmt : Stmt) :
    env.Signed [] [] (env.registerImports stmt) := by
  unfold Environment.registerImports
  split
  · refine List.foldlRecOn (motive := env.Signed [] []) _ _ (refl env) ?_
    intro later signed imported _
    unfold importModule
    split <;> exact signed.trans (addImport later _ _)
  · refine List.foldlRecOn (motive := env.Signed [] []) _ _ (refl env) ?_
    intro later signed imported _
    exact signed.trans (addImport later _ _)
  · exact refl env

end Signed

end Environment

section Signatures

variable (config : Config)

private theorem FunctionDef.register_signed (definition : FunctionDef) (qualified : String)
    (enclosing : List (String × FunctionDef)) (hasReceiver : Bool) (env : Environment) :
    env.Signed ((definition.sites qualified enclosing).map Site.name) []
      (definition.register config qualified hasReceiver env) := by
  induction definition using FunctionDef.nested_induction
    generalizing qualified enclosing hasReceiver env with
  | step definition induction =>
      rw [FunctionDef.register_eq, FunctionDef.sites_eq, List.map_cons, List.map_flatMap]
      have own := Environment.Signed.setSignature env qualified
        (config.hintType definition.returnHint)
        ((if hasReceiver then definition.params.tail else definition.params).map
          fun param => config.hintType param.hint)
      refine own.trans (Environment.Signed.foldl_functions definition.nested ?_ _)
      intro inner isNested env
      exact induction inner isNested (Dotted.join qualified inner.name) _ false env

theorem ClassDef.name_declaredInfo (definition : ClassDef) :
    (definition.declaredInfo config).name = definition.name := by
  refine List.foldlRecOn (motive := fun info : ClassInfo => info.name = definition.name)
    _ _ rfl ?_
  intro info named method _
  dsimp only
  split <;> exact named

private theorem Stmt.register_signed (stmt : Stmt) (env : Environment) :
    env.Signed (stmt.sites.map Site.name) (stmt.classDef?.toList.map ClassDef.name)
      (stmt.register config env) := by
  rw [Stmt.sites, List.map_flatMap]
  cases stmt with
  | functionDef definition =>
      rw [Stmt.rootFunctions, List.flatMap_singleton]
      exact definition.register_signed config definition.name [] false env
  | classDef definition =>
      have methods := Environment.Signed.foldl_functions definition.methods
        (fun method _ env => method.register_signed config
          (Dotted.join definition.name method.name) [] (!method.isStatic) env) env
      have registered := methods.trans (.registerClass _ (definition.declaredInfo config))
      rw [definition.name_declaredInfo config, List.append_nil] at registered
      rw [Stmt.rootFunctions, List.flatMap_map]
      exact registered
  | _ =>
      simp only [Stmt.rootFunctions, Stmt.classDef?, Stmt.register, List.flatMap_nil,
        Option.toList_none, List.map_nil]
      exact .registerImports env _

theorem Program.withSignatures_signed (program : Program) (env : Environment) :
    env.Signed (program.sites.map Site.name) (program.classes.map ClassDef.name)
      (program.withSignatures config env) := by
  have all := Environment.Signed.foldl program.body
    (fun stmt _ env => stmt.register_signed config env) env
  have functions : program.sites.map Site.name =
      program.body.flatMap fun stmt => stmt.sites.map Site.name := by
    rw [Program.sites_eq, List.map_flatMap]
  have classes : program.classes.map ClassDef.name =
      program.body.flatMap fun stmt => stmt.classDef?.toList.map ClassDef.name := by
    rw [Program.classes, List.filterMap_eq_flatMap_toList, List.map_flatMap]
  rw [functions, classes]
  exact all

end Signatures

/-! ## Captures -/

private theorem Site.keySet_record (found : Captures) (site : Site) :
    (site.record found).keySet =
      if site.captured?.isSome then found.keySet.insert site.name else found.keySet := by
  rw [Site.record]
  cases site.captured? with
  | none => rfl
  | some captured => exact found.keySet_insert site.name captured

private theorem keySet_foldl_record (sites : List Site) (found : Captures) :
    (sites.foldl Site.record found).keySet =
      found.keySet.insertMany ((sites.filter fun site => site.captured?.isSome).map Site.name) := by
  induction sites generalizing found with
  | nil => rfl
  | cons site rest induction =>
      rw [List.foldl_cons, induction, Site.keySet_record, List.filter_cons]
      cases site.captured?.isSome <;> rfl

private theorem Program.isSome_captured? {program : Program} {site : Site}
    (member : site ∈ program.sites) : site.captured?.isSome = !site.enclosing.isEmpty := by
  cases around : site.enclosing with
  | nil => rw [Site.captured?, around]; rfl
  | cons outer rest =>
      have nested : site.enclosing ≠ [] := by rw [around]; exact List.cons_ne_nil _ _
      rcases Program.exists_captured member nested with ⟨captured, found⟩
      rw [found]
      rfl

private theorem Program.keys_captures (program : Program) :
    program.captures.keys = program.nestedNames := by
  have nested : (program.sites.filter fun site => site.captured?.isSome) =
      program.sites.filter fun site => !site.enclosing.isEmpty :=
    List.filter_congr fun site member => Program.isSome_captured? member
  have keys := keySet_foldl_record program.sites ∅
  rw [← Program.captures_eq_foldl, nested] at keys
  exact congrArg NameSet.names keys

theorem Program.withCaptures_eq (program : Program) :
    program.withCaptures {} = { captures := program.captures } := by
  have moved (entries : List (String × NameSet)) (captures : Captures) :
      entries.foldl (fun env entry => env.setCaptures entry.1 entry.2)
          ({ captures := captures } : Environment) =
        { captures := entries.foldl (fun table entry => table.insert entry.1 entry.2)
            captures } := by
    induction entries generalizing captures with
    | nil => rfl
    | cons entry rest induction => exact induction (captures.insert entry.1 entry.2)
  calc
    program.withCaptures {} = { captures := Table.ofList program.captures.entries } := moved _ ∅
    _ = { captures := program.captures } := by rw [Table.ofList_entries]

/-- Before the first visit, no scope was entered, no variable of a function bound, and no
name declared to live outside. -/
theorem Program.before_visits (config : Config) (program : Program) :
    (program.withConstructors config (program.withSignatures config
      (program.withCaptures {}))).scopeStack = [] ∧
    (program.withConstructors config (program.withSignatures config
      (program.withCaptures {}))).scopes = ∅ ∧
    (program.withConstructors config (program.withSignatures config
      (program.withCaptures {}))).declaredOuter = ∅ := by
  refine List.foldlRecOn (motive := fun env : Environment =>
    env.scopeStack = [] ∧ env.scopes = ∅ ∧ env.declaredOuter = ∅) _ _ ?_ (fun _ fresh _ _ => fresh)
  rw [(program.withSignatures_signed config _).others, withCaptures_eq]
  exact ⟨rfl, rfl, rfl⟩

/-! ## Registries

What the signatures have fixed. Every later step writes under a name that is registered
already: a record of a function belongs to a visited one, and a variable is bound in the
scope of a visited function or where it is bound before. -/

structure Environment.Registers (functions nested classes : List String) (env : Environment) :
    Prop where
  returns : env.returns.keys = functions
  params : env.params.keys = functions
  captures : env.captures.keys = nested
  classes : env.classes.keys = classes
  scopes : env.scopes.keys ⊆ functions

namespace Environment

private theorem mem_keys_scopes_of_contains {env : Environment} {scope name : String}
    (bound : (env.bindings (.scope scope)).contains name = true) : scope ∈ env.scopes.keys := by
  rw [← Table.contains_iff_mem_keys, Table.contains]
  rw [bindings, scopeBindings] at bound
  cases found : env.scopes.get? scope with
  | none => rw [found] at bound; cases bound
  | some bindings => rfl

namespace Registers

variable {functions nested classes : List String} {env after : Environment}

private theorem updateAt (registers : env.Registers functions nested classes) {owner : Owner}
    (known : ∀ scope, owner = .scope scope → scope ∈ functions) (name : String)
    (update : Option Ty → Ty) :
    (env.updateAt owner name update).Registers functions nested classes := by
  cases owner with
  | program => exact { registers with }
  | scope scope =>
      refine { registers with scopes := ?_ }
      intro other member
      rcases (env.scopes.mem_keys_upsert scope other _).mp member with before | rfl
      · exact registers.scopes before
      · exact known other rfl

private theorem write {place : Option String} {assigned declared : List String}
    (registers : env.Registers functions nested classes)
    (inside : ∀ scope ∈ place, scope ∈ functions)
    (write : env.Write place assigned declared after) :
    after.Registers functions nested classes := by
  cases write with
  | @bind name update current _ =>
      refine registers.updateAt ?_ name update
      intro scope found
      rcases current_or_contains_of_writeOwner found with here | bound
      · exact inside scope (current ▸ here)
      · exact registers.scopes (mem_keys_scopes_of_contains bound)
  | @refine name owner _ _ found =>
      refine registers.updateAt ?_ name _
      rintro scope rfl
      exact registers.scopes
        (mem_keys_scopes_of_contains (contains_bindings_of_readOwner? found))
  | changeClass =>
      exact { registers with classes := (env.classes.keys_mapValues _).trans registers.classes }
  | addImport => exact { registers with }
  | declare =>
      unfold declareOuter
      split
      · exact registers
      · exact { registers with }

private theorem keys_insert_of_mem {α : Type} {table : Table α} {names : List String}
    (keys : table.keys = names) {name : String} (known : name ∈ names) (value : α) :
    (table.insert name value).keys = names := by
  rw [Table.insert, Table.keys_upsert, keys, if_pos known]

private theorem step {visited : String → FunctionDef → Prop}
    (registers : env.Registers functions nested classes)
    (known : ∀ {name definition}, visited name definition → name ∈ functions)
    (step : env.Step visited after) : after.Registers functions nested classes := by
  cases step with
  | outside write => exact registers.write (by simp) write
  | inside isVisited write =>
      refine registers.write ?_ write
      rintro _ ⟨⟩
      exact known isVisited
  | setParams types isVisited =>
      exact { registers with params := keys_insert_of_mem registers.params (known isVisited) types }
  | setReturn result isVisited =>
      exact { registers with
        returns := keys_insert_of_mem registers.returns (known isVisited) result }
  | setMethod =>
      exact { registers with classes := (env.classes.keys_mapValues _).trans registers.classes }
  | move => exact { registers with }

private theorem steps {visited : String → FunctionDef → Prop}
    (registers : env.Registers functions nested classes)
    (known : ∀ {name definition}, visited name definition → name ∈ functions)
    (steps : env.Steps visited after) : after.Registers functions nested classes :=
  steps.keep (fun step registers => registers.step known step) registers

private theorem promoted {names fields : String → Prop}
    (registers : env.Registers functions nested classes)
    (promoted : Environment.Promoted names fields env after) :
    after.Registers functions nested classes where
  returns := by rw [promoted.others]; exact registers.returns
  params := by rw [promoted.others]; exact registers.params
  captures := by rw [promoted.others]; exact registers.captures
  classes := promoted.classes.keys.trans registers.classes
  scopes := promoted.scopes.keys ▸ registers.scopes

end Registers

end Environment

namespace Program

variable (config : Config) (program : Program)

theorem withSignatures_registers :
    (program.withSignatures config (program.withCaptures {})).Registers program.functionNames
      program.nestedNames program.classNames := by
  have signed := program.withSignatures_signed config (program.withCaptures {})
  rw [withCaptures_eq] at signed ⊢
  exact {
    returns := congrArg NameSet.names signed.returns
    params := congrArg NameSet.names signed.params
    captures := by rw [signed.others]; exact program.keys_captures
    classes := congrArg NameSet.names signed.classes
    scopes := by rw [signed.others]; exact List.nil_subset _ }

variable {program}

private theorem runStage_registers {functions nested classes : List String}
    (known : ∀ site ∈ program.sites, site.name ∈ functions) {stage : Stage}
    (later : stage ∉ [.captures, .signatures]) {env : Environment}
    (outside : env.scopeStack = []) (registers : env.Registers functions nested classes) :
    (program.runStage config env stage).scopeStack = [] ∧
      (program.runStage config env stage).Registers functions nested classes := by
  cases stage with
  | captures | signatures => simp at later
  | constructors =>
      refine List.foldlRecOn (motive := fun later : Environment =>
        later.scopeStack = [] ∧ later.Registers functions nested classes) _ _
        ⟨outside, registers⟩ ?_
      intro env before call _
      exact ⟨before.1, { before.2 with }⟩
  | returns =>
      exact ⟨(program.scopeStack_withReturns config env).trans outside,
        registers.steps id (program.withReturns_steps config known env)⟩
  | visit =>
      exact ⟨(program.scopeStack_withVisit config env).trans outside,
        registers.steps id (program.withVisit_steps config known outside)⟩
  | promotion =>
      unfold runStage withPromotion
      dsimp only
      split
      · have promoted := Environment.foldl_promote_promoted
          (Mutation.Events.listMutated program.mutations) env
        exact ⟨by rw [promoted.others]; exact outside, registers.promoted promoted⟩
      · exact ⟨outside, registers⟩

/-- What each of some stages keeps holds after every one of them. -/
theorem forall_runStages {Holds : Environment → Prop} (stages : List Stage)
    (keeps : ∀ stage ∈ stages, ∀ {env : Environment}, Holds env →
      Holds (program.runStage config env stage)) {env : Environment} (holds : Holds env) :
    ∀ reached ∈ program.runStages config env stages, Holds reached.2 := by
  induction stages generalizing env with
  | nil => simp [runStages]
  | cons stage rest induction =>
      rw [List.forall_mem_cons] at keeps
      have next := keeps.1 holds
      rw [runStages, List.forall_mem_cons]
      exact ⟨next, induction keeps.2 next⟩

theorem runStages_registers {functions nested classes : List String}
    (known : ∀ site ∈ program.sites, site.name ∈ functions) (stages : List Stage)
    (later : ∀ stage ∈ stages, stage ∉ [.captures, .signatures]) {env : Environment}
    (outside : env.scopeStack = []) (registers : env.Registers functions nested classes) :
    ∀ reached ∈ program.runStages config env stages,
      reached.2.Registers functions nested classes := by
  have keeps : ∀ stage ∈ stages, ∀ {env : Environment},
      env.scopeStack = [] ∧ env.Registers functions nested classes →
        (program.runStage config env stage).scopeStack = [] ∧
          (program.runStage config env stage).Registers functions nested classes :=
    fun stage listed _ before =>
      runStage_registers config known (later stage listed) before.1 before.2
  intro reached member
  exact (forall_runStages config stages keeps ⟨outside, registers⟩ reached member).2

variable (program)

/-- All stages agree on the functions and classes of a program. From the signatures on,
results and parameters are known of the same functions in the same order, captures are
known of the nested ones, and only these functions have a scope. -/
theorem registries_agree :
    (∀ reached ∈ program.runStages config {} Stage.all, reached.1 ≠ .captures →
      reached.2.Registers program.functionNames program.nestedNames program.classNames) ∧
    (program.analyze config).Registers program.functionNames program.nestedNames
      program.classNames ∧
    (∀ name, name ∈ program.functionNames ↔ ∃ definition, program.Defines name definition) ∧
    ∀ name, name ∈ program.nestedNames ↔
      ∃ outerName outer inner, program.Defines outerName outer ∧
        .functionDef inner ∈ Block.statements outer.body ∧
        name = Dotted.join outerName inner.name := by
  have known : ∀ site ∈ program.sites, site.name ∈ program.functionNames := by
    intro site member
    exact mem_functionNames_iff.mpr ⟨site.definition, defines_of_mem member⟩
  have registered := program.withSignatures_registers config
  have outside : (program.withSignatures config (program.withCaptures {})).scopeStack = [] := by
    rw [(program.withSignatures_signed config _).others, withCaptures_eq]
  have later := runStages_registers config known
    [.constructors, .returns, .visit, .promotion] (by decide) outside registered
  have stages : ∀ reached ∈ program.runStages config {} Stage.all, reached.1 ≠ .captures →
      reached.2.Registers program.functionNames program.nestedNames program.classNames := by
    intro reached member notCaptures
    rw [Stage.all, runStages, runStages, List.mem_cons, List.mem_cons] at member
    rcases member with rfl | rfl | member
    · exact absurd rfl notCaptures
    · exact registered
    · exact later reached member
  have last : (.promotion, program.analyze config) ∈ program.runStages config {} Stage.all := by
    simp [Stage.all, runStages, analyze]
  exact ⟨stages, stages _ last (by simp), fun _ => mem_functionNames_iff,
    fun _ => mem_nestedNames_iff⟩

end Program

/-! A class with a method, a function that is defined twice, and functions nested in
these below a loop, a handler and a condition. -/

def Program.stocking : Program where
  body := [
    .classDef {
      name := "Shelf", bases := [], decorators := []
      body := [.functionDef {
        name := "fill", params := [⟨"self", none, none⟩], returnHint := none
        decorators := [], isAsync := false
        body := [.whileLoop (.literal (.bool true)) [.functionDef (plain "pick" [])] []] }] },
    .functionDef (plain "fill" [
      .tryExcept [.pass] [⟨none, none, [.functionDef (plain "pick" [])]⟩] [] []]),
    .functionDef (plain "fill" [
      .ifElse (.literal (.bool true)) [] [.functionDef (plain "drop" [])]])]
where
  plain (name : String) (body : Block) : FunctionDef := {
    name := name, params := [], returnHint := none, body := body
    decorators := [], isAsync := false }

theorem Program.registries_agree_stocking :
    stocking.functionNames =
      ["Shelf.fill", "Shelf.fill.pick", "fill", "fill.pick", "fill.drop"] ∧
    stocking.nestedNames = ["Shelf.fill.pick", "fill.pick", "fill.drop"] ∧
    stocking.classNames = ["Shelf"] ∧
    (stocking.withSignatures {} (stocking.withCaptures {})).Registers
      stocking.functionNames stocking.nestedNames stocking.classNames ∧
    (stocking.analyze {}).Registers stocking.functionNames stocking.nestedNames
      stocking.classNames := by
  have agree := stocking.registries_agree {}
  refine ⟨by decide, by decide, by decide, ?_, agree.2.1⟩
  apply agree.1 (.signatures, stocking.withSignatures {} (stocking.withCaptures {}))
  · simp [Stage.all, runStages, runStage]
  · simp

/-! ## Definitions below control flow

Inside a function, definitions are found through its control flow. At the top level they
are not: a statement there registers a function only if it is the definition itself. -/

namespace Program

variable (config : Config) (program : Program)

private theorem registered_iff {name : String} :
    name ∈ (program.withSignatures config (program.withCaptures {})).returns.keys ↔
      ∃ definition, program.Defines name definition := by
  rw [(program.withSignatures_registers config).returns, mem_functionNames_iff]

private theorem standing_of_defines {name : String} (plain : '.' ∉ name.toList)
    {definition : FunctionDef} (defined : program.Defines name definition) :
    .functionDef definition ∈ program.body ∧ definition.name = name := by
  cases defined with
  | function standing => exact ⟨standing, rfl⟩
  | method | nested =>
      rw [Dotted.toList_join] at plain
      simp at plain

/-- A function that stands directly at the top level is registered, and so is every
function that stands in the control flow of a registered one. A name without a dot is
registered for no other reason, and so a function that stands in the control flow of the
top level is not registered for itself. -/
theorem functions_registered :
    (∀ definition, .functionDef definition ∈ program.body →
      definition.name ∈
        (program.withSignatures config (program.withCaptures {})).returns.keys) ∧
    (∀ name outer, program.Defines name outer → ∀ inner ∈ Block.functions outer.body,
      Dotted.join name inner.name ∈
        (program.withSignatures config (program.withCaptures {})).returns.keys) ∧
    ∀ name, '.' ∉ name.toList →
      (name ∈ (program.withSignatures config (program.withCaptures {})).returns.keys ↔
        ∃ definition, .functionDef definition ∈ program.body ∧ definition.name = name) := by
  simp only [registered_iff]
  refine ⟨?_, ?_, ?_⟩
  · intro definition standing
    exact ⟨definition, .function standing⟩
  · intro name outer defined inner found
    exact ⟨inner, .nested defined (FunctionDef.mem_nested_iff.mp found)⟩
  · intro name plain
    constructor
    · rintro ⟨definition, defined⟩
      exact ⟨definition, program.standing_of_defines plain defined⟩
    · rintro ⟨definition, standing, named⟩
      exact ⟨definition, named ▸ .function standing⟩

end Program

def FunctionDef.idle : FunctionDef where
  name := "f"
  params := []
  returnHint := none
  body := [.pass]
  decorators := []
  isAsync := false

/-! A function that is defined on a condition. -/

def Program.guarded : Program where
  body := [.ifElse (.literal (.bool true)) [.functionDef .idle] []]

def FunctionDef.running : FunctionDef where
  name := "run"
  params := []
  returnHint := none
  body := [.whileLoop (.literal (.bool true)) [.functionDef .idle] []]
  decorators := []
  isAsync := false

def Program.unguarded : Program where
  body := [.functionDef .idle, .functionDef .running]

theorem Program.functions_registered_idle :
    (.functionDef .idle ∈ unguarded.body ∧ unguarded.Defines "run" .running ∧
      FunctionDef.idle ∈ Block.functions FunctionDef.running.body ∧ '.' ∉ "f".toList) ∧
    "f" ∈ (unguarded.withSignatures {} (unguarded.withCaptures {})).returns.keys ∧
    "run.f" ∈ (unguarded.withSignatures {} (unguarded.withCaptures {})).returns.keys ∧
    "f" ∉ (guarded.withSignatures {} (guarded.withCaptures {})).returns.keys := by
  have standing : .functionDef .idle ∈ unguarded.body := List.mem_cons_self
  have defined : unguarded.Defines "run" .running :=
    .function (List.mem_cons_of_mem _ (List.mem_singleton_self _))
  have nested : FunctionDef.idle ∈ Block.functions FunctionDef.running.body :=
    List.mem_singleton_self _
  have plain : '.' ∉ "f".toList := by decide
  have direct := unguarded.functions_registered {}
  refine ⟨⟨standing, defined, nested, plain⟩, direct.1 _ standing,
    direct.2.1 _ _ defined _ nested, ?_⟩
  intro registered
  rcases ((guarded.functions_registered {}).2.2 "f" plain).mp registered with
    ⟨other, isDirect, _⟩
  simp [guarded] at isDirect

theorem Program.guarded_unregistered :
    ¬ ∀ definition ∈ Block.functions guarded.body,
      definition.name ∈ (guarded.withSignatures {} (guarded.withCaptures {})).returns.keys := by
  decide

end NativeTyping

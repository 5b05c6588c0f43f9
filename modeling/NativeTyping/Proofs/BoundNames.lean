import NativeTyping.Proofs.LocalVariable
/-!
The names that the scope of a function binds.

Two traversals of a body decide what is local to a function: one collects the names that
the body binds, for the capture sets, and the other visits the body and writes to the
environment. What the visit binds in the scope of the function is among the names of the
first, and all parameters and targets of the body are bound, unless the body declares them
to live outside.
-/

namespace NativeTyping

/-! ## Targets of a body -/

namespace Stmt

def handlers : Stmt → List Handler
  | .tryExcept _ handlers _ _ => handlers
  | _ => []

def targetNames (stmt : Stmt) : List String :=
  stmt.assignedNames ++ stmt.handlers.filterMap Handler.name

def ownEffects (stmt : Stmt) : List Effect :=
  .own stmt :: stmt.handlers.map fun handler => .caught handler.exception handler.name

end Stmt

mutual

theorem Stmt.mem_effects_iff (stmt : Stmt) (effect : Effect) :
    effect ∈ stmt.effects ↔ effect ∈ stmt.statements.flatMap Stmt.ownEffects := by
  cases stmt with
  | ifElse _ body orelse | whileLoop _ body orelse | forLoop _ _ body orelse =>
      simp only [Stmt.effects, Stmt.statements, Stmt.ownEffects, Stmt.handlers, List.mem_cons,
        List.mem_append, List.flatMap_cons, List.flatMap_append, List.map_nil, List.not_mem_nil,
        or_false, Block.mem_effects_iff body, Block.mem_effects_iff orelse]
  | tryExcept body handlers orelse finalbody =>
      simp only [Stmt.effects, Stmt.statements, Stmt.ownEffects, Stmt.handlers, List.mem_cons,
        List.mem_append, List.flatMap_cons, List.flatMap_append, Block.mem_effects_iff body,
        mem_handlerEffects_iff handlers, Block.mem_effects_iff orelse,
        Block.mem_effects_iff finalbody]
      tauto
  | withBlock items body =>
      simp only [Stmt.effects, Stmt.statements, Stmt.ownEffects, Stmt.handlers, List.mem_cons,
        List.mem_append, List.flatMap_cons, List.map_nil, List.not_mem_nil, or_false,
        Block.mem_effects_iff body]
  | _ => simp [Stmt.effects, Stmt.statements, Stmt.ownEffects, Stmt.handlers]

/-- A sweep goes through the effects of the statements of a body, and through no others. -/
theorem Block.mem_effects_iff (body : List Stmt) (effect : Effect) :
    effect ∈ Block.effects body ↔ effect ∈ (Block.statements body).flatMap Stmt.ownEffects := by
  cases body with
  | nil => simp [Block.effects, Block.statements]
  | cons stmt rest =>
      simp only [Block.effects, Block.statements, List.mem_append, List.flatMap_append,
        Stmt.mem_effects_iff stmt, Block.mem_effects_iff rest]

theorem mem_handlerEffects_iff (handlers : List Handler) (effect : Effect) :
    effect ∈ handlerEffects handlers ↔
      effect ∈ handlers.map (fun handler => .caught handler.exception handler.name) ∨
        effect ∈ (handlerStatements handlers).flatMap Stmt.ownEffects := by
  cases handlers with
  | nil => simp [handlerEffects, handlerStatements]
  | cons handler rest =>
      rcases handler with ⟨exception, name, body⟩
      simp only [handlerEffects, handlerStatements, List.mem_cons, List.mem_append, List.map_cons,
        List.flatMap_append, Block.mem_effects_iff body, mem_handlerEffects_iff rest]
      tauto

end

namespace Block

variable {name : String} {body : Block}

private theorem mem_assigned_iff :
    name ∈ Block.assigned body ↔ ∃ stmt ∈ Block.statements body, name ∈ stmt.targetNames := by
  have own (stmt : Stmt) :
      name ∈ stmt.ownEffects.flatMap Effect.assigned ↔ name ∈ stmt.targetNames := by
    simp [Stmt.ownEffects, Stmt.targetNames, Effect.assigned]
  simp only [← own, Block.assigned, List.mem_flatMap, Block.mem_effects_iff]
  grind

private theorem mem_declared_iff :
    name ∈ Block.declared body ↔ ∃ stmt ∈ Block.statements body, name ∈ stmt.outerNames := by
  have own (stmt : Stmt) :
      name ∈ stmt.ownEffects.flatMap Effect.declared ↔ name ∈ stmt.outerNames := by
    simp [Stmt.ownEffects, Effect.declared]
  simp only [← own, Block.declared, List.mem_flatMap, Block.mem_effects_iff]
  grind

end Block

private theorem Stmt.targetNames_subset (stmt : Stmt) : stmt.targetNames ⊆ stmt.boundNames := by
  cases stmt <;>
    simp [Stmt.targetNames, Stmt.assignedNames, Stmt.handlers, Stmt.boundNames]

theorem FunctionDef.mem_localNames_of_variable {definition : FunctionDef} {name : String}
    (isVariable : name ∈ definition.variables) : name ∈ definition.localNames.names := by
  rw [FunctionDef.localNames, localNamesOf, NameSet.mem_names_ofList, List.mem_append]
  rcases List.mem_append.mp isVariable with isParam | assigned
  · exact .inl isParam
  · rcases Block.mem_assigned_iff.mp assigned with ⟨stmt, standing, isTarget⟩
    exact .inr (List.mem_flatMap.mpr ⟨stmt, standing, stmt.targetNames_subset isTarget⟩)

/-! ## Names that a visit binds -/

namespace Environment

section Bound

variable {env after : Environment} {scope name : String} {place : Option String}
  {assigned declared : List String}

private theorem isBoundIn_iff_binds :
    env.isBoundIn scope name = true ↔ env.Binds scope name fun _ => True := by
  rw [isBoundIn, Table.contains, Option.isSome_iff_exists]
  simp [Binds, bindings]

private theorem isBoundIn_updateAt {owner : Owner} {key : String} {update : Option Ty → Ty}
    (bound : (env.updateAt owner key update).isBoundIn scope name = true) :
    env.isBoundIn scope name = true ∨ owner = .scope scope ∧ key = name := by
  rw [isBoundIn_iff_binds, Binds] at bound ⊢
  rw [get?_bindings_updateAt] at bound
  split at bound
  · rename_i reached
    exact .inr ⟨reached.1.symm, reached.2.symm⟩
  · exact .inl bound

/-- A write binds a name in a scope only from inside that scope, if it assigns the name, and
if the scope does not declare the name to live outside. -/
theorem Write.isBoundIn (write : env.Write place assigned declared after)
    (bound : after.isBoundIn scope name = true) :
    env.isBoundIn scope name = true ∨
      place = some scope ∧ name ∈ assigned ∧ env.declaresOuter scope name = false := by
  cases write with
  | bind update current isAssigned =>
      rcases isBoundIn_updateAt bound with before | ⟨reached, same⟩
      · exact .inl before
      · subst same
        -- A declared name is written where it is bound before, so the write binds nothing new.
        rcases current_or_contains_of_writeOwner reached with here | contained
        · cases declares : env.declaresOuter scope _ with
          | false => exact .inr ⟨current ▸ here, isAssigned, rfl⟩
          | true =>
              rw [writeOwner_of_declared here declares] at reached
              exact .inl (isBoundIn_of_outerOwner reached)
        · exact .inl contained
  | refine current found isPlain =>
      rcases isBoundIn_updateAt bound with before | ⟨reached, same⟩
      · exact .inl before
      · subst same reached
        exact .inl (contains_bindings_of_readOwner? found)
  | changeClass | addImport => exact .inl bound
  | declare =>
      unfold declareOuter at bound
      split at bound <;> exact .inl bound

variable {visited : String → FunctionDef → Prop}

private theorem Step.isBoundIn (step : env.Step visited after)
    (bound : after.isBoundIn scope name = true) :
    env.isBoundIn scope name = true ∨
      ∃ definition, visited scope definition ∧ name ∈ definition.variables := by
  cases step with
  | outside write =>
      rcases write.isBoundIn bound with before | ⟨here, _⟩
      · exact .inl before
      · cases here
  | inside isVisited write =>
      rcases write.isBoundIn bound with before | ⟨here, isVariable, _⟩
      · exact .inl before
      · cases here
        exact .inr ⟨_, isVisited, isVariable⟩
  | setParams | setReturn | setMethod | move => exact .inl bound

/-- Visits bind only the variables of the functions that they visit. -/
theorem Steps.isBoundIn (steps : env.Steps visited after)
    (bound : after.isBoundIn scope name = true) :
    env.isBoundIn scope name = true ∨
      ∃ definition, visited scope definition ∧ name ∈ definition.variables := by
  induction steps with
  | refl => exact .inl bound
  | tail _ step induction =>
      rcases step.isBoundIn bound with before | isVariable
      · exact induction before
      · exact .inr isVariable

end Bound

structure IsFresh (env : Environment) (scope : String) : Prop where
  unbound : ∀ name, env.isBoundIn scope name = false
  undeclared : ∀ name, env.declaresOuter scope name = false

end Environment

/-! ## Names of a function's own scope -/

section Functions

variable {env : Environment} {qualified name : String} (setting : Setting)

private theorem FunctionDef.mem_sites_under (definition : FunctionDef)
    {enclosing : List (String × FunctionDef)} {site : Site}
    (member : site ∈ definition.sites qualified enclosing) :
    site = ⟨qualified, definition, enclosing⟩ ∨ Dotted.isUnder qualified site.name = true := by
  induction definition using FunctionDef.nested_induction generalizing qualified enclosing with
  | step definition induction =>
  rw [FunctionDef.sites_eq] at member
  rcases List.mem_cons.mp member with same | inside
  · exact .inl same
  · right
    rcases List.mem_flatMap.mp inside with ⟨inner, isNested, innerMember⟩
    rcases induction inner isNested innerMember with same | under
    · rw [same]
      exact Dotted.isUnder_iff.mpr ⟨inner.name, rfl⟩
    · rcases Dotted.isUnder_iff.mp under with ⟨rest, continued⟩
      rw [continued, Dotted.join_assoc]
      exact Dotted.isUnder_iff.mpr ⟨_, rfl⟩

private theorem FunctionDef.definition_of_mem_sites (definition : FunctionDef)
    {enclosing : List (String × FunctionDef)} {site : Site}
    (member : site ∈ definition.sites qualified enclosing) (named : site.name = qualified) :
    site.definition = definition := by
  rcases definition.mem_sites_under member with same | under
  · rw [same]
  · rw [named, Dotted.not_isUnder_self] at under
    cases under

private theorem FunctionDef.mem_variables_of_isBoundIn (definition : FunctionDef)
    (className : Option String) (fresh : env.IsFresh qualified)
    (bound : (definition.visit setting qualified className env).isBoundIn qualified name = true) :
    name ∈ definition.variables := by
  -- No function nested in this one has its name, so only its own variables count.
  have steps : env.Steps (fun scope visited => scope = qualified → visited = definition)
      (definition.visit setting qualified className env) :=
    definition.visit_steps setting className
      (fun site (member : site ∈ definition.sites qualified []) named =>
        definition.definition_of_mem_sites member named) env
  rcases steps.isBoundIn bound with before | ⟨other, isSame, isVariable⟩
  · rw [fresh.unbound] at before
    cases before
  · exact isSame rfl ▸ isVariable

/-- The first sweep binds the parameters, and what the body assigns and does not declare. -/
theorem FunctionDef.firstSweep_binds (definition : FunctionDef) (className : Option String)
    (here : env.IsLocal qualified name)
    (isLocal : name ∈ definition.params.map Param.name ∨
      name ∈ Block.assigned definition.body ∧ name ∉ Block.declared definition.body) :
    (definition.firstSweep setting qualified className env).Binds qualified name
      fun _ => True := by
  rcases definition.exists_firstSweep setting className here with ⟨start, there, bound, swept⟩
  rw [swept]
  rcases isLocal with isParam | ⟨assigned, undeclared⟩
  · have writes := Block.visit_writes setting there.current definition.body
      (List.Subset.refl _) (List.Subset.refl _)
    exact writes.binds (fun _ _ => trivial) (bound isParam)
  · rw [Block.visit_eq_foldl]
    exact Effect.foldl_binds setting undeclared there (.inr assigned)

private theorem FunctionDef.visit_keeps_bound (definition : FunctionDef) (className : Option String)
    (bound : (definition.firstSweep setting qualified className
      (env.enterScope qualified)).Binds qualified name fun _ => True) :
    (definition.visit setting qualified className env).Binds qualified name fun _ => True := by
  have current : (definition.firstSweep setting qualified className
      (env.enterScope qualified)).currentScope? = some qualified := by
    rw [Environment.currentScope?, definition.scopeStack_firstSweep]
    rfl
  have later : Environment.Steps (fun _ _ => True) _ _ :=
    definition.secondSweep_steps setting trivial current
      (definition.visitNested_steps setting
        fun site (_ : site ∈ definition.sites qualified []) => trivial)
  rw [FunctionDef.visit_eq, Environment.inScope]
  have recorded : Environment.Steps (fun _ _ => True) _
      (setting.recordReturn definition qualified className _) :=
    later.trans (setting.recordReturn_steps className trivial)
  exact recorded.keep Environment.Step.binds bound

/-- After the visit of a function whose scope is fresh, the scope binds only local names of
the function. It binds all of its parameters, and all names that are targets in its body and
that the body does not declare to live outside. -/
theorem FunctionDef.visit_binds_locals (definition : FunctionDef) (qualified : String)
    (className : Option String) (env : Environment) (fresh : env.IsFresh qualified) :
    (∀ name, (definition.visit setting qualified className env).isBoundIn qualified name = true →
      name ∈ definition.localNames.names) ∧
    (∀ param ∈ definition.params,
      (definition.visit setting qualified className env).isBoundIn qualified param.name = true) ∧
    ∀ stmt ∈ Block.statements definition.body, ∀ name ∈ stmt.targetNames,
      (∀ other ∈ Block.statements definition.body, name ∉ other.outerNames) →
      (definition.visit setting qualified className env).isBoundIn qualified name = true := by
  have entered (name : String) : (env.enterScope qualified).IsLocal qualified name :=
    ⟨rfl, fresh.undeclared name⟩
  refine ⟨fun name bound => ?_, fun param listed => ?_,
    fun stmt standing name isTarget undeclared => ?_⟩
  · exact FunctionDef.mem_localNames_of_variable
      (definition.mem_variables_of_isBoundIn setting className fresh bound)
  · have isParam : param.name ∈ definition.params.map Param.name := List.mem_map_of_mem listed
    exact Environment.isBoundIn_iff_binds.mpr (definition.visit_keeps_bound setting className
      (definition.firstSweep_binds setting className (entered param.name) (.inl isParam)))
  · have assigned := Block.mem_assigned_iff.mpr ⟨stmt, standing, isTarget⟩
    have isOwn : name ∉ Block.declared definition.body := by
      rw [Block.mem_declared_iff]
      rintro ⟨other, inBody, isOuter⟩
      exact undeclared other inBody isOuter
    exact Environment.isBoundIn_iff_binds.mpr (definition.visit_keeps_bound setting className
      (definition.firstSweep_binds setting className (entered name) (.inr ⟨assigned, isOwn⟩)))

end Functions

/-! A function with targets of all kinds, that assigns one variable of the program and whose
inner function writes one of its own. -/

def FunctionDef.unpacking : FunctionDef where
  name := "unpack"
  params := [⟨"pairs", none, none⟩]
  returnHint := none
  decorators := []
  isAsync := false
  body := [
    .globals ["total"],
    .assign [.tuple [.place (.name "head"), .starred (.place (.name "rest"))]] (.name "pairs"),
    .forLoop (.place (.name "item")) (.name "rest") [
      .tryExcept [.augAssign (.place (.name "total")) .add (.name "item")]
        [⟨some "ValueError", some "problem", [.pass]⟩] [] []] [],
    .withBlock [⟨.call "open" [.name "head"] [], some (.place (.name "file"))⟩] [
      .annAssign (.place (.name "line")) "str" none],
    .functionDef {
      name := "inner", params := [], returnHint := none, decorators := [], isAsync := false
      body := [
        .nonlocals ["item"],
        .assign [.place (.name "item")] (.literal (.int 1)),
        .assign [.place (.name "hidden")] (.name "item")] }]

def Environment.unpacked : Environment :=
  FunctionDef.unpacking.visit { config := {} } "unpack" none {}

theorem FunctionDef.visit_binds_locals_unpacking :
    ((({} : Environment).IsFresh "unpack") ∧
      Environment.unpacked.isBoundIn "unpack" "total" = false ∧
      Environment.unpacked.isBoundIn "unpack" "hidden" = false) ∧
    (∀ name, Environment.unpacked.isBoundIn "unpack" name = true →
      name ∈ unpacking.localNames.names) ∧
    ∀ name ∈ ["pairs", "head", "rest", "item", "problem", "file", "line"],
      Environment.unpacked.isBoundIn "unpack" name = true := by
  have fresh : ({} : Environment).IsFresh "unpack" := ⟨fun _ => rfl, fun _ => rfl⟩
  have targets : ∀ name ∈ ["head", "rest", "item", "problem", "file", "line"],
      ∃ stmt ∈ Block.statements unpacking.body, name ∈ stmt.targetNames ∧
        ∀ other ∈ Block.statements unpacking.body, name ∉ other.outerNames := by decide
  have total : Environment.unpacked.isBoundIn "unpack" "total" = false := by decide +kernel
  have hidden : Environment.unpacked.isBoundIn "unpack" "hidden" = false := by decide +kernel
  rcases unpacking.visit_binds_locals { config := {} } "unpack" none {} fresh with
    ⟨onlyLocals, params, assigned⟩
  refine ⟨⟨fresh, total, hidden⟩, onlyLocals, ?_⟩
  rw [List.forall_mem_cons]
  refine ⟨params _ List.mem_cons_self, ?_⟩
  intro name listed
  rcases targets name listed with ⟨stmt, standing, isTarget, undeclared⟩
  exact assigned stmt standing name isTarget undeclared

end NativeTyping

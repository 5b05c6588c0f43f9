import NativeTyping.Proofs.LocalVariable
import NativeTyping.Proofs.MergeOrder
import NativeTyping.Proofs.Promotion
import NativeTyping.Proofs.Registration
import NativeTyping.Proofs.Settling
/-!
Functions that return one of their variables.

The result of a function is recorded at the end of its visit, from what its last sweep
has left the variable bound to. Arrays are promoted after all visits, and results are not
among what is promoted. So the result of a function is a list in place of a fixed array only
if a statement of the function has made the variable one.
-/

namespace NativeTyping

/-! ## Results -/

/-- A function without a hint for its result, all of whose return statements give one of
its own variables. -/
structure FunctionDef.ReturnsVariable (definition : FunctionDef) (name : String) : Prop where
  unhinted : definition.returnHint = none
  isVariable : name ∈ definition.variables
  isOwn : name ∉ Block.declared definition.body
  returned : ∀ value, .ret value ∈ Block.statements definition.body → value = some (.name name)

section Results

variable {env : Environment} {scope name : String} {type : Ty} (setting : Setting)

private theorem Setting.eq_of_mem_returnTypes {body : Block}
    (returned : ∀ value, .ret value ∈ Block.statements body → value = some (.name name))
    {other : Ty} (member : other ∈ setting.returnTypes env body) :
    other = setting.infer env (.name name) := by
  rcases List.mem_filterMap.mp member with ⟨stmt, standing, gives⟩
  split at gives
  · rename_i value
    cases returned _ standing
    exact (Option.some.inj gives).symm
  · cases returned _ standing
  · cases gives

private theorem Setting.bodyResult_of_returns {body : Block}
    (returned : ∀ value, .ret value ∈ Block.statements body → value = some (.name name))
    {value : Option Expr} (standing : .ret value ∈ Block.statements body) :
    setting.bodyResult env body = (setting.infer env (.name name)).owned := by
  have nonempty : setting.returnTypes env body ≠ [] := by
    cases returned _ standing
    exact List.ne_nil_of_mem (List.mem_filterMap.mpr ⟨_, standing, rfl⟩)
  rw [Setting.bodyResult]
  split
  · exact absurd ‹_› nonempty
  · rw [Ty.widenAll_of_forall_eq nonempty
      fun _ member => setting.eq_of_mem_returnTypes returned member]

private theorem Setting.bodyResult_of_no_return {body : Block}
    (silent : ∀ value, .ret value ∉ Block.statements body) :
    setting.bodyResult env body = .none := by
  have empty : setting.returnTypes env body = [] := by
    rw [Setting.returnTypes, List.filterMap_eq_nil_iff]
    intro stmt standing
    split
    · exact absurd standing (silent _)
    · exact absurd standing (silent _)
    · rfl
  rw [Setting.bodyResult, empty]

/-- The result of a function is read after a sweep over its body that starts likewise, also
if nested functions were visited before. -/
theorem FunctionDef.exists_lastSweep {visited : String → FunctionDef → Prop}
    (definition : FunctionDef) {enclosing : List (String × FunctionDef)}
    (className : Option String)
    (visits : ∀ site ∈ definition.sites scope enclosing, visited site.name site.definition)
    (outer : ∀ definition, visited scope definition → name ∉ Block.declared definition.body)
    (here : env.IsLocal scope name) :
    ∃ start : Environment, start.IsLocal scope name ∧
      (name ∈ definition.params.map Param.name → start.Binds scope name fun _ => True) ∧
      definition.secondSweep setting scope (definition.firstSweep setting scope className env) =
        Block.visit setting definition.body start := by
  rcases definition.exists_firstSweep setting className here with ⟨start, there, bound, swept⟩
  rw [FunctionDef.secondSweep]
  split
  · exact ⟨start, there, bound, swept⟩
  have own : visited scope definition := by
    rw [FunctionDef.sites_eq, List.forall_mem_cons] at visits
    exact visits.1
  have steps : start.Steps visited (definition.visitNested setting scope
      (definition.firstSweep setting scope className env)) := by
    rw [swept]
    exact (definition.sweep_steps setting own there.current).trans
      (definition.visitNested_steps setting visits _)
  refine ⟨_, ⟨?_, ?_⟩, ?_, rfl⟩
  · exact (definition.currentScope?_secondSweep setting scope className env).trans here.current
  · exact steps.keep (fun step => step.undeclared outer) there.undeclared
  · intro listed
    exact steps.keep (fun step => step.binds) (bound listed)

end Results

/-- The result of a function is the type that its scope binds a variable to, unless the
function has no return statement. -/
structure Environment.Returned (env : Environment) (definition : FunctionDef)
    (scope name : String) (bound result : Ty) : Prop where
  binding : (env.bindings (.scope scope)).get? name = some bound
  recorded : env.returns.get? scope = some result
  plain : Block.GrowsLast definition.body name → bound.isArray = false
  agrees : ((∀ value, .ret value ∉ Block.statements definition.body) ∧ result = .none) ∨
    result = bound.owned

private theorem Setting.recordReturn_returned {setting : Setting} {env : Environment}
    {definition : FunctionDef} {scope name : String} {bound : Ty}
    (inferring : setting.config.inferReturns = true) (returns : definition.ReturnsVariable name)
    (className : Option String) (current : env.currentScope? = some scope)
    (binding : (env.bindings (.scope scope)).get? name = some bound)
    (plain : Block.GrowsLast definition.body name → bound.isArray = false) :
    ∃ result, (setting.recordReturn definition scope className env).Returned definition scope
      name bound result := by
  have agrees : ((∀ value, .ret value ∉ Block.statements definition.body) ∧
      setting.bodyResult env definition.body = .none) ∨
        setting.bodyResult env definition.body = bound.owned := by
    by_cases silent : ∀ value, .ret value ∉ Block.statements definition.body
    · exact .inl ⟨silent, setting.bodyResult_of_no_return silent⟩
    · rw [not_forall] at silent
      rcases silent with ⟨value, standing⟩
      rw [setting.bodyResult_of_returns returns.returned (not_not.mp standing),
        setting.infer_name current binding]
      exact .inr rfl
  have recorded : (env.setReturn scope (setting.bodyResult env definition.body)).Returned
      definition scope name bound (setting.bodyResult env definition.body) :=
    ⟨binding, Table.get?_insert_self _ _ _, plain, agrees⟩
  have isUnknown : (setting.config.hintType definition.returnHint).isUnknown = true := by
    rw [returns.unhinted]
    rfl
  rw [Setting.recordReturn, inferring, isUnknown]
  cases className with
  | none => exact ⟨_, recorded⟩
  | some owner => exact ⟨_, { recorded with }⟩

/-- The visit of a function records what its last sweep leaves the variable bound to. -/
theorem FunctionDef.visit_returned {visited : String → FunctionDef → Prop} {setting : Setting}
    (inferring : setting.config.inferReturns = true)
    (promoting : setting.config.promoteArrays = true) {definition : FunctionDef}
    {scope name : String} {enclosing : List (String × FunctionDef)} (className : Option String)
    (visits : ∀ site ∈ definition.sites scope enclosing, visited site.name site.definition)
    (outer : ∀ definition, visited scope definition → name ∉ Block.declared definition.body)
    (returns : definition.ReturnsVariable name) {env : Environment}
    (undeclared : env.declaresOuter scope name = false) :
    ∃ bound result, (definition.visit setting scope className env).Returned definition scope name
      bound result := by
  have here : (env.enterScope scope).IsLocal scope name := ⟨rfl, undeclared⟩
  rcases definition.exists_lastSweep setting className visits outer here with
    ⟨start, there, params, swept⟩
  have isBound : (start.Binds scope name fun _ => True) ∨ name ∈ Block.assigned definition.body :=
    (List.mem_append.mp returns.isVariable).imp_left params
  rcases Block.visit_binds setting promoting returns.isOwn there isBound with
    ⟨bound, binding, plain⟩
  have current := (there.writes returns.isOwn (Block.visit_writes setting there.current
    definition.body (List.Subset.refl _) (List.Subset.refl _))).current
  rcases Setting.recordReturn_returned inferring returns className current binding plain with
    ⟨result, recorded⟩
  rw [FunctionDef.visit_eq, Environment.inScope, swept]
  exact ⟨bound, result, { recorded with }⟩

/-! ## Whole programs -/

private theorem Ty.isArray_owned (type : Ty) : type.owned.isArray = type.isArray := by
  cases type <;> rfl

private theorem Environment.Returned.isArray_result {env : Environment} {definition : FunctionDef}
    {scope name : String} {bound result : Ty}
    (returned : env.Returned definition scope name bound result)
    (grows : Block.GrowsLast definition.body name) : result.isArray = false := by
  rcases returned.agrees with ⟨_, rfl⟩ | rfl
  · rfl
  · rw [Ty.isArray_owned]
    exact returned.plain grows

/-- The functions of a program whose names are within that of a site are the ones nested
in it. A method of a class that has the name of a function would be another one. -/
def Program.Encloses (program : Program) (site : Site) : Prop :=
  ∀ other ∈ program.sites, Dotted.isWithin site.name other.name = true → other ∈ site.subtree

private def Site.IsOnly (site : Site) (visited : String) (definition : FunctionDef) : Prop :=
  visited = site.name → definition = site.definition

private theorem Program.isOnly {program : Program} {site : Site}
    (distinct : (program.sites.map Site.name).Nodup) (member : site ∈ program.sites) :
    ∀ other ∈ program.sites, site.IsOnly other.name other.definition := by
  intro other isOther same
  rw [Program.eq_of_name_eq distinct member isOther same]

private theorem Program.isOnly_subtree {program : Program} {site : Site}
    (distinct : (program.sites.map Site.name).Nodup) (member : site ∈ program.sites) :
    ∀ other ∈ site.subtree, site.IsOnly other.name other.definition :=
  fun other inside => isOnly distinct member other (subtree_subset member inside)

private theorem FunctionDef.ReturnsVariable.settles {config : Config} {site : Site} {name : String}
    (returns : site.definition.ReturnsVariable name) (inferring : config.inferReturns = true)
    (promoting : config.promoteArrays = true)
    (nested : ∀ other ∈ site.subtree, site.IsOnly other.name other.definition)
    {away : String → FunctionDef → Prop} {Settled : Environment → Prop}
    (kept : ∀ {env after : Environment}, env.Step away after → Settled env → Settled after)
    (reached : ∀ {env : Environment} {bound result : Ty},
      env.Returned site.definition site.name name bound result → Settled env) :
    Settles config site site.IsOnly away (fun env => env.declaresOuter site.name name = false)
      Settled := by
  have outer : ∀ definition, site.IsOnly site.name definition →
      name ∉ Block.declared definition.body := by
    intro definition isOnly
    rw [isOnly rfl]
    exact returns.isOwn
  refine ⟨fun step => step.undeclared outer, kept, ?_⟩
  intro setting configured className env undeclared
  rw [← configured] at inferring promoting
  rcases FunctionDef.visit_returned inferring promoting className nested outer returns
    undeclared with ⟨bound, result, returned⟩
  exact reached returned

namespace Program

variable {config : Config} {program : Program} {site : Site} {name : String}

private theorem beforePromotion_settled (distinct : (program.sites.map Site.name).Nodup)
    (member : site ∈ program.sites) {away : String → FunctionDef → Prop}
    {Settled : Environment → Prop}
    (others : ∀ other ∈ program.sites, other ∈ site.subtree ∨ away other.name other.definition)
    (settles : Settles config site site.IsOnly away
      (fun env => env.declaresOuter site.name name = false) Settled) :
    Settled (program.beforePromotion config) := by
  have fresh := before_visits config program
  have undeclared : (program.withConstructors config (program.withSignatures config
      (program.withCaptures {}))).declaresOuter site.name name = false := by
    rw [Environment.declaresOuter, fresh.2.2]
    rfl
  have ready := (program.withReturns_steps config (isOnly distinct member) _).keep settles.ready
    undeclared
  exact settles.withVisit ⟨member, distinct, isOnly distinct member, others⟩
    ((program.scopeStack_withReturns config _).trans fresh.1) ready

private theorem beforePromotion_isArray (inferring : config.inferReturns = true)
    (promoting : config.promoteArrays = true) (distinct : (program.sites.map Site.name).Nodup)
    (member : site ∈ program.sites) (returns : site.definition.ReturnsVariable name) :
    ∃ result, (program.beforePromotion config).returns.get? site.name = some result ∧
      (Block.GrowsLast site.definition.body name → result.isArray = false) := by
  have settles : Settles config site site.IsOnly (fun visited _ => visited ≠ site.name)
      (fun env => env.declaresOuter site.name name = false)
      (fun env => ∃ result, env.returns.get? site.name = some result ∧
        (Block.GrowsLast site.definition.body name → result.isArray = false)) := by
    refine returns.settles inferring promoting (isOnly_subtree distinct member) ?_ ?_
    · intro env after step known
      rw [step.get?_returns fun _ other => other rfl]
      exact known
    · intro env bound result returned
      exact ⟨result, returned.recorded, returned.isArray_result⟩
  refine beforePromotion_settled distinct member ?_ settles
  intro other isOther
  by_cases same : other.name = site.name
  · rw [eq_of_name_eq distinct member isOther same]
    exact .inl site.mem_subtree
  · exact .inr same

private theorem beforePromotion_returned (inferring : config.inferReturns = true)
    (promoting : config.promoteArrays = true) (distinct : (program.sites.map Site.name).Nodup)
    (member : site ∈ program.sites) (encloses : program.Encloses site)
    (returns : site.definition.ReturnsVariable name) :
    ∃ bound result,
      (program.beforePromotion config).Returned site.definition site.name name bound result := by
  have settles : Settles config site site.IsOnly
      (fun visited _ => Dotted.isWithin site.name visited = false)
      (fun env => env.declaresOuter site.name name = false)
      (fun env => ∃ bound result, env.Returned site.definition site.name name bound result) := by
    refine returns.settles inferring promoting (isOnly_subtree distinct member) ?_ ?_
    · rintro env after step ⟨bound, result, returned⟩
      refine ⟨bound, result, ?_, ?_, returned.plain, returned.agrees⟩
      · rw [step.get?_bindings fun _ _ apart => apart]
        exact returned.binding
      · rw [step.get?_returns]
        · exact returned.recorded
        · intro definition apart
          rw [Dotted.isWithin_self] at apart
          cases apart
    · intro env bound result returned
      exact ⟨bound, result, returned⟩
  refine beforePromotion_settled distinct member ?_ settles
  -- Only a function inside this one can write to its scope.
  intro other isOther
  cases within : Dotted.isWithin site.name other.name with
  | true => exact .inl (encloses other isOther within)
  | false => exact .inr rfl

/-- The result of a function is what its scope binds the variable to when all visits are
over. That is no fixed array if a statement of the function grows the variable last, and
then promotion leaves the binding as it is. Other bindings are promoted, but not results. -/
theorem returns_agree (config : Config) (program : Program)
    (inferring : config.inferReturns = true) (promoting : config.promoteArrays = true)
    (distinct : (program.sites.map Site.name).Nodup) (member : site ∈ program.sites)
    (returns : site.definition.ReturnsVariable name) :
    ∃ result, (program.analyze config).returns.get? site.name = some result ∧
      (Block.GrowsLast site.definition.body name → result.isArray = false) ∧
      (program.Encloses site → (∃ value, .ret value ∈ Block.statements site.definition.body) →
        ∃ bound,
          ((program.beforePromotion config).bindings (.scope site.name)).get? name = some bound ∧
          result = bound.owned ∧
          (Block.GrowsLast site.definition.body name →
            ((program.analyze config).bindings (.scope site.name)).get? name = some bound)) := by
  have promoted := program.analyze_promoted config promoting
  rcases beforePromotion_isArray inferring promoting distinct member returns with
    ⟨result, recorded, plain⟩
  refine ⟨result, ?_, plain, ?_⟩
  · rw [promoted.others]
    exact recorded
  · rintro encloses ⟨value, standing⟩
    rcases beforePromotion_returned inferring promoting distinct member encloses returns with
      ⟨bound, again, returned⟩
    cases recorded.symm.trans returned.recorded
    refine ⟨bound, returned.binding, ?_, ?_⟩
    · exact returned.agrees.resolve_left fun silent => silent.1 value standing
    · intro grows
      exact promoted.get?_bindings_of_plain returned.binding (returned.plain grows)

end Program

/-! A function that grows its variable in a loop. -/

def FunctionDef.appending : FunctionDef where
  name := "build"
  params := [⟨"count", none, none⟩]
  returnHint := none
  body := [
    .assign [.place (.name "xs")]
      (.list [.literal (.int 1), .literal (.int 2), .literal (.int 3)]),
    .whileLoop (.name "count")
      [.expr (.methodCall (.name "xs") "append" [.literal (.int 4)] []),
        .augAssign (.place (.name "count")) .sub (.literal (.int 1))] [],
    .ret (some (.name "xs"))]
  decorators := []
  isAsync := false

def Program.appending : Program where
  body := [.functionDef .appending]

theorem Program.returns_agree_appending :
    ((appending.sites.map Site.name).Nodup ∧ ⟨"build", .appending, []⟩ ∈ appending.sites ∧
      FunctionDef.appending.ReturnsVariable "xs" ∧
      Block.GrowsLast FunctionDef.appending.body "xs" ∧
      appending.Encloses ⟨"build", .appending, []⟩) ∧
    ∃ result, (appending.analyze {}).returns.get? "build" = some result ∧
      result.isArray = false ∧
      ∃ bound, ((appending.analyze {}).bindings (.scope "build")).get? "xs" = some bound ∧
        result = bound.owned := by
  have distinct : (appending.sites.map Site.name).Nodup := by decide
  have member : ⟨"build", .appending, []⟩ ∈ appending.sites := List.mem_singleton_self _
  have returns : FunctionDef.appending.ReturnsVariable "xs" := {
    unhinted := rfl
    isVariable := by decide
    isOwn := by decide
    returned := by
      intro value standing
      simpa [FunctionDef.appending, Block.statements, Stmt.statements] using standing }
  have grows : Block.GrowsLast FunctionDef.appending.body "xs" :=
    ⟨(Block.effects FunctionDef.appending.body).take 2,
      (Block.effects FunctionDef.appending.body).drop 3, "append", [.literal (.int 4)], [],
      rfl, by decide, by decide⟩
  have encloses : appending.Encloses ⟨"build", .appending, []⟩ := by
    intro other isOther _
    rw [List.mem_singleton.mp isOther]
    exact Site.mem_subtree _
  have standing : .ret (some (.name "xs")) ∈ Block.statements FunctionDef.appending.body := by
    simp [FunctionDef.appending, Block.statements, Stmt.statements]
  rcases appending.returns_agree {} rfl rfl distinct member returns with
    ⟨result, recorded, plain, agrees⟩
  rcases agrees encloses ⟨_, standing⟩ with ⟨bound, _, same, kept⟩
  exact ⟨⟨distinct, member, returns, grows, encloses⟩, result, recorded, plain grows, bound,
    kept grows, same⟩

/-! A function that shrinks its variable inside an assignment. -/

def FunctionDef.popping : FunctionDef where
  name := "build"
  params := []
  returnHint := none
  body := [
    .assign [.place (.name "xs")]
      (.list [.literal (.int 1), .literal (.int 2), .literal (.int 3)]),
    .assign [.place (.name "last")] (.methodCall (.name "xs") "pop" [] []),
    .ret (some (.name "xs"))]
  decorators := []
  isAsync := false

def Program.popping : Program where
  body := [.functionDef .popping]

/-- A call inside another expression makes the variable a list when all visits are over,
and so the result of the function stays a fixed array. -/
theorem Program.popping_returns_array :
    ¬ ∀ site ∈ popping.sites, ∀ name result, site.definition.ReturnsVariable name →
      popping.CallsListMethod (.name name) →
      (popping.analyze {}).returns.get? site.name = some result → result.isArray = false := by
  intro reaches
  have returns : FunctionDef.popping.ReturnsVariable "xs" := {
    unhinted := rfl
    isVariable := by decide
    isOwn := by decide
    returned := by
      intro value standing
      simpa [FunctionDef.popping, Block.statements, Stmt.statements] using standing }
  have called : popping.CallsListMethod (.name "xs") := by
    refine ⟨"pop", by decide, [], [], ?_⟩
    rw [Program.contains_iff]
    simp [popping, FunctionDef.popping, Block.everyStatement, Stmt.everyStatement,
      Stmt.expressions, Target.expressions, Target.places, Place.expressions,
      Expr.subexpressions, Expr.fold, Expr.foldEach, Expr.foldKeywords]
  have isArray := reaches ⟨"build", .popping, []⟩ (List.mem_singleton_self _) "xs"
    (.array .int 3) returns called (by decide)
  cases isArray

end NativeTyping

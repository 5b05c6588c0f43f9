import NativeTyping.Proofs.BoundNames
import NativeTyping.Proofs.Moments
import NativeTyping.Proofs.Registration
import NativeTyping.Proofs.Settling
/-!
Names that a function declares to live outside of it.

From the declaration on, a function that declares a name before it assigns it never binds
the name in its own scope. Writes and reads go to the innermost scope around it that binds
the name, and to the globals only if there is no such scope. A global declaration makes no
difference here: a variable of an enclosing function hides the global one. If the functions
around do not bind the name, a declared name means the global variable.
-/

namespace NativeTyping

/-! ## Declared names -/

section Declared

variable {env after : Environment} {scope name : String} {place : Option String}
  {assigned declared : List String}

private theorem Environment.Write.declaresOuter (write : env.Write place assigned declared after)
    (isDeclared : env.declaresOuter scope name = true) :
    after.declaresOuter scope name = true := by
  cases write with
  | bind | refine =>
      rw [Environment.declaresOuter, Environment.declaredOuter_updateAt]
      exact isDeclared
  | changeClass | addImport => exact isDeclared
  | declare => exact env.declaresOuter_declareOuter _ isDeclared

private theorem Environment.foldl_declareOuter {names : List String} (listed : name ∈ names)
    (current : env.currentScope? = some scope) :
    (names.foldl Environment.declareOuter env).declaresOuter scope name = true := by
  rcases List.append_of_mem listed with ⟨before, later, rfl⟩
  have there : (before.foldl Environment.declareOuter env).currentScope? = some scope := by
    refine List.foldlRecOn
      (motive := fun env : Environment => env.currentScope? = some scope) _ _ current ?_
    intro env current listed _
    rw [Environment.currentScope?, env.scopeStack_declareOuter]
    exact current
  rw [List.foldl_append, List.foldl_cons]
  refine List.foldlRecOn
    (motive := fun env : Environment => env.declaresOuter scope name = true) _ _ ?_ ?_
  · exact Environment.declaresOuter_declareOuter_self there
  · intro env isDeclared listed _
    exact env.declaresOuter_declareOuter listed isDeclared

private theorem Effect.apply_declares (setting : Setting) {effect : Effect}
    (listed : name ∈ effect.declared) (current : env.currentScope? = some scope) :
    (effect.apply setting env).declaresOuter scope name = true := by
  cases effect with
  | own stmt =>
      cases stmt with
      | globals names | nonlocals names =>
          exact Environment.foldl_declareOuter listed current
      | _ => cases listed
  | caught => cases listed

private theorem Effect.foldl_declares (setting : Setting) {effects : List Effect}
    (listed : name ∈ effects.flatMap Effect.declared) (current : env.currentScope? = some scope) :
    (effects.foldl (Effect.apply setting) env).declaresOuter scope name = true := by
  rcases List.mem_flatMap.mp listed with ⟨effect, member, declares⟩
  rcases List.append_of_mem member with ⟨before, later, rfl⟩
  have start := Effect.foldl_apply_writes setting current before (List.Subset.refl _)
    (List.Subset.refl _)
  have there := start.currentScope?.trans current
  have isDeclared := Effect.apply_declares setting declares there
  have applied := effect.apply_writes setting there (List.Subset.refl _) (List.Subset.refl _)
  have rest := Effect.foldl_apply_writes setting (applied.currentScope?.trans there) later
    (List.Subset.refl _) (List.Subset.refl _)
  rw [List.foldl_append, List.foldl_cons]
  exact rest.keep Environment.Write.declaresOuter isDeclared

/-- From the present position, a name means the binding of an owner: an assignment widens
that binding and changes nothing else, and a read finds it. -/
structure Environment.Means (env : Environment) (name : String) (owner : Owner) : Prop where
  assign : ∀ (setting : Setting) (type : Ty),
    setting.assignPlace env (.name name) type = env.updateAt owner name type.mergeInto
  read : env.lookup? name = (env.bindings owner).get? name

/-- A declared name that its scope does not bind means the binding outside. -/
theorem Environment.means_outerOwner (current : env.currentScope? = some scope)
    (isDeclared : env.declaresOuter scope name = true)
    (unbound : env.isBoundIn scope name = false) :
    env.Means name (env.outerOwner scope name) where
  assign setting type := by
    rw [Setting.assignPlace, Environment.widenVar,
      Environment.writeOwner_of_declared current isDeclared]
  read := by
    simp only [Environment.lookup?, Environment.readOwner?, current, unbound, isDeclared,
      Environment.outerOwner, Bool.false_eq_true, if_false, Bool.or_true, if_true]
    split
    · rfl
    · rw [Environment.globalOwner?]
      split
      · rfl
      · rename_i absent
        rw [Table.contains, Bool.not_eq_true, Option.isSome_eq_false_iff,
          Option.isNone_iff_eq_none] at absent
        exact absent.symm

end Declared

/-! ## Names that functions do not bind -/

def Block.DeclaresFirst (body : Block) (name : String) : Prop :=
  ∀ earlier effect, earlier ++ [effect] <+: Block.effects body → name ∈ effect.assigned →
    name ∈ earlier.flatMap Effect.declared

private theorem Block.declaresFirst_of_split {body : Block} {name : String} {stmt : Stmt}
    {before after : List Effect} (split : Block.effects body = before ++ .own stmt :: after)
    (declares : name ∈ stmt.outerNames) (unassigned : ∀ effect ∈ before, name ∉ effect.assigned) :
    Block.DeclaresFirst body name := by
  have notAssigned : name ∉ (Effect.own stmt).assigned := by
    cases stmt with
    | globals | nonlocals => exact List.not_mem_nil
    | _ => cases declares
  intro earlier effect isPrefix isAssigned
  rcases isPrefix with ⟨rest, whole⟩
  rw [split, List.append_assoc] at whole
  -- The assignment stands before the declaration, is the declaration, or stands after it.
  rcases List.append_eq_append_iff.mp whole with
    ⟨middle, beforeSplit, restSplit⟩ | ⟨middle, earlierSplit, afterSplit⟩
  · cases middle with
    | nil =>
        cases restSplit
        exact absurd isAssigned notAssigned
    | cons first middle =>
        cases restSplit
        refine absurd isAssigned (unassigned effect ?_)
        rw [beforeSplit]
        exact List.mem_append_right _ List.mem_cons_self
  · cases middle with
    | nil =>
        cases afterSplit
        exact absurd isAssigned notAssigned
    | cons first middle =>
        cases afterSplit
        rw [earlierSplit, List.flatMap_append]
        exact List.mem_append_right _ (List.mem_append_left _ declares)

structure FunctionDef.Avoids (definition : FunctionDef) (name : String) : Prop where
  param : name ∉ definition.params.map Param.name
  declaresFirst : Block.DeclaresFirst definition.body name

private theorem FunctionDef.avoids_of_first {definition : FunctionDef} {name : String}
    {names : List String} {rest : List Effect}
    (starts : Block.effects definition.body = .own (.globals names) :: rest)
    (listed : name ∈ names) (param : name ∉ definition.params.map Param.name) :
    definition.Avoids name where
  param := param
  declaresFirst := by
    have split : Block.effects definition.body = [] ++ .own (.globals names) :: rest := starts
    exact Block.declaresFirst_of_split split listed (List.forall_mem_nil _)

def Environment.Unbound (env : Environment) (scopes : List String) (name : String) : Prop :=
  ∀ scope ∈ scopes, env.isBoundIn scope name = false

section Unbound

variable {env after : Environment} {scopes : List String} {name qualified : String}
  {place : Option String} {assigned declared : List String} (setting : Setting)

private theorem Environment.Write.unbound (write : env.Write place assigned declared after)
    (guarded : ∀ scope ∈ place, scope ∈ scopes → name ∈ assigned →
      env.declaresOuter scope name = true)
    (unbound : env.Unbound scopes name) : after.Unbound scopes name := by
  intro scope listed
  rw [Bool.eq_false_iff]
  intro bound
  rcases write.isBoundIn bound with before | ⟨here, isAssigned, undeclared⟩
  · rw [unbound scope listed] at before
    cases before
  · rw [guarded scope here listed isAssigned] at undeclared
    cases undeclared

private theorem Environment.Writes.unbound (writes : env.Writes place assigned declared after)
    (guarded : ∀ scope ∈ place, scope ∈ scopes → name ∈ assigned →
      env.declaresOuter scope name = true)
    (unbound : env.Unbound scopes name) : after.Unbound scopes name := by
  induction writes with
  | refl => exact unbound
  | tail earlier write induction =>
      refine write.unbound ?_ induction
      intro scope here listed isAssigned
      exact Environment.Writes.keep Environment.Write.declaresOuter earlier
        (guarded scope here listed isAssigned)

private theorem Environment.Unbound.of_scopes (unbound : env.Unbound scopes name)
    (same : after.scopes = env.scopes) : after.Unbound scopes name := by
  intro scope listed
  rw [Environment.isBoundIn, Environment.scopeBindings, same]
  exact unbound scope listed

private theorem Block.sweep_unbound {body : Block} {done : List Effect}
    (reached : done <+: Block.effects body) (current : env.currentScope? = some qualified)
    (declaresFirst : qualified ∈ scopes → Block.DeclaresFirst body name)
    (unbound : env.Unbound scopes name) :
    (done.foldl (Effect.apply setting) env).Unbound scopes name := by
  induction done using List.reverseRecOn with
  | nil => exact unbound
  | append_singleton earlier effect induction =>
      have before := induction ((List.prefix_append earlier [effect]).trans reached)
      have swept := Effect.foldl_apply_writes setting current earlier (List.Subset.refl _)
        (List.Subset.refl _)
      have applied := effect.apply_writes setting (swept.currentScope?.trans current)
        (List.Subset.refl _) (List.Subset.refl _)
      rw [List.foldl_append]
      refine applied.unbound ?_ before
      -- If the effect assigns the name, one of the earlier effects has declared it.
      intro scope here listed isAssigned
      cases here
      exact Effect.foldl_declares setting
        (declaresFirst listed earlier effect reached isAssigned) current

namespace FunctionDef

variable {definition : FunctionDef} (className : Option String)

private theorem withParams_unbound (current : env.currentScope? = some qualified)
    (avoids : qualified ∈ scopes → definition.Avoids name)
    (unbound : env.Unbound scopes name) :
    (definition.withParams setting qualified className env).currentScope? = some qualified ∧
      (definition.withParams setting qualified className env).Unbound scopes name := by
  have bound : env.Writes (some qualified) (definition.params.map Param.name) []
      (setting.bindParams definition className env).2 :=
    setting.bindParams_writes definition className current (List.Subset.refl _)
  refine ⟨bound.currentScope?.trans current, bound.unbound ?_ unbound⟩
  intro scope here listed isParam
  cases here
  exact absurd isParam (avoids listed).param

private theorem firstSweep_unbound (current : env.currentScope? = some qualified)
    (avoids : qualified ∈ scopes → definition.Avoids name)
    (unbound : env.Unbound scopes name) :
    (definition.firstSweep setting qualified className env).Unbound scopes name := by
  have start := withParams_unbound setting className current avoids unbound
  have swept : definition.firstSweep setting qualified className env =
      Block.visit setting definition.body
        (definition.withParams setting qualified className env) := rfl
  rw [swept, Block.visit_eq_foldl]
  exact Block.sweep_unbound setting (List.prefix_refl _) start.1
    (fun listed => (avoids listed).declaresFirst) start.2

end FunctionDef

private theorem Setting.recordReturn_unbound (definition : FunctionDef) (className : Option String)
    (unbound : env.Unbound scopes name) :
    (setting.recordReturn definition qualified className env).Unbound scopes name := by
  refine unbound.of_scopes ?_
  rw [Setting.recordReturn]
  split
  · cases className <;> rfl
  · rfl

/-- The visit of a function leaves a name unbound that it and the functions nested in it
avoid. -/
theorem FunctionDef.visit_unbound (definition : FunctionDef)
    {enclosing : List (String × FunctionDef)} (className : Option String)
    (avoids : ∀ site ∈ definition.sites qualified enclosing, site.name ∈ scopes →
      site.definition.Avoids name)
    (unbound : env.Unbound scopes name) :
    (definition.visit setting qualified className env).Unbound scopes name := by
  induction definition using FunctionDef.nested_induction
    generalizing qualified enclosing className env with
  | step definition induction =>
  rw [FunctionDef.sites_eq, List.forall_mem_cons] at avoids
  have entered : (env.enterScope qualified).Unbound scopes name := unbound
  have swept := definition.firstSweep_unbound setting className rfl avoids.1 entered
  rw [FunctionDef.visit_eq, Environment.inScope]
  refine Environment.Unbound.of_scopes
    (setting.recordReturn_unbound definition className ?_) rfl
  rw [FunctionDef.secondSweep]
  split
  · exact swept
  · rw [Block.visit_eq_foldl]
    refine Block.sweep_unbound setting (List.prefix_refl _)
      (definition.currentScope?_secondSweep setting qualified className _)
      (fun listed => (avoids.1 listed).declaresFirst) ?_
    refine List.foldlRecOn
      (motive := fun env : Environment => env.Unbound scopes name) _ _ swept ?_
    intro env unbound inner isNested
    exact induction inner isNested none
      (fun site member => avoids.2 site (List.mem_flatMap.mpr ⟨inner, isNested, member⟩)) unbound

private theorem FunctionDef.visitNested_unbound (definition : FunctionDef)
    {enclosing : List (String × FunctionDef)}
    (avoids : ∀ site ∈ definition.sites qualified enclosing, site.name ∈ scopes →
      site.definition.Avoids name)
    (unbound : env.Unbound scopes name) :
    (definition.visitNested setting qualified env).Unbound scopes name := by
  rw [FunctionDef.sites_eq, List.forall_mem_cons] at avoids
  refine List.foldlRecOn
    (motive := fun env : Environment => env.Unbound scopes name) _ _ unbound ?_
  intro env unbound inner isNested
  exact inner.visit_unbound setting none
    (fun site member => avoids.2 site (List.mem_flatMap.mpr ⟨inner, isNested, member⟩)) unbound

private theorem FunctionDef.Sweeping.exists_start {definition : FunctionDef}
    {className : Option String}
    {done : List Effect} {reached : Environment} {enclosing : List (String × FunctionDef)}
    (sweeping : definition.Sweeping setting qualified className env done reached)
    (avoids : ∀ site ∈ definition.sites qualified enclosing, site.name ∈ scopes →
      site.definition.Avoids name)
    (unbound : env.Unbound scopes name) :
    ∃ start : Environment, start.currentScope? = some qualified ∧ start.Unbound scopes name ∧
      done <+: Block.effects definition.body ∧
      reached = done.foldl (Effect.apply setting) start := by
  have entered : (env.enterScope qualified).Unbound scopes name := unbound
  have ownAvoids : qualified ∈ scopes → definition.Avoids name :=
    avoids _ (definition.mem_sites qualified enclosing)
  cases sweeping with
  | first isPrefix =>
      have start := definition.withParams_unbound setting className rfl ownAvoids entered
      exact ⟨_, start.1, start.2, isPrefix, rfl⟩
  | second _ isPrefix =>
      have swept := definition.firstSweep_unbound setting className rfl ownAvoids entered
      exact ⟨_, definition.currentScope?_secondSweep setting qualified className _,
        definition.visitNested_unbound setting avoids swept, isPrefix, rfl⟩

end Unbound

/-! ## Whole runs -/

section Runs

variable {program : Program} {config : Config} {env : Environment} {scopes : List String}
  {name : String}

private theorem ClassDef.visitMethods_unbound (owner : ClassDef) {methods : List FunctionDef}
    (known : methods ⊆ owner.methods)
    (avoids : ∀ method ∈ owner.methods,
      ∀ site ∈ method.sites (Dotted.join owner.name method.name) [], site.name ∈ scopes →
        site.definition.Avoids name)
    (unbound : env.Unbound scopes name) :
    (methods.foldl
      (fun env method => method.visit { config := config, currentClass := some owner.name }
        (Dotted.join owner.name method.name) (some owner.name) env)
      (owner.body.foldl
        (Setting.visitClassAttribute { config := config, currentClass := some owner.name }
          owner.name) env)).Unbound scopes name := by
  refine List.foldlRecOn
    (motive := fun env : Environment => env.Unbound scopes name) _ _ ?_ ?_
  · refine List.foldlRecOn
      (motive := fun env : Environment => env.Unbound scopes name) _ _ unbound ?_
    intro env unbound stmt _
    exact (Setting.visitClassAttribute_writes _ _ stmt env).unbound (by simp) unbound
  · intro env unbound method member
    exact method.visit_unbound _ _ (avoids method (known member)) unbound

private theorem Stmt.visitDefinition_unbound (stmt : Stmt)
    (avoids : ∀ site ∈ stmt.sites, site.name ∈ scopes → site.definition.Avoids name)
    (unbound : env.Unbound scopes name) :
    (stmt.visitDefinition config env).Unbound scopes name := by
  cases stmt with
  | functionDef definition =>
      have inside : ∀ site ∈ definition.sites definition.name [], site.name ∈ scopes →
          site.definition.Avoids name := by
        intro site member
        exact avoids site (List.mem_flatMap.mpr ⟨_, List.mem_cons_self, member⟩)
      exact definition.visit_unbound _ none inside unbound
  | classDef owner =>
      refine owner.visitMethods_unbound owner.visitOrder_perm.subset ?_ unbound
      intro method isMethod site member
      exact avoids site (List.mem_flatMap.mpr ⟨_, List.mem_map_of_mem isMethod, member⟩)
  | _ => exact unbound

namespace Program

variable (avoids : ∀ site ∈ program.sites, site.name ∈ scopes → site.definition.Avoids name)
include avoids

private theorem foldl_visitDefinition_unbound {stmts : List Stmt} (standing : stmts ⊆ program.body)
    (unbound : env.Unbound scopes name) :
    (stmts.foldl (Stmt.visitDefinition config) env).Unbound scopes name := by
  refine List.foldlRecOn
    (motive := fun env : Environment => env.Unbound scopes name) _ _ unbound ?_
  intro env unbound stmt member
  refine stmt.visitDefinition_unbound ?_ unbound
  intro site inside
  apply avoids
  rw [Program.sites_eq]
  exact List.mem_flatMap.mpr ⟨stmt, standing member, inside⟩

private theorem StartsVisits.unbound (starts : program.StartsVisits config env) :
    env.Unbound scopes name := by
  have fresh := program.before_visits config
  have prepared : (program.withConstructors config (program.withSignatures config
      (program.withCaptures {}))).Unbound scopes name := by
    intro scope _
    rw [Environment.isBoundIn, Environment.scopeBindings, fresh.2.1]
    rfl
  cases starts with
  | returns => exact prepared
  | visit =>
      have visited : (program.withReturns config (program.withConstructors config
          (program.withSignatures config (program.withCaptures {})))).Unbound scopes name := by
        rw [Program.withReturns]
        split
        · exact foldl_visitDefinition_unbound avoids (List.Subset.refl _) prepared
        · exact prepared
      have outside : (program.withReturns config (program.withConstructors config
          (program.withSignatures config (program.withCaptures {})))).currentScope? = none := by
        rw [Environment.currentScope?, scopeStack_withReturns, fresh.1]
        rfl
      have writes := Block.visit_writes { config := config } outside
        (program.body.filter fun stmt => !stmt.isDefinition) (List.Subset.refl _)
        (List.Subset.refl _)
      exact writes.unbound (by simp) visited

private theorem Visits.unbound {setting : Setting} {definition : FunctionDef} {qualified : String}
    {className : Option String}
    (visits : program.Visits config setting definition qualified className env) :
    env.Unbound scopes name := by
  induction visits with
  | function starts order =>
      refine foldl_visitDefinition_unbound avoids ?_ (starts.unbound avoids)
      rw [order]
      exact List.subset_append_left _ _
  | @method _ before after owner earlier later definition starts order methods =>
      have isEarlier : earlier ⊆ owner.methods := by
        refine List.Subset.trans ?_ owner.visitOrder_perm.subset
        rw [methods]
        exact List.subset_append_left _ _
      have standing : .classDef owner ∈ program.body := by
        rw [order]
        exact List.mem_append_right _ List.mem_cons_self
      refine owner.visitMethods_unbound isEarlier ?_ ?_
      · intro method isMethod site member
        apply avoids
        rw [Program.sites_eq]
        exact List.mem_flatMap.mpr ⟨_, standing,
          List.mem_flatMap.mpr ⟨_, List.mem_map_of_mem isMethod, member⟩⟩
      · refine foldl_visitDefinition_unbound avoids ?_ (starts.unbound avoids)
        rw [order]
        exact List.subset_append_left _ _
  | @nested setting outer qualified className env before after inner visits order induction =>
      rcases visits.exists_site with ⟨enclosing, member⟩
      have swept := outer.firstSweep_unbound setting className rfl (avoids _ member)
        (show (env.enterScope qualified).Unbound scopes name from induction)
      refine List.foldlRecOn
        (motive := fun env : Environment => env.Unbound scopes name) _ _ swept ?_
      intro env unbound other isEarlier
      have isNested : other ∈ outer.nested := by
        rw [order]
        exact List.mem_append_left _ isEarlier
      have otherInside := Program.subtree_subset (Program.mem_sites_of_nested member isNested)
      exact other.visit_unbound setting none
        (fun site member => avoids site (otherInside member)) unbound

end Program

end Runs

private theorem FunctionDef.nonlocal_of_free {definition : FunctionDef} {name : String}
    (isFree : name ∈ definition.freeNames.names) (isLocal : name ∈ definition.localNames.names) :
    ∃ stmt ∈ Block.statements definition.body, name ∈ stmt.nonlocalNames := by
  rcases definition with ⟨own, params, returnHint, body, decorators, isAsync⟩
  rw [FunctionDef.freeNames, NameSet.mem_names_ofList, FunctionDef.freeReads, freeAmong,
    List.mem_filter] at isFree
  have isBound : (localNamesOf params body).contains name = true := by
    simpa [NameSet.contains, FunctionDef.localNames] using isLocal
  simpa [isBound] using isFree.2

namespace Program

variable {program : Program} {config : Config} {site : Site} {name : String}

/-- After a declaration the name is declared for the function, and unbound in its scope and
in all others that no function binds it in. -/
theorem Reaches.unbound {scopes : List String} {done : List Effect} {now : Environment}
    (reaches : program.Reaches config site done now)
    (avoids : ∀ other ∈ program.sites, other.name ∈ scopes → other.definition.Avoids name)
    (listed : name ∈ done.flatMap Effect.declared) :
    now.currentScope? = some site.name ∧ now.declaresOuter site.name name = true ∧
      now.Unbound scopes name := by
  cases reaches with
  | @intro setting className env reached visits sweeping writes =>
  rcases visits.exists_site with ⟨enclosing, member⟩
  have inside := subtree_subset member
  rcases sweeping.exists_start setting (fun other nested => avoids other (inside nested))
      (visits.unbound avoids) with ⟨start, current, unbound, isPrefix, rfl⟩
  have swept := Effect.foldl_apply_writes setting current done (List.Subset.refl _)
    (List.Subset.refl _)
  have isDeclared := Effect.foldl_declares setting listed current
  -- The writes after the last effect may assign the name, but it is declared by then.
  have sweptUnbound := Block.sweep_unbound setting isPrefix current
    (fun own => (avoids _ member own).declaresFirst) unbound
  refine ⟨writes.currentScope?.trans (swept.currentScope?.trans current),
    writes.keep Environment.Write.declaresOuter isDeclared, writes.unbound ?_ sweptUnbound⟩
  intro scope here _ _
  cases here
  exact isDeclared

/-- A name that a function captures is local to a function around it. If it is a variable of
the function itself, the function declares it to be of an enclosing function. -/
theorem local_around_of_captured (distinct : (program.sites.map Site.name).Nodup)
    (member : site ∈ program.sites) {captured : NameSet}
    (found : program.captures.get? site.name = some captured) (isCaptured : name ∈ captured.names) :
    (∃ outer ∈ site.enclosing, name ∈ outer.2.localNames.names) ∧
      (name ∈ site.definition.variables →
        ∃ stmt ∈ Block.statements site.definition.body, name ∈ stmt.nonlocalNames) := by
  rw [get?_captures distinct member] at found
  rcases (Site.mem_captured found).mp isCaptured with ⟨isFree, around⟩
  exact ⟨around, fun isVariable =>
    FunctionDef.nonlocal_of_free isFree (FunctionDef.mem_localNames_of_variable isVariable)⟩

/-- A function declares a name global before it assigns it, and has no such parameter. From
the declaration on, at every moment of its sweeps, assignments and reads of the name go to
one binding: that of the innermost scope around the function that binds the name, and the
global one if no scope around does. This is the global one if no function around binds the
name. Only a name that is local to a function around can be captured, and a variable of the
function itself only if it is also declared to be of an enclosing function. -/
theorem declared_globals_resolve (program : Program) (config : Config)
    (distinct : (program.sites.map Site.name).Nodup) (site : Site)
    (member : site ∈ program.sites) (name : String) (avoids : site.definition.Avoids name) :
    (∀ done now names, program.Reaches config site done now → .own (.globals names) ∈ done →
      name ∈ names →
      now.isBoundIn site.name name = false ∧ now.Means name (now.outerOwner site.name name) ∧
      ((∀ around ∈ program.sites, around.name ∈ Dotted.ancestors site.name →
          around.definition.Avoids name) →
        now.outerOwner site.name name = .program)) ∧
    ∀ captured, program.captures.get? site.name = some captured → name ∈ captured.names →
      (∃ outer ∈ site.enclosing, name ∈ outer.2.localNames.names) ∧
      (name ∈ site.definition.variables →
        ∃ stmt ∈ Block.statements site.definition.body, name ∈ stmt.nonlocalNames) := by
  refine ⟨?_, fun captured found isCaptured =>
    local_around_of_captured distinct member found isCaptured⟩
  intro done now names reaches declares listed
  have isDeclared : name ∈ done.flatMap Effect.declared :=
    List.mem_flatMap.mpr ⟨_, declares, listed⟩
  have ownAvoids : ∀ other ∈ program.sites, other.name ∈ [site.name] →
      other.definition.Avoids name := by
    intro other isOther same
    rw [eq_of_name_eq distinct member isOther (List.mem_singleton.mp same)]
    exact avoids
  rcases reaches.unbound ownAvoids isDeclared with ⟨current, declared, unbound⟩
  have ownUnbound := unbound site.name (List.mem_singleton_self _)
  refine ⟨ownUnbound, Environment.means_outerOwner current declared ownUnbound, ?_⟩
  -- The same invariant, now for the scopes around the function.
  intro aroundAvoids
  have aroundUnbound := (reaches.unbound aroundAvoids isDeclared).2.2
  have nothing : now.enclosingScope? site.name name = none := by
    rw [Environment.enclosingScope?, List.find?_eq_none]
    intro parent isAround
    rw [aroundUnbound parent isAround]
    exact Bool.false_ne_true
  rw [Environment.outerOwner, nothing]

end Program

/-! A function whose inner function writes the same global variable, and another one that has
a variable of the name of a global one that its inner functions write and read. -/

def FunctionDef.bumping : FunctionDef where
  name := "bump"
  params := [⟨"amount", none, none⟩]
  returnHint := none
  decorators := []
  isAsync := false
  body := [
    .globals ["total"],
    .augAssign (.place (.name "total")) .add (.name "amount")]

def FunctionDef.tallying : FunctionDef where
  name := "tally"
  params := []
  returnHint := none
  decorators := []
  isAsync := false
  body := [
    .globals ["total"],
    .assign [.place (.name "total")] (.literal (.int 0)),
    .functionDef .bumping]

def FunctionDef.showing : FunctionDef where
  name := "show"
  params := []
  returnHint := none
  decorators := []
  isAsync := false
  body := [.globals ["total"], .ret (some (.name "total"))]

def FunctionDef.reporting : FunctionDef where
  name := "report"
  params := []
  returnHint := none
  decorators := []
  isAsync := false
  body := [
    .assign [.place (.name "total")] (.literal (.int 1)),
    .functionDef {
      name := "reset", params := [], returnHint := none, decorators := [], isAsync := false
      body := [
        .globals ["total"],
        .assign [.place (.name "total")] (.literal (.str "none"))] },
    .functionDef .showing]

def Program.tallied : Program where
  body := [.functionDef .tallying, .functionDef .reporting]

def Site.bumping : Site where
  name := "tally.bump"
  definition := .bumping
  enclosing := [("tally", .tallying)]

def Site.showing : Site where
  name := "report.show"
  definition := .showing
  enclosing := [("report", .reporting)]

theorem Program.declared_globals_resolve_tallied :
    ((tallied.sites.map Site.name).Nodup ∧ Site.bumping ∈ tallied.sites ∧
      Site.showing ∈ tallied.sites) ∧
    (∃ now, tallied.Reaches {} Site.bumping [.own (.globals ["total"])] now ∧
      now.isBoundIn "tally.bump" "total" = false ∧ now.Means "total" .program) ∧
    ∃ captured, tallied.captures.get? "report.show" = some captured ∧
      "total" ∈ captured.names ∧
      ∃ outer ∈ Site.showing.enclosing, "total" ∈ outer.2.localNames.names := by
  have distinct : (tallied.sites.map Site.name).Nodup := by decide
  have isBump : Site.bumping ∈ tallied.sites := List.mem_of_getElem? (i := 1) rfl
  have isShow : Site.showing ∈ tallied.sites := List.mem_of_getElem? (i := 4) rfl
  have bumpAvoids : FunctionDef.bumping.Avoids "total" :=
    FunctionDef.avoids_of_first rfl List.mem_cons_self (by decide)
  have tallyAvoids : FunctionDef.tallying.Avoids "total" :=
    FunctionDef.avoids_of_first rfl List.mem_cons_self (by decide)
  have showAvoids : FunctionDef.showing.Avoids "total" :=
    FunctionDef.avoids_of_first rfl List.mem_cons_self (by decide)
  have outerVisits : tallied.Visits {} { config := {} } .tallying "tally" none _ :=
    .function .visit (show tallied.body = [] ++ .functionDef .tallying :: _ from rfl)
  have visits : tallied.Visits {} { config := {} } .bumping "tally.bump" none _ :=
    .nested outerVisits (show FunctionDef.tallying.nested = [] ++ .bumping :: _ from rfl)
  have reaches : tallied.Reaches {} Site.bumping [.own (.globals ["total"])] _ :=
    .intro visits (.first ⟨_, rfl⟩) .refl
  have around : ∀ around ∈ tallied.sites, around.name ∈ Dotted.ancestors "tally.bump" →
      around.definition.Avoids "total" := by
    intro around member isAround
    have named : around.name = "tally" := by
      simpa [Dotted.ancestors, Dotted.beforeDots] using isAround
    have isTally : ⟨"tally", .tallying, []⟩ ∈ tallied.sites := List.mem_of_getElem? (i := 0) rfl
    rw [eq_of_name_eq distinct isTally member named]
    exact tallyAvoids
  have resolved := (tallied.declared_globals_resolve {} distinct Site.bumping isBump "total"
    bumpAvoids).1 _ _ ["total"] reaches List.mem_cons_self List.mem_cons_self
  have captured := (tallied.declared_globals_resolve {} distinct Site.showing isShow "total"
    showAvoids).2 (NameSet.ofList ["total"]) rfl List.mem_cons_self
  exact ⟨⟨distinct, isBump, isShow⟩,
    ⟨_, reaches, resolved.1, resolved.2.2 around ▸ resolved.2.1⟩,
    NameSet.ofList ["total"], rfl, List.mem_cons_self, captured.1⟩

def Program.reported : Program where
  body := [.functionDef .reporting]

/-- A variable of an enclosing function takes the writes that are declared global, and is
captured where the global one is to be read. -/
theorem Program.reported_hides_global :
    (reported.analyze {}).globals.get? "total" = none ∧
    ((reported.analyze {}).bindings (.scope "report")).get? "total" = some (.str .runtime) ∧
    (reported.captures.get? "report.show").map NameSet.names = some ["total"] := by
  decide +kernel

end NativeTyping

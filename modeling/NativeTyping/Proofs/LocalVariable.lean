import NativeTyping.Proofs.Owner
import NativeTyping.Proofs.Steps
/-!
The variables of a function, as its sweeps leave them.

Inside its scope a function writes its own variables, except for those that it declares to
live outside. A variable is bound once the function assigns it, and stays bound. A call
that stands as a statement and grows the variable leaves it no fixed array, and neither do
the writes after it that do not assign the variable.
-/

namespace NativeTyping

/-! ## One binding

What writes and steps do to the binding of one name in one scope. -/

namespace Environment

def Binds (env : Environment) (scope name : String) (kind : Ty → Prop) : Prop :=
  ∃ type, (env.bindings (.scope scope)).get? name = some type ∧ kind type

section Bindings

variable {env after : Environment} {scope name : String} {kind : Ty → Prop}
  {place : Option String} {assigned declared : List String}

private theorem Binds.imp {other : Ty → Prop} (binds : env.Binds scope name kind)
    (weaken : ∀ type, kind type → other type) : env.Binds scope name other := by
  rcases binds with ⟨type, found, holds⟩
  exact ⟨type, found, weaken type holds⟩

private theorem binds_updateAt (env : Environment) (scope name : String) {update : Option Ty → Ty}
    (fits : ∀ present, kind (update present)) :
    (env.updateAt (.scope scope) name update).Binds scope name kind := by
  rw [Binds, get?_bindings_updateAt, if_pos ⟨rfl, rfl⟩]
  exact ⟨_, rfl, fits _⟩

/-- A write leaves the binding of a name in a scope as it is, or replaces it. It does so
from that scope or from one inside, and with a fixed array only if it assigns the name. -/
theorem Write.get?_bindings (write : env.Write place assigned declared after)
    (scope name : String) :
    (after.bindings (.scope scope)).get? name = (env.bindings (.scope scope)).get? name ∨
      (∃ current ∈ place, Dotted.isWithin scope current = true) ∧
        after.Binds scope name fun type => name ∈ assigned ∨ type.isArray = false := by
  cases write with
  | bind update current isAssigned =>
      rw [Binds, get?_bindings_updateAt]
      split
      · rename_i reached
        exact .inr ⟨current ▸ exists_current_of_writeOwner reached.1.symm,
          _, rfl, .inl (reached.2 ▸ isAssigned)⟩
      · exact .inl rfl
  | refine current found isPlain =>
      rw [Binds, get?_bindings_updateAt]
      split
      · rename_i reached
        exact .inr ⟨current ▸ exists_current_of_readOwner? (reached.1 ▸ found),
          _, rfl, .inr isPlain⟩
      · exact .inl rfl
  | changeClass | addImport => exact .inl rfl
  | declare =>
      unfold declareOuter
      split <;> exact .inl rfl

theorem Writes.binds (writes : env.Writes place assigned declared after)
    (fits : ∀ type : Ty, name ∈ assigned ∨ type.isArray = false → kind type)
    (binds : env.Binds scope name kind) : after.Binds scope name kind := by
  induction writes with
  | refl => exact binds
  | tail _ write induction =>
      rcases write.get?_bindings scope name with same | ⟨_, type, found, written⟩
      · rw [Binds, same]
        exact induction
      · exact ⟨type, found, fits type written⟩

private theorem Write.returns (write : env.Write place assigned declared after) :
    after.returns = env.returns := by
  cases write with
  | bind | refine => exact returns_updateAt _ _ _ _
  | changeClass | addImport => rfl
  | declare =>
      unfold declareOuter
      split <;> rfl

private theorem declaresOuter_declareOuter_eq_false (env : Environment) {listed : String}
    (other : env.currentScope? = some scope → listed ≠ name)
    (undeclared : env.declaresOuter scope name = false) :
    (env.declareOuter listed).declaresOuter scope name = false := by
  rw [declareOuter]
  split
  · exact undeclared
  · rename_i present current
    by_cases same : scope = present
    · subst same
      have differs : name ≠ listed := Ne.symm (other current)
      rw [declaresOuter] at undeclared ⊢
      rw [Table.get?_upsert_self]
      cases found : env.declaredOuter.get? scope with
      | none =>
          have unknown : name ∉ (∅ : NameSet).names := List.not_mem_nil
          simp [NameSet.contains, differs, unknown]
      | some known =>
          rw [found] at undeclared
          simpa [NameSet.contains, differs] using undeclared
    · simpa [declaresOuter, Table.get?_upsert_of_ne _ same] using undeclared

private theorem Write.undeclared (write : env.Write place assigned declared after)
    (other : place = some scope → name ∉ declared)
    (undeclared : env.declaresOuter scope name = false) :
    after.declaresOuter scope name = false := by
  cases write with
  | bind | refine =>
      rw [declaresOuter, declaredOuter_updateAt]
      exact undeclared
  | changeClass | addImport => exact undeclared
  | declare current isDeclared =>
      apply declaresOuter_declareOuter_eq_false env _ undeclared
      rintro here rfl
      exact other (current ▸ here) isDeclared

section Steps

variable {visited : String → FunctionDef → Prop}

theorem Step.binds (step : env.Step visited after)
    (binds : env.Binds scope name fun _ => True) : after.Binds scope name fun _ => True := by
  have fits : ∀ {assigned : List String} (type : Ty),
      name ∈ assigned ∨ type.isArray = false → True := fun _ _ => trivial
  cases step with
  | outside write => exact Writes.binds (.single write) fits binds
  | inside _ write => exact Writes.binds (.single write) fits binds
  | setParams | setReturn | setMethod | move => exact binds

theorem Step.undeclared (step : env.Step visited after)
    (other : ∀ definition, visited scope definition → name ∉ Block.declared definition.body)
    (undeclared : env.declaresOuter scope name = false) :
    after.declaresOuter scope name = false := by
  cases step with
  | outside write => exact write.undeclared (by simp) undeclared
  | inside isVisited write =>
      refine write.undeclared ?_ undeclared
      rintro ⟨⟩
      exact other _ isVisited
  | setParams | setReturn | setMethod | move => exact undeclared

theorem Step.get?_returns (step : env.Step visited after)
    (other : ∀ definition, ¬ visited name definition) :
    after.returns.get? name = env.returns.get? name := by
  cases step with
  | outside write | inside _ write => rw [write.returns]
  | @setReturn reached _ result isVisited =>
      apply Table.get?_insert_of_ne
      rintro rfl
      exact other _ isVisited
  | setParams | setMethod | move => rfl

theorem Step.get?_bindings (step : env.Step visited after)
    (apart : ∀ reached definition, visited reached definition →
      Dotted.isWithin scope reached = false) :
    (after.bindings (.scope scope)).get? name = (env.bindings (.scope scope)).get? name := by
  cases step with
  | outside write =>
      rcases write.get?_bindings scope name with same | ⟨⟨current, ⟨⟩, _⟩, _⟩
      exact same
  | inside isVisited write =>
      rcases write.get?_bindings scope name with same | ⟨⟨current, ⟨⟩, within⟩, _⟩
      · exact same
      · rw [apart _ _ isVisited] at within
        cases within
  | setParams | setReturn | setMethod | move => rfl

end Steps

end Bindings

end Environment

/-! ## Variables of a scope -/

structure Environment.IsLocal (env : Environment) (scope name : String) : Prop where
  current : env.currentScope? = some scope
  undeclared : env.declaresOuter scope name = false

namespace Environment.IsLocal

variable {env after : Environment} {scope name : String} {assigned declared : List String}

theorem writes (here : env.IsLocal scope name) (outer : name ∉ declared)
    (writes : env.Writes (some scope) assigned declared after) : after.IsLocal scope name where
  current := writes.currentScope?.trans here.current
  undeclared := writes.keep (fun write => write.undeclared fun _ => outer) here.undeclared

private theorem binds_write (here : env.IsLocal scope name) (update : Option Ty → Ty) :
    (env.updateAt (env.writeOwner name) name update).Binds scope name fun _ => True := by
  rw [writeOwner_of_not_declared here.current here.undeclared]
  exact env.binds_updateAt scope name fun _ => trivial

private theorem foldl_binds {α : Type} {visit : Environment → α → Environment} {items : List α}
    (outer : name ∉ declared)
    (writes : ∀ item ∈ items, ∀ {env : Environment}, env.currentScope? = some scope →
      env.Writes (some scope) assigned declared (visit env item))
    {item : α} (member : item ∈ items)
    (establishes : ∀ {env : Environment}, env.IsLocal scope name →
      (visit env item).Binds scope name fun _ => True)
    (here : env.IsLocal scope name) :
    (items.foldl visit env).Binds scope name fun _ => True := by
  rcases List.append_of_mem member with ⟨before, later, rfl⟩
  rw [List.forall_mem_append, List.forall_mem_cons] at writes
  rw [List.foldl_append, List.foldl_cons]
  have reached := here.writes outer (Environment.Writes.foldl before writes.1 here.current)
  have there := reached.writes outer (writes.2.1 reached.current)
  exact (Environment.Writes.foldl later writes.2.2 there.current).binds (fun _ _ => trivial)
    (establishes reached)

end Environment.IsLocal

/-! An assignment binds the variables that it assigns. -/

section Assignments

variable {env : Environment} {scope name : String} (setting : Setting)

private theorem Setting.assign_binds {target : Target} (assigned : name ∈ target.boundNames)
    (type : Ty) (here : env.IsLocal scope name) :
    (setting.assign env target type).Binds scope name fun _ => True := by
  rcases List.mem_flatMap.mp assigned with ⟨place, inside, bound⟩
  have named : place = .name name := by
    cases place <;> simp_all [Place.boundNames]
  rw [← Target.map_fst_unpack target type] at inside
  rcases List.mem_map.mp inside with ⟨part, member, isPlace⟩
  have writes : ∀ part ∈ target.unpack type, ∀ {env : Environment},
      env.currentScope? = some scope →
        env.Writes (some scope) target.boundNames [] (setting.assignPlace env part.1 part.2) :=
    fun _ member _ current => setting.assignPart_writes current (List.Subset.refl _) member
  refine here.foldl_binds List.not_mem_nil writes member ?_
  intro env here
  rw [isPlace, named]
  exact here.binds_write _

private theorem Setting.enterContext_binds {item : WithItem} {target : Target}
    (isTarget : item.target = some target) (assigned : name ∈ target.boundNames)
    (here : env.IsLocal scope name) :
    (setting.enterContext env item).Binds scope name fun _ => True := by
  rw [Setting.enterContext, isTarget]
  exact setting.assign_binds assigned _ here

private theorem Setting.visitOwn_binds {stmt : Stmt} (assigned : name ∈ stmt.assignedNames)
    (here : env.IsLocal scope name) :
    (setting.visitOwn env stmt).Binds scope name fun _ => True := by
  cases stmt with
  | assign targets value =>
      rcases List.mem_flatMap.mp assigned with ⟨target, member, bound⟩
      have writes : ∀ target ∈ targets, ∀ {later : Environment},
          later.currentScope? = some scope →
            later.Writes (some scope) (targets.flatMap Target.boundNames) []
              (setting.assign later target (setting.infer env value)) :=
        fun target member _ current =>
          setting.assignEach_writes current (List.Subset.refl _) _ target member
      exact here.foldl_binds List.not_mem_nil writes member
        fun here => setting.assign_binds bound _ here
  | annAssign target hint value => exact setting.assign_binds assigned _ here
  | augAssign target op value => exact setting.assign_binds assigned _ here
  | forLoop target iter body orelse => exact setting.assign_binds assigned _ here
  | withBlock items body =>
      rcases List.mem_flatMap.mp assigned with ⟨item, member, bound⟩
      rcases List.mem_flatMap.mp bound with ⟨target, isTarget, bound⟩
      have writes : ∀ item ∈ items, ∀ {env : Environment}, env.currentScope? = some scope →
          env.Writes (some scope) (Stmt.withBlock items body).assignedNames []
            (setting.enterContext env item) :=
        fun item member _ current =>
          setting.enterEach_writes current (List.Subset.refl _) item member
      exact here.foldl_binds List.not_mem_nil writes member
        fun here => setting.enterContext_binds (Option.mem_toList.mp isTarget) bound here
  | _ => cases assigned

private theorem Effect.apply_binds {effect : Effect} (assigned : name ∈ effect.assigned)
    (here : env.IsLocal scope name) :
    (effect.apply setting env).Binds scope name fun _ => True := by
  cases effect with
  | own stmt => exact setting.visitOwn_binds assigned here
  | caught exception caught =>
      rw [Effect.apply, Option.mem_toList.mp assigned]
      exact here.binds_write _

theorem Effect.foldl_binds {effects : List Effect}
    (outer : name ∉ effects.flatMap Effect.declared) (here : env.IsLocal scope name)
    (isBound : (env.Binds scope name fun _ => True) ∨ name ∈ effects.flatMap Effect.assigned) :
    (effects.foldl (Effect.apply setting) env).Binds scope name fun _ => True := by
  have writes : ∀ effect ∈ effects, ∀ {env : Environment}, env.currentScope? = some scope →
      env.Writes (some scope) (effects.flatMap Effect.assigned)
        (effects.flatMap Effect.declared) (effect.apply setting env) :=
    fun effect member _ current => effect.apply_writes setting current
      (fun _ => List.mem_flatMap_of_mem member) (fun _ => List.mem_flatMap_of_mem member)
  rcases isBound with bound | assigned
  · exact (Environment.Writes.foldl effects writes here.current).binds (fun _ _ => trivial) bound
  · rcases List.mem_flatMap.mp assigned with ⟨effect, member, assigned⟩
    exact here.foldl_binds outer writes member
      fun here => effect.apply_binds setting assigned here

private theorem Setting.bindPlainParams_binds (params : List Param) (args : List Ty)
    {first : String} (type : Ty) (listed : name ∈ first :: params.map Param.name)
    (here : env.IsLocal scope name) :
    (setting.bindPlainParams params args (env.putVar first type)).2.Binds scope name
      fun _ => True := by
  induction params generalizing args env first type with
  | nil =>
      rw [← List.mem_singleton.mp listed]
      exact here.binds_write _
  | cons param rest induction =>
      have put : env.Writes (some scope) [first] [] (env.putVar first type) :=
        .single (.bind _ here.current (List.mem_singleton_self _))
      have there := here.writes List.not_mem_nil put
      rcases List.mem_cons.mp listed with same | later
      · have bound : (env.putVar first type).Binds scope name fun _ => True := by
          rw [← same]
          exact here.binds_write _
        have writes : (env.putVar first type).Writes (some scope)
            ((param :: rest).map Param.name) [] _ :=
          setting.bindPlainParams_writes (param :: rest) args there.current
            (List.Subset.refl _)
        exact writes.binds (fun _ _ => trivial) bound
      · exact induction args.tail _ later there

private theorem Setting.bindParams_binds {definition : FunctionDef} (className : Option String)
    (listed : name ∈ definition.params.map Param.name) (here : env.IsLocal scope name) :
    (setting.bindParams definition className env).2.Binds scope name fun _ => True := by
  unfold Setting.bindParams
  dsimp only
  cases params : definition.params with
  | nil =>
      rw [params] at listed
      cases listed
  | cons first rest =>
      rw [params] at listed
      split
      · rename_i owner receiver others isMethod
        cases isMethod
        split
        · exact setting.bindPlainParams_binds rest _ _ listed here
        · exact setting.bindPlainParams_binds rest _ _ listed here
      · exact setting.bindPlainParams_binds rest _ _ listed here

/-- A function starts in its scope and with its parameters bound. -/
theorem FunctionDef.exists_firstSweep (definition : FunctionDef) (className : Option String)
    (here : env.IsLocal scope name) :
    ∃ start : Environment, start.IsLocal scope name ∧
      (name ∈ definition.params.map Param.name → start.Binds scope name fun _ => True) ∧
      definition.firstSweep setting scope className env =
        Block.visit setting definition.body start := by
  have params : env.Writes (some scope) (definition.params.map Param.name) []
      (setting.bindParams definition className env).2 :=
    setting.bindParams_writes definition className here.current (List.Subset.refl _)
  have entered := here.writes List.not_mem_nil params
  refine ⟨(setting.bindParams definition className env).2.setParams scope
    (setting.bindParams definition className env).1, { entered with }, ?_, rfl⟩
  intro listed
  exact setting.bindParams_binds className listed here

end Assignments

/-! ## Growing a variable -/

/-- A statement of a body calls a list method on a variable, and nothing after it assigns
the variable. -/
def Block.GrowsLast (body : Block) (name : String) : Prop :=
  ∃ before after method args keywords,
    Block.effects body =
      before ++ .own (.expr (.methodCall (.name name) method args keywords)) :: after ∧
    method ∈ Mutation.listMethods ∧ ∀ effect ∈ after, name ∉ effect.assigned

section Growing

variable {env : Environment} {scope name : String} {type : Ty} (setting : Setting)

private theorem Environment.readOwner?_of_bound (current : env.currentScope? = some scope)
    (bound : (env.bindings (.scope scope)).get? name = some type) :
    env.readOwner? name = some (.scope scope) := by
  have isBound : env.isBoundIn scope name = true := by
    rw [Environment.isBoundIn, Table.contains]
    exact Option.isSome_iff_exists.mpr ⟨type, bound⟩
  rw [Environment.readOwner?, current]
  exact if_pos isBound

theorem Setting.infer_name (current : env.currentScope? = some scope)
    (bound : (env.bindings (.scope scope)).get? name = some type) :
    setting.infer env (.name name) = type := by
  have found : env.lookup? name = some type := by
    rw [Environment.lookup?, Environment.readOwner?_of_bound current bound]
    exact bound
  have looked : setting.infer env (.name name) =
      Ty.orUnknown ((env.lookup? name).or ((setting.context env).functionValue? name)) := rfl
  rw [looked, found]
  rfl

private theorem Setting.mutableReceiver_isArray {config : Config}
    (promoting : config.promoteArrays = true)
    {method : String} (grows : method ∈ Mutation.listMethods) (receiver : Ty) :
    (mutableReceiver config receiver method).isArray = false := by
  rw [mutableReceiver, promoting, List.contains_iff_mem.mpr grows]
  cases receiver <;> rfl

private theorem Setting.applyMutation_binds (promoting : setting.config.promoteArrays = true)
    {method : String} (grows : method ∈ Mutation.listMethods) (args : List Expr)
    (current : env.currentScope? = some scope) (bound : env.Binds scope name fun _ => True) :
    (setting.applyMutation env (.name name) method args).Binds scope name
      fun type => type.isArray = false := by
  rcases bound with ⟨type, found, _⟩
  rw [Setting.applyMutation, setting.infer_name current found]
  have isPlain : ((Mutation.refine? (mutableReceiver setting.config type method) method
      (args.map (setting.infer env))).getD
        (mutableReceiver setting.config type method)).isArray = false := by
    cases refined : Mutation.refine? (mutableReceiver setting.config type method) method
        (args.map (setting.infer env)) with
    | none => exact mutableReceiver_isArray promoting grows type
    | some changed => exact Mutation.refine?_isArray refined
  rw [Setting.writeBackChanged]
  split
  · rename_i same
    exact ⟨type, found, same ▸ isPlain⟩
  · rw [Setting.writeBack, Environment.refineVar?,
      Environment.readOwner?_of_bound current found]
    exact env.binds_updateAt scope name fun _ => isPlain

/-- After a sweep over a body that assigns a variable, or where it is bound before, the
variable is bound; and to no fixed array if a statement grows it last. -/
theorem Block.visit_binds (promoting : setting.config.promoteArrays = true) {body : Block}
    (outer : name ∉ Block.declared body) (here : env.IsLocal scope name)
    (isBound : (env.Binds scope name fun _ => True) ∨ name ∈ Block.assigned body) :
    (Block.visit setting body env).Binds scope name fun type =>
      Block.GrowsLast body name → type.isArray = false := by
  rw [Block.visit_eq_foldl]
  by_cases grows : Block.GrowsLast body name
  · rcases grows with ⟨before, after, method, args, keywords, split, isListMethod, unassigned⟩
    rw [Block.declared, split, List.flatMap_append, List.mem_append, not_or] at outer
    have unassignedLater : name ∉ after.flatMap Effect.assigned := by
      simpa [List.mem_flatMap] using unassigned
    -- What comes after the call does not assign the variable, so it is bound before.
    have isBoundBefore : (env.Binds scope name fun _ => True) ∨
        name ∈ before.flatMap Effect.assigned := by
      refine isBound.imp_right fun assigned => ?_
      rw [Block.assigned, split, List.flatMap_append, List.mem_append] at assigned
      exact assigned.resolve_right unassignedLater
    have bound := Effect.foldl_binds setting outer.1 here isBoundBefore
    have there := here.writes outer.1 (Effect.foldl_apply_writes setting here.current before
      (List.Subset.refl _) (List.Subset.refl _))
    have grown := setting.applyMutation_binds promoting isListMethod args there.current bound
    have called : Environment.Writes (some scope) [] [] _ _ :=
      setting.applyMutation_writes there.current (.name name) method args
    have later := Effect.foldl_apply_writes setting (called.currentScope?.trans there.current)
      after (List.Subset.refl _) (List.Subset.refl _)
    rw [split, List.foldl_append, List.foldl_cons]
    have plain := later.binds (fun _ written => written.resolve_left unassignedLater) grown
    exact plain.imp fun _ isPlain _ => isPlain
  · have bound := Effect.foldl_binds setting outer here isBound
    exact bound.imp fun _ _ holds => absurd holds grows

end Growing

end NativeTyping

import Mathlib.Logic.Relation
import NativeTyping.Proofs.MutationRules
import NativeTyping.Proofs.Simulation
import NativeTyping.Proofs.Sweep
/-!
What a sweep can write.

A sweep over statements changes the environment through five kinds of writes. The
variables that it binds are the ones that its statements assign, the names that it
declares to live outside are the ones that its statements list, and a type that it
writes in place of another is never a fixed array.
-/

namespace NativeTyping

open Relation (ReflTransGen)

/-! ## Names -/

def Stmt.assignedNames : Stmt → List String
  | .assign targets _ => targets.flatMap Target.boundNames
  | .annAssign target _ _ | .augAssign target _ _ | .forLoop target _ _ _ => target.boundNames
  | .withBlock items _ =>
      items.flatMap fun item => item.target.toList.flatMap Target.boundNames
  | _ => []

def Stmt.outerNames : Stmt → List String
  | .globals names | .nonlocals names => names
  | _ => []

namespace Effect

def assigned : Effect → List String
  | .own stmt => stmt.assignedNames
  | .caught _ name => name.toList

def declared : Effect → List String
  | .own stmt => stmt.outerNames
  | .caught _ _ => []

end Effect

namespace Block

def assigned (body : Block) : List String :=
  (Block.effects body).flatMap Effect.assigned

def declared (body : Block) : List String :=
  (Block.effects body).flatMap Effect.declared

end Block

/-! ## Single writes -/

/-- One write from the scope `place`, or from outside all functions. -/
inductive Environment.Write (place : Option String) (assigned declared : List String) :
    Environment → Environment → Prop
  | bind {env : Environment} {name : String} (update : Option Ty → Ty) :
      env.currentScope? = place → name ∈ assigned →
      Write place assigned declared env (env.updateAt (env.writeOwner name) name update)
  | refine {env : Environment} {name : String} {owner : Owner} {type : Ty} :
      env.currentScope? = place → env.readOwner? name = some owner → type.isArray = false →
      Write place assigned declared env (env.updateAt owner name fun _ => type)
  | changeClass {env : Environment} (className : String) {change : ClassInfo → ClassInfo} :
      (∀ info, (change info).methods = info.methods) →
      Write place assigned declared env (env.modifyClass className change)
  | addImport {env : Environment} (name target : String) :
      Write place assigned declared env (env.addImport name target)
  | declare {env : Environment} {name : String} :
      env.currentScope? = place → name ∈ declared →
      Write place assigned declared env (env.declareOuter name)

abbrev Environment.Writes (place : Option String) (assigned declared : List String) :
    Environment → Environment → Prop :=
  ReflTransGen (Environment.Write place assigned declared)

namespace Environment

variable {place : Option String} {assigned declared : List String} {env after : Environment}

private theorem Write.scopeStack (write : Write place assigned declared env after) :
    after.scopeStack = env.scopeStack := by
  cases write with
  | bind | refine => exact env.scopeStack_updateAt _ _ _
  | changeClass | addImport => rfl
  | declare => exact env.scopeStack_declareOuter _

namespace Writes

theorem keep {Holds : Environment → Prop}
    (step : ∀ {env after}, Write place assigned declared env after → Holds env → Holds after)
    (writes : Writes place assigned declared env after) (holds : Holds env) : Holds after := by
  induction writes with
  | refl => exact holds
  | tail _ write induction => exact step write induction

theorem scopeStack (writes : Writes place assigned declared env after) :
    after.scopeStack = env.scopeStack := by
  induction writes with
  | refl => rfl
  | tail _ write induction => exact write.scopeStack.trans induction

theorem currentScope? (writes : Writes place assigned declared env after) :
    after.currentScope? = env.currentScope? := by
  rw [Environment.currentScope?, Environment.currentScope?, writes.scopeStack]

theorem foldl {α : Type} {visit : Environment → α → Environment} (items : List α)
    (step : ∀ item ∈ items, ∀ {env : Environment}, env.currentScope? = place →
      Writes place assigned declared env (visit env item))
    {env : Environment} (current : env.currentScope? = place) :
    Writes place assigned declared env (items.foldl visit env) := by
  induction items generalizing env with
  | nil => exact .refl
  | cons item rest induction =>
      have first := step item List.mem_cons_self current
      have later := induction
        (fun item member => step item (List.mem_cons_of_mem _ member))
        (first.currentScope?.trans current)
      exact first.trans later

end Writes

end Environment

/-! ## Places of a target -/

namespace Target

private theorem length_itemTypes (items : List Target) (type : Ty) :
    (itemTypes items type).length = items.length := by
  unfold itemTypes
  split
  · split
    · rename_i fits
      simp only [Bool.and_eq_true, decide_eq_true_eq] at fits
      exact fits.2
    · exact List.length_replicate
  · exact List.length_replicate

mutual

/-- Unpacking reaches every place of a target once, from left to right. -/
theorem map_fst_unpack (target : Target) (type : Ty) :
    (target.unpack type).map Prod.fst = target.places := by
  cases target with
  | place single => rfl
  | tuple items =>
      rw [unpack, places]
      exact map_fst_unpackEach items _ (length_itemTypes items type)
  | starred inner =>
      rw [unpack, places]
      exact map_fst_unpack inner _

theorem map_fst_unpackEach (items : List Target) (types : List Ty)
    (lengths : types.length = items.length) :
    (unpackEach items types).map Prod.fst = placesEach items := by
  cases items with
  | nil => rfl
  | cons item rest =>
      cases types with
      | nil => cases lengths
      | cons type types =>
          have later : types.length = rest.length := Nat.succ.inj lengths
          rw [unpackEach, placesEach, List.map_append, map_fst_unpack item,
            map_fst_unpackEach rest types later]

end

private theorem mem_places_of_mem_unpack {target : Target} {type : Ty} {part : Place × Ty}
    (member : part ∈ target.unpack type) : part.1 ∈ target.places := by
  rw [← map_fst_unpack target type]
  exact List.mem_map_of_mem member

end Target

/-! ## Refined types -/

namespace Mutation

private def Rule.AvoidsArrays (rule : Rule) : Prop :=
  ∀ (receiver : Ty) (args : List Ty), ∀ changed ∈ rule.refine? receiver args,
    changed.isArray = false

private theorem rules_avoidArrays : ∀ rule ∈ rules, rule.AvoidsArrays :=
  fun _ isRule _ _ _ applied => isArray_of_refinesTo (refinesTo_of_applied isRule applied).2

private theorem containerFor?_isArray {method : String} {args : List Ty} {container : Ty}
    (found : containerFor? method args = some container) : container.isArray = false :=
  isArray_of_refinesTo (containerFor?_refinesTo found)

/-- No method turns its receiver into a fixed array. -/
theorem refine?_isArray {receiver changed : Ty} {method : String} {args : List Ty}
    (refined : refine? receiver method args = some changed) : changed.isArray = false := by
  rw [refine?, refineBy?] at refined
  rcases Option.or_eq_some_iff.mp refined with byRule | ⟨_, made⟩
  · rcases List.exists_of_findSome?_eq_some byRule with ⟨rule, member, answered⟩
    exact rules_avoidArrays rule (List.mem_filter.mp member).1 receiver args changed answered
  · split at made
    · exact containerFor?_isArray made
    · cases made

end Mutation

namespace Setting

private theorem storedInto?_isArray {container changed indexType value : Ty} {index : Expr}
    (stored : storedInto? container index indexType value = some changed) :
    changed.isArray = false := by
  unfold storedInto? at stored
  split at stored
  · exact Option.some.inj stored ▸ rfl
  · exact Option.some.inj stored ▸ rfl
  · split at stored
    · exact Option.some.inj stored ▸ rfl
    · cases stored
  · cases stored

private theorem isArray_of_mutated {config : Config} {receiver : Ty} {method : String}
    {args : List Ty}
    (differs : (Mutation.refine? (mutableReceiver config receiver method) method args).getD
      (mutableReceiver config receiver method) ≠ receiver) :
    ((Mutation.refine? (mutableReceiver config receiver method) method args).getD
      (mutableReceiver config receiver method)).isArray = false := by
  cases refined : Mutation.refine? (mutableReceiver config receiver method) method args with
  | some changed => exact Mutation.refine?_isArray refined
  | none =>
      rw [refined, Option.getD_none] at differs
      rw [Option.getD_none]
      unfold mutableReceiver at differs ⊢
      split at differs
      · rename_i grows
        rw [if_pos grows]
        cases receiver <;> rfl
      · exact absurd rfl differs

/-! ## Statements -/

section Statements

variable {place : Option String} {assigned declared : List String} {env : Environment}

private theorem changeOwner_writes (setting : Setting) (value : Expr) (attr : String)
    {change : ClassInfo → ClassInfo} (keeps : ∀ info, (change info).methods = info.methods) :
    env.Writes place assigned declared (setting.changeOwner env value attr change) := by
  unfold changeOwner
  split
  · exact .single (.changeClass _ keeps)
  · exact .refl

private theorem writeBackChanged_writes (setting : Setting) (current : env.currentScope? = place)
    (target : Expr) {present changed : Ty} (plain : changed ≠ present → changed.isArray = false) :
    env.Writes place assigned declared
      (setting.writeBackChanged env target present changed) := by
  unfold writeBackChanged
  split
  · exact .refl
  · rename_i differs
    unfold writeBack
    split
    · rename_i id
      unfold Environment.refineVar?
      cases found : env.readOwner? id with
      | none => exact .refl
      | some owner => exact .single (.refine current found (plain differs))
    · exact setting.changeOwner_writes _ _ fun _ => rfl
    · exact .refl

private theorem assignSubscript_writes (setting : Setting) (current : env.currentScope? = place)
    (base index : Expr) (value : Ty) :
    env.Writes place assigned declared (setting.assignSubscript env base index value) := by
  unfold assignSubscript
  dsimp only
  split
  · rename_i changed stored
    exact setting.writeBackChanged_writes current base fun _ => storedInto?_isArray stored
  · exact .refl

private theorem assignPlace_writes (setting : Setting) (current : env.currentScope? = place)
    {target : Place} (binds : target.boundNames ⊆ assigned) (type : Ty) :
    env.Writes place assigned declared (setting.assignPlace env target type) := by
  match target with
  | .name id =>
      have bound : id ∈ assigned := binds List.mem_cons_self
      exact .single (.bind _ current bound)
  | .attribute value attr => exact setting.changeOwner_writes value attr fun _ => rfl
  | .subscript base index => exact setting.assignSubscript_writes current base index type

theorem assignPart_writes (setting : Setting) (current : env.currentScope? = place)
    {target : Target} (binds : target.boundNames ⊆ assigned) {type : Ty} {part : Place × Ty}
    (member : part ∈ target.unpack type) :
    env.Writes place assigned declared (setting.assignPlace env part.1 part.2) := by
  have inside := Target.mem_places_of_mem_unpack member
  apply setting.assignPlace_writes current
  intro name bound
  exact binds (List.mem_flatMap.mpr ⟨part.1, inside, bound⟩)

private theorem assign_writes (setting : Setting) (current : env.currentScope? = place)
    {target : Target} (binds : target.boundNames ⊆ assigned) (type : Ty) :
    env.Writes place assigned declared (setting.assign env target type) :=
  Environment.Writes.foldl _
    (fun _ member _ current => setting.assignPart_writes current binds member) current

theorem applyMutation_writes (setting : Setting) (current : env.currentScope? = place)
    (receiver : Expr) (method : String) (args : List Expr) :
    env.Writes place assigned declared (setting.applyMutation env receiver method args) :=
  setting.writeBackChanged_writes current receiver isArray_of_mutated

theorem assignEach_writes (setting : Setting) (current : env.currentScope? = place)
    {targets : List Target} (binds : targets.flatMap Target.boundNames ⊆ assigned) (type : Ty) :
    ∀ target ∈ targets, env.Writes place assigned declared (setting.assign env target type) := by
  intro target member
  apply setting.assign_writes current
  intro name bound
  exact binds (List.mem_flatMap.mpr ⟨target, member, bound⟩)

private theorem enterContext_writes (setting : Setting) (current : env.currentScope? = place)
    {item : WithItem} (binds : item.target.toList.flatMap Target.boundNames ⊆ assigned) :
    env.Writes place assigned declared (setting.enterContext env item) := by
  unfold enterContext
  split
  · rename_i target isTarget
    apply setting.assign_writes current
    simpa [isTarget] using binds
  · exact .refl

theorem enterEach_writes (setting : Setting) (current : env.currentScope? = place)
    {items : List WithItem}
    (binds : (items.flatMap fun item => item.target.toList.flatMap Target.boundNames) ⊆ assigned) :
    ∀ item ∈ items, env.Writes place assigned declared (setting.enterContext env item) := by
  intro item member
  apply setting.enterContext_writes current
  intro name bound
  exact binds (List.mem_flatMap.mpr ⟨item, member, bound⟩)

private theorem bindException_writes (current : env.currentScope? = place)
    (exception : Option String) {name : Option String} (binds : name.toList ⊆ assigned) :
    env.Writes place assigned declared (bindException env exception name) := by
  cases name with
  | none => exact .refl
  | some id => exact .single (.bind _ current (binds List.mem_cons_self))

private theorem registerImports_writes (current : env.currentScope? = place) (stmt : Stmt) :
    env.Writes place assigned declared (env.registerImports stmt) := by
  unfold Environment.registerImports
  split
  · apply Environment.Writes.foldl _ _ current
    intro imported _ env _
    unfold Environment.importModule
    split <;> exact .single (.addImport _ _)
  · apply Environment.Writes.foldl _ _ current
    intro imported _ env _
    exact .single (.addImport _ _)
  · exact .refl

private theorem declareOuter_writes (current : env.currentScope? = place) {names : List String}
    (declares : names ⊆ declared) :
    env.Writes place assigned declared (names.foldl Environment.declareOuter env) := by
  apply Environment.Writes.foldl _ _ current
  intro name member env current
  exact .single (.declare current (declares member))

private theorem visitOwn_writes (setting : Setting) (current : env.currentScope? = place)
    (stmt : Stmt) (binds : stmt.assignedNames ⊆ assigned) (declares : stmt.outerNames ⊆ declared) :
    env.Writes place assigned declared (setting.visitOwn env stmt) := by
  unfold visitOwn
  split
  · exact setting.assign_writes current binds _
  · exact Environment.Writes.foldl _
      (fun item member _ current => setting.enterEach_writes current binds item member) current
  · unfold visitSimple
    split
    · exact Environment.Writes.foldl _
        (fun target member _ current => setting.assignEach_writes current binds _ target member)
        current
    · exact setting.assign_writes current binds _
    · exact setting.assign_writes current binds _
    · exact setting.applyMutation_writes current _ _ _
    · exact registerImports_writes current _
    · exact registerImports_writes current _
    · exact declareOuter_writes current declares
    · exact declareOuter_writes current declares
    · exact .refl

end Statements

end Setting

section Sweeps

variable {place : Option String} {assigned declared : List String} {env : Environment}

theorem Effect.apply_writes (setting : Setting) (current : env.currentScope? = place)
    (effect : Effect) (binds : effect.assigned ⊆ assigned) (declares : effect.declared ⊆ declared) :
    env.Writes place assigned declared (effect.apply setting env) := by
  cases effect with
  | own stmt => exact setting.visitOwn_writes current stmt binds declares
  | caught exception name => exact Setting.bindException_writes current exception binds

theorem Effect.foldl_apply_writes (setting : Setting) (current : env.currentScope? = place)
    (effects : List Effect) (binds : effects.flatMap Effect.assigned ⊆ assigned)
    (declares : effects.flatMap Effect.declared ⊆ declared) :
    env.Writes place assigned declared (effects.foldl (Effect.apply setting) env) := by
  apply Environment.Writes.foldl _ _ current
  intro effect member env current
  apply effect.apply_writes setting current
  · intro name bound
    exact binds (List.mem_flatMap.mpr ⟨effect, member, bound⟩)
  · intro name listed
    exact declares (List.mem_flatMap.mpr ⟨effect, member, listed⟩)

/-- A sweep over a body consists of writes of that body. -/
theorem Block.visit_writes (setting : Setting) (current : env.currentScope? = place)
    (body : List Stmt) (binds : Block.assigned body ⊆ assigned)
    (declares : Block.declared body ⊆ declared) :
    env.Writes place assigned declared (Block.visit setting body env) := by
  rw [Block.visit_eq_foldl]
  exact Effect.foldl_apply_writes setting current _ binds declares

end Sweeps

end NativeTyping

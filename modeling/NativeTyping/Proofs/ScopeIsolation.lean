import Mathlib.Data.List.Find
import NativeTyping.Proofs.Owner
import NativeTyping.Proofs.Simulation
/-!
The visit of a function keeps to its own scopes.

A function writes to its own scope, to the scopes of the functions nested in it,
and, for names declared to live outside, to the scopes around it and to the
globals. A scope that stands apart from the function is neither read nor written:
whatever it holds, the visit does the same and leaves it as it was.
-/

namespace NativeTyping

namespace Environment

def replaceScope (env : Environment) (other : String) (bindings : Table Ty) : Environment :=
  { env with scopes := env.scopes.insert other bindings }

/-! ## Reading past a replaced scope -/

section Reading

variable (env : Environment) (bindings : Table Ty) {scope other : String}

private theorem scopeBindings_replaceScope (different : scope ≠ other) :
    (env.replaceScope other bindings).scopeBindings scope = env.scopeBindings scope := by
  simp only [scopeBindings, replaceScope, Table.get?_insert_of_ne _ different]

private theorem enclosingScope?_replaceScope
    (reachable : ∀ parent, Dotted.isWithin parent scope = true → parent ≠ other)
    (name : String) :
    (env.replaceScope other bindings).enclosingScope? scope name =
      env.enclosingScope? scope name := by
  apply List.find?_congr
  intro parent member
  have around : Dotted.isWithin parent scope = true :=
    Dotted.isWithin_iff.mpr (.inr (Dotted.mem_ancestors.mp member))
  rw [isBoundIn, isBoundIn, env.scopeBindings_replaceScope bindings (reachable parent around)]

private theorem readOwner?_replaceScope (current : env.currentScope? = some scope)
    (reachable : ∀ parent, Dotted.isWithin parent scope = true → parent ≠ other)
    (name : String) :
    (env.replaceScope other bindings).readOwner? name = env.readOwner? name := by
  have here : scope ≠ other := reachable scope (Dotted.isWithin_self scope)
  have sameCurrent : (env.replaceScope other bindings).currentScope? = some scope := current
  simp only [readOwner?, current, sameCurrent, isBoundIn,
    env.scopeBindings_replaceScope bindings here,
    env.enclosingScope?_replaceScope bindings reachable]
  rfl

private theorem writeOwner_replaceScope (current : env.currentScope? = some scope)
    (reachable : ∀ parent, Dotted.isWithin parent scope = true → parent ≠ other)
    (name : String) :
    (env.replaceScope other bindings).writeOwner name = env.writeOwner name := by
  have sameCurrent : (env.replaceScope other bindings).currentScope? = some scope := current
  simp only [writeOwner, outerOwner, current, sameCurrent,
    env.enclosingScope?_replaceScope bindings reachable]
  rfl

private theorem lookup?_replaceScope (current : env.currentScope? = some scope)
    (reachable : ∀ parent, Dotted.isWithin parent scope = true → parent ≠ other)
    (name : String) : (env.replaceScope other bindings).lookup? name = env.lookup? name := by
  rw [lookup?, lookup?, env.readOwner?_replaceScope bindings current reachable]
  cases found : env.readOwner? name with
  | none => rfl
  | some owner =>
      cases owner with
      | program => rfl
      | scope parent =>
          have around := isWithin_of_readOwner? current found
          simp only [Option.bind_some, Environment.bindings,
            env.scopeBindings_replaceScope bindings (reachable parent around)]

private theorem sameView_replaceScope (current : env.currentScope? = some scope)
    (reachable : ∀ parent, Dotted.isWithin parent scope = true → parent ≠ other) :
    env.SameView (env.replaceScope other bindings) where
  lookup name := (env.lookup?_replaceScope bindings current reachable name).symm
  scope := rfl
  classes := rfl
  returns := rfl
  params := rfl
  captures := rfl
  imports := rfl

end Reading

/-! ## Writing beside a replaced scope -/

private theorem updateAt_replaceScope (env : Environment) (bindings : Table Ty) {other : String}
    (registered : other ∈ env.scopes.keys) {owner : Owner} (different : owner ≠ .scope other)
    (name : String) (update : Option Ty → Ty) :
    (env.replaceScope other bindings).updateAt owner name update =
      (env.updateAt owner name update).replaceScope other bindings := by
  cases owner with
  | program => rfl
  | scope scope =>
      have apart : other ≠ scope := fun equal => different (congrArg Owner.scope equal.symm)
      simp only [updateAt, replaceScope, Table.insert,
        env.scopes.upsert_comm apart registered]

private theorem mem_keys_updateAt (env : Environment) {other : String}
    (registered : other ∈ env.scopes.keys) (owner : Owner) (name : String)
    (update : Option Ty → Ty) : other ∈ (env.updateAt owner name update).scopes.keys := by
  cases owner with
  | program => exact registered
  | scope scope => exact (Table.mem_keys_upsert _ _ _ _).mpr (.inl registered)

end Environment

/-! ## Positions within a function -/

def WithinScope (root : String) (stack : List String) : Prop :=
  ∃ scope, stack.head? = some scope ∧ Dotted.isWithin root scope = true

private theorem WithinScope.enter {root scope : String} (within : Dotted.isWithin root scope = true)
    (stack : List String) : WithinScope root (scope :: stack) :=
  ⟨scope, rfl, within⟩

private theorem WithinScope.nested {root scope : String} {stack : List String}
    (position : WithinScope root (scope :: stack)) (name : String) :
    WithinScope root (Dotted.join scope name :: scope :: stack) := by
  rcases position with ⟨present, head, within⟩
  cases head
  exact .enter (Dotted.isWithin_join within name) _

private theorem WithinScope.current {root : String} {stack : List String}
    (position : WithinScope root stack) {env : Environment} (placed : env.scopeStack = stack) :
    ∃ scope, env.currentScope? = some scope ∧ Dotted.isWithin root scope = true := by
  rw [Environment.currentScope?, placed]
  exact position

/-! ## Isolation -/

/-- Two environments that differ in the bindings of one scope, which the second one
has replaced. -/
structure Isolated (other : String) (bindings : Table Ty) (stack : List String)
    (left right : Environment) : Prop where
  placed : left.scopeStack = stack
  registered : other ∈ left.scopes.keys
  replaced : right = left.replaceScope other bindings

private theorem Isolated.updateAt {other : String} {bindings : Table Ty} {stack : List String}
    {left right : Environment} (isolated : Isolated other bindings stack left right)
    {owner : Owner} (different : owner ≠ .scope other) (name : String)
    (update : Option Ty → Ty) :
    Isolated other bindings stack (left.updateAt owner name update)
      (right.updateAt owner name update) where
  placed := by
    rw [← isolated.placed]
    cases owner <;> rfl
  registered := left.mem_keys_updateAt isolated.registered owner name update
  replaced := by
    rw [isolated.replaced]
    exact left.updateAt_replaceScope bindings isolated.registered different name update

/-- From within `root`, a scope that stands apart from `root` is out of reach, so the
two environments do the same. -/
theorem isolated_simulation {root other : String} (apart : Dotted.Apart other root)
    (bindings : Table Ty) :
    Simulation (WithinScope root) (Isolated other bindings) where
  position isolated := by
    refine ⟨isolated.placed, ?_⟩
    rw [isolated.replaced]
    exact isolated.placed
  view position isolated := by
    rcases position.current isolated.placed with ⟨scope, current, within⟩
    rw [isolated.replaced]
    exact Environment.sameView_replaceScope _ bindings current
      fun parent around => Dotted.ne_of_isWithin within around apart
  arguments isolated := by
    rw [isolated.replaced]
    rfl
  write {stack left right} position isolated name update := by
    rcases position.current isolated.placed with ⟨scope, current, within⟩
    have sameOwner : right.writeOwner name = left.writeOwner name := by
      rw [isolated.replaced]
      exact left.writeOwner_replaceScope bindings current
        (fun parent around => Dotted.ne_of_isWithin within around apart) name
    rw [sameOwner]
    apply isolated.updateAt
    intro found
    have around := Environment.isWithin_of_writeOwner current found
    exact Dotted.ne_of_isWithin within around apart rfl
  refineVar {stack left right} position isolated name type := by
    rcases position.current isolated.placed with ⟨scope, current, within⟩
    have sameOwner : right.readOwner? name = left.readOwner? name := by
      rw [isolated.replaced]
      exact left.readOwner?_replaceScope bindings current
        (fun parent around => Dotted.ne_of_isWithin within around apart) name
    rw [Environment.refineVar?, Environment.refineVar?, sameOwner]
    cases found : left.readOwner? name with
    | none => exact isolated
    | some owner =>
        apply isolated.updateAt
        rintro rfl
        have around := Environment.isWithin_of_readOwner? current found
        exact Dotted.ne_of_isWithin within around apart rfl
  modifyClass isolated className change :=
    ⟨isolated.placed, isolated.registered, by rw [isolated.replaced]; rfl⟩
  addImport isolated name target :=
    ⟨isolated.placed, isolated.registered, by rw [isolated.replaced]; rfl⟩
  declareOuter {stack left right} position isolated name := by
    rcases position.current isolated.placed with ⟨scope, current, within⟩
    have sameCurrent : right.currentScope? = some scope := by
      rw [isolated.replaced]
      exact current
    simp only [Environment.declareOuter, current, sameCurrent]
    exact ⟨isolated.placed, isolated.registered, by rw [isolated.replaced]; rfl⟩
  setParams isolated function types :=
    ⟨isolated.placed, isolated.registered, by rw [isolated.replaced]; rfl⟩
  setReturn isolated function result :=
    ⟨isolated.placed, isolated.registered, by rw [isolated.replaced]; rfl⟩
  enter isolated scope _ :=
    ⟨congrArg (scope :: ·) isolated.placed, isolated.registered,
      by rw [isolated.replaced]; rfl⟩
  leave {scope stack left right} isolated := by
    refine ⟨?_, isolated.registered, by rw [isolated.replaced]; rfl⟩
    simp [Environment.restoreDepth, Environment.depth, isolated.placed]
  nested := WithinScope.nested

/-! ## New globals -/

private def Environment.GlobalsDeclared (root : String) (old : List String) (env : Environment) :
    Prop :=
  ∀ name ∈ env.globals.keys, name ∈ old ∨
    ∃ scope, Dotted.isWithin root scope = true ∧ env.declaresOuter scope name = true

private theorem Environment.GlobalsDeclared.updateAt {root : String} {old : List String}
    {env : Environment} (declared : env.GlobalsDeclared root old) {owner : Owner} {name : String}
    (justified : owner = .program → name ∈ env.globals.keys ∨
      ∃ scope, Dotted.isWithin root scope = true ∧ env.declaresOuter scope name = true)
    (update : Option Ty → Ty) : (env.updateAt owner name update).GlobalsDeclared root old := by
  cases owner with
  | scope scope => exact declared
  | program =>
      intro other member
      rcases (Table.mem_keys_upsert _ _ _ _).mp member with present | rfl
      · exact declared other present
      · rcases justified rfl with present | outer
        · exact declared other present
        · exact .inr outer

private theorem globalsDeclared_invariant (root : String) (old : List String) :
    Invariant (WithinScope root) (Environment.GlobalsDeclared root old) where
  write {env} position declared name update := by
    rcases position.current rfl with ⟨scope, current, within⟩
    apply declared.updateAt
    intro global
    exact .inr ⟨scope, within, Environment.declaresOuter_of_writeOwner current global⟩
  refineVar {env} position declared name type := by
    rw [Environment.refineVar?]
    cases found : env.readOwner? name with
    | none => exact declared
    | some owner =>
        apply declared.updateAt
        rintro rfl
        exact .inl ((Table.contains_iff_mem_keys _ _).mp
          (Environment.contains_of_readOwner? found))
  modifyClass declared _ _ := declared
  addImport declared _ _ := declared
  declareOuter {env} _ declared name other member := by
    have present : other ∈ env.globals.keys := by
      rw [Environment.declareOuter] at member
      split at member <;> exact member
    rcases declared other present with known | ⟨scope, within, outer⟩
    · exact .inl known
    · exact .inr ⟨scope, within, env.declaresOuter_declareOuter name outer⟩
  setParams declared _ _ := declared
  setReturn declared _ _ := declared
  move declared _ := declared
  nested := WithinScope.nested

/-! ## Whole visits -/

/-- The visit of a function neither reads nor writes a scope that stands apart from
it, and it adds to the globals only names that the function, or one nested in it,
declares to live outside. -/
theorem FunctionDef.visit_isolated (setting : Setting) (definition : FunctionDef)
    (qualified : String) (className : Option String) (env : Environment) :
    (∀ (other : String) (bindings : Table Ty), other ∈ env.scopes.keys →
      Dotted.Apart other qualified →
      definition.visit setting qualified className (env.replaceScope other bindings) =
        (definition.visit setting qualified className env).replaceScope other bindings) ∧
    ∀ name ∈ (definition.visit setting qualified className env).globals.keys,
      name ∈ env.globals.keys ∨
        ∃ scope, Dotted.isWithin qualified scope = true ∧
          (definition.visit setting qualified className env).declaresOuter scope name = true := by
  have position : WithinScope qualified (qualified :: env.scopeStack) :=
    .enter (Dotted.isWithin_self qualified) env.scopeStack
  constructor
  · intro other bindings registered apart
    have isolated : Isolated other bindings env.scopeStack env
        (env.replaceScope other bindings) := ⟨rfl, registered, rfl⟩
    exact ((isolated_simulation apart bindings).visitFunction setting definition className
      position isolated).replaced
  · apply (globalsDeclared_invariant qualified env.globals.keys).visitFunction setting definition
      className position
    intro name member
    exact .inl member

/-! A function whose inner function writes its variable and a variable of the program. -/

def FunctionDef.counting : FunctionDef where
  name := "count"
  params := []
  returnHint := none
  decorators := []
  isAsync := false
  body := [
    .assign [.place (.name "step")] (.literal (.float 0)),
    .functionDef {
      name := "inner", params := [], returnHint := none, decorators := [], isAsync := false
      body := [
        .nonlocals ["step"], .globals ["total"],
        .assign [.place (.name "step")] (.literal (.int 1)),
        .assign [.place (.name "total")] (.name "step")] }]

def Environment.withSibling : Environment where
  scopes := Table.ofList [("other", Table.ofList [("step", .int)])]

theorem FunctionDef.visit_isolated_counting :
    ("other" ∈ Environment.withSibling.scopes.keys ∧ Dotted.Apart "other" "count" ∧
      "total" ∈ (counting.visit { config := {} } "count" none .withSibling).globals.keys) ∧
    counting.visit { config := {} } "count" none
        (Environment.withSibling.replaceScope "other" ∅) =
      (counting.visit { config := {} } "count" none .withSibling).replaceScope "other" ∅ ∧
    ∃ scope, Dotted.isWithin "count" scope = true ∧
      (counting.visit { config := {} } "count" none .withSibling).declaresOuter
        scope "total" = true := by
  have known : "other" ∈ Environment.withSibling.scopes.keys := by decide
  have apart : Dotted.Apart "other" "count" := by decide
  have added :
      "total" ∈ (counting.visit { config := {} } "count" none .withSibling).globals.keys := by
    decide
  have both := counting.visit_isolated { config := {} } "count" none .withSibling
  exact ⟨⟨known, apart, added⟩, both.1 "other" ∅ known apart,
    (both.2 "total" added).resolve_left (by decide)⟩

end NativeTyping

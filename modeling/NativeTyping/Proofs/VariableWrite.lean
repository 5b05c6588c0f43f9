import NativeTyping.Proofs.Owner
/-!
Writing a variable and reading it back.

A read looks at the owners on a path, one after the other, and finds the first that binds the
name. The path follows from the present position, the captures and the declarations, none of
which a write touches. So a write is read back as soon as it goes to an owner on the path that
no binding on the way to it hides. That is where a refinement goes, and where an assignment
goes as well, unless the present scope binds a name that it declares to live outside.
-/

namespace NativeTyping

namespace Environment

variable {env : Environment} {name scope : String} {owner : Owner}

/-! ## The path of a read -/

def readPath (env : Environment) (name : String) : List Owner :=
  match env.currentScope? with
  | none => [.program]
  | some scope =>
      if env.isCaptured scope name || env.declaresOuter scope name then
        .scope scope :: ((Dotted.ancestors scope).map .scope ++ [.program])
      else [.scope scope, .program]

def isOwner (env : Environment) (name : String) (owner : Owner) : Bool :=
  (env.bindings owner).contains name

private theorem readOwner?_eq_find? (env : Environment) (name : String) :
    env.readOwner? name = (env.readPath name).find? (env.isOwner name) := by
  have global : [Owner.program].find? (env.isOwner name) = env.globalOwner? name :=
    List.find?_singleton
  rw [readOwner?, readPath]
  cases env.currentScope? with
  | none => exact global.symm
  | some scope =>
      have around : ((Dotted.ancestors scope).map Owner.scope).find? (env.isOwner name) =
          (env.enclosingScope? scope name).map .scope := List.find?_map
      dsimp only
      cases bound : env.isBoundIn scope name with
      | true =>
          have first : env.isOwner name (.scope scope) = true := bound
          rw [if_pos rfl]
          split <;> rw [List.find?_cons_of_pos first]
      | false =>
          have first : ¬ env.isOwner name (.scope scope) = true := Bool.eq_false_iff.mp bound
          rw [if_neg Bool.false_ne_true]
          split
          · rw [List.find?_cons_of_neg first, List.find?_append, around, global]
            cases env.enclosingScope? scope name <;> rfl
          · rw [List.find?_cons_of_neg first, global]

def ReadsAt (env : Environment) (name : String) (owner : Owner) : Prop :=
  ∃ earlier later, env.readPath name = earlier ++ owner :: later ∧
    ∀ other ∈ earlier, other ≠ owner ∧ env.isOwner name other = false

private theorem readsAt_of_readOwner? (found : env.readOwner? name = some owner) :
    env.ReadsAt name owner := by
  rw [readOwner?_eq_find?, List.find?_eq_some_iff_append] at found
  rcases found with ⟨binds, earlier, later, path, passed⟩
  refine ⟨earlier, later, path, ?_⟩
  intro other before
  have unbound : env.isOwner name other = false := by simpa using passed other before
  refine ⟨?_, unbound⟩
  rintro rfl
  rw [unbound] at binds
  cases binds

private theorem readPath_updateAt (env : Environment) (owner : Owner) (name key : String)
    (update : Option Ty → Ty) :
    (env.updateAt owner name update).readPath key = env.readPath key := by
  cases owner <;> rfl

private theorem isOwner_updateAt_of_ne {other : Owner} (different : other ≠ owner) (name : String)
    (update : Option Ty → Ty) :
    (env.updateAt owner name update).isOwner name other = env.isOwner name other := by
  rw [isOwner, Table.contains, get?_bindings_updateAt, if_neg fun both => different both.1]
  rfl

private theorem ReadsAt.lookup?_updateAt (reads : env.ReadsAt name owner)
    (update : Option Ty → Ty) :
    (env.updateAt owner name update).lookup? name =
      some (update ((env.bindings owner).get? name)) := by
  rcases reads with ⟨earlier, later, path, passed⟩
  have written : ((env.updateAt owner name update).bindings owner).get? name =
      some (update ((env.bindings owner).get? name)) := by
    rw [get?_bindings_updateAt, if_pos ⟨rfl, rfl⟩]
  have found : (env.updateAt owner name update).readOwner? name = some owner := by
    rw [readOwner?_eq_find?, readPath_updateAt, path, List.find?_eq_some_iff_append]
    refine ⟨?_, earlier, later, rfl, ?_⟩
    · rw [isOwner, Table.contains, written, Option.isSome_some]
    · intro other before
      rw [isOwner_updateAt_of_ne (passed other before).1, (passed other before).2, Bool.not_false]
  rw [lookup?, found, Option.bind_some, written]

/-! ## Where a write goes -/

private theorem readPath_of_declared (current : env.currentScope? = some scope)
    (declared : env.declaresOuter scope name = true) :
    env.readPath name = .scope scope :: ((Dotted.ancestors scope).map .scope ++ [.program]) := by
  simp [readPath, current, declared]

private theorem exists_readPath_eq_cons (current : env.currentScope? = some scope) (name : String) :
    ∃ rest, env.readPath name = .scope scope :: rest := by
  simp only [readPath, current]
  split
  · exact ⟨_, rfl⟩
  · exact ⟨_, rfl⟩

/-- The present scope binds a name that it declares to live outside. -/
def HidesOuter (env : Environment) (name : String) : Prop :=
  ∃ scope ∈ env.currentScope?, env.isBoundIn scope name = true ∧
    env.declaresOuter scope name = true

/-- A read looks first where a write goes, if nothing hides what is outside. -/
theorem readsAt_writeOwner (visible : ¬ env.HidesOuter name) :
    env.ReadsAt name (env.writeOwner name) := by
  cases current : env.currentScope? with
  | none =>
      refine ⟨[], [], ?_, by simp⟩
      simp [readPath, writeOwner, current]
  | some scope =>
      cases declared : env.declaresOuter scope name with
      | false =>
          rcases exists_readPath_eq_cons current name with ⟨rest, path⟩
          rw [writeOwner_of_not_declared current declared]
          exact ⟨[], rest, path, by simp⟩
      | true =>
          have unbound : env.isBoundIn scope name = false := by
            rw [Bool.eq_false_iff]
            exact fun bound => visible ⟨scope, current, bound, declared⟩
          rw [writeOwner_of_declared current declared, outerOwner]
          cases found : env.enclosingScope? scope name with
          | some parent =>
              apply readsAt_of_readOwner?
              simp [readOwner?, current, unbound, declared, found]
          | none =>
              -- No scope on the path binds the name, so a read goes on to the globals.
              refine ⟨.scope scope :: (Dotted.ancestors scope).map .scope, [],
                readPath_of_declared current declared, ?_⟩
              rw [enclosingScope?, List.find?_eq_none] at found
              rw [List.forall_mem_cons, List.forall_mem_map]
              refine ⟨⟨Owner.noConfusion, unbound⟩, ?_⟩
              intro parent around
              exact ⟨Owner.noConfusion, Bool.eq_false_iff.mpr (found parent around)⟩

/-- A write from the present position goes to the present scope; for a name that the scope
declares to live outside, it goes to the program or to a scope that the present one is
nested in. -/
theorem writeOwner_cases (env : Environment) (name : String) :
    env.writeOwner name = env.currentScope?.elim .program .scope ∨
      ∃ scope ∈ env.currentScope?, env.declaresOuter scope name = true ∧
        (env.writeOwner name = .program ∨
          ∃ parent rest, env.writeOwner name = .scope parent ∧
            scope = Dotted.join parent rest) := by
  cases current : env.currentScope? with
  | none => exact .inl (by rw [writeOwner, current]; rfl)
  | some scope =>
      cases declared : env.declaresOuter scope name with
      | false => exact .inl (writeOwner_of_not_declared current declared)
      | true =>
          refine .inr ⟨scope, rfl, declared, ?_⟩
          rw [writeOwner_of_declared current declared, outerOwner]
          cases found : env.enclosingScope? scope name with
          | none => exact .inl rfl
          | some parent =>
              rcases Dotted.mem_ancestors.mp (enclosingScope?_eq_some found).1 with ⟨rest, nested⟩
              exact .inr ⟨parent, rest, rfl, nested⟩

/-- A name that hides what is outside keeps its meaning when the binding outside changes. -/
theorem lookup?_updateAt_writeOwner_of_hides (hides : env.HidesOuter name)
    (update : Option Ty → Ty) :
    (env.updateAt (env.writeOwner name) name update).lookup? name = env.lookup? name := by
  rcases hides with ⟨scope, current, bound, declared⟩
  have outside : Owner.scope scope ≠ env.writeOwner name := by
    rw [writeOwner_of_declared current declared, outerOwner]
    cases found : env.enclosingScope? scope name with
    | none => exact Owner.noConfusion
    | some parent =>
        rcases Dotted.mem_ancestors.mp (enclosingScope?_eq_some found).1 with ⟨rest, rfl⟩
        intro same
        exact Dotted.join_ne_left parent rest (Owner.scope.inj same)
  have isFirst {after : Environment} (same : after.readPath name = env.readPath name)
      (still : after.isOwner name (.scope scope) = true) :
      after.readOwner? name = some (.scope scope) := by
    rcases exists_readPath_eq_cons current name with ⟨rest, path⟩
    rw [readOwner?_eq_find?, same, path, List.find?_cons_of_pos still]
  have before : env.readOwner? name = some (.scope scope) := isFirst rfl bound
  have after : (env.updateAt (env.writeOwner name) name update).readOwner? name =
      some (.scope scope) :=
    isFirst (env.readPath_updateAt _ name name update)
      ((isOwner_updateAt_of_ne outside name update).trans bound)
  rw [lookup?, lookup?, before, after, Option.bind_some, Option.bind_some,
    get?_bindings_updateAt, if_neg fun both => outside both.1]

/-! ## What a write leaves alone -/

structure Rebinds (before after : Environment) (owner : Owner) (name : String) (type : Ty) :
    Prop where
  written : (after.bindings owner).get? name = some type
  elsewhere : ∀ other key, other ≠ owner ∨ key ≠ name →
    (after.bindings other).get? key = (before.bindings other).get? key
  registries : after = { before with globals := after.globals, scopes := after.scopes }

private theorem rebinds_updateAt (env : Environment) (owner : Owner) (name : String) (type : Ty) :
    env.Rebinds (env.updateAt owner name fun _ => type) owner name type where
  written := by rw [get?_bindings_updateAt, if_pos ⟨rfl, rfl⟩]
  elsewhere other key apart := by
    rw [get?_bindings_updateAt, if_neg]
    rintro ⟨rfl, rfl⟩
    exact apart.elim (· rfl) (· rfl)
  registries := by cases owner <;> rfl

/-! ## Reading back -/

private theorem isSome_refineVar? (env : Environment) (name : String) (type : Ty) :
    (env.refineVar? name type).isSome = (env.lookup? name).isSome := by
  rw [refineVar?, lookup?, Option.isSome_map]
  cases found : env.readOwner? name with
  | none => rfl
  | some owner => exact (contains_bindings_of_readOwner? found).symm

private theorem refineVar?_rebinds {type : Ty} {after : Environment}
    (refined : env.refineVar? name type = some after) :
    after.lookup? name = some type ∧
      ∃ owner, (env.bindings owner).get? name = env.lookup? name ∧
        env.Rebinds after owner name type := by
  rcases Option.map_eq_some_iff.mp refined with ⟨owner, found, rfl⟩
  refine ⟨(readsAt_of_readOwner? found).lookup?_updateAt _, owner, ?_, rebinds_updateAt ..⟩
  rw [lookup?, found, Option.bind_some]

/-- What is written from a position is what is read at that position.

A refinement takes place exactly for a name that a read finds; the type is read back, and no
other binding changes. A name that is not found leaves the environment as it was. An assignment
is read back unless the present scope binds a name that it declares to live outside, and then a
read finds what it found before. In any case an assignment changes or adds one binding, in the
present scope, or for a name that is declared there in a scope around it or in the program. -/
theorem writes_read_back (env : Environment) (name : String) (type : Ty) :
    ((env.refineVar? name type).isSome = (env.lookup? name).isSome ∧
      (∀ after, env.refineVar? name type = some after →
        after.lookup? name = some type ∧
          ∃ owner, (env.bindings owner).get? name = env.lookup? name ∧
            env.Rebinds after owner name type) ∧
      (env.lookup? name = none → (env.refineVar? name type).getD env = env)) ∧
    ((¬ env.HidesOuter name → (env.putVar name type).lookup? name = some type) ∧
      (env.HidesOuter name → (env.putVar name type).lookup? name = env.lookup? name) ∧
      ∃ owner, env.Rebinds (env.putVar name type) owner name type ∧
        (owner = env.currentScope?.elim .program .scope ∨
          ∃ scope ∈ env.currentScope?, env.declaresOuter scope name = true ∧
            (owner = .program ∨
              ∃ parent rest, owner = .scope parent ∧ scope = Dotted.join parent rest))) := by
  refine ⟨⟨env.isSome_refineVar? name type, fun _ => refineVar?_rebinds, ?_⟩, ?_, ?_, ?_⟩
  · intro unbound
    have refused := env.isSome_refineVar? name type
    rw [unbound, Option.isSome_none, Option.isSome_eq_false_iff,
      Option.isNone_iff_eq_none] at refused
    rw [refused, Option.getD_none]
  · exact fun visible => (readsAt_writeOwner visible).lookup?_updateAt _
  · exact fun hides => lookup?_updateAt_writeOwner_of_hides hides _
  · exact ⟨env.writeOwner name, rebinds_updateAt .., env.writeOwner_cases name⟩

/-! A nested function that declares two names to live outside; the function around it binds
one of them, and the nested function itself binds the other. -/

def declaringTwo : Environment where
  scopes := Table.ofList [
    ("outer", Table.ofList [("count", .int)]), ("outer.inner", Table.ofList [("total", .int)])]
  declaredOuter := Table.ofList [("outer.inner", NameSet.ofList ["count", "total"])]
  scopeStack := ["outer.inner"]

theorem writes_read_back_declaringTwo :
    (¬ declaringTwo.HidesOuter "count" ∧
      (declaringTwo.putVar "count" .float).lookup? "count" = some .float) ∧
    declaringTwo.HidesOuter "total" ∧
      (declaringTwo.putVar "total" .float).lookup? "total" = some .int := by
  have visible : ¬ declaringTwo.HidesOuter "count" := by
    rintro ⟨scope, ⟨⟩, bound, -⟩
    revert bound
    decide
  have hides : declaringTwo.HidesOuter "total" := ⟨"outer.inner", rfl, by decide, by decide⟩
  exact ⟨⟨visible, (declaringTwo.writes_read_back "count" .float).2.1 visible⟩, hides,
    (declaringTwo.writes_read_back "total" .float).2.2.1 hides⟩

end Environment

end NativeTyping

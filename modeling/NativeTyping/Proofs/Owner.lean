import NativeTyping.Environment.Binding
import NativeTyping.Proofs.Dotted
import NativeTyping.Proofs.Table
/-!
Owners of variables: which binding a write or a read from inside a scope can reach.

Inside a scope, a write goes to the scope itself unless the scope declares the name
to live outside, and then it goes outward along the dotted name of the scope. A read
finds a binding of the scope, of a scope around it, or of the program.
-/

namespace NativeTyping

namespace Environment

variable {env : Environment} {scope name : String}

/-! ## Single bindings -/

/-- A write changes one binding of one owner. -/
theorem get?_bindings_updateAt (env : Environment) (owner other : Owner) (name key : String)
    (update : Option Ty → Ty) :
    ((env.updateAt owner name update).bindings other).get? key =
      if other = owner ∧ key = name then some (update ((env.bindings owner).get? name))
      else (env.bindings other).get? key := by
  cases owner with
  | program =>
      cases other with
      | program => simp [updateAt, bindings, Table.get?_upsert]
      | scope scope => simp [updateAt, bindings, scopeBindings]
  | scope scope =>
      cases other with
      | program => simp [updateAt, bindings]
      | scope otherScope =>
          by_cases same : otherScope = scope
          · subst same
            simp [updateAt, bindings, scopeBindings, Table.get?_upsert]
          · simp [updateAt, bindings, scopeBindings, Table.get?_upsert, same]

theorem returns_updateAt (env : Environment) (owner : Owner) (name : String)
    (update : Option Ty → Ty) : (env.updateAt owner name update).returns = env.returns := by
  cases owner <;> rfl

theorem declaredOuter_updateAt (env : Environment) (owner : Owner) (name : String)
    (update : Option Ty → Ty) :
    (env.updateAt owner name update).declaredOuter = env.declaredOuter := by
  cases owner <;> rfl

/-! ## Declarations -/

theorem declaresOuter_declareOuter (env : Environment) (name : String)
    {scope other : String} (declared : env.declaresOuter scope other = true) :
    (env.declareOuter name).declaresOuter scope other = true := by
  rw [declareOuter]
  split
  · exact declared
  · rename_i present current
    by_cases same : scope = present
    · subst same
      rw [declaresOuter] at declared ⊢
      rw [Table.get?_upsert_self]
      split at declared
      · rename_i known found
        simp [found, NameSet.contains] at declared ⊢
        exact .inl declared
      · cases declared
    · simpa [declaresOuter, Table.get?_upsert_of_ne _ same] using declared

theorem declaresOuter_declareOuter_self (current : env.currentScope? = some scope) :
    (env.declareOuter name).declaresOuter scope name = true := by
  simp [declareOuter, current, declaresOuter, Table.get?_upsert_self, NameSet.contains]

/-! ## Outward -/

theorem enclosingScope?_eq_some {parent : String}
    (found : env.enclosingScope? scope name = some parent) :
    parent ∈ Dotted.ancestors scope ∧ env.isBoundIn parent name = true := by
  rw [enclosingScope?] at found
  have bound := List.find?_some found
  exact ⟨List.mem_of_find?_eq_some found, bound⟩

private theorem isWithin_of_enclosingScope? {parent : String}
    (found : env.enclosingScope? scope name = some parent) :
    Dotted.isWithin parent scope = true :=
  Dotted.isWithin_iff.mpr (.inr (Dotted.mem_ancestors.mp (enclosingScope?_eq_some found).1))

theorem isBoundIn_of_outerOwner {owner : String}
    (found : env.outerOwner scope name = .scope owner) : env.isBoundIn owner name = true := by
  rw [outerOwner] at found
  split at found
  · cases found
    exact (enclosingScope?_eq_some ‹_›).2
  · cases found

/-! ## Writes -/

theorem writeOwner_of_not_declared (current : env.currentScope? = some scope)
    (plain : env.declaresOuter scope name = false) : env.writeOwner name = .scope scope := by
  simp [writeOwner, current, plain]

theorem writeOwner_of_declared (current : env.currentScope? = some scope)
    (declared : env.declaresOuter scope name = true) :
    env.writeOwner name = env.outerOwner scope name := by
  simp [writeOwner, current, declared]

/-- A write that reaches a scope reaches the present one or one around it. -/
theorem isWithin_of_writeOwner {owner : String} (current : env.currentScope? = some scope)
    (found : env.writeOwner name = .scope owner) : Dotted.isWithin owner scope = true := by
  cases declared : env.declaresOuter scope name with
  | false =>
      rw [writeOwner_of_not_declared current declared] at found
      cases found
      exact Dotted.isWithin_self scope
  | true =>
      rw [writeOwner_of_declared current declared, outerOwner] at found
      split at found
      · cases found
        exact isWithin_of_enclosingScope? ‹_›
      · cases found

theorem exists_current_of_writeOwner {owner : String}
    (found : env.writeOwner name = .scope owner) :
    ∃ scope ∈ env.currentScope?, Dotted.isWithin owner scope = true := by
  cases current : env.currentScope? with
  | none =>
      rw [writeOwner, current] at found
      cases found
  | some scope => exact ⟨scope, rfl, isWithin_of_writeOwner current found⟩

/-- A write goes to the present scope or to one that binds the name. -/
theorem current_or_contains_of_writeOwner {owner : String}
    (found : env.writeOwner name = .scope owner) :
    env.currentScope? = some owner ∨ (env.bindings (.scope owner)).contains name = true := by
  rw [writeOwner] at found
  split at found
  · cases found
  · rename_i scope current
    split at found
    · exact .inr (isBoundIn_of_outerOwner found)
    · cases found
      exact .inl current

/-- A write from inside a scope reaches the globals only for a declared name. -/
theorem declaresOuter_of_writeOwner (current : env.currentScope? = some scope)
    (found : env.writeOwner name = .program) : env.declaresOuter scope name = true := by
  cases declared : env.declaresOuter scope name with
  | false =>
      rw [writeOwner_of_not_declared current declared] at found
      cases found
  | true => rfl

/-! ## Reads -/

theorem isWithin_of_readOwner? {owner : String} (current : env.currentScope? = some scope)
    (found : env.readOwner? name = some (.scope owner)) :
    Dotted.isWithin owner scope = true := by
  have global : env.globalOwner? name ≠ some (.scope owner) := by
    simp only [globalOwner?]
    split <;> simp
  simp only [readOwner?, current] at found
  split at found
  · cases found
    exact Dotted.isWithin_self scope
  · split at found
    · split at found
      · cases found
        exact isWithin_of_enclosingScope? ‹_›
      · exact absurd found global
    · exact absurd found global

theorem exists_current_of_readOwner? {owner : String}
    (found : env.readOwner? name = some (.scope owner)) :
    ∃ scope ∈ env.currentScope?, Dotted.isWithin owner scope = true := by
  cases current : env.currentScope? with
  | none =>
      rw [readOwner?, current] at found
      dsimp only at found
      rw [globalOwner?] at found
      split at found <;> cases found
  | some scope => exact ⟨scope, rfl, isWithin_of_readOwner? current found⟩

theorem contains_bindings_of_readOwner? {owner : Owner} (found : env.readOwner? name = some owner) :
    (env.bindings owner).contains name = true := by
  have global : env.globalOwner? name = some owner →
      (env.bindings owner).contains name = true := by
    intro isGlobal
    rw [globalOwner?] at isGlobal
    split at isGlobal
    · cases isGlobal
      assumption
    · cases isGlobal
  rw [readOwner?] at found
  split at found
  · exact global found
  · split at found
    · cases found
      assumption
    · split at found
      · split at found
        · rename_i parent isParent
          cases found
          exact (enclosingScope?_eq_some isParent).2
        · exact global found
      · exact global found

theorem contains_of_readOwner? (found : env.readOwner? name = some .program) :
    env.globals.contains name = true :=
  contains_bindings_of_readOwner? found

end Environment

end NativeTyping

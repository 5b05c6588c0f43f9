import NativeTyping.Proofs.Fitness.Analysis
/-!
The types that an analysis leaves in the environment.

Main statements: the types of fields, methods, functions and parameters own their strings
at every depth, and every closure that a kept type mentions is registered with variables
that it captures. So the question whether a kept type needs an allocator is answered by
registered results alone.
-/

namespace NativeTyping

/-! ## Kept types -/

def ClassInfo.types (info : ClassInfo) : List Ty :=
  info.fields.values ++ info.methods.values

namespace Environment

def variableTypes (env : Environment) : List Ty :=
  env.globals.values ++ env.scopes.values.flatMap Table.values

def registeredTypes (env : Environment) : List Ty :=
  env.classes.values.flatMap ClassInfo.types ++ env.returns.values ++ env.params.values.flatten

def storedTypes (env : Environment) : List Ty :=
  env.variableTypes ++ env.registeredTypes ++ env.constructorArgs.values.flatten

namespace Fits

variable {material : Material} {env : Environment}

private theorem registeredTypes_fit (fits : env.Fits material) :
    ∀ type ∈ env.registeredTypes, type.Fits material .lasting := by
  intro type member
  rcases List.mem_append.mp member with member | inParams
  · rcases List.mem_append.mp member with inClasses | inReturns
    · rcases List.mem_flatMap.mp inClasses with ⟨info, isClass, inClass⟩
      have infoFits := fits.classes info isClass
      rcases List.mem_append.mp inClass with inFields | inMethods
      · exact infoFits.fields type inFields
      · exact infoFits.methods type inMethods
    · exact fits.returns type inReturns
  · rcases List.mem_flatten.mp inParams with ⟨types, isList, inList⟩
    exact fits.params types isList type inList

private theorem variableTypes_fit (fits : env.Fits material) :
    ∀ type ∈ env.variableTypes, type.Fits material .passing := by
  intro type member
  rcases List.mem_append.mp member with inGlobals | inScopes
  · exact fits.globals type inGlobals
  · rcases List.mem_flatMap.mp inScopes with ⟨bindings, isScope, inScope⟩
    exact fits.scopes bindings isScope type inScope

theorem storedTypes_fit (fits : env.Fits material) :
    ∀ type ∈ env.storedTypes, type.Fits material .passing := by
  intro type member
  rcases List.mem_append.mp member with member | inArgs
  · rcases List.mem_append.mp member with isVariable | isRegistered
    · exact fits.variableTypes_fit type isVariable
    · exact (fits.registeredTypes_fit type isRegistered).passing
  · rcases List.mem_flatten.mp inArgs with ⟨types, isList, inList⟩
    exact fits.constructorArgs types isList type inList

end Fits

end Environment

/-! ## Strings -/

/-- All strings in the type of a field, of a parameter or of the result of a function or
method are owned, at any depth: also those in the keys of dicts and in function types,
which owning a type passes over. -/
theorem Program.registeredTypes_owned (config : Config) (program : Program) :
    ∀ type ∈ (program.analyze config).registeredTypes,
      ∀ kind, Ty.str kind ∈ type.parts → kind = .runtime := by
  intro type isRegistered kind isPart
  have fits := (program.analyze_sound config).registeredTypes_fit type isRegistered
  have part := Ty.fits_part type fits isPart
  exact part rfl

/-! A class that keeps slices of the argument of its constructor: in a tuple that is a
field, under the keys of a dict that a method call refines, and as the result of a
method. -/

def Program.labelling : Program where
  body := [
    .classDef {
      name := "Label", bases := [], decorators := []
      body := [
        .assign [.place (.name "kinds")] (.dict [(.literal (.str "k"), .literal (.str "v"))]),
        .functionDef {
          name := "__init__", params := [⟨"self", none, none⟩, ⟨"text", none, none⟩]
          returnHint := none, decorators := [], isAsync := false
          body := [
            .assign [.place (.name "short")]
              (.slice (.name "text") none (some (.literal (.int 1))) none),
            .assign [.place (.attribute (.name "self") "marks")]
              (.tuple [.name "short", .list [.literal (.str "mark")]]),
            .expr (.methodCall (.attribute (.name "self") "kinds") "update"
              [.dict [(.name "short", .name "short")]] [])] },
        .functionDef {
          name := "head", params := [⟨"self", none, none⟩]
          returnHint := none, decorators := [], isAsync := false
          body := [.ret (some
            (.subscript (.attribute (.name "self") "marks") (.literal (.int 0))))] }] },
    .expr (.call "Label" [.literal (.str "text")] [])]

theorem Program.registeredTypes_owned_labelling :
    Ty.str .slice ∈ (labelling.analyze {}).variableTypes ∧
    Ty.tuple [.str .runtime, .array (.str .runtime) 1] ∈ (labelling.analyze {}).registeredTypes ∧
    ∀ kind, Ty.str kind ∈ (Ty.tuple [.str .runtime, .array (.str .runtime) 1]).parts →
      kind = .runtime := by
  have isRegistered : Ty.tuple [.str .runtime, .array (.str .runtime) 1] ∈
      (labelling.analyze {}).registeredTypes := by
    decide +kernel
  exact ⟨by decide +kernel, isRegistered, labelling.registeredTypes_owned {} _ isRegistered⟩

/-! ## Closures -/

private theorem Ty.Fits.residue {material : Material} {lifetime : Lifetime} {type : Ty}
    (fits : type.Fits material lifetime) : type.residue.Fits material .passing := by
  induction type using Ty.residue.induct generalizing lifetime with
  | case1 params result induction => exact induction fits.2
  | case2 inner induction =>
      have innerFits : inner.Fits material lifetime := fits
      exact induction innerFits
  | case3 => simpa [Ty.residue] using fits.passing

namespace Environment

/-- Follows a closure to its registered result as long as that is another closure. A closure
that was met before needs an allocator; for one without a registered result there is no
answer. -/
def followRegistered (returns : Table Ty) : Nat → List String → Ty → Option Bool
  | 0, _, _ => none
  | steps + 1, met, type =>
      match type.residue with
      | .closure name =>
          if name ∈ met then some true
          else
            match returns.get? name with
            | none => none
            | some result => followRegistered returns steps (name :: met) result
      | other => some other.needsAllocator

/-- Whether a function that handles the type takes an allocator, as far as registered
results tell. -/
def registeredAnswer? (env : Environment) (type : Ty) : Option Bool :=
  followRegistered env.returns (env.returns.size + 1) [] type

/-- Results that are removed once they are followed stand for closures that were met. -/
theorem followClosures_eq {returns left : Table Ty} {met : List String}
    (removed : ∀ name, left.get? name = if name ∈ met then none else returns.get? name)
    (steps : Nat) (type : Ty) :
    followClosures steps left type = (followRegistered returns steps met type).getD true := by
  induction steps generalizing left met type with
  | zero => rfl
  | succ steps induction =>
      rw [followClosures, followRegistered]
      cases type.residue with
      | closure name =>
          have present := removed name
          by_cases again : name ∈ met
          · rw [if_pos again] at present
            simp only [present, if_pos again, Option.getD_some]
          rw [if_neg again] at present
          simp only [present, if_neg again]
          cases returns.get? name with
          | none => rfl
          | some result =>
              apply induction
              intro other
              rw [Table.get?_erase, removed other]
              by_cases same : other = name
              · simp [same]
              · simp [same]
      | _ => rfl

/-- A closure without an answer counts as needing an allocator. -/
theorem needsAllocator_eq (env : Environment) (type : Ty) :
    env.needsAllocator type = (env.registeredAnswer? type).getD true :=
  followClosures_eq (by simp) _ type

private theorem Sound.followRegistered_isSome {allowed : Prop} {env : Environment}
    (sound : env.Sound allowed) (steps : Nat) {met : List String} (distinct : met.Nodup)
    (registered : met ⊆ env.returns.keys) (enough : env.returns.size < met.length + steps)
    {type : Ty} {lifetime : Lifetime} (fits : type.Fits ⟨allowed, env.IsClosure⟩ lifetime) :
    (followRegistered env.returns steps met type).isSome = true := by
  induction steps generalizing met type lifetime with
  | zero =>
      -- More closures were met than there are.
      have bounded : met.length ≤ env.returns.keys.length :=
        distinct.length_le_of_subset registered
      rw [Table.keys, List.length_map] at bounded
      rw [Table.size] at enough
      omega
  | succ steps induction =>
      have residueFits := fits.residue
      rw [followRegistered]
      split
      · rename_i name isClosure
        rw [isClosure] at residueFits
        have isKey : name ∈ env.returns.keys := residueFits.1
        split
        · rfl
        rename_i fresh
        cases found : env.returns.get? name with
        | none =>
            rw [← Table.contains_iff_mem_keys, Table.contains, found] at isKey
            cases isKey
        | some result =>
            apply induction
            · exact List.nodup_cons.mpr ⟨fresh, distinct⟩
            · exact List.cons_subset.mpr ⟨isKey, registered⟩
            · rw [List.length_cons]
              omega
            · exact sound.returns.get? name result found
      · rfl

end Environment

/-- Every closure in a kept type, at any depth, is a registered function that captures
variables, and whether the type needs an allocator follows from registered results. -/
theorem Program.closures_registered (config : Config) (program : Program) :
    ∀ type ∈ (program.analyze config).storedTypes,
      (∀ name, Ty.closure name ∈ type.parts →
        name ∈ (program.analyze config).returns.keys ∧
          ∃ captured, (program.analyze config).captures.get? name = some captured ∧
            captured.names ≠ []) ∧
      (program.analyze config).registeredAnswer? type =
        some ((program.analyze config).needsAllocator type) := by
  intro type isStored
  have sound := program.analyze_sound config
  have fits := sound.storedTypes_fit type isStored
  constructor
  · intro name isPart
    exact Ty.fits_part type fits isPart
  · have answered := sound.followRegistered_isSome ((program.analyze config).returns.size + 1)
      List.nodup_nil (List.nil_subset _) (by simp) fits
    rcases Option.isSome_iff_exists.mp answered with ⟨answer, found⟩
    rw [Environment.needsAllocator_eq, Environment.registeredAnswer?, found]
    rfl

/-! A function that returns a closure over its parameter, and a list of such closures. -/

def Program.handingOut : Program where
  body := [
    .functionDef {
      name := "outer", params := [⟨"x", none, some (.literal (.int 1))⟩], returnHint := none
      decorators := [], isAsync := false
      body := [
        .functionDef {
          name := "inner", params := [], returnHint := none, decorators := [], isAsync := false
          body := [.ret (some (.name "x"))] },
        .ret (some (.name "inner"))] },
    .assign [.place (.name "kept")] (.list [.call "outer" [] []])]

theorem Program.closures_registered_handingOut :
    (Ty.list (.closure "outer.inner") ∈ (handingOut.analyze {}).storedTypes ∧
      Ty.closure "outer.inner" ∈ (Ty.list (.closure "outer.inner")).parts ∧
      "outer.inner" ∈ (handingOut.analyze {}).returns.keys) ∧
    Ty.closure "outer.inner" ∈ (handingOut.analyze {}).storedTypes ∧
    (handingOut.analyze {}).needsAllocator (.closure "outer.inner") = false ∧
    (handingOut.analyze {}).registeredAnswer? (.closure "outer.inner") =
      some ((handingOut.analyze {}).needsAllocator (.closure "outer.inner")) := by
  have inList : Ty.list (.closure "outer.inner") ∈ (handingOut.analyze {}).storedTypes := by
    decide +kernel
  have alone : Ty.closure "outer.inner" ∈ (handingOut.analyze {}).storedTypes := by
    decide +kernel
  have isPart : Ty.closure "outer.inner" ∈ (Ty.list (.closure "outer.inner")).parts := by
    decide
  have registered := (handingOut.closures_registered {} _ inList).1 "outer.inner" isPart
  exact ⟨⟨inList, isPart, registered.1⟩, alone, by decide +kernel,
    (handingOut.closures_registered {} _ alone).2⟩

end NativeTyping

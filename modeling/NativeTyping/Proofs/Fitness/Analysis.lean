import NativeTyping.Analysis
import NativeTyping.Proofs.Fitness.Visit
/-!
Every stage of an analysis keeps the environment sound.

Captures are registered first, when no types are kept yet. Signatures keep what hints
denote, which fits whatever there is. The later stages visit, or turn arrays into lists.
-/

namespace NativeTyping

/-! ## Captures -/

theorem Program.withCaptures_sound (program : Program) (allowed : Prop) :
    (program.withCaptures {}).Sound allowed := by
  have only : ∃ captures, program.withCaptures {} = { captures := captures } := by
    refine List.foldlRecOn
      (motive := fun env : Environment => ∃ captures, env = { captures := captures })
      _ _ ⟨∅, rfl⟩ ?_
    rintro env ⟨captures, rfl⟩ entry _
    exact ⟨captures.insert entry.1 entry.2, rfl⟩
  rcases only with ⟨captures, same⟩
  rw [same]
  exact ⟨.empty, .empty, .empty, .empty, .empty, .empty, fun _ => Iff.rfl⟩

/-! ## Signatures -/

theorem FunctionDef.register_eq (config : Config) (definition : FunctionDef) (qualified : String)
    (hasReceiver : Bool) (env : Environment) :
    definition.register config qualified hasReceiver env =
      definition.nested.foldl
        (fun env inner => inner.register config (Dotted.join qualified inner.name) false env)
        ((env.setReturn qualified (config.hintType definition.returnHint)).setParams qualified
          ((if hasReceiver then definition.params.tail else definition.params).map
            fun param => config.hintType param.hint)) := by
  rw [register, fold_eq]
  simp only [List.foldl_map]
  rfl

private theorem Config.hintTypes_fit {material : Material} (config : Config) (params : List Param) :
    ∀ type ∈ params.map fun param => config.hintType param.hint, type.Fits material .lasting := by
  intro type member
  rcases List.mem_map.mp member with ⟨param, _, rfl⟩
  exact config.hintType_fits param.hint

private theorem ClassDef.declaredInfo_fits {material : Material} (config : Config)
    (definition : ClassDef) : (definition.declaredInfo config).Fits material := by
  refine List.foldlRecOn (motive := ClassInfo.Fits material) _ _ ⟨.empty, .empty⟩ ?_
  intro info fits method _
  have declared := fits.setMethod method.name (config.hintType_fits method.returnHint)
  dsimp only
  split
  · exact { declared with }
  · exact declared

private theorem Environment.Fits.registerClass {material : Material} {env : Environment}
    (fits : env.Fits material) {info : ClassInfo} (infoFits : info.Fits material) :
    (env.registerClass info).Fits material :=
  { fits with classes := fits.classes.insert info.name infoFits }

section Registration

variable {allowed : Prop} (config : Config)

private theorem FunctionDef.register_sound (definition : FunctionDef) (qualified : String)
    (hasReceiver : Bool) {env : Environment} (sound : env.Sound allowed) :
    (definition.register config qualified hasReceiver env).Sound allowed := by
  induction definition using FunctionDef.nested_induction
    generalizing qualified hasReceiver env with
  | step definition induction =>
      rw [FunctionDef.register_eq]
      have declared := sound.setReturn qualified (config.hintType_fits definition.returnHint)
      refine List.foldlRecOn (motive := Environment.Sound allowed) definition.nested _ ?_ ?_
      · exact (declared.setParams qualified (config.hintTypes_fit _)).sound
      · intro env sound inner member
        exact induction inner member _ false sound

private theorem ClassDef.register_sound (definition : ClassDef) {env : Environment}
    (sound : env.Sound allowed) : (definition.register config env).Sound allowed := by
  have methods := List.foldlRecOn (motive := Environment.Sound allowed) definition.methods
    (fun env method =>
      method.register config (Dotted.join definition.name method.name) (!method.isStatic) env)
    sound fun _ sound method _ => method.register_sound config _ _ sound
  exact (methods.registerClass (definition.declaredInfo_fits config)).sound

private theorem Stmt.register_sound {env : Environment} (sound : env.Sound allowed) (stmt : Stmt) :
    (stmt.register config env).Sound allowed := by
  unfold Stmt.register
  split
  · exact FunctionDef.register_sound config _ _ false sound
  · exact ClassDef.register_sound config _ sound
  · exact (sound.registerImports _).sound

end Registration

/-! ## Constructors -/

private theorem Environment.mergePositions_fit {material : Material} {presents addeds : List Ty}
    (presentsFit : ∀ type ∈ presents, type.Fits material .passing)
    (addedsFit : ∀ type ∈ addeds, type.Fits material .passing) :
    ∀ type ∈ mergePositions presents addeds, type.Fits material .passing := by
  induction presents, addeds using mergePositions.induct with
  | case1 addeds => simpa [mergePositions] using addedsFit
  | case2 presents known => simpa [mergePositions] using presentsFit
  | case3 present presents added addeds induction =>
      rw [List.forall_mem_cons] at presentsFit addedsFit
      rw [mergePositions, List.forall_mem_cons]
      exact ⟨presentsFit.1.widen addedsFit.1, induction presentsFit.2 addedsFit.2⟩

private theorem Environment.Fits.recordConstructorArgs {material : Material} {env : Environment}
    (fits : env.Fits material) (className : String) {args : List Ty}
    (argsFit : ∀ type ∈ args, type.Fits material .passing) :
    (env.recordConstructorArgs className args).Fits material := by
  refine { fits with constructorArgs := fits.constructorArgs.upsert className ?_ }
  intro present known
  cases present with
  | none => exact argsFit
  | some types => exact mergePositions_fit (known types rfl) argsFit

/-! ## Promotion -/

private theorem Environment.Fits.promote {material : Material} {env : Environment}
    (fits : env.Fits material) (name : String) : (env.promote name).Fits material := by
  unfold Environment.promote
  split
  · rename_i field _
    refine { fits with classes := fits.classes.mapValues ?_ }
    intro className info infoFits
    exact { infoFits with fields := infoFits.fields.modify field fun _ => Ty.Fits.promoteArray }
  · have globals := fits.globals.modify name fun _ => Ty.Fits.promoteArray
    refine { fits with globals := globals, scopes := fits.scopes.mapValues ?_ }
    intro scope bindings bindingsFit
    exact bindingsFit.modify name fun _ => Ty.Fits.promoteArray

/-! ## Stages -/

namespace Program

variable {allowed : Prop} {config : Config} (program : Program)

theorem visitStatements_sound (arrays : config.literalArrays = true → allowed) {env : Environment}
    (sound : env.Sound allowed) : (program.visitStatements config env).Sound allowed :=
  (Block.visit_fits arrays _ sound).sound

theorem visitDefinitions_sound (arrays : config.literalArrays = true → allowed)
    {env : Environment} (sound : env.Sound allowed) :
    (program.visitDefinitions config env).Sound allowed := by
  refine List.foldlRecOn (motive := Environment.Sound allowed) _ _ sound ?_
  intro env sound stmt _
  unfold Stmt.visitDefinition
  split
  · exact FunctionDef.visit_sound arrays _ _ none sound
  · exact ClassDef.visit_sound arrays _ sound
  · exact sound

/-- A stage after the captures leaves a sound environment sound. -/
theorem runStage_sound (arrays : config.literalArrays = true → allowed) {env : Environment}
    (sound : env.Sound allowed) {stage : Stage} (later : stage ≠ .captures) :
    (program.runStage config env stage).Sound allowed := by
  cases stage with
  | captures => exact absurd rfl later
  | signatures =>
      exact List.foldlRecOn (motive := Environment.Sound allowed) program.body _ sound
        fun _ sound stmt _ => stmt.register_sound config sound
  | constructors =>
      refine List.foldlRecOn (motive := Environment.Sound allowed) _ _ sound ?_
      intro env sound call _
      refine (sound.recordConstructorArgs call.1 ?_).sound
      intro type member
      rcases List.mem_map.mp member with ⟨arg, _, rfl⟩
      exact Setting.infer_fits arrays sound arg
  | returns =>
      unfold runStage withReturns
      dsimp only
      split
      · exact program.visitDefinitions_sound arrays sound
      · exact sound
  | visit =>
      have before := program.visitStatements_sound arrays sound
      have definitions := program.visitDefinitions_sound arrays before
      exact program.visitStatements_sound arrays definitions
  | promotion =>
      unfold runStage withPromotion
      dsimp only
      split
      · exact List.foldlRecOn (motive := Environment.Sound allowed) _ _ sound
          fun _ sound name _ => (sound.promote name).sound
      · exact sound

/-- Fixed arrays come from list displays only. -/
theorem analyze_sound (config : Config) (program : Program) :
    (program.analyze config).Sound (config.literalArrays = true) := by
  have captures := program.withCaptures_sound (config.literalArrays = true)
  have later : ∀ stages : List Stage, Stage.captures ∉ stages → ∀ {env : Environment},
      env.Sound (config.literalArrays = true) →
        (stages.foldl (program.runStage config) env).Sound (config.literalArrays = true) :=
    fun stages notCaptures _ sound =>
      List.foldlRecOn (motive := Environment.Sound (config.literalArrays = true)) stages _ sound
        fun _ sound stage member => program.runStage_sound id sound
          fun isCaptures => notCaptures (isCaptures ▸ member)
  exact later [.signatures, .constructors, .returns, .visit, .promotion] (by decide) captures

end Program

end NativeTyping

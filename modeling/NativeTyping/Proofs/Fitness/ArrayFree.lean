import NativeTyping.Proofs.Fitness.Stored
import NativeTyping.Proofs.Registration
import NativeTyping.Proofs.Sweep
/-!
Analyses without literal arrays.

Fixed arrays come from list displays only, so with literal arrays off there are none, at
any depth of any type that is kept after any stage. What turns arrays into lists has then
nothing to work on: neither a mutating call during a visit nor the last stage depends on
whether it is switched on.
-/

namespace NativeTyping

/-! ## Types without arrays -/

private theorem Ty.promoteArray_of_isArray_eq_false {type : Ty} (plain : type.isArray = false) :
    type.promoteArray = type := by
  cases type with
  | array element length => cases plain
  | _ => rfl

namespace Ty.Fits

variable {material : Material} {lifetime : Lifetime} {type : Ty}

private theorem array_not_mem_parts (absent : ¬material.arrays) (fits : type.Fits material lifetime)
    (element : Ty) (length : Nat) : Ty.array element length ∉ type.parts := by
  intro isPart
  have part := Ty.fits_part type fits isPart
  exact absent part.1

private theorem promoteArray_eq_self (absent : ¬material.arrays)
    (fits : type.Fits material lifetime) :
    type.promoteArray = type := by
  apply Ty.promoteArray_of_isArray_eq_false
  cases type with
  | array element length => exact absurd fits.1 absent
  | _ => rfl

end Ty.Fits

/-! ## The switch

Settings that differ in whether arrays are promoted read expressions in the same way, and
write the same except where a mutating call meets an array.
-/

def Config.promoting (config : Config) (choice : Bool) : Config :=
  { config with promoteArrays := choice }

namespace Setting

private def promoting (setting : Setting) (choice : Bool) : Setting :=
  { setting with config := setting.config.promoting choice }

variable (setting : Setting) (choice : Bool)

private theorem context_promoting_agrees (env : Environment) :
    ((setting.promoting choice).context env).Agrees (setting.context env) :=
  ⟨rfl, rfl, rfl, .refl env⟩

@[simp] theorem infer_promoting : (setting.promoting choice).infer = setting.infer := by
  funext env expr
  exact congrArg Reading.value (expr.read_eq (setting.context_promoting_agrees choice env))

private theorem iterationItem_promoting (env : Environment) (expr : Expr) :
    ((setting.promoting choice).context env).iterationItem expr =
      (setting.context env).iterationItem expr :=
  congrArg Reading.item (expr.read_eq (setting.context_promoting_agrees choice env))

private theorem changeOwner_promoting :
    (setting.promoting choice).changeOwner = setting.changeOwner := by
  funext env value attr change
  simp only [changeOwner, infer_promoting]

private theorem writeBackChanged_promoting :
    (setting.promoting choice).writeBackChanged = setting.writeBackChanged := by
  funext env target present changed
  simp only [writeBackChanged, writeBack, changeOwner_promoting]

@[simp] theorem assign_promoting : (setting.promoting choice).assign = setting.assign := by
  have place : (setting.promoting choice).assignPlace = setting.assignPlace := by
    funext env place type
    cases place <;>
      simp only [assignPlace, assignSubscript, infer_promoting, changeOwner_promoting,
        writeBackChanged_promoting]
  funext env target type
  simp only [assign, place]

private theorem targetType_promoting :
    (setting.promoting choice).targetType = setting.targetType := by
  funext env target
  match target with
  | .place (.name id) => rfl
  | .place (.attribute value attr) => simp only [targetType, infer_promoting]
  | .place (.subscript base index) => simp only [targetType, infer_promoting]
  | .tuple items | .starred inner => rfl

private theorem annotatedType_promoting :
    (setting.promoting choice).annotatedType = setting.annotatedType := by
  funext env hint value
  simp only [annotatedType, infer_promoting]
  rfl

private theorem enterContext_promoting :
    (setting.promoting choice).enterContext = setting.enterContext := by
  funext env item
  simp only [enterContext, infer_promoting, assign_promoting]

private theorem bindPlainParams_promoting :
    (setting.promoting choice).bindPlainParams = setting.bindPlainParams := by
  have paramType : (setting.promoting choice).paramType = setting.paramType := by
    funext env param arg
    simp only [Setting.paramType, infer_promoting]
    rfl
  funext params args env
  induction params generalizing args env with
  | nil => rfl
  | cons param rest induction => simp only [bindPlainParams, paramType, induction]

private theorem bindParams_promoting :
    (setting.promoting choice).bindParams = setting.bindParams := by
  funext definition className env
  simp only [bindParams, bindPlainParams_promoting]

private theorem recordReturn_promoting :
    (setting.promoting choice).recordReturn = setting.recordReturn := by
  funext definition qualified className env
  simp only [recordReturn, bodyResult, returnTypes, infer_promoting]
  rfl

private theorem visitClassAttribute_promoting :
    (setting.promoting choice).visitClassAttribute = setting.visitClassAttribute := by
  have sameAttribute : (setting.promoting choice).classAttribute? = setting.classAttribute? := by
    funext env stmt
    simp only [classAttribute?, infer_promoting, annotatedType_promoting]
  funext className env stmt
  simp only [visitClassAttribute, sameAttribute]

end Setting

/-! ## Visits -/

private theorem foldl_eq_of_keeps {α : Type} {Holds : Environment → Prop}
    {first second : Environment → α → Environment} (items : List α)
    (step : ∀ item ∈ items, ∀ env : Environment, Holds env →
      first env item = second env item ∧ Holds (second env item))
    {env : Environment} (holds : Holds env) :
    items.foldl first env = items.foldl second env := by
  have related := List.foldl_rel (r := fun left right => left = right ∧ Holds right)
    (f := first) (g := second) ⟨rfl, holds⟩
    (fun item member left right same => by
      rw [same.1]
      exact step item member right same.2)
  exact related.1

section Sweeps

variable {material : Material} (setting : Setting)
  (arrays : setting.config.literalArrays = true → material.arrays)

include arrays

private theorem Effect.apply_fits {env : Environment} (fits : env.Fits material) (effect : Effect) :
    (effect.apply setting env).Fits material := by
  cases effect with
  | caught exception name => exact Setting.bindException_fits fits exception name
  | own stmt =>
      cases stmt with
      | forLoop target iter body orelse =>
          have itemFits := (iter.read_fits (Setting.context_fits arrays fits)).item
          exact Setting.assign_fits arrays fits target itemFits
      | withBlock items body =>
          exact List.foldlRecOn (motive := Environment.Fits material) items setting.enterContext
            fits fun _ fits item _ => Setting.enterContext_fits arrays fits item
      | _ =>
          simp only [Effect.apply, Setting.visitOwn]
          exact Setting.visitSimple_fits arrays fits _

variable (absent : ¬material.arrays) (choice : Bool)

include absent

private theorem Setting.applyMutation_promoting {env : Environment} (fits : env.Fits material)
    (receiver : Expr) (method : String) (args : List Expr) :
    (setting.promoting choice).applyMutation env receiver method args =
      setting.applyMutation env receiver method args := by
  have kept := (Setting.infer_fits arrays fits receiver).promoteArray_eq_self absent
  simp only [applyMutation, mutableReceiver, infer_promoting, writeBackChanged_promoting, kept,
    ite_self]

private theorem Effect.apply_promoting {env : Environment} (fits : env.Fits material)
    (effect : Effect) :
    effect.apply (setting.promoting choice) env = effect.apply setting env := by
  cases effect with
  | caught exception name => rfl
  | own stmt =>
      cases stmt with
      | forLoop target iter body orelse =>
          simp only [Effect.apply, Setting.visitOwn, Setting.assign_promoting,
            Setting.iterationItem_promoting]
      | withBlock items body =>
          simp only [Effect.apply, Setting.visitOwn, Setting.enterContext_promoting]
      | assign targets value =>
          simp only [Effect.apply, Setting.visitOwn, Setting.visitSimple, Setting.infer_promoting,
            Setting.assign_promoting]
      | annAssign target hint value =>
          simp only [Effect.apply, Setting.visitOwn, Setting.visitSimple,
            Setting.annotatedType_promoting, Setting.assign_promoting]
      | augAssign target op value =>
          simp only [Effect.apply, Setting.visitOwn, Setting.visitSimple,
            Setting.targetType_promoting, Setting.infer_promoting, Setting.assign_promoting]
      | expr value =>
          cases value with
          | methodCall receiver method args keywords =>
              exact setting.applyMutation_promoting arrays absent choice fits receiver method args
          | _ => rfl
      | _ => rfl

private theorem Block.visit_promoting (body : Block) {env : Environment}
    (fits : env.Fits material) :
    Block.visit (setting.promoting choice) body env = Block.visit setting body env := by
  rw [Block.visit_eq_foldl, Block.visit_eq_foldl]
  apply foldl_eq_of_keeps _ _ fits
  intro effect _ env fits
  exact ⟨effect.apply_promoting setting arrays absent choice fits,
    effect.apply_fits setting arrays fits⟩

end Sweeps

section Definitions

variable (setting : Setting) (arrays : setting.config.literalArrays = true → False)
  (choice : Bool)

include arrays

private theorem FunctionDef.firstSweep_promoting (definition : FunctionDef) (qualified : String)
    (className : Option String) {env : Environment} (sound : env.Sound False) :
    definition.firstSweep (setting.promoting choice) qualified className env =
      definition.firstSweep setting qualified className env := by
  have bound := Setting.bindParams_fits arrays sound definition className
  have registered := bound.2.setParams qualified bound.1
  simp only [firstSweep, Setting.bindParams_promoting]
  exact Block.visit_promoting setting arrays id choice definition.body registered

private theorem FunctionDef.visit_promoting (definition : FunctionDef) (qualified : String)
    (className : Option String) {env : Environment} (sound : env.Sound False) :
    definition.visit (setting.promoting choice) qualified className env =
      definition.visit setting qualified className env := by
  -- Over the functions nested in the function, for all names, classes and environments: the
  -- nested ones are visited under other names and in the environments that the sweep leaves.
  induction definition using FunctionDef.nested_induction generalizing qualified className env with
  | step definition induction =>
      have entered : (env.enterScope qualified).Sound False := (sound.move _).sound
      have swept := definition.firstSweep_sound arrays qualified className entered
      have step : ∀ inner ∈ definition.nested, ∀ env : Environment, env.Sound False →
          inner.visit (setting.promoting choice) (Dotted.join qualified inner.name) none env =
              inner.visit setting (Dotted.join qualified inner.name) none env ∧
            (inner.visit setting (Dotted.join qualified inner.name) none env).Sound False :=
        fun inner member env sound =>
          ⟨induction inner member _ none sound, inner.visit_sound arrays _ none sound⟩
      have nested := List.foldlRecOn (motive := Environment.Sound False) definition.nested _ swept
        fun env sound inner member => (step inner member env sound).2
      rw [FunctionDef.visit_eq, FunctionDef.visit_eq, Environment.inScope, Environment.inScope,
        Setting.recordReturn_promoting,
        definition.firstSweep_promoting setting arrays choice _ _ entered]
      simp only [FunctionDef.secondSweep, FunctionDef.visitNested, foldl_eq_of_keeps _ step swept,
        Block.visit_promoting setting arrays id choice definition.body nested]

end Definitions

private theorem ClassDef.visit_promoting {config : Config}
    (arrays : config.literalArrays = true → False) (choice : Bool) (definition : ClassDef)
    {env : Environment} (sound : env.Sound False) :
    definition.visit (config.promoting choice) env = definition.visit config env := by
  let setting : Setting := ⟨config, some definition.name⟩
  let visitMethod (setting : Setting) (env : Environment) (method : FunctionDef) : Environment :=
    method.visit setting (Dotted.join definition.name method.name) (some definition.name) env
  have attributes := List.foldlRecOn (motive := Environment.Sound False) definition.body
    (setting.visitClassAttribute definition.name) sound
    fun _ sound stmt _ => Setting.visitClassAttribute_sound arrays definition.name sound stmt
  have step : ∀ method ∈ definition.visitOrder, ∀ env : Environment, env.Sound False →
      visitMethod (setting.promoting choice) env method = visitMethod setting env method ∧
        (visitMethod setting env method).Sound False :=
    fun method _ env sound =>
      ⟨method.visit_promoting setting arrays choice _ _ sound, method.visit_sound arrays _ _ sound⟩
  calc definition.visit (config.promoting choice) env
      = definition.visitOrder.foldl (visitMethod (setting.promoting choice))
          (definition.body.foldl
            ((setting.promoting choice).visitClassAttribute definition.name) env) := rfl
    _ = definition.visitOrder.foldl (visitMethod (setting.promoting choice))
          (definition.body.foldl (setting.visitClassAttribute definition.name) env) := by
        rw [Setting.visitClassAttribute_promoting]
    _ = definition.visit config env := foldl_eq_of_keeps _ step attributes

/-! ## Stages -/

private theorem Environment.Sound.promote_eq_self {env : Environment} (sound : env.Sound False)
    (name : String) : env.promote name = env := by
  have kept : ∀ {table : Table Ty} {lifetime : Lifetime},
      table.All (fun type => type.Fits ⟨False, env.IsClosure⟩ lifetime) → ∀ name : String,
        table.modify name Ty.promoteArray = table :=
    fun all name =>
      (all.imp fun _ fits => fits.promoteArray_eq_self id).modify_eq_self name
  have fields : ∀ field : String, env.promoteFields field = env := by
    intro field
    have classes := sound.classes.imp fun info fits (_ : String) =>
      congrArg (fun fields => { info with fields := fields }) (kept fits.fields field)
    rw [Environment.promoteFields, classes.mapValues_eq_self]
  have scopes := sound.scopes.imp fun _ all (_ : String) => kept all name
  rw [Environment.promote]
  split
  · exact fields _
  · rw [Environment.promoteArrays, kept sound.globals, scopes.mapValues_eq_self]

namespace Program

variable {config : Config} (program : Program) (arrays : config.literalArrays = true → False)
  (choice : Bool)

include arrays

private theorem visitStatements_promoting {env : Environment} (sound : env.Sound False) :
    program.visitStatements (config.promoting choice) env = program.visitStatements config env :=
  Block.visit_promoting { config := config } arrays id choice _ sound

private theorem visitDefinitions_promoting {env : Environment} (sound : env.Sound False) :
    program.visitDefinitions (config.promoting choice) env =
      program.visitDefinitions config env := by
  apply foldl_eq_of_keeps _ _ sound
  intro stmt _ env sound
  cases stmt with
  | functionDef definition =>
      exact ⟨definition.visit_promoting { config := config } arrays choice _ none sound,
        definition.visit_sound arrays _ none sound⟩
  | classDef definition =>
      exact ⟨definition.visit_promoting arrays choice sound, definition.visit_sound arrays sound⟩
  | _ => exact ⟨rfl, sound⟩

/-- No stage depends on whether arrays are promoted. -/
theorem runStage_promoting {env : Environment} (sound : env.Sound False) (stage : Stage) :
    program.runStage (config.promoting choice) env stage = program.runStage config env stage := by
  cases stage with
  | captures => rfl
  | signatures => rfl
  | constructors =>
      have same := Setting.infer_promoting { config := config } choice
      rw [runStage, runStage, withConstructors, withConstructors, ← same]
      rfl
  | returns =>
      rw [runStage, runStage, withReturns, withReturns,
        program.visitDefinitions_promoting arrays choice sound]
      rfl
  | visit =>
      have before := program.visitStatements_sound arrays sound
      have definitions := program.visitDefinitions_sound arrays before
      rw [runStage, runStage, withVisit, withVisit,
        program.visitStatements_promoting arrays choice sound,
        program.visitDefinitions_promoting arrays choice before,
        program.visitStatements_promoting arrays choice definitions]
  | promotion =>
      have unchanged : ∀ config : Config, program.withPromotion config env = env := by
        intro config
        rw [withPromotion]
        split
        · exact List.foldlRecOn (motive := fun after => after = env) _ _ rfl
            fun _ same name _ => same ▸ sound.promote_eq_self name
        · rfl
      exact (unchanged _).trans (unchanged _).symm

private theorem runLater_promoting :
    ∀ stage ∈ [Stage.signatures, .constructors, .returns, .visit, .promotion],
      ∀ env : Environment, env.Sound False →
        program.runStage (config.promoting choice) env stage = program.runStage config env stage ∧
          (program.runStage config env stage).Sound False := by
  intro stage listed env sound
  constructor
  · exact program.runStage_promoting arrays choice sound stage
  · apply program.runStage_sound arrays sound
    rintro rfl
    simp at listed

private theorem analyze_promoting :
    program.analyze (config.promoting choice) = program.analyze config :=
  foldl_eq_of_keeps _ (program.runLater_promoting arrays choice) (program.withCaptures_sound False)

private theorem runStages_arrayFree :
    ∀ reached ∈ program.runStages config {} Stage.all, reached.2.Sound False := by
  have captures := program.withCaptures_sound False
  have later := forall_runStages config [.signatures, .constructors, .returns, .visit, .promotion]
    (fun stage listed env sound =>
      (program.runLater_promoting arrays true stage listed env sound).2) captures
  exact List.forall_mem_cons.mpr ⟨captures, later⟩

end Program

/-- With literal arrays off, no type that is kept after any stage has a fixed array in it,
at any depth, and it does not matter whether arrays are to be promoted. -/
theorem Program.arrays_absent (config : Config) (program : Program)
    (off : config.literalArrays = false) :
    (∀ reached ∈ program.runStages config {} Stage.all, ∀ type ∈ reached.2.storedTypes,
      ∀ element length, Ty.array element length ∉ type.parts) ∧
    program.analyze { config with promoteArrays := true } =
      program.analyze { config with promoteArrays := false } := by
  have arrays : config.literalArrays = true → False := by simp [off]
  constructor
  · intro reached member type isStored
    have fits := (program.runStages_arrayFree arrays reached member).storedTypes_fit type isStored
    exact fits.array_not_mem_parts id
  · calc program.analyze (config.promoting true)
        = program.analyze config := program.analyze_promoting arrays true
      _ = program.analyze (config.promoting false) :=
          (program.analyze_promoting arrays false).symm

theorem Program.arrays_absent_growing :
    Ty.array .int 2 ∈ (growing.analyze { promoteArrays := false }).storedTypes ∧
    growing.analyze { promoteArrays := true } ≠ growing.analyze { promoteArrays := false } ∧
    Ty.list .int ∈ (growing.analyze { literalArrays := false }).storedTypes ∧
    (∀ reached ∈ growing.runStages { literalArrays := false } {} Stage.all,
      ∀ type ∈ reached.2.storedTypes, ∀ element length,
        Ty.array element length ∉ type.parts) ∧
    growing.analyze { literalArrays := false, promoteArrays := true } =
      growing.analyze { literalArrays := false, promoteArrays := false } := by
  have absent := growing.arrays_absent { literalArrays := false } rfl
  exact ⟨by decide +kernel, by decide +kernel, by decide +kernel, absent.1, absent.2⟩

end NativeTyping

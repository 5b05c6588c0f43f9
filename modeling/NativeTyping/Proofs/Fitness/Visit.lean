import NativeTyping.Proofs.Fitness.Reading
import NativeTyping.Proofs.Simulation
/-!
A visit keeps an environment fit.

What is written to a class or a function is owned on the way, with one exception: a
mutating call writes back to a field what it makes of the type of that field. That type
lasts already, and the attributes that need not last, strings, are not mutated.

Statements add no closures, so a block is visited with one material throughout. Recording
a result can register a function, and then the material grows with the environment.
-/

namespace NativeTyping

variable {material : Material}

/-! ## Writes -/

private theorem Ty.Fits.mergeInto {type : Ty} {lifetime : Lifetime}
    (fits : type.Fits material lifetime) :
    ∀ present : Option Ty, (∀ old ∈ present, old.Fits material lifetime) →
      (type.mergeInto present).Fits material lifetime
  | Option.none, _ => fits
  | some old, known => (known old rfl).widen fits

namespace ClassInfo.Fits

variable {info : ClassInfo} {type : Ty}

private theorem widenField (fits : info.Fits material) (field : String)
    (typeFits : type.Fits material .lasting) : (info.widenField field type).Fits material :=
  { fits with fields := fits.fields.upsert field typeFits.mergeInto }

private theorem setField (fits : info.Fits material) (field : String)
    (typeFits : type.Fits material .lasting) : (info.setField field type).Fits material :=
  { fits with fields := fits.fields.insert field typeFits }

theorem setMethod (fits : info.Fits material) (method : String)
    (typeFits : type.Fits material .lasting) : (info.setMethod method type).Fits material :=
  { fits with methods := fits.methods.insert method typeFits }

private theorem within {larger : Material} (fits : info.Fits material)
    (within : material.Within larger) :
    info.Fits larger where
  fields := fits.fields.imp fun _ lasts => lasts.within within
  methods := fits.methods.imp fun _ lasts => lasts.within within

end ClassInfo.Fits

namespace Environment.Fits

variable {env : Environment}

private theorem updateAt (fits : env.Fits material) (owner : Owner) (name : String)
    {update : Option Ty → Ty} (step : ∀ present, (∀ old ∈ present, old.Fits material .passing) →
      (update present).Fits material .passing) :
    (env.updateAt owner name update).Fits material := by
  cases owner with
  | program => exact { fits with globals := fits.globals.upsert name step }
  | scope scope =>
      have scopes := fits.scopes.upsert scope fun _ known =>
        (Table.All.getD_empty known).upsert name step
      exact { fits with scopes := scopes }

private theorem putVar (fits : env.Fits material) (name : String) {type : Ty}
    (typeFits : type.Fits material .passing) : (env.putVar name type).Fits material :=
  fits.updateAt _ name fun _ _ => typeFits

private theorem widenVar (fits : env.Fits material) (name : String) {type : Ty}
    (typeFits : type.Fits material .passing) : (env.widenVar name type).Fits material :=
  fits.updateAt _ name typeFits.mergeInto

private theorem refineVar (fits : env.Fits material) (name : String) {type : Ty}
    (typeFits : type.Fits material .passing) :
    ((env.refineVar? name type).getD env).Fits material := by
  unfold Environment.refineVar?
  cases env.readOwner? name with
  | none => exact fits
  | some owner => exact fits.updateAt owner name fun _ _ => typeFits

private theorem modifyClass (fits : env.Fits material) (className : String)
    {change : ClassInfo → ClassInfo}
    (step : ∀ info : ClassInfo, info.Fits material → (change info).Fits material) :
    (env.modifyClass className change).Fits material :=
  { fits with classes := fits.classes.modify className step }

private theorem declareOuter (fits : env.Fits material) (name : String) :
    (env.declareOuter name).Fits material := by
  unfold Environment.declareOuter
  split
  · exact fits
  · exact { fits with }

private theorem addImport (fits : env.Fits material) (name target : String) :
    (env.addImport name target).Fits material :=
  { fits with }

theorem setParams (fits : env.Fits material) (function : String) {types : List Ty}
    (fit : ∀ type ∈ types, type.Fits material .lasting) :
    (env.setParams function types).Fits material :=
  { fits with params := fits.params.insert function fit }

theorem move (fits : env.Fits material) (stack : List String) :
    Environment.Fits material { env with scopeStack := stack } :=
  { fits with }

theorem registerImports (fits : env.Fits material) (stmt : Stmt) :
    (env.registerImports stmt).Fits material := by
  unfold Environment.registerImports
  split
  · refine List.foldlRecOn (motive := Environment.Fits material) _ _ fits ?_
    intro env fits imported _
    unfold Environment.importModule
    split <;> exact fits.addImport _ _
  · refine List.foldlRecOn (motive := Environment.Fits material) _ _ fits ?_
    intro env fits imported _
    exact fits.addImport _ _
  · exact fits

end Environment.Fits

/-! ## Statements -/

namespace Setting

variable {setting : Setting} {env : Environment}

/-- Storing under an index makes a container that owns what it holds. -/
theorem storedInto?_fits {container indexType value : Ty}
    (containerFits : container.Fits material .passing)
    (indexFits : indexType.Fits material .passing) (valueFits : value.Fits material .passing)
    (index : Expr) :
    ∀ changed ∈ storedInto? container index indexType value, changed.Fits material .lasting := by
  intro changed found
  unfold storedInto? at found
  split at found
  · cases found
    exact ⟨(containerFits.1.passing.widen indexFits).owned, (containerFits.2.widen valueFits).owned⟩
  · rename_i element
    cases found
    have elementFits : element.Fits material .passing := containerFits
    exact (elementFits.widen valueFits).owned
  · split at found
    · cases found
      exact ⟨Ty.text_fits, valueFits.owned⟩
    · cases found
  · cases found

private theorem mutableReceiver_fits (config : Config) {receiver : Ty} {lifetime : Lifetime}
    (fits : receiver.Fits material lifetime) (method : String) :
    (mutableReceiver config receiver method).Fits material lifetime := by
  unfold mutableReceiver
  split
  · exact fits.promoteArray
  · exact fits

private theorem mutated_fits (config : Config) {receiver : Ty} {lifetime : Lifetime}
    (fits : receiver.Fits material lifetime) (method : String) {args : List Ty}
    (argsFit : ∀ type ∈ args, type.Fits material .passing) :
    ((Mutation.refine? (mutableReceiver config receiver method) method args).getD
      (mutableReceiver config receiver method)).Fits material lifetime := by
  have mutableFits := mutableReceiver_fits config fits method
  cases refined : Mutation.refine? (mutableReceiver config receiver method) method args with
  | none => exact mutableFits
  | some changed => exact Mutation.refine?_fits mutableFits method argsFit changed refined

private theorem mutated_of_isString (config : Config) {receiver : Ty}
    (isString : receiver.isString = true) (method : String) (args : List Ty) :
    (Mutation.refine? (mutableReceiver config receiver method) method args).getD
      (mutableReceiver config receiver method) = receiver := by
  have same : mutableReceiver config receiver method = receiver := by
    cases receiver with
    | str kind =>
        unfold mutableReceiver
        split <;> rfl
    | _ => cases isString
  rw [same, Mutation.refine?_of_isString isString]
  rfl

theorem bindException_fits (fits : env.Fits material)
    (exception name : Option String) : (bindException env exception name).Fits material := by
  unfold bindException
  split
  · exact fits.widenVar _ trivial
  · exact fits

private theorem enteredType_fits (fits : env.Fits material) {manager : Ty}
    (managerFits : manager.Fits material .passing) :
    (enteredType env manager).Fits material .passing := by
  have entered : ∀ entered? : Option Ty, (∀ type ∈ entered?, type.Fits material .lasting) →
      (entered?.getD manager).Fits material .passing := by
    intro entered? known
    cases entered? with
    | none => exact managerFits
    | some type => exact (known type rfl).passing
  unfold enteredType
  apply entered
  split
  · exact fits.methodReturn? _ "__enter__"
  · exact Facility.method?_fits _ "__enter__"
  · simp

private theorem changeOwner_fits (fits : env.Fits material) (value : Expr) (attr : String)
    {change : ClassInfo → ClassInfo}
    (step : ∀ info : ClassInfo, info.Fits material → (change info).Fits material) :
    (setting.changeOwner env value attr change).Fits material := by
  unfold changeOwner
  split
  · exact fits.modifyClass _ step
  · exact fits

/-- What is written to a variable may be held for a while; what is written to a field has
to last. -/
theorem writeBackChanged_fits (fits : env.Fits material) (target : Expr) {present changed : Ty}
    (changedFits : changed.Fits material .passing)
    (lasts : ∀ value attr, target = .attribute value attr → changed ≠ present →
      changed.Fits material .lasting) :
    (setting.writeBackChanged env target present changed).Fits material := by
  unfold writeBackChanged
  split
  · exact fits
  · rename_i differs
    unfold writeBack
    split
    · exact fits.refineVar _ changedFits
    · rename_i value attr
      have changedLasts := lasts value attr rfl differs
      exact changeOwner_fits fits value attr fun _ known => known.setField attr changedLasts
    · exact fits

variable (arrays : setting.config.literalArrays = true → material.arrays)

include arrays

theorem context_fits (fits : env.Fits material) : (setting.context env).Fits material :=
  ⟨arrays, fits, by simp [context]⟩

theorem infer_fits (fits : env.Fits material) (expr : Expr) :
    (setting.infer env expr).Fits material .passing :=
  (expr.read_fits (context_fits arrays fits)).value

private theorem annotatedType_fits (fits : env.Fits material) (hint : String)
    (value : Option Expr) :
    (setting.annotatedType env hint value).Fits material .passing := by
  have declared : (setting.config.hintType (some hint)).Fits material .passing :=
    (setting.config.hintType_fits _).passing
  unfold annotatedType
  dsimp only
  split
  · split
    · exact infer_fits arrays fits _
    · exact declared
  · exact declared

private theorem targetType_fits (fits : env.Fits material) (target : Target) :
    (setting.targetType env target).Fits material .passing := by
  match target with
  | .place (.name id) => exact (context_fits arrays fits).lookupName id
  | .place (.attribute value attr) => exact infer_fits arrays fits (.attribute value attr)
  | .place (.subscript base index) => exact fits.subscriptType index (infer_fits arrays fits base)
  | .tuple items | .starred inner => exact Ty.unknown_fits

private theorem assignSubscript_fits (fits : env.Fits material) (base index : Expr) {value : Ty}
    (valueFits : value.Fits material .passing) :
    (setting.assignSubscript env base index value).Fits material := by
  have stored := storedInto?_fits (infer_fits arrays fits base) (infer_fits arrays fits index)
    valueFits index
  unfold assignSubscript
  dsimp only
  split
  · rename_i changed isStored
    have lasts := stored changed isStored
    exact writeBackChanged_fits fits base lasts.passing fun _ _ _ _ => lasts
  · exact fits

private theorem assignPlace_fits (fits : env.Fits material) (place : Place) {type : Ty}
    (typeFits : type.Fits material .passing) :
    (setting.assignPlace env place type).Fits material := by
  match place with
  | .name id => exact fits.widenVar id typeFits
  | .attribute value attr =>
      exact changeOwner_fits fits value attr fun _ known => known.widenField attr typeFits.owned
  | .subscript base index => exact assignSubscript_fits arrays fits base index typeFits

theorem assign_fits (fits : env.Fits material) (target : Target) {type : Ty}
    (typeFits : type.Fits material .passing) : (setting.assign env target type).Fits material := by
  refine List.foldlRecOn (motive := Environment.Fits material) _ _ fits ?_
  intro env fits part member
  exact assignPlace_fits arrays fits part.1 (target.unpack_fits typeFits part member)

private theorem applyMutation_fits (fits : env.Fits material) (receiver : Expr) (method : String)
    (args : List Expr) : (setting.applyMutation env receiver method args).Fits material := by
  have argsFit : ∀ type ∈ args.map (setting.infer env), type.Fits material .passing := by
    intro type member
    rcases List.mem_map.mp member with ⟨arg, _, rfl⟩
    exact infer_fits arrays fits arg
  have presentFits := infer_fits arrays fits receiver
  apply writeBackChanged_fits fits receiver (mutated_fits setting.config presentFits method argsFit)
  intro value attr isAttribute differs
  subst isAttribute
  rcases (context_fits arrays fits).attributeType value (setting.infer env value) attr with
    lasts | isString
  · exact mutated_fits setting.config lasts method argsFit
  -- A string is not refined, so it would not have been written back.
  · exact absurd (mutated_of_isString setting.config isString method _) differs

theorem enterContext_fits (fits : env.Fits material) (item : WithItem) :
    (setting.enterContext env item).Fits material := by
  unfold enterContext
  split
  · have managerFits := infer_fits arrays fits item.context
    exact assign_fits arrays fits _ (enteredType_fits fits managerFits)
  · exact fits

theorem visitSimple_fits (fits : env.Fits material) (stmt : Stmt) :
    (setting.visitSimple env stmt).Fits material := by
  have declared : ∀ names : List String, (names.foldl Environment.declareOuter env).Fits material :=
    fun names => List.foldlRecOn (motive := Environment.Fits material) names _ fits
      fun _ fits name _ => fits.declareOuter name
  unfold visitSimple
  split
  · rename_i targets value
    have valueFits := infer_fits arrays fits value
    refine List.foldlRecOn (motive := Environment.Fits material) _ _ fits ?_
    intro env fits target _
    exact assign_fits arrays fits target valueFits
  · exact assign_fits arrays fits _ (annotatedType_fits arrays fits _ _)
  · rename_i target op value
    have presentFits := targetType_fits arrays fits target
    have valueFits := infer_fits arrays fits value
    exact assign_fits arrays fits target (fits.binaryType op presentFits valueFits)
  · exact applyMutation_fits arrays fits _ _ _
  · exact fits.registerImports _
  · exact fits.registerImports _
  · exact declared _
  · exact declared _
  · exact fits

end Setting

mutual

theorem Stmt.visit_fits {setting : Setting}
    (arrays : setting.config.literalArrays = true → material.arrays) (stmt : Stmt)
    {env : Environment} (fits : env.Fits material) : (stmt.visit setting env).Fits material := by
  cases stmt with
  | ifElse test body orelse | whileLoop test body orelse =>
      have afterBody := Block.visit_fits arrays body fits
      exact Block.visit_fits arrays orelse afterBody
  | forLoop target iter body orelse =>
      have itemFits := (iter.read_fits (Setting.context_fits arrays fits)).item
      have bound := Setting.assign_fits arrays fits target itemFits
      have afterBody := Block.visit_fits arrays body bound
      exact Block.visit_fits arrays orelse afterBody
  | tryExcept body handlers orelse finalbody =>
      have afterBody := Block.visit_fits arrays body fits
      have handled := visitHandlers_fits arrays handlers afterBody
      have afterElse := Block.visit_fits arrays orelse handled
      exact Block.visit_fits arrays finalbody afterElse
  | withBlock items body =>
      have entered := List.foldlRecOn (motive := Environment.Fits material) items
        setting.enterContext fits fun _ fits item _ => Setting.enterContext_fits arrays fits item
      exact Block.visit_fits arrays body entered
  | _ =>
      simp only [Stmt.visit]
      exact Setting.visitSimple_fits arrays fits _

theorem Block.visit_fits {setting : Setting}
    (arrays : setting.config.literalArrays = true → material.arrays) (body : List Stmt)
    {env : Environment} (fits : env.Fits material) :
    (Block.visit setting body env).Fits material := by
  cases body with
  | nil => exact fits
  | cons stmt rest =>
      have visited := Stmt.visit_fits arrays stmt fits
      exact Block.visit_fits arrays rest visited

theorem visitHandlers_fits {setting : Setting}
    (arrays : setting.config.literalArrays = true → material.arrays) (handlers : List Handler)
    {env : Environment} (fits : env.Fits material) :
    (visitHandlers setting handlers env).Fits material := by
  cases handlers with
  | nil => exact fits
  | cons handler rest =>
      rcases handler with ⟨exception, name, body⟩
      have bound := Setting.bindException_fits fits exception name
      have visited := Block.visit_fits arrays body bound
      exact visitHandlers_fits arrays rest visited

end

/-! ## Parameters and results -/

namespace Setting

variable {setting : Setting} {env : Environment}

private theorem constructorArgs_fit (fits : env.Fits material) (definition : FunctionDef)
    (className : Option String) :
    ∀ type ∈ constructorArgs env definition className, type.Fits material .passing := by
  unfold constructorArgs
  split
  · cases found : className.bind env.constructorArgs.get? with
    | none => simp
    | some types =>
        rcases Option.bind_eq_some_iff.mp found with ⟨owner, _, recorded⟩
        exact fits.constructorArgs.get? owner types recorded
  · simp

variable (arrays : setting.config.literalArrays = true → material.arrays)

include arrays

private theorem paramType_fits (fits : env.Fits material) (param : Param) {arg : Option Ty}
    (argFits : ∀ type ∈ arg, type.Fits material .passing) :
    (setting.paramType env param arg).Fits material .lasting := by
  have declared : (setting.config.hintType param.hint).Fits material .lasting :=
    setting.config.hintType_fits param.hint
  unfold paramType
  extract_lets declaredType given
  have givenFits : given.Fits material .lasting := by
    unfold given
    split
    · exact (infer_fits arrays fits _).owned
    · exact declared
  clear_value given
  split
  · rename_i type
    split
    · exact (givenFits.passing.widen (argFits type rfl)).owned
    · exact givenFits
  · exact givenFits

private theorem bindPlainParams_fits (params : List Param) {args : List Ty}
    (argsFit : ∀ type ∈ args, type.Fits material .passing) {env : Environment}
    (fits : env.Fits material) :
    (∀ type ∈ (setting.bindPlainParams params args env).1, type.Fits material .lasting) ∧
      (setting.bindPlainParams params args env).2.Fits material := by
  induction params generalizing args env with
  | nil => exact ⟨by simp [bindPlainParams], fits⟩
  | cons param rest induction =>
      have typeFits := paramType_fits arrays fits param
        fun type isFirst => argsFit type (List.mem_of_mem_head? isFirst)
      have later := induction (fun type member => argsFit type (List.mem_of_mem_tail member))
        (fits.putVar param.name typeFits.passing)
      exact ⟨List.forall_mem_cons.mpr ⟨typeFits, later.1⟩, later.2⟩

theorem bindParams_fits (fits : env.Fits material) (definition : FunctionDef)
    (className : Option String) :
    (∀ type ∈ (setting.bindParams definition className env).1, type.Fits material .lasting) ∧
      (setting.bindParams definition className env).2.Fits material := by
  have argsFit := constructorArgs_fit fits definition className
  unfold bindParams
  dsimp only
  split
  · split
    · exact bindPlainParams_fits arrays _ argsFit fits
    · exact bindPlainParams_fits arrays _ argsFit (fits.putVar _ trivial)
  · exact bindPlainParams_fits arrays _ argsFit fits

private theorem bodyResult_fits (fits : env.Fits material) (body : Block) :
    (setting.bodyResult env body).Fits material .lasting := by
  have returned : ∀ type ∈ setting.returnTypes env body, type.Fits material .passing := by
    intro type member
    rcases List.mem_filterMap.mp member with ⟨stmt, _, isReturn⟩
    split at isReturn
    · cases isReturn
      exact infer_fits arrays fits _
    · cases isReturn
      trivial
    · cases isReturn
  unfold bodyResult
  split
  · trivial
  · exact (Ty.fits_widenAll returned).owned

end Setting

/-! ## Functions -/

/-- All types that are kept fit, with just the closures of the environment itself. -/
def Environment.Sound (arrays : Prop) (env : Environment) : Prop :=
  env.Fits ⟨arrays, env.IsClosure⟩

theorem Environment.Fits.sound {env : Environment} (fits : env.Fits material) :
    env.Sound material.arrays := by
  have same : material.closures = env.IsClosure := by
    funext function
    exact propext (fits.closures function).symm
  rw [Environment.Sound, ← same]
  exact fits

namespace Environment.Sound

variable {arrays : Prop} {env : Environment}

/-- A result that is recorded can make its function a closure, and takes none away. -/
theorem within_setReturn (arrays : Prop) (env : Environment) (function : String) (result : Ty) :
    Material.Within ⟨arrays, env.IsClosure⟩
      ⟨arrays, (env.setReturn function result).IsClosure⟩ where
  arrays := id
  closures := by
    intro name isClosure
    exact ⟨(Table.mem_keys_upsert ..).mpr (.inl isClosure.1), isClosure.2⟩

theorem setReturn (sound : env.Sound arrays) (function : String) {result : Ty}
    (resultFits : result.Fits ⟨arrays, env.IsClosure⟩ .lasting) :
    (env.setReturn function result).Sound arrays := by
  have within := within_setReturn arrays env function result
  constructor
  · exact sound.globals.imp fun _ fits => fits.within within
  · exact sound.scopes.imp fun _ all => all.imp fun _ fits => fits.within within
  · exact sound.classes.imp fun _ fits => fits.within within
  · have kept := sound.returns.imp fun _ fits => fits.within within
    exact kept.insert function (resultFits.within within)
  · exact sound.params.imp fun _ fit type member => (fit type member).within within
  · exact sound.constructorArgs.imp fun _ fit type member => (fit type member).within within
  · exact fun _ => Iff.rfl

end Environment.Sound

section

variable {allowed : Prop} {setting : Setting}
  (arrays : setting.config.literalArrays = true → allowed)

include arrays

private theorem Setting.recordReturn_sound (definition : FunctionDef) (qualified : String)
    (className : Option String) {env : Environment} (sound : env.Sound allowed) :
    (setting.recordReturn definition qualified className env).Sound allowed := by
  have resultFits := Setting.bodyResult_fits arrays sound definition.body
  have recorded := sound.setReturn qualified resultFits
  unfold Setting.recordReturn
  dsimp only
  split
  · split
    · have lasts := resultFits.within
        (Environment.Sound.within_setReturn allowed env qualified
          (setting.bodyResult env definition.body))
      exact (recorded.modifyClass _ fun _ known => known.setMethod definition.name lasts).sound
    · exact recorded
  · exact sound

theorem FunctionDef.firstSweep_sound (definition : FunctionDef) (qualified : String)
    (className : Option String) {env : Environment} (sound : env.Sound allowed) :
    (definition.firstSweep setting qualified className env).Sound allowed := by
  have bound := Setting.bindParams_fits arrays sound definition className
  have registered := bound.2.setParams qualified bound.1
  exact (Block.visit_fits arrays definition.body registered).sound

theorem FunctionDef.visit_sound (definition : FunctionDef) (qualified : String)
    (className : Option String) {env : Environment} (sound : env.Sound allowed) :
    (definition.visit setting qualified className env).Sound allowed := by
  -- Over the functions nested in the function, for all names, classes and environments: the
  -- nested ones are visited under other names and in the environments that the sweep leaves.
  induction definition using FunctionDef.nested_induction generalizing qualified className env with
  | step definition induction =>
      rw [FunctionDef.visit_eq]
      have entered : (env.enterScope qualified).Sound allowed := (sound.move _).sound
      have swept := definition.firstSweep_sound arrays qualified className entered
      have settled : (definition.secondSweep setting qualified
          (definition.firstSweep setting qualified className
            (env.enterScope qualified))).Sound allowed := by
        unfold FunctionDef.secondSweep
        split
        · exact swept
        · have nested := List.foldlRecOn (motive := Environment.Sound allowed) definition.nested
            (fun env inner => inner.visit setting (Dotted.join qualified inner.name) none env)
            swept fun _ sound inner member => induction inner member _ none sound
          exact (Block.visit_fits arrays definition.body nested).sound
      have recorded := Setting.recordReturn_sound arrays definition qualified className settled
      exact (recorded.move _).sound

end

/-! ## Classes -/

theorem Setting.visitClassAttribute_sound {allowed : Prop} {setting : Setting}
    (arrays : setting.config.literalArrays = true → allowed) (className : String)
    {env : Environment} (sound : env.Sound allowed) (stmt : Stmt) :
    (setting.visitClassAttribute className env stmt).Sound allowed := by
  have typed : ∀ name type, setting.classAttribute? env stmt = some (name, type) →
      type.Fits ⟨allowed, env.IsClosure⟩ .passing := by
    intro name type found
    unfold Setting.classAttribute? at found
    split at found
    · cases found
      exact Setting.annotatedType_fits arrays sound _ _
    · cases found
      exact Setting.infer_fits arrays sound _
    · cases found
  unfold Setting.visitClassAttribute
  split
  · rename_i name type found
    have lasts := (typed name type found).owned
    exact (sound.modifyClass className fun _ known => known.widenField name lasts).sound
  · exact sound

theorem ClassDef.visit_sound {allowed : Prop} {config : Config}
    (arrays : config.literalArrays = true → allowed) (definition : ClassDef) {env : Environment}
    (sound : env.Sound allowed) : (definition.visit config env).Sound allowed := by
  have attributes := List.foldlRecOn (motive := Environment.Sound allowed) definition.body
    (Setting.visitClassAttribute ⟨config, some definition.name⟩ definition.name) sound
    fun _ sound stmt _ => Setting.visitClassAttribute_sound arrays definition.name sound stmt
  exact List.foldlRecOn (motive := Environment.Sound allowed) definition.visitOrder _ attributes
    fun _ sound method _ => method.visit_sound arrays _ _ sound

end NativeTyping

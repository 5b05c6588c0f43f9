import NativeTyping.Proofs.Hierarchy
import NativeTyping.Proofs.LocalVariable
import NativeTyping.Proofs.Registration
/-!
Results that a program declares.

A function is registered with the type that its hint stands for, and a method also with
its class. Every later visit comes to the function again, but a sweep records no result,
and at the end of a visit one is recorded only if the hint says nothing. So a declared
result is never replaced, whatever the function returns.
-/

namespace NativeTyping

/-! ## Results on record -/

namespace Environment

private theorem ownMethod?_modifyClass (env : Environment) (changed className method : String)
    (change : ClassInfo → ClassInfo) :
    (env.modifyClass changed change).ownMethod? className method =
      (env.classes.get? className).bind fun info =>
        (if className = changed then change info else info).methods.get? method := by
  rw [ownMethod?, modifyClass, Table.get?_modify, Option.bind_map]
  rfl

structure SameResults (before after : Environment) : Prop where
  returns : after.returns = before.returns
  methods : ∀ className method,
    after.ownMethod? className method = before.ownMethod? className method

namespace SameResults

variable {before between after : Environment}

private theorem of_registries (returns : after.returns = before.returns)
    (classes : after.classes = before.classes) : SameResults before after where
  returns := returns
  methods className method := by rw [ownMethod?, ownMethod?, classes]

private theorem move (env : Environment) (stack : List String) :
    SameResults env { env with scopeStack := stack } :=
  .of_registries rfl rfl

private theorem trans (left : SameResults before between) (right : SameResults between after) :
    SameResults before after where
  returns := right.returns.trans left.returns
  methods className method :=
    (right.methods className method).trans (left.methods className method)

private theorem modifyClass (env : Environment) (className : String)
    {change : ClassInfo → ClassInfo} (keeps : ∀ info, (change info).methods = info.methods) :
    SameResults env (env.modifyClass className change) where
  returns := rfl
  methods other method := by
    rw [ownMethod?_modifyClass, ownMethod?]
    congr 1
    funext info
    split
    · rw [keeps]
    · rfl

end SameResults

variable {env after : Environment} {place : Option String} {assigned declared : List String}

private theorem classes_updateAt (env : Environment) (owner : Owner) (name : String)
    (update : Option Ty → Ty) : (env.updateAt owner name update).classes = env.classes := by
  cases owner <;> rfl

private theorem Write.sameResults (write : env.Write place assigned declared after) :
    SameResults env after := by
  cases write with
  | bind | refine => exact .of_registries (returns_updateAt _ _ _ _) (classes_updateAt _ _ _ _)
  | changeClass className keeps => exact .modifyClass env className keeps
  | addImport => exact .of_registries rfl rfl
  | declare =>
      rw [declareOuter]
      split <;> exact .of_registries rfl rfl

private theorem Writes.sameResults (writes : env.Writes place assigned declared after) :
    SameResults env after :=
  writes.keep (fun write same => same.trans write.sameResults) (.of_registries rfl rfl)

end Environment

/-! ## What a visit records -/

section Records

variable (setting : Setting)

private theorem Block.visit_sameResults (body : Block) (env : Environment) :
    env.SameResults (Block.visit setting body env) :=
  (Block.visit_writes setting rfl body (List.Subset.refl _) (List.Subset.refl _)).sameResults

private theorem FunctionDef.firstSweep_sameResults (definition : FunctionDef) (qualified : String)
    (className : Option String) (env : Environment) :
    env.SameResults (definition.firstSweep setting qualified className env) := by
  have bound : env.Writes env.currentScope? (definition.params.map Param.name) []
      (setting.bindParams definition className env).2 :=
    setting.bindParams_writes definition className rfl (List.Subset.refl _)
  have entered : env.SameResults ((setting.bindParams definition className env).2.setParams
      qualified (setting.bindParams definition className env).1) :=
    bound.sameResults.trans (.of_registries rfl rfl)
  exact entered.trans (Block.visit_sameResults setting definition.body _)

/-- What depends on the results on record alone lasts through the visit of a function, if
it lasts when the function and those nested in it have their results recorded. -/
theorem FunctionDef.visit_records {Holds : Environment → Prop}
    (respects : ∀ {before after : Environment}, before.SameResults after →
      Holds before → Holds after)
    (definition : FunctionDef) {qualified : String} {enclosing : List (String × FunctionDef)}
    (className : Option String)
    (own : ∀ {env : Environment}, Holds env →
      Holds (setting.recordReturn definition qualified className env))
    (nested : ∀ site ∈ definition.sites qualified enclosing, ∀ {env : Environment}, Holds env →
      Holds (setting.recordReturn site.definition site.name none env))
    {env : Environment} (holds : Holds env) :
    Holds (definition.visit setting qualified className env) := by
  induction definition using FunctionDef.nested_induction
    generalizing qualified enclosing className env with
  | step definition induction =>
  rw [FunctionDef.sites_eq, List.forall_mem_cons] at nested
  have visited {env : Environment} (holds : Holds env) :
      Holds (definition.visitNested setting qualified env) := by
    refine List.foldlRecOn (motive := Holds) _ _ holds ?_
    intro env holds inner isNested
    have inside : ∀ site ∈ inner.sites (Dotted.join qualified inner.name)
        (enclosing ++ [(qualified, definition)]), ∀ {env : Environment}, Holds env →
          Holds (setting.recordReturn site.definition site.name none env) :=
      fun site member => nested.2 site (List.mem_flatMap.mpr ⟨inner, isNested, member⟩)
    exact induction inner isNested none (inside _ (inner.mem_sites _ _)) inside holds
  have swept : Holds (definition.firstSweep setting qualified className
      (env.enterScope qualified)) :=
    respects (definition.firstSweep_sameResults setting qualified className _)
      (respects (.move env _) holds)
  have again : Holds (definition.secondSweep setting qualified
      (definition.firstSweep setting qualified className (env.enterScope qualified))) := by
    rw [FunctionDef.secondSweep]
    split
    · exact swept
    · exact respects (Block.visit_sameResults setting _ _) (visited swept)
  rw [FunctionDef.visit_eq, Environment.inScope]
  exact respects (.move _ _) (own again)

variable {env : Environment} {definition : FunctionDef} {qualified : String}
  {className : Option String}

private theorem Setting.recordReturn_of_known
    (known : (setting.config.hintType definition.returnHint).isUnknown = false) :
    setting.recordReturn definition qualified className env = env := by
  rw [Setting.recordReturn, known, Bool.and_false]
  rfl

private theorem Setting.get?_returns_recordReturn {name : String} (other : name ≠ qualified) :
    (setting.recordReturn definition qualified className env).returns.get? name =
      env.returns.get? name := by
  rw [Setting.recordReturn]
  split
  · cases className <;> exact Table.get?_insert_of_ne _ other _
  · rfl

private theorem Setting.ownMethod?_recordReturn {owner method : String}
    (other : className = some owner → definition.name ≠ method) :
    (setting.recordReturn definition qualified className env).ownMethod? owner method =
      env.ownMethod? owner method := by
  rw [Setting.recordReturn]
  split
  · cases className with
    | none => rfl
    | some present =>
        rw [Environment.ownMethod?_modifyClass]
        have kept (info : ClassInfo) :
            (if owner = present then
                info.setMethod definition.name (setting.bodyResult env definition.body)
              else info).methods.get? method = info.methods.get? method := by
          split
          · rename_i same
            subst same
            exact Table.get?_insert_of_ne _ (Ne.symm (other rfl)) _
          · rfl
        simp only [kept]
        rfl
  · rfl

end Records

/-! ## Declared results -/

/-- A function has a result on record: under its dotted name and, if it is a method, with
each class that defines it. -/
structure Program.Records (program : Program) (name : String) (definition : FunctionDef)
    (result : Ty) (env : Environment) : Prop where
  function : env.returns.get? name = some result
  method : ∀ owner, .classDef owner ∈ program.body → .functionDef definition ∈ owner.body →
    env.ownMethod? owner.name definition.name = some result

namespace Program

variable {program : Program}

private theorem Defines.unique (distinct : (program.sites.map Site.name).Nodup) {name : String}
    {left right : FunctionDef} (isLeft : program.Defines name left)
    (isRight : program.Defines name right) : left = right := by
  rcases exists_site_of_defines isLeft with ⟨leftSite, leftMember, leftName, rfl⟩
  rcases exists_site_of_defines isRight with ⟨rightSite, rightMember, rightName, rfl⟩
  rw [eq_of_name_eq distinct rightMember leftMember (leftName.trans rightName.symm)]

namespace Records

variable {name : String} {definition : FunctionDef} {result : Ty} {before after : Environment}

private theorem respects (same : before.SameResults after)
    (records : program.Records name definition result before) :
    program.Records name definition result after where
  function := by rw [same.returns]; exact records.function
  method owner standing inside := by
    rw [same.methods]
    exact records.method owner standing inside

variable {config : Config} (distinct : (program.sites.map Site.name).Nodup)
  (defined : program.Defines name definition)
  (known : (config.hintType definition.returnHint).isUnknown = false)

include distinct defined known

/-- The visit of a function of the program records nothing in place of a declared result.
If the function is the one with that result, then nothing at all is recorded. -/
theorem recordReturn {setting : Setting} (configured : setting.config = config)
    {recorded : String} {recordedDefinition : FunctionDef} {className : Option String}
    (isDefined : program.Defines recorded recordedDefinition)
    (named : ∀ owner ∈ className, recorded = Dotted.join owner recordedDefinition.name)
    {env : Environment} (records : program.Records name definition result env) :
    program.Records name definition result
      (setting.recordReturn recordedDefinition recorded className env) := by
  rw [← configured] at known
  by_cases same : recordedDefinition = definition
  · rw [same, setting.recordReturn_of_known known]
    exact records
  constructor
  · rw [setting.get?_returns_recordReturn]
    · exact records.function
    · intro sameName
      subst sameName
      exact same (isDefined.unique distinct defined)
  · intro owner standing inside
    rw [setting.ownMethod?_recordReturn]
    · exact records.method owner standing inside
    · intro isOwner sameMethod
      have isMethod := named owner.name isOwner
      rw [sameMethod] at isMethod
      subst isMethod
      exact same (isDefined.unique distinct (.method standing inside))

private theorem visitFunction {setting : Setting} (configured : setting.config = config)
    (visited : FunctionDef) {qualified : String} {className : Option String}
    (inside : ∀ site ∈ visited.sites qualified [], site ∈ program.sites)
    (named : ∀ owner ∈ className, qualified = Dotted.join owner visited.name)
    {env : Environment} (records : program.Records name definition result env) :
    program.Records name definition result
      (visited.visit setting qualified className env) := by
  have isDefined : ∀ site ∈ visited.sites qualified [],
      program.Defines site.name site.definition :=
    fun site member => defines_of_mem (inside site member)
  have isVisited : program.Defines qualified visited :=
    isDefined _ (visited.mem_sites qualified [])
  have nested : ∀ site ∈ visited.sites qualified [], ∀ {env : Environment},
      program.Records name definition result env →
        program.Records name definition result
          (setting.recordReturn site.definition site.name none env) :=
    fun site member _ records =>
      recordReturn distinct defined known configured (isDefined site member) (by simp) records
  refine visited.visit_records setting respects className ?_ nested records
  intro env records
  exact recordReturn distinct defined known configured isVisited named records

private theorem visitDefinition {stmt : Stmt} (standing : stmt ∈ program.body) {env : Environment}
    (records : program.Records name definition result env) :
    program.Records name definition result (stmt.visitDefinition config env) := by
  have inside : ∀ root ∈ stmt.rootFunctions, ∀ site ∈ root.2.sites root.1 [],
      site ∈ program.sites := by
    intro root isRoot site member
    rw [Program.sites_eq]
    exact List.mem_flatMap.mpr
      ⟨stmt, standing, List.mem_flatMap.mpr ⟨root, isRoot, member⟩⟩
  cases stmt with
  | functionDef visited =>
      exact visitFunction distinct defined known rfl visited
        (inside (visited.name, visited) List.mem_cons_self) (by simp) records
  | classDef owner =>
      rw [Stmt.visitDefinition, ClassDef.visit]
      refine List.foldlRecOn (motive := program.Records name definition result) _ _ ?_ ?_
      · refine List.foldlRecOn (motive := program.Records name definition result) _ _ records ?_
        intro env records stmt _
        exact respects (Setting.visitClassAttribute_writes _ _ stmt env).sameResults records
      · intro env records method isVisited
        have isMethod := owner.visitOrder_perm.mem_iff.mp isVisited
        refine visitFunction distinct defined known rfl method ?_ ?_ records
        · exact inside _ (List.mem_map_of_mem isMethod)
        · intro className isOwner
          rw [← Option.mem_some.mp isOwner]
  | _ => exact records

private theorem visitDefinitions {env : Environment}
    (records : program.Records name definition result env) :
    program.Records name definition result (program.visitDefinitions config env) :=
  List.foldlRecOn (motive := program.Records name definition result) _ _ records
    fun _ records _ standing => visitDefinition distinct defined known standing records

/-- A declared result on record stays there in every stage after the signatures. -/
theorem runStage {stage : Stage} (later : stage ∉ [.captures, .signatures]) {env : Environment}
    (records : program.Records name definition result env) :
    program.Records name definition result (program.runStage config env stage) := by
  cases stage with
  | captures | signatures => simp at later
  | constructors =>
      refine List.foldlRecOn (motive := program.Records name definition result) _ _ records ?_
      intro env records call _
      exact { records with }
  | returns =>
      rw [Program.runStage, withReturns]
      split
      · exact visitDefinitions distinct defined known records
      · exact records
  | visit =>
      have statements (env : Environment) :
          env.SameResults (program.visitStatements config env) :=
        Block.visit_sameResults _ _ env
      have visited := visitDefinitions distinct defined known
        (respects (statements env) records)
      exact respects (statements _) visited
  | promotion =>
      rw [Program.runStage, withPromotion]
      split
      · have promoted := Environment.foldl_promote_promoted
          (Mutation.Events.listMutated program.mutations) env
        constructor
        · rw [promoted.others]
          exact records.function
        · intro owner standing inside
          rcases Option.bind_eq_some_iff.mp (records.method owner standing inside) with
            ⟨info, found, recorded⟩
          rcases Table.exists_get?_of_keys_eq promoted.classes.keys found with ⟨changed, again⟩
          rw [Environment.ownMethod?, again, Option.bind_some,
            (promoted.classes.values found again).others]
          exact recorded
      · exact records

end Records

end Program

/-! ## Signatures -/

section Signatures

variable (config : Config)

private theorem foldl_read {α β γ : Type} (read : α → γ) {step : α → β → α} {follow : γ → β → γ}
    (items : List β) (agrees : ∀ item ∈ items, ∀ state, read (step state item) =
      follow (read state) item) (state : α) :
    read (items.foldl step state) = items.foldl follow (read state) := by
  induction items generalizing state with
  | nil => rfl
  | cons item rest induction =>
      rw [List.forall_mem_cons] at agrees
      rw [List.foldl_cons, List.foldl_cons, induction agrees.2, agrees.1]

private def Site.declareResult (returns : Table Ty) (site : Site) : Table Ty :=
  returns.insert site.name (config.hintType site.definition.returnHint)

private theorem FunctionDef.register_results (definition : FunctionDef) (qualified : String)
    (enclosing : List (String × FunctionDef)) (hasReceiver : Bool) (env : Environment) :
    (definition.register config qualified hasReceiver env).returns =
        (definition.sites qualified enclosing).foldl (Site.declareResult config) env.returns ∧
      (definition.register config qualified hasReceiver env).classes = env.classes := by
  induction definition using FunctionDef.nested_induction
    generalizing qualified enclosing hasReceiver env with
  | step definition induction =>
  rw [FunctionDef.register_eq, FunctionDef.sites_eq, List.foldl_cons, List.foldl_flatMap]
  constructor
  · apply foldl_read Environment.returns
    intro inner isNested env
    exact (induction inner isNested _ _ false env).1
  · refine (foldl_read Environment.classes _ ?_ _).trans (List.foldl_fixed _)
    intro inner isNested env
    exact (induction inner isNested _ [] false env).2

private theorem Environment.registerImports_results (env : Environment) (stmt : Stmt) :
    (env.registerImports stmt).returns = env.returns ∧
      (env.registerImports stmt).classes = env.classes := by
  unfold Environment.registerImports
  split
  · refine List.foldlRecOn (motive := fun later : Environment =>
      later.returns = env.returns ∧ later.classes = env.classes) _ _ ⟨rfl, rfl⟩ ?_
    intro later same imported _
    rw [Environment.importModule]
    split <;> exact same
  · exact List.foldlRecOn (motive := fun later : Environment =>
      later.returns = env.returns ∧ later.classes = env.classes) _ _ ⟨rfl, rfl⟩
      fun _ same _ _ => same
  · exact ⟨rfl, rfl⟩

private def ClassDef.declare (classes : Table ClassInfo) (definition : ClassDef) :
    Table ClassInfo :=
  classes.insert definition.name (definition.declaredInfo config)

private theorem Stmt.register_results (stmt : Stmt) (env : Environment) :
    (stmt.register config env).returns =
        stmt.sites.foldl (Site.declareResult config) env.returns ∧
      (stmt.register config env).classes =
        stmt.classDef?.toList.foldl (ClassDef.declare config) env.classes := by
  cases stmt with
  | functionDef definition =>
      rw [Stmt.sites, Stmt.rootFunctions, List.flatMap_singleton]
      exact definition.register_results config definition.name [] false env
  | classDef definition =>
      rw [Stmt.sites, Stmt.rootFunctions, List.flatMap_map, List.foldl_flatMap]
      have methods (method : FunctionDef) (env : Environment) :=
        method.register_results config (Dotted.join definition.name method.name) []
          (!method.isStatic) env
      constructor
      · exact foldl_read Environment.returns _ (fun method _ env => (methods method env).1) env
      · have kept := (foldl_read Environment.classes definition.methods
          (fun method _ env => (methods method env).2) env).trans (List.foldl_fixed _)
        rw [Stmt.register, ClassDef.register, Environment.registerClass, kept,
          definition.name_declaredInfo]
        rfl
  | _ => exact env.registerImports_results _

private theorem Program.withSignatures_results (program : Program) (env : Environment) :
    (program.withSignatures config env).returns =
        program.sites.foldl (Site.declareResult config) env.returns ∧
      (program.withSignatures config env).classes =
        program.classes.foldl (ClassDef.declare config) env.classes := by
  rw [Program.sites_eq, Program.classes, List.filterMap_eq_flatMap_toList, List.foldl_flatMap,
    List.foldl_flatMap]
  constructor
  · exact foldl_read Environment.returns _ (fun stmt _ env => (stmt.register_results config env).1)
      env
  · exact foldl_read Environment.classes _ (fun stmt _ env => (stmt.register_results config env).2)
      env

private theorem ClassDef.methods_declaredInfo (definition : ClassDef) :
    (definition.declaredInfo config).methods = definition.methods.foldl
      (fun table method => table.insert method.name (config.hintType method.returnHint)) ∅ := by
  refine foldl_read ClassInfo.methods _ ?_ _
  intro method _ info
  dsimp only
  split <;> rfl

variable {config} {program : Program}

/-- The signatures put the declared results on record. -/
theorem Program.withSignatures_records (distinct : (program.sites.map Site.name).Nodup)
    (distinctClasses : (program.classes.map ClassDef.name).Nodup) {name : String}
    {definition : FunctionDef} (defined : program.Defines name definition) (env : Environment) :
    program.Records name definition (config.hintType definition.returnHint)
      (program.withSignatures config env) where
  function := by
    rw [(program.withSignatures_results config env).1]
    rcases exists_site_of_defines defined with ⟨site, member, rfl, rfl⟩
    refine Table.get?_foldl_insert _ _ ?_ (.inr (List.mem_map_of_mem member))
    intro other isOther same
    rw [List.inj_on_of_nodup_map distinct isOther member same]
  method owner standing inside := by
    have isClass : owner ∈ program.classes := List.mem_filterMap.mpr ⟨_, standing, rfl⟩
    have registered : (program.withSignatures config env).classes.get? owner.name =
        some (owner.declaredInfo config) := by
      rw [(program.withSignatures_results config env).2]
      refine Table.get?_foldl_insert _ _ ?_ (.inr (List.mem_map_of_mem isClass))
      intro other isOther same
      rw [List.inj_on_of_nodup_map distinctClasses isOther isClass same]
    rw [Environment.ownMethod?, registered, Option.bind_some, owner.methods_declaredInfo]
    have isMethod := ClassDef.mem_methods_iff.mpr inside
    refine Table.get?_foldl_insert _ _ ?_ (.inr (List.mem_map_of_mem isMethod))
    intro other isOther same
    have isDefined : program.Defines (Dotted.join owner.name other.name) other :=
      .method standing (ClassDef.mem_methods_iff.mp isOther)
    rw [same] at isDefined
    rw [isDefined.unique distinct (.method standing inside)]

end Signatures

/-! ## All stages -/

namespace Program

variable (config : Config) (program : Program)

/-- A function whose hint says something keeps the type of the hint for its result, from
the signatures to the end, under its dotted name and with its class. -/
theorem declared_results_final (trusting : config.useHints = true)
    (distinct : (program.sites.map Site.name).Nodup)
    (distinctClasses : (program.classes.map ClassDef.name).Nodup) {name : String}
    {definition : FunctionDef} (defined : program.Defines name definition) {hint : String}
    (hinted : definition.returnHint = some hint) (known : Ty.ofHint hint ≠ .unknown) :
    program.Records name definition (Ty.ofHint hint) (program.analyze config) ∧
    ∀ reached ∈ program.runStages config {} Stage.all, reached.1 ≠ .captures →
      program.Records name definition (Ty.ofHint hint) reached.2 := by
  have declared : config.hintType definition.returnHint = Ty.ofHint hint := by
    rw [hinted, Config.hintType, trusting]
    rfl
  have isKnown : (config.hintType definition.returnHint).isUnknown = false := by
    rw [declared]
    cases type : Ty.ofHint hint with
    | unknown => exact absurd type known
    | _ => rfl
  have signed : program.Records name definition (Ty.ofHint hint)
      (program.withSignatures config (program.withCaptures {})) := by
    rw [← declared]
    exact withSignatures_records distinct distinctClasses defined _
  have isLater : ∀ stage ∈ [Stage.constructors, .returns, .visit, .promotion],
      stage ∉ [Stage.captures, .signatures] := by decide
  have later := forall_runStages config [.constructors, .returns, .visit, .promotion]
    (fun stage member _ records => records.runStage distinct defined isKnown (isLater stage member))
    signed
  have stages : ∀ reached ∈ program.runStages config {} Stage.all, reached.1 ≠ .captures →
      program.Records name definition (Ty.ofHint hint) reached.2 := by
    intro reached member notCaptures
    rw [Stage.all, runStages, runStages, List.mem_cons, List.mem_cons] at member
    rcases member with rfl | rfl | member
    · exact absurd rfl notCaptures
    · exact signed
    · exact later reached member
  have last : (.promotion, program.analyze config) ∈ program.runStages config {} Stage.all := by
    simp [Stage.all, runStages, analyze]
  exact ⟨stages _ last (by simp), stages⟩

end Program

/-! A method and a function nested in it that return something else than their hints tell,
and beside them a method without a hint. -/

def FunctionDef.spelling : FunctionDef where
  name := "spell"
  params := []
  returnHint := some "int"
  body := [.ret (some (.literal (.str "many")))]
  decorators := []
  isAsync := false

def FunctionDef.labelling : FunctionDef where
  name := "label"
  params := [⟨"self", none, none⟩]
  returnHint := some "Optional[str]"
  body := [.whileLoop (.literal (.bool true)) [.functionDef .spelling] [],
    .ret (some (.list [.call "spell" [] []]))]
  decorators := []
  isAsync := false

def Program.labelled : Program where
  body := [.classDef {
    name := "Shelf", bases := [], decorators := []
    body := [.functionDef .labelling, .functionDef {
      name := "size", params := [⟨"self", none, none⟩], returnHint := none
      body := [.ret (some (.methodCall (.name "self") "label" [] []))]
      decorators := [], isAsync := false }] }]

theorem Program.declared_results_final_labelled :
    ((labelled.sites.map Site.name).Nodup ∧ (labelled.classes.map ClassDef.name).Nodup ∧
      labelled.Defines "Shelf.label" .labelling ∧
      labelled.Defines "Shelf.label.spell" .spelling ∧
      Ty.ofHint "Optional[str]" ≠ .unknown ∧ Ty.ofHint "int" ≠ .unknown) ∧
    (labelled.analyze {}).returns.get? "Shelf.label" = some (.optional Ty.text) ∧
    (labelled.analyze {}).ownMethod? "Shelf" "label" = some (.optional Ty.text) ∧
    (labelled.analyze {}).returns.get? "Shelf.label.spell" = some .int := by
  have distinct : (labelled.sites.map Site.name).Nodup := by decide
  have distinctClasses : (labelled.classes.map ClassDef.name).Nodup := by decide
  have label : ⟨"Shelf.label", .labelling, []⟩ ∈ labelled.sites := List.mem_of_getElem? (i := 0) rfl
  have spell : ⟨"Shelf.label.spell", .spelling, [("Shelf.label", .labelling)]⟩ ∈ labelled.sites :=
    List.mem_of_getElem? (i := 1) rfl
  have isText : Ty.ofHint "Optional[str]" = .optional Ty.text := by decide
  have isInt : Ty.ofHint "int" = .int := by decide
  have textKnown : Ty.ofHint "Optional[str]" ≠ .unknown := by rw [isText]; simp
  have intKnown : Ty.ofHint "int" ≠ .unknown := by rw [isInt]; simp
  have labels := (labelled.declared_results_final {} rfl distinct distinctClasses
    (defines_of_mem label) rfl textKnown).1
  have spells := (labelled.declared_results_final {} rfl distinct distinctClasses
    (defines_of_mem spell) rfl intKnown).1
  rw [isText] at labels
  rw [isInt] at spells
  exact ⟨⟨distinct, distinctClasses, defines_of_mem label, defines_of_mem spell, textKnown,
    intKnown⟩, labels.function, labels.method _ List.mem_cons_self List.mem_cons_self,
    spells.function⟩

end NativeTyping

import NativeTyping.Proofs.Agreement
import NativeTyping.Proofs.Nesting
import NativeTyping.Visit.Definition
/-!
Two visits side by side.

A visit writes to the environment through a handful of operations, and what it
writes depends on the environment only through what expressions see. A relation
between environments under which expressions see the same, and which each of these
operations keeps, is therefore kept by every visit of statements and of functions,
whatever they hold. With one environment on both sides, such a relation is an
invariant of a single visit.
-/

namespace NativeTyping

/-! ## The visit of a function, one level at a time -/

namespace FunctionDef

variable (setting : Setting) (definition : FunctionDef) (qualified : String)

def firstSweep (className : Option String) (env : Environment) : Environment :=
  let params := setting.bindParams definition className env
  Block.visit setting definition.body (params.2.setParams qualified params.1)

def visitNested (env : Environment) : Environment :=
  definition.nested.foldl
    (fun env inner => inner.visit setting (Dotted.join qualified inner.name) none env) env

def secondSweep (env : Environment) : Environment :=
  if definition.nested.isEmpty then env
  else Block.visit setting definition.body (visitNested setting definition qualified env)

/-- A function does three things in its scope: two sweeps, and a record of its
result. -/
theorem visit_eq (className : Option String) (env : Environment) :
    definition.visit setting qualified className env =
      env.inScope qualified fun env =>
        setting.recordReturn definition qualified className
          (definition.secondSweep setting qualified
            (definition.firstSweep setting qualified className env)) := by
  rw [visit, fold_eq]
  simp only [List.isEmpty_map, List.foldl_map]
  rfl

end FunctionDef

/-! ## Simulations -/

/-- `Related stack left right` relates two environments whose position is `stack`.
Statements are visited at the positions of `Position` only. -/
structure Simulation (Position : List String → Prop)
    (Related : List String → Environment → Environment → Prop) : Prop where
  position : ∀ {stack left right}, Related stack left right →
    left.scopeStack = stack ∧ right.scopeStack = stack
  view : ∀ {stack left right}, Position stack → Related stack left right → left.SameView right
  arguments : ∀ {stack left right}, Related stack left right →
    left.constructorArgs = right.constructorArgs
  write : ∀ {stack left right}, Position stack → Related stack left right →
    ∀ (name : String) (update : Option Ty → Ty),
      Related stack (left.updateAt (left.writeOwner name) name update)
        (right.updateAt (right.writeOwner name) name update)
  refineVar : ∀ {stack left right}, Position stack → Related stack left right →
    ∀ (name : String) (type : Ty),
      Related stack ((left.refineVar? name type).getD left)
        ((right.refineVar? name type).getD right)
  modifyClass : ∀ {stack left right}, Related stack left right →
    ∀ (className : String) (change : ClassInfo → ClassInfo),
      Related stack (left.modifyClass className change) (right.modifyClass className change)
  addImport : ∀ {stack left right}, Related stack left right →
    ∀ (name target : String), Related stack (left.addImport name target)
      (right.addImport name target)
  declareOuter : ∀ {stack left right}, Position stack → Related stack left right →
    ∀ (name : String), Related stack (left.declareOuter name) (right.declareOuter name)
  setParams : ∀ {stack left right}, Related stack left right →
    ∀ (function : String) (types : List Ty),
      Related stack (left.setParams function types) (right.setParams function types)
  setReturn : ∀ {stack left right}, Related stack left right →
    ∀ (function : String) (result : Ty),
      Related stack (left.setReturn function result) (right.setReturn function result)
  enter : ∀ {stack left right}, Related stack left right →
    ∀ {scope : String}, Position (scope :: stack) →
      Related (scope :: stack) (left.enterScope scope) (right.enterScope scope)
  leave : ∀ {scope stack left right}, Related (scope :: stack) left right →
    Related stack (left.restoreDepth stack.length) (right.restoreDepth stack.length)
  nested : ∀ {scope stack}, Position (scope :: stack) →
    ∀ name : String, Position (Dotted.join scope name :: scope :: stack)

namespace Simulation

variable {Position : List String → Prop}
  {Related : List String → Environment → Environment → Prop}
  {stack : List String} {left right : Environment}

/-! ## Runs over lists -/

private theorem foldl {α : Type} {visit : Environment → α → Environment} (items : List α)
    (step : ∀ item ∈ items, ∀ {left right}, Related stack left right →
      Related stack (visit left item) (visit right item))
    {left right : Environment} (related : Related stack left right) :
    Related stack (items.foldl visit left) (items.foldl visit right) := by
  induction items generalizing left right with
  | nil => exact related
  | cons item rest induction =>
      apply induction
      · intro later member
        exact step later (List.mem_cons_of_mem item member)
      · exact step item List.mem_cons_self related

/-! ## Assignments -/

private theorem changeOwner (simulation : Simulation Position Related) (position : Position stack)
    (related : Related stack left right) (setting : Setting) (value : Expr) (attr : String)
    (change : ClassInfo → ClassInfo) :
    Related stack (setting.changeOwner left value attr change)
      (setting.changeOwner right value attr change) := by
  have view := simulation.view position related
  unfold Setting.changeOwner
  rw [view.infer setting value]
  split
  · rw [view.fieldOwner]
    exact simulation.modifyClass related _ change
  · exact related

private theorem writeBack (simulation : Simulation Position Related) (position : Position stack)
    (related : Related stack left right) (setting : Setting) (target : Expr) (type : Ty) :
    Related stack (setting.writeBack left target type) (setting.writeBack right target type) := by
  unfold Setting.writeBack
  split
  · exact simulation.refineVar position related _ type
  · exact simulation.changeOwner position related setting _ _ _
  · exact related

private theorem writeBackChanged (simulation : Simulation Position Related)
    (position : Position stack)
    (related : Related stack left right) (setting : Setting) (target : Expr)
    (present changed : Ty) :
    Related stack (setting.writeBackChanged left target present changed)
      (setting.writeBackChanged right target present changed) := by
  unfold Setting.writeBackChanged
  split
  · exact related
  · exact simulation.writeBack position related setting target changed

private theorem assignSubscript (simulation : Simulation Position Related)
    (position : Position stack)
    (related : Related stack left right) (setting : Setting) (base index : Expr) (value : Ty) :
    Related stack (setting.assignSubscript left base index value)
      (setting.assignSubscript right base index value) := by
  have view := simulation.view position related
  unfold Setting.assignSubscript
  rw [view.infer setting base, view.infer setting index]
  dsimp only
  split
  · exact simulation.writeBackChanged position related setting base _ _
  · exact related

private theorem assignPlace (simulation : Simulation Position Related) (position : Position stack)
    (related : Related stack left right) (setting : Setting) (place : Place) (type : Ty) :
    Related stack (setting.assignPlace left place type)
      (setting.assignPlace right place type) := by
  match place with
  | .name id => exact simulation.write position related id type.mergeInto
  | .attribute value attr =>
      exact simulation.changeOwner position related setting value attr _
  | .subscript base index =>
      exact simulation.assignSubscript position related setting base index type

private theorem assign (simulation : Simulation Position Related) (position : Position stack)
    (related : Related stack left right) (setting : Setting) (target : Target) (type : Ty) :
    Related stack (setting.assign left target type) (setting.assign right target type) := by
  apply foldl _ _ related
  intro part _ left right related
  exact simulation.assignPlace position related setting part.1 part.2

private theorem applyMutation (simulation : Simulation Position Related) (position : Position stack)
    (related : Related stack left right) (setting : Setting) (receiver : Expr)
    (method : String) (args : List Expr) :
    Related stack (setting.applyMutation left receiver method args)
      (setting.applyMutation right receiver method args) := by
  have view := simulation.view position related
  have sameArgs : args.map (setting.infer left) = args.map (setting.infer right) :=
    List.map_congr_left fun arg _ => view.infer setting arg
  unfold Setting.applyMutation
  rw [view.infer setting receiver, sameArgs]
  exact simulation.writeBackChanged position related setting receiver _ _

private theorem enterContext (simulation : Simulation Position Related) (position : Position stack)
    (related : Related stack left right) (setting : Setting) (item : WithItem) :
    Related stack (setting.enterContext left item) (setting.enterContext right item) := by
  have view := simulation.view position related
  unfold Setting.enterContext
  split
  · rw [view.infer setting, view.enteredType]
    exact simulation.assign position related setting _ _
  · exact related

/-! ## Statements -/

private theorem registerImports (simulation : Simulation Position Related)
    (related : Related stack left right) (stmt : Stmt) :
    Related stack (left.registerImports stmt) (right.registerImports stmt) := by
  unfold Environment.registerImports
  split
  · apply foldl _ _ related
    intro imported _ left right related
    unfold Environment.importModule
    split <;> exact simulation.addImport related _ _
  · apply foldl _ _ related
    intro imported _ left right related
    exact simulation.addImport related _ _
  · exact related

private theorem bindException (simulation : Simulation Position Related) (position : Position stack)
    (related : Related stack left right) (exception name : Option String) :
    Related stack (Setting.bindException left exception name)
      (Setting.bindException right exception name) := by
  unfold Setting.bindException
  split
  · exact simulation.write position related _ _
  · exact related

private theorem annotatedType (simulation : Simulation Position Related) (position : Position stack)
    (related : Related stack left right) (setting : Setting) (hint : String)
    (value : Option Expr) :
    setting.annotatedType left hint value = setting.annotatedType right hint value := by
  unfold Setting.annotatedType
  simp only [(simulation.view position related).infer setting]

private theorem visitSimple (simulation : Simulation Position Related) (position : Position stack)
    (related : Related stack left right) (setting : Setting) (stmt : Stmt) :
    Related stack (setting.visitSimple left stmt) (setting.visitSimple right stmt) := by
  have view := simulation.view position related
  unfold Setting.visitSimple
  split
  · rw [view.infer setting]
    apply foldl _ _ related
    intro target _ left right related
    exact simulation.assign position related setting target _
  · rw [simulation.annotatedType position related]
    exact simulation.assign position related setting _ _
  · rw [view.binaryType, view.targetType setting, view.infer setting]
    exact simulation.assign position related setting _ _
  · exact simulation.applyMutation position related setting _ _ _
  · exact simulation.registerImports related _
  · exact simulation.registerImports related _
  · apply foldl _ _ related
    intro name _ left right related
    exact simulation.declareOuter position related name
  · apply foldl _ _ related
    intro name _ left right related
    exact simulation.declareOuter position related name
  · exact related

mutual

private theorem visitStmt (simulation : Simulation Position Related) (position : Position stack)
    (setting : Setting) (stmt : Stmt) {left right : Environment}
    (related : Related stack left right) :
    Related stack (stmt.visit setting left) (stmt.visit setting right) := by
  cases stmt with
  | ifElse _ body orelse | whileLoop _ body orelse =>
      have afterBody := simulation.visitBlock position setting body related
      exact simulation.visitBlock position setting orelse afterBody
  | forLoop target iter body orelse =>
      have view := simulation.view position related
      simp only [Stmt.visit, view.iterationItem setting iter]
      have bound := simulation.assign position related setting target
        ((setting.context right).iterationItem iter)
      have afterBody := simulation.visitBlock position setting body bound
      exact simulation.visitBlock position setting orelse afterBody
  | tryExcept body handlers orelse finalbody =>
      have afterBody := simulation.visitBlock position setting body related
      have handled := simulation.visitHandlers position setting handlers afterBody
      have afterElse := simulation.visitBlock position setting orelse handled
      exact simulation.visitBlock position setting finalbody afterElse
  | withBlock items body =>
      have entered := foldl items
        (fun item _ _ _ related => simulation.enterContext position related setting item)
        related
      exact simulation.visitBlock position setting body entered
  | _ =>
      simp only [Stmt.visit]
      exact simulation.visitSimple position related setting _

private theorem visitBlock (simulation : Simulation Position Related) (position : Position stack)
    (setting : Setting) (body : List Stmt) {left right : Environment}
    (related : Related stack left right) :
    Related stack (Block.visit setting body left) (Block.visit setting body right) := by
  cases body with
  | nil => exact related
  | cons stmt rest =>
      have visited := simulation.visitStmt position setting stmt related
      exact simulation.visitBlock position setting rest visited

private theorem visitHandlers (simulation : Simulation Position Related) (position : Position stack)
    (setting : Setting) (handlers : List Handler) {left right : Environment}
    (related : Related stack left right) :
    Related stack (NativeTyping.visitHandlers setting handlers left)
      (NativeTyping.visitHandlers setting handlers right) := by
  cases handlers with
  | nil => exact related
  | cons handler rest =>
      rcases handler with ⟨exception, name, body⟩
      have bound := simulation.bindException position related exception name
      have visited := simulation.visitBlock position setting body bound
      exact simulation.visitHandlers position setting rest visited

end

/-! ## Parameters and results -/

private theorem paramType (simulation : Simulation Position Related) (position : Position stack)
    (related : Related stack left right) (setting : Setting) (param : Param)
    (arg : Option Ty) :
    setting.paramType left param arg = setting.paramType right param arg := by
  simp only [Setting.paramType, (simulation.view position related).infer setting]

private theorem bindPlainParams (simulation : Simulation Position Related)
    (position : Position stack)
    (setting : Setting) (params : List Param) (args : List Ty) {left right : Environment}
    (related : Related stack left right) :
    (setting.bindPlainParams params args left).1 =
        (setting.bindPlainParams params args right).1 ∧
      Related stack (setting.bindPlainParams params args left).2
        (setting.bindPlainParams params args right).2 := by
  induction params generalizing args left right with
  | nil => exact ⟨rfl, related⟩
  | cons param rest induction =>
      simp only [Setting.bindPlainParams,
        simulation.paramType position related setting param args.head?]
      have bound := simulation.write position related param.name
        (fun _ => setting.paramType right param args.head?)
      have later := induction args.tail bound
      exact ⟨congrArg _ later.1, later.2⟩

private theorem bindParams (simulation : Simulation Position Related) (position : Position stack)
    (setting : Setting) (definition : FunctionDef) (className : Option String)
    (related : Related stack left right) :
    (setting.bindParams definition className left).1 =
        (setting.bindParams definition className right).1 ∧
      Related stack (setting.bindParams definition className left).2
        (setting.bindParams definition className right).2 := by
  have sameArgs : Setting.constructorArgs left definition className =
      Setting.constructorArgs right definition className := by
    simp only [Setting.constructorArgs, simulation.arguments related]
  simp only [Setting.bindParams, sameArgs]
  split
  · split
    · exact simulation.bindPlainParams position setting _ _ related
    · exact simulation.bindPlainParams position setting _ _
        (simulation.write position related _ _)
  · exact simulation.bindPlainParams position setting _ _ related

private theorem bodyResult (simulation : Simulation Position Related) (position : Position stack)
    (related : Related stack left right) (setting : Setting) (body : Block) :
    setting.bodyResult left body = setting.bodyResult right body := by
  have sameTypes : setting.returnTypes left body = setting.returnTypes right body := by
    simp only [Setting.returnTypes, (simulation.view position related).infer setting]
  simp only [Setting.bodyResult, sameTypes]

private theorem recordReturn (simulation : Simulation Position Related) (position : Position stack)
    (related : Related stack left right) (setting : Setting) (definition : FunctionDef)
    (qualified : String) (className : Option String) :
    Related stack (setting.recordReturn definition qualified className left)
      (setting.recordReturn definition qualified className right) := by
  simp only [Setting.recordReturn, simulation.bodyResult position related setting]
  split
  · split
    · exact simulation.modifyClass (simulation.setReturn related _ _) _ _
    · exact simulation.setReturn related _ _
  · exact related

/-! ## Functions -/

private theorem inScope (simulation : Simulation Position Related) {scope : String}
    (position : Position (scope :: stack)) {visit : Environment → Environment}
    (step : ∀ {left right}, Related (scope :: stack) left right →
      Related (scope :: stack) (visit left) (visit right))
    (related : Related stack left right) :
    Related stack (left.inScope scope visit) (right.inScope scope visit) := by
  have visited := step (simulation.enter related position)
  have leftDepth : left.depth = stack.length :=
    congrArg List.length (simulation.position related).1
  have rightDepth : right.depth = stack.length :=
    congrArg List.length (simulation.position related).2
  rw [Environment.inScope, Environment.inScope, leftDepth, rightDepth]
  exact simulation.leave visited

private theorem firstSweep (simulation : Simulation Position Related) (position : Position stack)
    (setting : Setting) (definition : FunctionDef) (qualified : String)
    (className : Option String) (related : Related stack left right) :
    Related stack (definition.firstSweep setting qualified className left)
      (definition.firstSweep setting qualified className right) := by
  have bound := simulation.bindParams position setting definition className related
  simp only [FunctionDef.firstSweep, bound.1]
  have registered := simulation.setParams bound.2 qualified
    (setting.bindParams definition className right).1
  exact simulation.visitBlock position setting definition.body registered

/-- Related environments stay related when both visit a function. The induction is
over the functions nested in it, for all positions. -/
theorem visitFunction (simulation : Simulation Position Related) (setting : Setting)
    (definition : FunctionDef) :
    ∀ {stack : List String} {left right : Environment} {qualified : String}
      (className : Option String), Position (qualified :: stack) → Related stack left right →
      Related stack (definition.visit setting qualified className left)
        (definition.visit setting qualified className right) := by
  induction definition using FunctionDef.nested_induction with
  | step definition induction =>
      intro stack left right qualified className position related
      rw [FunctionDef.visit_eq, FunctionDef.visit_eq]
      apply simulation.inScope position _ related
      intro left right related
      have swept := simulation.firstSweep position setting definition qualified className related
      apply simulation.recordReturn position
      rw [FunctionDef.secondSweep, FunctionDef.secondSweep]
      split
      · exact swept
      · apply simulation.visitBlock position setting definition.body
        apply foldl _ _ swept
        intro inner member left right related
        exact induction inner member none (simulation.nested position inner.name) related

end Simulation

/-! ## Invariants -/

theorem Environment.scopeStack_updateAt (env : Environment) (owner : Owner) (name : String)
    (update : Option Ty → Ty) : (env.updateAt owner name update).scopeStack = env.scopeStack := by
  cases owner <;> rfl

private theorem Environment.scopeStack_refineVar (env : Environment) (name : String) (type : Ty) :
    ((env.refineVar? name type).getD env).scopeStack = env.scopeStack := by
  rw [Environment.refineVar?]
  cases env.readOwner? name with
  | none => rfl
  | some owner => exact env.scopeStack_updateAt owner name _

theorem Environment.scopeStack_declareOuter (env : Environment) (name : String) :
    (env.declareOuter name).scopeStack = env.scopeStack := by
  rw [Environment.declareOuter]
  split <;> rfl

structure Invariant (Position : List String → Prop) (Holds : Environment → Prop) : Prop where
  write : ∀ {env}, Position env.scopeStack → Holds env →
    ∀ (name : String) (update : Option Ty → Ty),
      Holds (env.updateAt (env.writeOwner name) name update)
  refineVar : ∀ {env}, Position env.scopeStack → Holds env →
    ∀ (name : String) (type : Ty), Holds ((env.refineVar? name type).getD env)
  modifyClass : ∀ {env}, Holds env → ∀ (className : String) (change : ClassInfo → ClassInfo),
    Holds (env.modifyClass className change)
  addImport : ∀ {env}, Holds env → ∀ name target : String, Holds (env.addImport name target)
  declareOuter : ∀ {env}, Position env.scopeStack → Holds env →
    ∀ name : String, Holds (env.declareOuter name)
  setParams : ∀ {env}, Holds env → ∀ (function : String) (types : List Ty),
    Holds (env.setParams function types)
  setReturn : ∀ {env}, Holds env → ∀ (function : String) (result : Ty),
    Holds (env.setReturn function result)
  move : ∀ {env}, Holds env → ∀ stack : List String, Holds { env with scopeStack := stack }
  nested : ∀ {scope stack}, Position (scope :: stack) →
    ∀ name : String, Position (Dotted.join scope name :: scope :: stack)

namespace Invariant

variable {Position : List String → Prop} {Holds : Environment → Prop}

structure Run (Holds : Environment → Prop) (stack : List String) (left right : Environment) :
    Prop where
  same : left = right
  placed : left.scopeStack = stack
  holds : Holds left

theorem simulation (invariant : Invariant Position Holds) : Simulation Position (Run Holds) where
  position run := ⟨run.placed, run.same ▸ run.placed⟩
  view _ run := run.same ▸ .refl _
  arguments run := run.same ▸ rfl
  write := by
    rintro stack left right position ⟨rfl, rfl, holds⟩ name update
    exact ⟨rfl, left.scopeStack_updateAt _ _ _, invariant.write position holds name update⟩
  refineVar := by
    rintro stack left right position ⟨rfl, rfl, holds⟩ name type
    exact ⟨rfl, left.scopeStack_refineVar name type,
      invariant.refineVar position holds name type⟩
  modifyClass := by
    rintro stack left right ⟨rfl, placed, holds⟩ className change
    exact ⟨rfl, placed, invariant.modifyClass holds className change⟩
  addImport := by
    rintro stack left right ⟨rfl, placed, holds⟩ name target
    exact ⟨rfl, placed, invariant.addImport holds name target⟩
  declareOuter := by
    rintro stack left right position ⟨rfl, rfl, holds⟩ name
    exact ⟨rfl, left.scopeStack_declareOuter name, invariant.declareOuter position holds name⟩
  setParams := by
    rintro stack left right ⟨rfl, placed, holds⟩ function types
    exact ⟨rfl, placed, invariant.setParams holds function types⟩
  setReturn := by
    rintro stack left right ⟨rfl, placed, holds⟩ function result
    exact ⟨rfl, placed, invariant.setReturn holds function result⟩
  enter := by
    rintro stack left right ⟨rfl, placed, holds⟩ scope position
    exact ⟨rfl, congrArg (scope :: ·) placed, invariant.move holds _⟩
  leave := by
    rintro scope stack left right ⟨rfl, placed, holds⟩
    refine ⟨rfl, ?_, invariant.move holds _⟩
    simp [Environment.restoreDepth, Environment.depth, placed]
  nested := invariant.nested

theorem visitFunction (invariant : Invariant Position Holds) (setting : Setting)
    (definition : FunctionDef) {qualified : String} (className : Option String)
    {env : Environment} (position : Position (qualified :: env.scopeStack))
    (holds : Holds env) : Holds (definition.visit setting qualified className env) :=
  (invariant.simulation.visitFunction setting definition className position
    ⟨rfl, rfl, holds⟩).holds

end Invariant

end NativeTyping

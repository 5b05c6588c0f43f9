import NativeTyping.Proofs.Likeness.Body
import NativeTyping.Proofs.Steps
/-!
Programs that an analysis does not tell apart.

Statements are alike if no stage tells them apart wherever they stand: definitions if their
parts are alike, other statements if they have the same by themselves and their blocks are
alike. Programs whose statements are alike one by one have the same analysis.
-/

namespace NativeTyping

variable {config : Config}

/-! ## Definitions

A definition is passed over by a sweep, and its body is no block of it.
-/

private theorem methodReads_eq_flatMap (body : Block) :
    methodReads body = (body.filterMap Stmt.functionDef?).flatMap FunctionDef.freeReads := by
  induction body with
  | nil => rfl
  | cons stmt rest induction =>
      cases stmt <;> simp [methodReads, Stmt.functionDef?, List.filterMap_cons, induction]

private theorem FunctionDef.Alike.block {left right : FunctionDef}
    (alike : left.Alike config right) :
    Block.Alike config [.functionDef left] [.functionDef right] := by
  have evaluated : (Stmt.functionDef left).expressions = (Stmt.functionDef right).expressions :=
    alike.defaults
  constructor
  case visit => exact fun _ _ => rfl
  case returns => exact fun _ _ => rfl
  case bound => exact congrArg (fun name => [name]) alike.name
  case nonlocals => rfl
  case reads =>
    simp only [Block.reads, Stmt.reads, Stmt.ownReads, evaluated, alike.freeReads]
  case observations =>
    have scanned : ∀ definition : FunctionDef, Block.observations [.functionDef definition] =
        Block.observations definition.body ++ (Stmt.functionDef definition).ownObservations := by
      rintro ⟨⟩
      simp only [Block.observations, Stmt.observations, List.append_nil]
    rw [scanned, scanned, alike.observations, Stmt.ownObservations, Stmt.ownObservations,
      evaluated]
    rfl
  case constructorCalls =>
    have called : ∀ definition : FunctionDef, Block.constructorCalls [.functionDef definition] =
        (Stmt.functionDef definition).constructorCalls ++
          Block.constructorCalls definition.body := by
      rintro ⟨⟩
      simp only [Block.constructorCalls, Block.everyStatement, Stmt.everyStatement,
        List.append_nil, List.flatMap_cons]
    rw [called, called, alike.constructorCalls, Stmt.constructorCalls, Stmt.constructorCalls,
      evaluated]
  case functions => exact .cons alike .nil

structure ClassDef.Alike (config : Config) (left right : ClassDef) : Prop where
  name : left.name = right.name
  bases : left.bases = right.bases
  methods : List.Forall₂ (FunctionDef.Alike config) left.methods right.methods
  attributes : ∀ setting : Setting, setting.config = config → ∀ className env,
    left.body.foldl (setting.visitClassAttribute className) env =
      right.body.foldl (setting.visitClassAttribute className) env
  observations : Block.observations left.body = Block.observations right.body
  constructorCalls : Block.constructorCalls left.body = Block.constructorCalls right.body

private theorem ClassDef.Alike.refl (definition : ClassDef) :
    definition.Alike config definition where
  name := rfl
  bases := rfl
  methods := List.forall₂_same.mpr fun method _ => .refl method
  attributes _ _ _ _ := rfl
  observations := rfl
  constructorCalls := rfl

private theorem ClassDef.Alike.block {left right : ClassDef} (alike : left.Alike config right) :
    Block.Alike config [.classDef left] [.classDef right] := by
  constructor
  case visit => exact fun _ _ => rfl
  case returns => exact fun _ _ => rfl
  case bound => exact congrArg (fun name => [name]) alike.name
  case nonlocals => rfl
  case reads =>
    have read : ∀ definition : ClassDef, Block.reads [.classDef definition] =
        definition.bases ++ definition.methods.flatMap FunctionDef.freeReads := by
      rintro ⟨⟩
      simp only [Block.reads, Stmt.reads, List.append_nil, methodReads_eq_flatMap,
        ClassDef.methods]
    rw [read, read, alike.bases,
      flatMap_eq_of_forall₂ alike.methods fun _ _ method => method.freeReads]
  case observations =>
    have scanned : ∀ definition : ClassDef, Block.observations [.classDef definition] =
        Block.observations definition.body := by
      rintro ⟨⟩
      simp only [Block.observations, Stmt.observations, List.append_nil]
    rw [scanned, scanned, alike.observations]
  case constructorCalls =>
    have called : ∀ definition : ClassDef, Block.constructorCalls [.classDef definition] =
        Block.constructorCalls definition.body := by
      rintro ⟨⟩
      simp only [Block.constructorCalls, Block.everyStatement, Stmt.everyStatement,
        List.append_nil, List.flatMap_cons]
      rfl
    rw [called, called, alike.constructorCalls]
  case functions => exact .nil

/-! ## Statements -/

/-- Statements that no stage of an analysis tells apart where they stand immediately in a
program or in a class. -/
inductive Stmt.Alike (config : Config) : Stmt → Stmt → Prop
  | function {left right : FunctionDef} (alike : left.Alike config right) :
      Stmt.Alike config (.functionDef left) (.functionDef right)
  | classDef {left right : ClassDef} (alike : left.Alike config right) :
      Stmt.Alike config (.classDef left) (.classDef right)
  | plain {left right : Stmt} (own : left.SameOwn config right)
      (block : Block.Alike config [left] [right]) : Stmt.Alike config left right

namespace Stmt.Alike

variable {left right : Stmt}

theorem block (alike : left.Alike config right) : Block.Alike config [left] [right] := by
  cases alike with
  | function alike => exact alike.block
  | classDef alike => exact alike.block
  | plain _ block => exact block

private theorem isDefinition (alike : left.Alike config right) :
    left.isDefinition = right.isDefinition := by
  cases alike with
  | function _ | classDef _ => rfl
  | plain own _ => rw [own.leftPlain, own.rightPlain]

private theorem functionDef? (alike : left.Alike config right) :
    Option.Rel (FunctionDef.Alike config) left.functionDef? right.functionDef? := by
  cases alike with
  | function alike => exact .some alike
  | classDef _ => exact .none
  | plain own _ =>
      rw [Stmt.functionDef?_of_plain own.leftPlain, Stmt.functionDef?_of_plain own.rightPlain]
      exact .none

theorem refl (stmt : Stmt) : stmt.Alike config stmt := by
  cases plain : stmt.isDefinition with
  | false => exact .plain { leftPlain := plain, rightPlain := plain } (.refl [stmt])
  | true =>
      cases stmt with
      | functionDef definition => exact .function (.refl definition)
      | classDef definition => exact .classDef (.refl definition)
      | _ => cases plain

private theorem classAttribute? (alike : left.Alike config right) {setting : Setting}
    (same : setting.config = config) (env : Environment) :
    setting.classAttribute? env left = setting.classAttribute? env right := by
  cases alike with
  | function _ | classDef _ => rfl
  | plain own _ => exact own.attributes setting same env

end Stmt.Alike

theorem Block.Alike.of_statements {left right : Block}
    (alike : List.Forall₂ (Stmt.Alike config) left right) : Block.Alike config left right := by
  induction alike with
  | nil => exact .refl []
  | cons head _ induction => exact head.block.append induction

/-! ### Statements with blocks -/

structure Handler.Alike (config : Config) (left right : Handler) : Prop where
  exception : left.exception = right.exception
  name : left.name = right.name
  body : Block.Alike config left.body right.body

private theorem visitHandlers_eq {setting : Setting} (same : setting.config = config)
    {left right : List Handler} (handlers : List.Forall₂ (Handler.Alike config) left right) :
    visitHandlers setting left = visitHandlers setting right := by
  funext env
  induction handlers generalizing env with
  | nil => rfl
  | @cons first second _ _ head _ induction =>
      rcases first with ⟨_, _, body⟩
      rcases second with ⟨_, _, other⟩
      rcases head with ⟨rfl, rfl, alike⟩
      have swept : Block.visit setting body = Block.visit setting other := alike.visit setting same
      rw [visitHandlers, visitHandlers, swept, induction]

namespace Stmt.Alike

variable {left right leftElse rightElse : Block}

theorem of_blocks {first second : Stmt} (own : first.SameOwn config second)
    (blocks : List.Forall₂ (Block.Alike config) first.blocks second.blocks)
    (visit : ∀ setting : Setting, setting.config = config →
      first.visit setting = second.visit setting) : first.Alike config second :=
  .plain own (.single own blocks visit)

theorem ifElse (condition : Expr) (body : Block.Alike config left right)
    (orelse : Block.Alike config leftElse rightElse) :
    Stmt.Alike config (.ifElse condition left leftElse) (.ifElse condition right rightElse) := by
  apply of_blocks {} (.cons body (.cons orelse .nil))
  intro setting same
  funext env
  rw [Stmt.visit, Stmt.visit, body.visit setting same, orelse.visit setting same]

theorem whileLoop (condition : Expr) (body : Block.Alike config left right)
    (orelse : Block.Alike config leftElse rightElse) :
    Stmt.Alike config (.whileLoop condition left leftElse)
      (.whileLoop condition right rightElse) := by
  apply of_blocks {} (.cons body (.cons orelse .nil))
  intro setting same
  funext env
  rw [Stmt.visit, Stmt.visit, body.visit setting same, orelse.visit setting same]

theorem forLoop (target : Target) (iter : Expr) (body : Block.Alike config left right)
    (orelse : Block.Alike config leftElse rightElse) :
    Stmt.Alike config (.forLoop target iter left leftElse)
      (.forLoop target iter right rightElse) := by
  apply of_blocks {} (.cons body (.cons orelse .nil))
  intro setting same
  funext env
  rw [Stmt.visit, Stmt.visit, body.visit setting same, orelse.visit setting same]

theorem withBlock (items : List WithItem) (body : Block.Alike config left right) :
    Stmt.Alike config (.withBlock items left) (.withBlock items right) := by
  apply of_blocks {} (.cons body .nil)
  intro setting same
  funext env
  rw [Stmt.visit, Stmt.visit, body.visit setting same]

theorem tryExcept {leftHandlers rightHandlers : List Handler} {leftFinal rightFinal : Block}
    (body : Block.Alike config left right)
    (handlers : List.Forall₂ (Handler.Alike config) leftHandlers rightHandlers)
    (orelse : Block.Alike config leftElse rightElse)
    (finalbody : Block.Alike config leftFinal rightFinal) :
    Stmt.Alike config (.tryExcept left leftHandlers leftElse leftFinal)
      (.tryExcept right rightHandlers rightElse rightFinal) := by
  have names : leftHandlers.filterMap Handler.name = rightHandlers.filterMap Handler.name :=
    filterMap_eq_of_forall₂ handlers fun _ _ alike => alike.name
  have bodies : List.Forall₂ (Block.Alike config) (leftHandlers.map Handler.body)
      (rightHandlers.map Handler.body) := List.rel_map (fun _ _ alike => alike.body) handlers
  have own : Stmt.SameOwn config (.tryExcept left leftHandlers leftElse leftFinal)
      (.tryExcept right rightHandlers rightElse rightFinal) := { bound := names }
  apply of_blocks own
    (.cons body (List.rel_append bodies (.cons orelse (.cons finalbody .nil))))
  intro setting same
  funext env
  rw [Stmt.visit, Stmt.visit, body.visit setting same, visitHandlers_eq same handlers,
    orelse.visit setting same, finalbody.visit setting same]

end Stmt.Alike

theorem ClassDef.Alike.of_bodies {left right : ClassDef} (name : left.name = right.name)
    (bases : left.bases = right.bases)
    (alike : List.Forall₂ (Stmt.Alike config) left.body right.body) :
    left.Alike config right where
  name := name
  bases := bases
  methods := List.rel_filterMap (fun _ _ same => same.functionDef?) alike
  attributes setting same className env := by
    apply foldl_eq_of_forall₂ alike
    intro first second both before
    rw [Setting.visitClassAttribute, Setting.visitClassAttribute, both.classAttribute? same]
  observations := (Block.Alike.of_statements alike).observations
  constructorCalls := (Block.Alike.of_statements alike).constructorCalls

/-! ## Classes -/

namespace ClassDef.Alike

variable {left right : ClassDef} (alike : left.Alike config right)

include alike

private theorem register : left.register config = right.register config := by
  have declared : left.declaredInfo config = right.declaredInfo config := by
    rw [declaredInfo, declaredInfo, alike.name, alike.bases]
    apply foldl_eq_of_forall₂ alike.methods
    intro first second both info
    have property : first.isProperty = second.isProperty := by
      rw [FunctionDef.isProperty, FunctionDef.isProperty, both.decorators]
    simp only [both.name, both.result, property]
  funext env
  rw [ClassDef.register, ClassDef.register, declared, alike.name]
  congr 1
  apply foldl_eq_of_forall₂ alike.methods
  intro first second both before
  simp only [both.name, both.register, FunctionDef.isStatic, both.decorators]

private theorem visit : left.visit config = right.visit config := by
  have chosen : ∀ test : String → Bool, List.Forall₂ (FunctionDef.Alike config)
      (left.methods.filter fun method => test method.name)
      (right.methods.filter fun method => test method.name) := by
    intro test
    apply List.rel_filter _ alike.methods
    intro first second both
    simp only [both.name]
  have order : List.Forall₂ (FunctionDef.Alike config) left.visitOrder right.visitOrder :=
    List.rel_append (chosen fun name => name = "__init__") (chosen fun name => name ≠ "__init__")
  funext env
  simp only [ClassDef.visit, alike.name]
  rw [alike.attributes _ rfl]
  apply foldl_eq_of_forall₂ order
  intro first second both before
  rw [both.name, both.visit _ rfl]

end ClassDef.Alike

/-! ## Programs -/

section Plain

variable {stmt : Stmt} (plain : stmt.isDefinition = false)

include plain

private theorem Stmt.rootFunctions_of_plain : stmt.rootFunctions = [] := by
  cases stmt with
  | functionDef definition | classDef definition => cases plain
  | _ => rfl

private theorem Stmt.register_of_plain (env : Environment) :
    Stmt.register config env stmt = env.registerImports stmt := by
  cases stmt with
  | functionDef definition | classDef definition => cases plain
  | _ => rfl

private theorem Stmt.visitDefinition_of_plain (env : Environment) :
    Stmt.visitDefinition config env stmt = env := by
  cases stmt with
  | functionDef definition | classDef definition => cases plain
  | _ => rfl

end Plain

namespace Program

variable {left right : Program} (alike : List.Forall₂ (Stmt.Alike config) left.body right.body)

include alike

private theorem captures_eq_of_alike : left.captures = right.captures := by
  have roots : List.Forall₂
      (fun first second => first.1 = second.1 ∧ first.2.captures = second.2.captures)
      left.rootFunctions right.rootFunctions := by
    change List.Forall₂ _ (left.body.flatMap Stmt.rootFunctions)
      (right.body.flatMap Stmt.rootFunctions)
    refine List.rel_flatMap alike ?_
    intro first second both
    cases both with
    | function both => exact .cons ⟨both.name, both.captures⟩ .nil
    | classDef both =>
        refine List.rel_map ?_ both.methods
        intro method other same
        have named : Dotted.join _ method.name = Dotted.join _ other.name :=
          congrArg₂ Dotted.join both.name same.name
        exact ⟨named, same.captures⟩
    | plain own _ =>
        rw [Stmt.rootFunctions_of_plain own.leftPlain, Stmt.rootFunctions_of_plain own.rightPlain]
        exact .nil
  apply foldl_eq_of_forall₂ roots
  rintro first second ⟨name, captures⟩ found
  rw [name, captures]

private theorem withSignatures_eq_of_alike :
    left.withSignatures config = right.withSignatures config := by
  funext env
  apply foldl_eq_of_forall₂ alike
  intro first second both before
  cases both with
  | function both => rw [Stmt.register, Stmt.register, both.name, both.register]
  | classDef both => rw [Stmt.register, Stmt.register, both.register]
  | plain own _ =>
      rw [Stmt.register_of_plain own.leftPlain, Stmt.register_of_plain own.rightPlain,
        own.imports]

private theorem visitDefinitions_eq_of_alike :
    left.visitDefinitions config = right.visitDefinitions config := by
  funext env
  apply foldl_eq_of_forall₂ alike
  intro first second both before
  cases both with
  | function both =>
      rw [Stmt.visitDefinition, Stmt.visitDefinition, both.name, both.visit _ rfl]
  | classDef both => rw [Stmt.visitDefinition, Stmt.visitDefinition, both.visit]
  | plain own _ =>
      rw [Stmt.visitDefinition_of_plain own.leftPlain,
        Stmt.visitDefinition_of_plain own.rightPlain]

private theorem visitStatements_eq_of_alike :
    left.visitStatements config = right.visitStatements config := by
  have outside : List.Forall₂ (Stmt.Alike config)
      (left.body.filter fun stmt => !stmt.isDefinition)
      (right.body.filter fun stmt => !stmt.isDefinition) := by
    apply List.rel_filter _ alike
    intro first second both
    simp only [both.isDefinition]
  funext env
  rw [visitStatements, visitStatements, (Block.Alike.of_statements outside).visit _ rfl]

/-- Programs whose statements are alike have the same analysis. -/
theorem analyze_eq_of_alike : left.analyze config = right.analyze config := by
  have whole := Block.Alike.of_statements alike
  have definitions := visitDefinitions_eq_of_alike alike
  have statements := visitStatements_eq_of_alike alike
  have calls : left.constructorCalls = right.constructorCalls := whole.constructorCalls
  have stages : left.runStage config = right.runStage config := by
    funext env stage
    cases stage with
    | captures =>
        rw [runStage, runStage, withCaptures, withCaptures, captures_eq_of_alike alike]
    | signatures => rw [runStage, runStage, withSignatures_eq_of_alike alike]
    | constructors => rw [runStage, runStage, withConstructors, withConstructors, calls]
    | returns => rw [runStage, runStage, withReturns, withReturns, definitions]
    | visit => rw [runStage, runStage, withVisit, withVisit, definitions, statements]
    | promotion =>
        rw [runStage, runStage, withPromotion, withPromotion, mutations, mutations,
          whole.observations]
  rw [analyze, analyze, stages]

end Program

end NativeTyping

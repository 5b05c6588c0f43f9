import NativeTyping.Program.Expr
/-!
Statements, definitions and whole programs, as the analyses read them.
-/

namespace NativeTyping

structure Param where
  name : String
  hint : Option String
  default : Option Expr

structure ImportName where
  name : String
  asName : Option String
  deriving DecidableEq, Repr

structure WithItem where
  context : Expr
  target : Option Target

mutual

inductive Stmt where
  | assign (targets : List Target) (value : Expr)
  | annAssign (target : Target) (hint : String) (value : Option Expr)
  | augAssign (target : Target) (op : BinaryOp) (value : Expr)
  | expr (value : Expr)
  | ret (value : Option Expr)
  | ifElse (condition : Expr) (body orelse : List Stmt)
  | whileLoop (condition : Expr) (body orelse : List Stmt)
  | forLoop (target : Target) (iter : Expr) (body orelse : List Stmt)
  | functionDef (definition : FunctionDef)
  | classDef (definition : ClassDef)
  | tryExcept (body : List Stmt) (handlers : List Handler) (orelse finalbody : List Stmt)
  | withBlock (items : List WithItem) (body : List Stmt)
  | raise (value : Option Expr)
  | assert (test : Expr) (message : Option Expr)
  | importModules (names : List ImportName)
  | importFrom (source : String) (names : List ImportName)
  | globals (names : List String)
  | nonlocals (names : List String)
  | delete (exprs : List Expr)
  | pass
  | breakLoop
  | continueLoop

structure FunctionDef where
  name : String
  params : List Param
  returnHint : Option String
  body : List Stmt
  decorators : List String
  isAsync : Bool

structure ClassDef where
  name : String
  bases : List String
  decorators : List String
  body : List Stmt

structure Handler where
  exception : Option String
  name : Option String
  body : List Stmt

end

instance : Inhabited Stmt := ⟨.pass⟩

abbrev Block := List Stmt

structure Program where
  body : Block

/-! ## Queries on one statement -/

namespace Stmt

/-- The expressions that a statement evaluates itself, outside its blocks. A
definition evaluates the defaults of its parameters. -/
def expressions : Stmt → List Expr
  | .assign targets value => targets.flatMap Target.expressions ++ [value]
  | .annAssign target _ value => target.expressions ++ value.toList
  | .augAssign target _ value => target.expressions ++ [value]
  | .expr value => [value]
  | .ret value | .raise value => value.toList
  | .ifElse condition _ _ | .whileLoop condition _ _ => [condition]
  | .forLoop target iter _ _ => target.expressions ++ [iter]
  | .withBlock items _ =>
      items.flatMap fun item => item.context :: (item.target.toList.flatMap Target.expressions)
  | .assert test message => test :: message.toList
  | .delete exprs => exprs
  | .functionDef definition => definition.params.filterMap Param.default
  | _ => []

/-- The blocks of a statement in source order. The bodies of functions and
classes are not blocks of the statement that defines them. -/
def blocks : Stmt → List Block
  | .ifElse _ body orelse | .whileLoop _ body orelse | .forLoop _ _ body orelse => [body, orelse]
  | .tryExcept body handlers orelse finalbody =>
      body :: (handlers.map Handler.body ++ [orelse, finalbody])
  | .withBlock _ body => [body]
  | _ => []

def functionDef? : Stmt → Option FunctionDef
  | .functionDef definition => some definition
  | _ => none

def classDef? : Stmt → Option ClassDef
  | .classDef definition => some definition
  | _ => none

def isDefinition : Stmt → Bool
  | .functionDef _ | .classDef _ => true
  | _ => false

end Stmt

/-! ## Bodies

The statements of a body are those in it and in the blocks of its control flow,
at any depth, in source order. Definitions are among them, but not what stands in
the bodies of these definitions.
-/

mutual

def Stmt.statements : Stmt → List Stmt
  | .ifElse condition body orelse =>
      .ifElse condition body orelse :: (Block.statements body ++ Block.statements orelse)
  | .whileLoop condition body orelse =>
      .whileLoop condition body orelse :: (Block.statements body ++ Block.statements orelse)
  | .forLoop target iter body orelse =>
      .forLoop target iter body orelse :: (Block.statements body ++ Block.statements orelse)
  | .tryExcept body handlers orelse finalbody =>
      .tryExcept body handlers orelse finalbody ::
        (Block.statements body ++ (handlerStatements handlers ++
          (Block.statements orelse ++ Block.statements finalbody)))
  | .withBlock items body => .withBlock items body :: Block.statements body
  | plain => [plain]
termination_by structural stmt => stmt

def Block.statements : List Stmt → List Stmt
  | [] => []
  | stmt :: rest => stmt.statements ++ Block.statements rest
termination_by structural body => body

def handlerStatements : List Handler → List Stmt
  | [] => []
  | ⟨_, _, body⟩ :: rest => Block.statements body ++ handlerStatements rest
termination_by structural handlers => handlers

end

theorem Block.statements_eq_flatMap (body : Block) :
    Block.statements body = body.flatMap Stmt.statements := by
  induction body with
  | nil => rfl
  | cons stmt rest induction => simp [Block.statements, induction]

theorem handlerStatements_eq_flatMap (handlers : List Handler) :
    handlerStatements handlers =
      (handlers.map Handler.body).flatMap Block.statements := by
  induction handlers with
  | nil => rfl
  | cons handler rest induction =>
      obtain ⟨exception, name, body⟩ := handler
      simp [handlerStatements, induction]

theorem Stmt.statements_eq (stmt : Stmt) :
    stmt.statements = stmt :: stmt.blocks.flatMap Block.statements := by
  cases stmt <;> simp [Stmt.statements, Stmt.blocks, handlerStatements_eq_flatMap]

def Block.functions (body : Block) : List FunctionDef :=
  (Block.statements body).filterMap Stmt.functionDef?

/-! Every statement of a body, those in the bodies of functions and classes
included; each stands before the statements inside it. -/

mutual

def Stmt.everyStatement : Stmt → List Stmt
  | .ifElse condition body orelse =>
      .ifElse condition body orelse :: (Block.everyStatement body ++ Block.everyStatement orelse)
  | .whileLoop condition body orelse =>
      .whileLoop condition body orelse ::
        (Block.everyStatement body ++ Block.everyStatement orelse)
  | .forLoop target iter body orelse =>
      .forLoop target iter body orelse ::
        (Block.everyStatement body ++ Block.everyStatement orelse)
  | .tryExcept body handlers orelse finalbody =>
      .tryExcept body handlers orelse finalbody ::
        (Block.everyStatement body ++ (everyHandlerStatement handlers ++
          (Block.everyStatement orelse ++ Block.everyStatement finalbody)))
  | .withBlock items body => .withBlock items body :: Block.everyStatement body
  | .functionDef ⟨name, params, returnHint, body, decorators, isAsync⟩ =>
      .functionDef ⟨name, params, returnHint, body, decorators, isAsync⟩ ::
        Block.everyStatement body
  | .classDef ⟨name, bases, decorators, body⟩ =>
      .classDef ⟨name, bases, decorators, body⟩ :: Block.everyStatement body
  | plain => [plain]
termination_by structural stmt => stmt

def Block.everyStatement : List Stmt → List Stmt
  | [] => []
  | stmt :: rest => stmt.everyStatement ++ Block.everyStatement rest
termination_by structural body => body

def everyHandlerStatement : List Handler → List Stmt
  | [] => []
  | ⟨_, _, body⟩ :: rest => Block.everyStatement body ++ everyHandlerStatement rest
termination_by structural handlers => handlers

end

/-! ## Functions -/

namespace FunctionDef

def isProperty (definition : FunctionDef) : Bool :=
  definition.decorators.contains "property"

def isStatic (definition : FunctionDef) : Bool :=
  definition.decorators.contains "staticmethod"

def nested (definition : FunctionDef) : List FunctionDef :=
  Block.functions definition.body

/-! `fold` combines at each function the results for the functions nested
immediately in it. -/

section Fold

variable {α : Type} (combine : FunctionDef → List (FunctionDef × α) → α)

mutual

def fold : FunctionDef → α
  | ⟨name, params, returnHint, body, decorators, isAsync⟩ =>
      combine ⟨name, params, returnHint, body, decorators, isAsync⟩ (foldBlock body)
termination_by structural definition => definition

def foldStmt : Stmt → List (FunctionDef × α)
  | .functionDef definition => [(definition, fold definition)]
  | .ifElse _ body orelse => foldBlock body ++ foldBlock orelse
  | .whileLoop _ body orelse => foldBlock body ++ foldBlock orelse
  | .forLoop _ _ body orelse => foldBlock body ++ foldBlock orelse
  | .tryExcept body handlers orelse finalbody =>
      foldBlock body ++ (foldHandlers handlers ++ (foldBlock orelse ++ foldBlock finalbody))
  | .withBlock _ body => foldBlock body
  | _ => []
termination_by structural stmt => stmt

def foldBlock : List Stmt → List (FunctionDef × α)
  | [] => []
  | stmt :: rest => foldStmt stmt ++ foldBlock rest
termination_by structural body => body

def foldHandlers : List Handler → List (FunctionDef × α)
  | [] => []
  | ⟨_, _, body⟩ :: rest => foldBlock body ++ foldHandlers rest
termination_by structural handlers => handlers

end

def foldAll (definitions : List FunctionDef) : List (FunctionDef × α) :=
  definitions.map fun definition => (definition, fold combine definition)

mutual

theorem foldStmt_eq (stmt : Stmt) :
    foldStmt combine stmt =
      foldAll combine (stmt.statements.filterMap Stmt.functionDef?) := by
  cases stmt with
  | ifElse condition body orelse =>
      simp [foldStmt, foldAll, Stmt.statements, Stmt.functionDef?, List.filterMap_cons,
        foldBlock_eq body, foldBlock_eq orelse]
  | whileLoop condition body orelse =>
      simp [foldStmt, foldAll, Stmt.statements, Stmt.functionDef?, List.filterMap_cons,
        foldBlock_eq body, foldBlock_eq orelse]
  | forLoop target iter body orelse =>
      simp [foldStmt, foldAll, Stmt.statements, Stmt.functionDef?, List.filterMap_cons,
        foldBlock_eq body, foldBlock_eq orelse]
  | tryExcept body handlers orelse finalbody =>
      simp [foldStmt, foldAll, Stmt.statements, Stmt.functionDef?, List.filterMap_cons,
        foldBlock_eq body, foldHandlers_eq handlers, foldBlock_eq orelse, foldBlock_eq finalbody]
  | withBlock items body =>
      simp [foldStmt, foldAll, Stmt.statements, Stmt.functionDef?, List.filterMap_cons,
        foldBlock_eq body]
  | _ => simp [foldStmt, foldAll, Stmt.statements, Stmt.functionDef?, List.filterMap_cons]

theorem foldBlock_eq (body : List Stmt) :
    foldBlock combine body =
      foldAll combine ((Block.statements body).filterMap Stmt.functionDef?) := by
  cases body with
  | nil => rfl
  | cons stmt rest =>
      simp [foldBlock, foldAll, Block.statements, foldStmt_eq stmt, foldBlock_eq rest]

theorem foldHandlers_eq (handlers : List Handler) :
    foldHandlers combine handlers =
      foldAll combine ((handlerStatements handlers).filterMap Stmt.functionDef?) := by
  cases handlers with
  | nil => rfl
  | cons handler rest =>
      obtain ⟨exception, name, body⟩ := handler
      simp [foldHandlers, foldAll, handlerStatements, foldBlock_eq body, foldHandlers_eq rest]

end

theorem fold_eq (definition : FunctionDef) :
    fold combine definition =
      combine definition (definition.nested.map fun inner => (inner, fold combine inner)) := by
  obtain ⟨name, params, returnHint, body, decorators, isAsync⟩ := definition
  simp [fold, foldBlock_eq, foldAll, nested, Block.functions]

end Fold

end FunctionDef

/-! ## Classes and programs -/

namespace ClassDef

def methods (definition : ClassDef) : List FunctionDef :=
  definition.body.filterMap Stmt.functionDef?

def constructor? (definition : ClassDef) : Option FunctionDef :=
  definition.methods.find? fun method => method.name = "__init__"

end ClassDef

namespace Program

def functions (program : Program) : List FunctionDef :=
  program.body.filterMap Stmt.functionDef?

def classes (program : Program) : List ClassDef :=
  program.body.filterMap Stmt.classDef?

end Program

end NativeTyping

import NativeTyping.Captures
import NativeTyping.Mutation.Event
import NativeTyping.Visit.Definition
/-!
The analysis of a whole program, in six stages.

1. Captures of nested functions.
2. Signatures: declared results and parameters of all functions, classes with
   their bases and properties, imports.
3. Constructors: the types of the arguments of every call of a capitalized name.
4. Returns: a visit of all definitions, so that results without a hint are known.
5. Visit: the statements of the program, all definitions, and the statements again.
6. Promotion: fixed arrays that are grown or shrunk anywhere become lists.
-/

namespace NativeTyping

inductive Stage where
  | captures
  | signatures
  | constructors
  | returns
  | visit
  | promotion
  deriving DecidableEq, Repr

namespace Stage

def name : Stage → String
  | .captures => "captures"
  | .signatures => "signatures"
  | .constructors => "constructors"
  | .returns => "returns"
  | .visit => "visit"
  | .promotion => "promotion"

def all : List Stage :=
  [.captures, .signatures, .constructors, .returns, .visit, .promotion]

end Stage

/-! ## Captures -/

def Environment.registerCaptures (env : Environment) (captures : Captures) : Environment :=
  captures.entries.foldl (fun env entry => env.setCaptures entry.1 entry.2) env

/-! ## Signatures -/

/-- Registers the declared types of a function and of those nested in it. The
receiver of a method is no parameter of its signature. -/
def FunctionDef.register (config : Config) (definition : FunctionDef) :
    String → Bool → Environment → Environment :=
  definition.fold fun definition nested qualified hasReceiver env =>
    let params := if hasReceiver then definition.params.tail else definition.params
    let own :=
      (env.setReturn qualified (config.hintType definition.returnHint)).setParams qualified
        (params.map fun param => config.hintType param.hint)
    nested.foldl
      (fun env inner => inner.2 (Dotted.join qualified inner.1.name) false env) own

/-- What is declared about a class: its bases, the results of its methods, and
which of them are properties. -/
def ClassDef.declaredInfo (config : Config) (definition : ClassDef) : ClassInfo :=
  definition.methods.foldl
    (fun info method =>
      let declared := info.setMethod method.name (config.hintType method.returnHint)
      if method.isProperty then declared.markProperty method.name else declared)
    (ClassInfo.ofName definition.name definition.bases)

def ClassDef.register (config : Config) (definition : ClassDef) (env : Environment) :
    Environment :=
  let withMethods := definition.methods.foldl
    (fun env method =>
      method.register config (Dotted.join definition.name method.name) (!method.isStatic) env)
    env
  withMethods.registerClass (definition.declaredInfo config)

def Stmt.register (config : Config) (env : Environment) : Stmt → Environment
  | .functionDef definition => definition.register config definition.name false env
  | .classDef definition => definition.register config env
  | other => env.registerImports other

/-! ## Constructors

A call of a name with a capital in front counts as the call of a constructor, whether or
not a class has that name.
-/

def Expr.constructorCall? : Expr → Option (String × List Expr)
  | .call function args _ =>
      match function.toList with
      | first :: _ => if first.isUpper then some (function, args) else none
      | [] => none
  | _ => none

def Program.constructorCalls (program : Program) : List (String × List Expr) :=
  (Block.everyStatement program.body).flatMap fun stmt =>
    stmt.expressions.flatMap fun expr =>
      expr.subexpressions.filterMap Expr.constructorCall?

/-! ## Visits -/

def Stmt.visitDefinition (config : Config) (env : Environment) : Stmt → Environment
  | .functionDef definition => definition.visit { config := config } definition.name none env
  | .classDef definition => definition.visit config env
  | _ => env

namespace Program

def visitDefinitions (config : Config) (program : Program) (env : Environment) : Environment :=
  program.body.foldl (Stmt.visitDefinition config) env

def visitStatements (config : Config) (program : Program) (env : Environment) : Environment :=
  Block.visit { config := config }
    (program.body.filter fun stmt => !stmt.isDefinition) env

end Program

/-! ## Promotion -/

def fieldOfSelf? (name : String) : Option String :=
  let qualifier := "self.".toList
  if qualifier.isPrefixOf name.toList then
    some (String.ofList (name.toList.drop qualifier.length))
  else none

def Environment.promote (env : Environment) (name : String) : Environment :=
  match fieldOfSelf? name with
  | some field => env.promoteFields field
  | none => env.promoteArrays name

/-! ## Stages -/

namespace Program

def withCaptures (program : Program) (env : Environment) : Environment :=
  env.registerCaptures program.captures

def withSignatures (config : Config) (program : Program) (env : Environment) : Environment :=
  program.body.foldl (Stmt.register config) env

/-- The arguments are read outside all functions. -/
def withConstructors (config : Config) (program : Program) (env : Environment) : Environment :=
  let setting : Setting := { config := config }
  program.constructorCalls.foldl
    (fun env call => env.recordConstructorArgs call.1 (call.2.map (setting.infer env))) env

def withReturns (config : Config) (program : Program) (env : Environment) : Environment :=
  if config.inferReturns then program.visitDefinitions config env else env

def withVisit (config : Config) (program : Program) (env : Environment) : Environment :=
  program.visitStatements config
    (program.visitDefinitions config (program.visitStatements config env))

def withPromotion (config : Config) (program : Program) (env : Environment) : Environment :=
  if config.promoteArrays then
    (Mutation.Events.listMutated program.mutations).foldl Environment.promote env
  else env

def runStage (config : Config) (program : Program) (env : Environment) : Stage → Environment
  | .captures => program.withCaptures env
  | .signatures => program.withSignatures config env
  | .constructors => program.withConstructors config env
  | .returns => program.withReturns config env
  | .visit => program.withVisit config env
  | .promotion => program.withPromotion config env

def runStages (config : Config) (program : Program) (env : Environment) :
    List Stage → List (Stage × Environment)
  | [] => []
  | stage :: rest =>
      let after := program.runStage config env stage
      (stage, after) :: program.runStages config after rest

def analyze (config : Config) (program : Program) : Environment :=
  Stage.all.foldl (program.runStage config) {}

end Program

end NativeTyping

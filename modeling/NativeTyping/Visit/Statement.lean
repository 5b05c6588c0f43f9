import NativeTyping.Visit.Assignment
/-!
Visiting statements: each one writes what it shows about its variables to the
environment. Definitions are passed over; they are visited on their own.
-/

namespace NativeTyping

/-! ## Imports -/

namespace Environment

/-- Importing a module without renaming it binds the first part of its name. -/
def importModule (env : Environment) (imported : ImportName) : Environment :=
  match imported.asName with
  | some name => env.addImport name imported.name
  | none => env.addImport (Dotted.head imported.name) (Dotted.head imported.name)

def importMember (env : Environment) (source : String) (imported : ImportName) : Environment :=
  env.addImport (imported.asName.getD imported.name) (Dotted.join source imported.name)

def registerImports (env : Environment) : Stmt → Environment
  | .importModules names => names.foldl importModule env
  | .importFrom source names =>
      names.foldl (fun env imported => env.importMember source imported) env
  | _ => env

end Environment

/-! ## Single statements -/

namespace Setting

/-- What an annotated assignment stores: the type of the hint, or of the value if
the hint says nothing. -/
def annotatedType (setting : Setting) (env : Environment) (hint : String)
    (value : Option Expr) : Ty :=
  let declared := setting.config.hintType (some hint)
  match value with
  | some expr => if declared.isUnknown then setting.infer env expr else declared
  | none => declared

def bindException (env : Environment) (exception name : Option String) : Environment :=
  match name with
  | some id => env.widenVar id (.library (.exception (exception.getD "Exception")))
  | none => env

def visitSimple (setting : Setting) (env : Environment) : Stmt → Environment
  | .assign targets value =>
      let type := setting.infer env value
      targets.foldl (fun env target => setting.assign env target type) env
  | .annAssign target hint value =>
      setting.assign env target (setting.annotatedType env hint value)
  | .augAssign target op value =>
      setting.assign env target
        (env.binaryType op (setting.targetType env target) (setting.infer env value))
  | .expr (.methodCall receiver method args _) => setting.applyMutation env receiver method args
  | .importModules names => env.registerImports (.importModules names)
  | .importFrom source names => env.registerImports (.importFrom source names)
  | .globals names | .nonlocals names => names.foldl Environment.declareOuter env
  | _ => env

end Setting

/-! ## Blocks -/

section Visit

variable (setting : Setting)

mutual

def Stmt.visit : Stmt → Environment → Environment
  | .ifElse _ body orelse, env => Block.visit orelse (Block.visit body env)
  | .whileLoop _ body orelse, env => Block.visit orelse (Block.visit body env)
  | .forLoop target iter body orelse, env =>
      let item := (setting.context env).iterationItem iter
      Block.visit orelse (Block.visit body (setting.assign env target item))
  | .tryExcept body handlers orelse finalbody, env =>
      Block.visit finalbody (Block.visit orelse (visitHandlers handlers (Block.visit body env)))
  | .withBlock items body, env => Block.visit body (items.foldl setting.enterContext env)
  | plain, env => setting.visitSimple env plain
termination_by structural stmt => stmt

def Block.visit : List Stmt → Environment → Environment
  | [], env => env
  | stmt :: rest, env => Block.visit rest (stmt.visit env)
termination_by structural body => body

def visitHandlers : List Handler → Environment → Environment
  | [], env => env
  | ⟨exception, name, body⟩ :: rest, env =>
      visitHandlers rest (Block.visit body (Setting.bindException env exception name))
termination_by structural handlers => handlers

end

end Visit

end NativeTyping

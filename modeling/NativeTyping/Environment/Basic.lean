import NativeTyping.Environment.ClassInfo
/-!
The environment: everything learned about one compilation unit.

Variables are bound per scope. The scope of a function is named by the dotted
name of the function, and code outside functions writes to the global bindings.
-/

namespace NativeTyping

/-- `returns` and `params` are keyed by the dotted name of a function,
`constructorArgs` by class, `captures` by nested function, and `imports` by the
local name of what is imported. `declaredOuter` holds, for each scope, the names
that it declares to live outside of it. The scope of the present position stands
first in `scopeStack`. -/
structure Environment where
  globals : Table Ty := ∅
  scopes : Table (Table Ty) := ∅
  classes : Table ClassInfo := ∅
  returns : Table Ty := ∅
  params : Table (List Ty) := ∅
  constructorArgs : Table (List Ty) := ∅
  captures : Table NameSet := ∅
  imports : Table String := ∅
  declaredOuter : Table NameSet := ∅
  scopeStack : List String := []
  deriving DecidableEq

namespace Environment

instance : Inhabited Environment := ⟨{}⟩

/-! ## Position -/

def currentScope? (env : Environment) : Option String :=
  env.scopeStack.head?

def depth (env : Environment) : Nat :=
  env.scopeStack.length

def enterScope (env : Environment) (scope : String) : Environment :=
  { env with scopeStack := scope :: env.scopeStack }

def exitScope (env : Environment) : Environment :=
  { env with scopeStack := env.scopeStack.tail }

/-!
What a computation enters inside a scope is left when the scope is: the innermost
scopes go until as many are left as there were.
-/

def restoreDepth (env : Environment) (depth : Nat) : Environment :=
  { env with scopeStack := env.scopeStack.drop (env.depth - depth) }

def withScope {α : Type} (env : Environment) (scope : String)
    (body : Environment → α × Environment) : α × Environment :=
  let (result, after) := body (env.enterScope scope)
  (result, after.restoreDepth env.depth)

def inScope (env : Environment) (scope : String) (body : Environment → Environment) :
    Environment :=
  (body (env.enterScope scope)).restoreDepth env.depth

/-! ## Registries -/

def registerClass (env : Environment) (info : ClassInfo) : Environment :=
  { env with classes := env.classes.insert info.name info }

def modifyClass (env : Environment) (className : String) (change : ClassInfo → ClassInfo) :
    Environment :=
  { env with classes := env.classes.modify className change }

def isClass (env : Environment) (name : String) : Bool :=
  env.classes.contains name

def setReturn (env : Environment) (function : String) (result : Ty) : Environment :=
  { env with returns := env.returns.insert function result }

def setParams (env : Environment) (function : String) (types : List Ty) : Environment :=
  { env with params := env.params.insert function types }

def setCaptures (env : Environment) (function : String) (names : NameSet) : Environment :=
  { env with captures := env.captures.insert function names }

def addImport (env : Environment) (name target : String) : Environment :=
  { env with imports := env.imports.insert name target }

/-!
The arguments of the calls of a constructor are merged position by position, and the
longest call decides how many there are.
-/

def mergePositions : List Ty → List Ty → List Ty
  | [], added => added
  | present, [] => present
  | present :: presents, added :: addeds =>
      Ty.widen present added :: mergePositions presents addeds

def recordConstructorArgs (env : Environment) (className : String) (args : List Ty) :
    Environment :=
  let merge : Option (List Ty) → List Ty
    | none => args
    | some present => mergePositions present args
  { env with constructorArgs := env.constructorArgs.upsert className merge }

end Environment

end NativeTyping

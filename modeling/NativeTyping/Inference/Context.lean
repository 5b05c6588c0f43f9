import NativeTyping.Config.Basic
import NativeTyping.Environment.Resolution
import NativeTyping.Library.Modules
import NativeTyping.Ty.Hint
/-!
What an expression is read against: the configuration, the class whose definition
is being visited, the environment, and the names that a comprehension keeps to
itself.
-/

namespace NativeTyping

structure Setting where
  config : Config
  currentClass : Option String := none
  deriving DecidableEq, Repr

/-- Of the private names, the innermost ones stand first. -/
structure Context extends Setting where
  env : Environment
  privates : List (String × Ty) := []

def Setting.context (setting : Setting) (env : Environment) : Context :=
  { toSetting := setting, env := env }

namespace Context

def bindPrivates (context : Context) (bindings : List (String × Ty)) : Context :=
  { context with privates := bindings.reverse ++ context.privates }

/-!
A bare name is a private name, then a variable, then a function. Values are bound;
values, functions and classes of the program are taken.
-/

def isBound (context : Context) (name : String) : Bool :=
  (context.privates.lookup name).isSome || (context.env.lookup? name).isSome

def functionValue? (context : Context) (name : String) : Option Ty :=
  (context.env.resolveFunction? name).bind fun function =>
    (context.env.functionType function).toOption

def lookupName (context : Context) (name : String) : Ty :=
  Ty.orUnknown
    ((context.privates.lookup name).or
      ((context.env.lookup? name).or (context.functionValue? name)))

def isTaken (context : Context) (name : String) : Bool :=
  context.isBound name || (context.env.resolveFunction? name).isSome ||
    context.env.isClass name

/-- The full name of the module or member that a dotted name stands for, if its
first part is not a value but an imported name or a module of the library. -/
def modulePath? (context : Context) (dotted : String) : Option String :=
  let (head, rest) := Dotted.splitFirst dotted
  if context.isBound head then none
  else
    let base? := (context.env.imports.get? head).or
      (if Library.isImplicitModule head then some head else none)
    base?.map fun base =>
      match rest with
      | some rest => Dotted.join base rest
      | none => base

end Context

def Config.hintType (config : Config) (hint : Option String) : Ty :=
  match hint with
  | some written => if config.useHints then Ty.ofHint written else .unknown
  | none => .unknown

end NativeTyping

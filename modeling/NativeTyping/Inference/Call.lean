import NativeTyping.Inference.Context
import NativeTyping.Library.Builtins
import NativeTyping.Library.Facilities
/-!
Types of calls and attributes.

Each kind of call is resolved in a fixed order, and is `unknown` if nothing
matches.
-/

namespace NativeTyping

def Ty.present : Ty → Ty
  | .optional inner => inner
  | other => other

namespace Context

def calledValue? (context : Context) : Ty → Option Ty
  | .function _ result => some result
  | .closure name => some (Ty.orUnknown (context.env.returns.get? name))
  | .object className => some (Ty.orUnknown (context.env.methodReturn? className "__call__"))
  | _ => none

def currentClassInfo? (context : Context) : Option ClassInfo :=
  context.currentClass.bind context.env.classes.get?

/-! ## Calls of a bare name

A name is looked for as a class or a function of the program that no value hides, as
a value that can be called, as `super`, as a function imported from the library, as
`dict` with keyword arguments alone, as a builtin function, and last as an exception.
-/

def calledDefinition? (context : Context) (name : String) : Option Ty :=
  if context.isBound name then none
  else if context.env.isClass name then some (.object name)
  else
    (context.env.resolveFunction? name).map fun function =>
      Ty.orUnknown (context.env.returns.get? function)

def calledSuper? (context : Context) (name : String) : Option Ty :=
  if name = "super" then
    some (Ty.orUnknown
      ((context.currentClassInfo?.bind fun info => info.bases.head?).map Ty.object))
  else none

def importedFunction? (context : Context) (name : String) : Option ReturnRule := do
  let target ← context.env.imports.get? name
  let (source, function) ← Dotted.splitLast? target
  Library.moduleFunction? source function

def keywordDict? (name : String) (args keywords : List Ty) : Option Ty :=
  if name = "dict" && args.isEmpty && !keywords.isEmpty then
    some (.dict Ty.text (Ty.widenAll keywords).owned)
  else none

def calledException? (name : String) : Option Ty :=
  if Library.isExceptionName name then some (.library (.exception name)) else none

def callType (context : Context) (name : String) (args : List Ty) (exprs : List Expr)
    (keywords : List Ty) : Ty :=
  Ty.orUnknown <|
    (context.calledDefinition? name).or <|
    (context.calledValue? (context.lookupName name)).or <|
    (context.calledSuper? name).or <|
    ((context.importedFunction? name).map fun rule => rule.apply args exprs).or <|
    (keywordDict? name args keywords).or <|
    ((Library.builtinFunction? name).map fun rule => rule.apply args exprs).or <|
    calledException? name

/-! ## Calls of a method

A method is one of the base class, one that the dotted name of its receiver decides,
or one of the value of its receiver. An instance may also keep a callable in a field.
-/

def superMethod? (context : Context) (method : String) : Option Ty :=
  context.currentClassInfo?.bind fun info =>
    info.bases.findSome? fun base => context.env.methodReturn? base method

def instanceMethod? (context : Context) (className method : String) : Option Ty :=
  (context.env.methodReturn? className method).or <|
    match context.env.classField? className method with
    | some (.function _ result) => some result
    | some (.closure name) => context.env.returns.get? name
    | _ => none

def isSuperCall (context : Context) : Expr → Bool
  | .call function _ _ => function = "super" && !context.isBound "super"
  | _ => false

/-- The result of a call that its dotted name decides: of a function of a module,
known or not, or of a function registered under that name. -/
def dottedCall? (context : Context) (dotted method : String) (args : List Ty)
    (exprs : List Expr) : Option Ty :=
  match context.modulePath? dotted with
  | some path =>
      some <| Ty.orUnknown <|
        (context.env.returns.get? (Dotted.join path method)).or <|
          (Library.moduleFunction? path method).map fun rule => rule.apply args exprs
  | none =>
      if context.isBound (Dotted.head dotted) then none
      else context.env.returns.get? (Dotted.join dotted method)

def receiverCall (context : Context) (receiver : Ty) (method : String) (args : List Ty) : Ty :=
  Ty.orUnknown <|
    (Library.builtinMethod? receiver.present method args).or <|
      match receiver.present with
      | .library facility => facility.method? method
      | .object className => context.instanceMethod? className method
      | _ => none

def methodCallType (context : Context) (receiver : Expr) (receiverType : Ty) (method : String)
    (args : List Ty) (exprs : List Expr) : Ty :=
  if context.isSuperCall receiver then Ty.orUnknown (context.superMethod? method)
  else
    (receiver.dottedName?.bind fun dotted =>
      context.dottedCall? dotted method args exprs).getD
      (context.receiverCall receiverType method args)

/-! ## Attributes

An attribute is a constant of a module, a field of a class that is read through the
name of the class, or an attribute of a value: of an instance, a field or the result
of a property.
-/

def instanceAttribute (context : Context) (className attr : String) : Ty :=
  match context.env.classField? className attr with
  | some type => type
  | none =>
      if context.env.isProperty className attr then
        Ty.orUnknown (context.env.methodReturn? className attr)
      else .unknown

def valueAttribute (context : Context) (value : Ty) (attr : String) : Ty :=
  match value with
  | .object className => context.instanceAttribute className attr
  | .library facility => Ty.orUnknown (facility.attribute? attr)
  | .float => if attr = "real" || attr = "imag" then .float else .unknown
  | .int =>
      if attr = "real" || attr = "numerator" || attr = "denominator" then .int else .unknown
  | _ => .unknown

def namedClass? (context : Context) : Expr → Option String
  | .name id => if context.env.isClass id && !context.isBound id then some id else none
  | _ => none

def attributeType (context : Context) (value : Expr) (valueType : Ty) (attr : String) : Ty :=
  match value.dottedName?.bind context.modulePath? with
  | some path => Ty.orUnknown (Library.moduleConstant? (Dotted.join path attr))
  | none =>
      match context.namedClass? value with
      | some className => Ty.orUnknown (context.env.classField? className attr)
      | none => context.valueAttribute valueType attr

end Context

end NativeTyping

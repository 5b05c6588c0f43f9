import NativeTyping.Visit.Statement
/-!
Visiting functions and classes.

A function is visited in its own scope: its parameters are bound, its body is
swept, the functions nested in it are visited, and its body is swept once more, so
that its result sees theirs. At last its result is recorded.
-/

namespace NativeTyping

namespace Setting

/-! ## Parameters -/

/-- The type of a parameter: that of its hint, else of its default, else, in a
constructor, of the arguments that it is called with. -/
def paramType (setting : Setting) (env : Environment) (param : Param) (arg : Option Ty) : Ty :=
  let declared := setting.config.hintType param.hint
  let given :=
    match declared.isUnknown, param.default with
    | true, some default => (setting.infer env default).owned
    | _, _ => declared
  match arg with
  | some argType =>
      if given.isUnknown || given = .none then (Ty.widen given argType).owned else given
  | none => given

def bindPlainParams (setting : Setting) :
    List Param → List Ty → Environment → List Ty × Environment
  | [], _, env => ([], env)
  | param :: rest, args, env =>
      let type := setting.paramType env param args.head?
      let (types, after) := setting.bindPlainParams rest args.tail (env.putVar param.name type)
      (type :: types, after)

def constructorArgs (env : Environment) (definition : FunctionDef) (className : Option String) :
    List Ty :=
  if definition.name = "__init__" then (className.bind env.constructorArgs.get?).getD [] else []

/-- Binds the parameters of a function. The first one of a method that is not
static is the receiver, which has no place among the types of the parameters. -/
def bindParams (setting : Setting) (definition : FunctionDef) (className : Option String)
    (env : Environment) : List Ty × Environment :=
  let args := constructorArgs env definition className
  match className, definition.params with
  | some owner, receiver :: rest =>
      if definition.isStatic then setting.bindPlainParams (receiver :: rest) args env
      else setting.bindPlainParams rest args (env.putVar receiver.name (.object owner))
  | _, params => setting.bindPlainParams params args env

/-! ## Results

The result of a function without a hint for it is the merge of what its return
statements give, and `none` if there is no such statement.
-/

def returnTypes (setting : Setting) (env : Environment) (body : Block) : List Ty :=
  (Block.statements body).filterMap fun
    | .ret (some value) => some (setting.infer env value)
    | .ret none => some .none
    | _ => none

def bodyResult (setting : Setting) (env : Environment) (body : Block) : Ty :=
  match setting.returnTypes env body with
  | [] => .none
  | types => (Ty.widenAll types).owned

def recordReturn (setting : Setting) (definition : FunctionDef) (qualified : String)
    (className : Option String) (env : Environment) : Environment :=
  if setting.config.inferReturns && (setting.config.hintType definition.returnHint).isUnknown then
    let result := setting.bodyResult env definition.body
    let recorded := env.setReturn qualified result
    match className with
    | some owner => recorded.modifyClass owner fun info => info.setMethod definition.name result
    | none => recorded
  else env

end Setting

/-! ## Functions -/

def FunctionDef.visit (setting : Setting) (definition : FunctionDef) :
    String → Option String → Environment → Environment :=
  definition.fold fun definition nested qualified className env =>
    env.inScope qualified fun env =>
      let (types, bound) := setting.bindParams definition className env
      let swept := Block.visit setting definition.body (bound.setParams qualified types)
      let settled :=
        if nested.isEmpty then swept
        else
          Block.visit setting definition.body
            (nested.foldl
              (fun env inner => inner.2 (Dotted.join qualified inner.1.name) none env) swept)
      setting.recordReturn definition qualified className settled

/-! ## Classes -/

def Setting.classAttribute? (setting : Setting) (env : Environment) :
    Stmt → Option (String × Ty)
  | .annAssign (.place (.name id)) hint value =>
      some (id, setting.annotatedType env hint value)
  | .assign [.place (.name id)] value => some (id, setting.infer env value)
  | _ => none

def Setting.visitClassAttribute (setting : Setting) (className : String) (env : Environment)
    (stmt : Stmt) : Environment :=
  match setting.classAttribute? env stmt with
  | some (name, type) => env.modifyClass className fun info => info.widenField name type.owned
  | none => env

/-- The methods in the order of their visit: constructors first, so that the others
see the fields that they define. -/
def ClassDef.visitOrder (definition : ClassDef) : List FunctionDef :=
  definition.methods.filter (fun method => method.name = "__init__") ++
    definition.methods.filter (fun method => method.name ≠ "__init__")

def ClassDef.visit (config : Config) (definition : ClassDef) (env : Environment) : Environment :=
  let setting : Setting := { config := config, currentClass := some definition.name }
  definition.visitOrder.foldl
    (fun env method =>
      method.visit setting (Dotted.join definition.name method.name) (some definition.name) env)
    (definition.body.foldl (setting.visitClassAttribute definition.name) env)

end NativeTyping

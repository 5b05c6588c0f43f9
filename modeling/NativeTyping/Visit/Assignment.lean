import NativeTyping.Inference.Expr
import NativeTyping.Mutation.Rule
import NativeTyping.Program.Stmt
/-!
What assignments and mutating calls write to the environment.
-/

namespace NativeTyping

namespace Setting

def infer (setting : Setting) (env : Environment) (expr : Expr) : Ty :=
  (setting.context env).infer expr

def changeOwner (setting : Setting) (env : Environment) (value : Expr) (attr : String)
    (change : ClassInfo → ClassInfo) : Environment :=
  match setting.infer env value with
  | .object className => env.modifyClass (env.fieldOwner className attr) change
  | _ => env

/-!
Writing back replaces the type of a variable or a field, where storing merges into it.
Other expressions hold no type.
-/

def writeBack (setting : Setting) (env : Environment) (target : Expr) (type : Ty) :
    Environment :=
  match target with
  | .name id => (env.refineVar? id type).getD env
  | .attribute value attr =>
      setting.changeOwner env value attr fun info => info.setField attr type
  | _ => env

def writeBackChanged (setting : Setting) (env : Environment) (target : Expr)
    (present changed : Ty) : Environment :=
  if changed = present then env else setting.writeBack env target changed

/-! ## Storing to a place

A variable or a field takes the stored type in addition to its present one, and a value
is unpacked over the places of a target from left to right.
-/

def isStringLiteral : Expr → Bool
  | .literal (.str _) => true
  | _ => false

/-- The type of a container after a value is stored in it under an index. A string
for an index makes a dict of something unknown. -/
def storedInto? (container : Ty) (index : Expr) (indexType value : Ty) : Option Ty :=
  match container with
  | .dict key present =>
      some (.dict (Ty.widen key indexType).owned (Ty.widen present value).owned)
  | .list element => some (.list (Ty.widen element value).owned)
  | .unknown => if isStringLiteral index then some (.dict Ty.text value.owned) else none
  | _ => none

def assignSubscript (setting : Setting) (env : Environment) (base index : Expr) (value : Ty) :
    Environment :=
  let container := setting.infer env base
  match storedInto? container index (setting.infer env index) value with
  | some changed => setting.writeBackChanged env base container changed
  | none => env

def assignPlace (setting : Setting) (env : Environment) (place : Place) (type : Ty) :
    Environment :=
  match place with
  | .name id => env.widenVar id type
  | .attribute value attr =>
      setting.changeOwner env value attr fun info => info.widenField attr type.owned
  | .subscript base index => setting.assignSubscript env base index type

def assign (setting : Setting) (env : Environment) (target : Target) (type : Ty) :
    Environment :=
  (target.unpack type).foldl (fun env part => setting.assignPlace env part.1 part.2) env

def targetType (setting : Setting) (env : Environment) : Target → Ty
  | .place (.name id) => (setting.context env).lookupName id
  | .place (.attribute value attr) => setting.infer env (.attribute value attr)
  | .place (.subscript base index) => env.subscriptType index (setting.infer env base)
  | .tuple _ | .starred _ => .unknown

/-! ## Mutating calls -/

/-- A fixed array counts as a list for a method that grows, shrinks or reorders
it. -/
def mutableReceiver (config : Config) (receiver : Ty) (method : String) : Ty :=
  if config.promoteArrays && Mutation.listMethods.contains method then receiver.promoteArray
  else receiver

def applyMutation (setting : Setting) (env : Environment) (receiver : Expr) (method : String)
    (args : List Expr) : Environment :=
  let present := setting.infer env receiver
  let mutated := mutableReceiver setting.config present method
  let changed := (Mutation.refine? mutated method (args.map (setting.infer env))).getD mutated
  setting.writeBackChanged env receiver present changed

/-! ## Context managers -/

def enteredType (env : Environment) (manager : Ty) : Ty :=
  let entered? := match manager with
    | .object className => env.methodReturn? className "__enter__"
    | .library facility => facility.method? "__enter__"
    | _ => none
  entered?.getD manager

def enterContext (setting : Setting) (env : Environment) (item : WithItem) : Environment :=
  match item.target with
  | some target =>
      setting.assign env target (enteredType env (setting.infer env item.context))
  | none => env

end Setting

end NativeTyping

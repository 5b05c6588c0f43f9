import NativeTyping.Environment.Basic
import NativeTyping.Text.Dotted
import NativeTyping.Ty.Storage
/-!
Variables: where a write from the present position goes, and which binding a
read finds.

A write goes to the present scope, unless the scope declares the name to live
outside. A read looks in the present scope, then, for names that the scope
captures or declares outside, in the scopes around it, and at last among the
global bindings.
-/

namespace NativeTyping

inductive Owner where
  | program
  | scope (name : String)
  deriving DecidableEq, Repr

namespace Environment

def scopeBindings (env : Environment) (scope : String) : Table Ty :=
  (env.scopes.get? scope).getD ∅

def bindings (env : Environment) : Owner → Table Ty
  | .program => env.globals
  | .scope name => env.scopeBindings name

def updateAt (env : Environment) (owner : Owner) (name : String) (update : Option Ty → Ty) :
    Environment :=
  match owner with
  | .program => { env with globals := env.globals.upsert name update }
  | .scope scope =>
      { env with
        scopes := env.scopes.upsert scope fun present =>
          (present.getD ∅).upsert name update }

/-! ## Owners

`writeOwner` is what a write from the present position binds a name in, and
`readOwner?` what holds the binding that a read from there finds.
-/

def isBoundIn (env : Environment) (scope name : String) : Bool :=
  (env.scopeBindings scope).contains name

def enclosingScope? (env : Environment) (scope name : String) : Option String :=
  (Dotted.ancestors scope).find? fun parent => env.isBoundIn parent name

def declaresOuter (env : Environment) (scope name : String) : Bool :=
  match env.declaredOuter.get? scope with
  | some declared => declared.contains name
  | none => false

def isCaptured (env : Environment) (scope name : String) : Bool :=
  match env.captures.get? scope with
  | some captured => captured.contains name
  | none => false

def outerOwner (env : Environment) (scope name : String) : Owner :=
  match env.enclosingScope? scope name with
  | some parent => .scope parent
  | none => .program

def writeOwner (env : Environment) (name : String) : Owner :=
  match env.currentScope? with
  | none => .program
  | some scope => if env.declaresOuter scope name then env.outerOwner scope name else .scope scope

def globalOwner? (env : Environment) (name : String) : Option Owner :=
  if env.globals.contains name then some .program else none

def readOwner? (env : Environment) (name : String) : Option Owner :=
  match env.currentScope? with
  | none => env.globalOwner? name
  | some scope =>
      if env.isBoundIn scope name then some (.scope scope)
      else if env.isCaptured scope name || env.declaresOuter scope name then
        match env.enclosingScope? scope name with
        | some parent => some (.scope parent)
        | none => env.globalOwner? name
      else env.globalOwner? name

/-! ## Reading and writing

`putVar` replaces the binding that a write goes to, and `widenVar` merges a type into it.
-/

def lookup? (env : Environment) (name : String) : Option Ty :=
  (env.readOwner? name).bind fun owner => (env.bindings owner).get? name

def scopedVar? (env : Environment) (scope : Option String) (name : String) : Option Ty :=
  match scope with
  | some scope => (env.scopeBindings scope).get? name
  | none => env.globals.get? name

def localVar? (env : Environment) (name : String) : Option Ty :=
  env.scopedVar? env.currentScope? name

def putVar (env : Environment) (name : String) (type : Ty) : Environment :=
  env.updateAt (env.writeOwner name) name fun _ => type

def widenVar (env : Environment) (name : String) (type : Ty) : Environment :=
  env.updateAt (env.writeOwner name) name type.mergeInto

/-- Replaces the binding that a read finds; `none` if there is no such binding. -/
def refineVar? (env : Environment) (name : String) (type : Ty) : Option Environment :=
  (env.readOwner? name).map fun owner => env.updateAt owner name fun _ => type

def declareOuter (env : Environment) (name : String) : Environment :=
  match env.currentScope? with
  | none => env
  | some scope =>
      { env with
        declaredOuter := env.declaredOuter.upsert scope fun present =>
          (present.getD ∅).insert name }

/-! ## Arrays that become lists

A fixed array under a name becomes a list in every scope that binds the name, and one
in a field in every class that has the field. The counts say how many such arrays are
left.
-/

def promoteArrays (env : Environment) (name : String) : Environment :=
  { env with
    globals := env.globals.modify name Ty.promoteArray
    scopes := env.scopes.mapValues fun _ bindings => bindings.modify name Ty.promoteArray }

def promoteFields (env : Environment) (field : String) : Environment :=
  { env with
    classes := env.classes.mapValues fun _ info =>
      { info with fields := info.fields.modify field Ty.promoteArray } }

def countArrays (tables : List (Table Ty)) (name : String) : Nat :=
  tables.countP fun table =>
    match table.get? name with
    | some type => type.isArray
    | none => false

def arrayBindings (env : Environment) (name : String) : Nat :=
  countArrays (env.globals :: env.scopes.values) name

def arrayFields (env : Environment) (field : String) : Nat :=
  countArrays (env.classes.values.map ClassInfo.fields) field

end Environment

end NativeTyping

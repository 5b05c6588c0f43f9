import NativeTyping.Environment.Binding
import NativeTyping.Error
/-!
Resolving members of classes through their bases, and names of functions through
the scopes around a call.
-/

namespace NativeTyping

namespace Environment

/-! ## Classes -/

/-- Visits pending class names from the front. A registered class is listed, its
bases are put in front of what is pending, and it is not listed again; other
names are passed over. -/
def resolvePending : Nat → Table ClassInfo → List String → List ClassInfo
  | 0, _, _ => []
  | _ + 1, _, [] => []
  | steps + 1, classes, name :: pending =>
      match classes.get? name with
      | none => resolvePending steps classes pending
      | some info => info :: resolvePending steps (classes.erase name) (info.bases ++ pending)

def resolutionSteps (classes : Table ClassInfo) : Nat :=
  (classes.values.flatMap ClassInfo.bases).length + 1

/-- The classes in which a member of `className` is looked up: the class, then its
bases depth-first in order of declaration, each once. -/
def resolutionOrder (env : Environment) (className : String) : List ClassInfo :=
  resolvePending (resolutionSteps env.classes) env.classes [className]

def classField? (env : Environment) (className field : String) : Option Ty :=
  (env.resolutionOrder className).findSome? fun info => info.fields.get? field

def methodReturn? (env : Environment) (className method : String) : Option Ty :=
  (env.resolutionOrder className).findSome? fun info => info.methods.get? method

def isProperty (env : Environment) (className method : String) : Bool :=
  match (env.resolutionOrder className).find? fun info => info.methods.contains method with
  | some info => info.properties.contains method
  | none => false

/-- The class that a write to a field of `className` goes to: the first one that
has the field, or `className` itself for a new field. -/
def fieldOwner (env : Environment) (className field : String) : String :=
  match (env.resolutionOrder className).find? fun info => info.fields.contains field with
  | some info => info.name
  | none => className

/-! ## Functions

A called name stands for the function of that name in the nearest of the scopes around
the call. As a value, a function that captures variables is a closure.
-/

def qualify (env : Environment) (name : String) : String :=
  match env.currentScope? with
  | some scope => Dotted.join scope name
  | none => name

def functionCandidates (env : Environment) (name : String) : List String :=
  match env.currentScope? with
  | some scope => (scope :: Dotted.ancestors scope).map (Dotted.join · name) ++ [name]
  | none => [name]

def resolveFunction? (env : Environment) (name : String) : Option String :=
  (env.functionCandidates name).find? env.returns.contains

def functionType (env : Environment) (function : String) : Except Error Ty :=
  match env.returns.get? function with
  | none => .error (.functionNotFound function)
  | some result =>
      match env.captures.get? function with
      | some ⟨_ :: _, _⟩ => .ok (.closure function)
      | _ => .ok (.function ((env.params.get? function).getD []) result)

end Environment

/-! ## Allocators

A function that returns functions needs an allocator for what the last of them returns,
and an optional for what it holds.
-/

def Ty.residue : Ty → Ty
  | .function _ result => result.residue
  | .optional inner => inner.residue
  | other => other

namespace Environment

/-- Follows a closure to its registered result, which is then no longer
registered. A closure without a registered result needs an allocator. -/
def followClosures : Nat → Table Ty → Ty → Bool
  | 0, _, _ => true
  | steps + 1, returns, type =>
      match type.residue with
      | .closure name =>
          match returns.get? name with
          | none => true
          | some result => followClosures steps (returns.erase name) result
      | other => other.needsAllocator

def needsAllocator (env : Environment) (type : Ty) : Bool :=
  followClosures (env.returns.size + 1) env.returns type

end Environment

end NativeTyping

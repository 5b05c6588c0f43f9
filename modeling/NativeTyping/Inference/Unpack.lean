import NativeTyping.Program.Expr
import NativeTyping.Ty.Storage
/-!
Unpacking a value over the places of an assignment target.
-/

namespace NativeTyping

namespace Target

/-- The types that the items of a tuple target receive. A tuple of the same length
is unpacked position by position, any other value element by element. -/
def itemTypes (items : List Target) (type : Ty) : List Ty :=
  match type with
  | .tuple elements =>
      if !items.any isStarred && elements.length = items.length then elements
      else List.replicate items.length type.iterElement
  | _ => List.replicate items.length type.iterElement

mutual

/-- Every place of a target from left to right, with the type that it receives. A
starred item collects a list. -/
def unpack : Target → Ty → List (Place × Ty)
  | .place single, type => [(single, type)]
  | .tuple items, type => unpackEach items (itemTypes items type)
  | .starred inner, type => inner.unpack (.list type.owned)
termination_by structural target => target

def unpackEach : List Target → List Ty → List (Place × Ty)
  | item :: items, type :: types => item.unpack type ++ unpackEach items types
  | _, _ => []
termination_by structural items => items

end

def unpackNames (target : Target) (type : Ty) : List (String × Ty) :=
  (target.unpack type).filterMap fun
    | (.name id, received) => some (id, received)
    | _ => none

end Target

end NativeTyping

import NativeTyping.Ty.Storage
/-!
What a mutating method does to the type of its receiver. An empty list that is
appended a string is a list of strings from then on.
-/

namespace NativeTyping

namespace Mutation

/-- A rule for one method: the type of the receiver after a call with arguments of
the given types, if the rule applies to such a receiver. -/
structure Rule where
  method : String
  refine? : Ty → List Ty → Option Ty

/-!
Rules come in three families. An `addTo` rule merges one argument into the type of the
elements or values, an `extend` rule merges the elements or entries of an argument, and
a `keep` rule leaves the container as it is.
-/

/-! ## Lists -/

def addToList (method : String) (position : Nat) : Rule where
  method := method
  refine? receiver args :=
    match receiver, args[position]? with
    | .list element, some added => some (.list (Ty.widen element added.owned))
    | _, _ => none

def extendList (method : String) : Rule where
  method := method
  refine? receiver args :=
    match receiver, args.head? with
    | .list element, some added => some (.list (Ty.widen element added.iterElement.owned))
    | _, _ => none

def keepList (method : String) : Rule where
  method := method
  refine? receiver _ :=
    match receiver with
    | .list element => some (.list element)
    | _ => none

/-! ## Sets -/

def addToSet (method : String) : Rule where
  method := method
  refine? receiver args :=
    match receiver, args.head? with
    | .set element, some added => some (.set (Ty.widen element added.owned))
    | _, _ => none

def extendSet (method : String) : Rule where
  method := method
  refine? receiver args :=
    match receiver, args.head? with
    | .set element, some added => some (.set (Ty.widen element added.iterElement.owned))
    | _, _ => none

def keepSet (method : String) : Rule where
  method := method
  refine? receiver _ :=
    match receiver with
    | .set element => some (.set element)
    | _ => none

/-! ## Dicts -/

def extendDict (method : String) : Rule where
  method := method
  refine? receiver args :=
    match receiver, args.head? with
    | .dict key value, some (.dict addedKey addedValue) =>
        some (.dict (Ty.widen key addedKey) (Ty.widen value addedValue.owned))
    | .dict key value, _ => some (.dict key value)
    | _, _ => none

def addToDict (method : String) : Rule where
  method := method
  refine? receiver args :=
    match receiver, args[1]? with
    | .dict key value, some added => some (.dict key (Ty.widen value added.owned))
    | .dict key value, none => some (.dict key value)
    | _, _ => none

def keepDict (method : String) : Rule where
  method := method
  refine? receiver _ :=
    match receiver with
    | .dict key value => some (.dict key value)
    | _ => none

/-! ## All rules -/

def rules : List Rule :=
  [addToList "append" 0, extendList "extend", addToList "insert" 1, keepList "pop",
   keepList "remove", keepList "clear", keepList "sort", keepList "reverse",
   addToSet "add", extendSet "update", keepSet "discard", keepSet "remove", keepSet "pop",
   keepSet "clear", keepSet "difference_update", keepSet "intersection_update",
   extendDict "update", addToDict "setdefault", keepDict "pop", keepDict "popitem",
   keepDict "clear"]

/-- A receiver of unknown type becomes the container that the method belongs to. -/
def containerFor? (method : String) (args : List Ty) : Option Ty :=
  let first := Ty.orUnknown args.head?
  match method with
  | "append" => some (.list first.owned)
  | "extend" => some (.list first.iterElement.owned)
  | "insert" => some (.list (Ty.orUnknown args[1]?).owned)
  | "add" | "discard" => some (.set first.owned)
  | "update" =>
      match first with
      | .dict key value => some (Ty.dict key value).owned
      | other => some (.set other.iterElement.owned)
  | _ => none

/-!
The first rule for a method that applies to the receiver decides.
-/

def refineBy? (rules : List Rule) (receiver : Ty) (method : String) (args : List Ty) :
    Option Ty :=
  ((rules.filter fun rule => rule.method = method).findSome? fun rule =>
    rule.refine? receiver args).or
    (if receiver.isUnknown then containerFor? method args else none)

def refine? (receiver : Ty) (method : String) (args : List Ty) : Option Ty :=
  refineBy? rules receiver method args

def listMethods : List String :=
  ["append", "pop", "extend", "insert", "remove", "clear", "sort", "reverse"]

end Mutation

end NativeTyping

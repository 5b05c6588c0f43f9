import NativeTyping.Table
/-!
The tables of a document in the TOML format.

A key may be given once, a table may have one header, and neither may stand for
something that is already there in another form. Which keys may still be added to a
table depends on what brought it into being.
-/

namespace NativeTyping

namespace Toml

inductive Value where
  | boolean (value : Bool)
  | other
  deriving DecidableEq, Repr

abbrev Path := List String

/-- What brought a table into being: its own header, the header of a table inside
it, or a dotted key. -/
inductive Origin where
  | header
  | innerHeader
  | dottedKey
  deriving DecidableEq, Repr

/-- What stands under a key. Of an array of tables only the last element can change,
so the others are not kept. -/
inductive Node where
  | value (value : Value)
  | table (origin : Origin) (members : List (String × Node))
  | tables (lastMembers : List (String × Node))

abbrev Members := List (String × Node)

namespace Members

def insert (members : Members) (key : String) (node : Node) : Members :=
  Table.upsertEntries key (fun _ => node) members

/-- Adds a value under a dotted key, which opens the tables on its way. The last of
them takes the value only if it `accepts` keys: the one whose entries are being read
does, and those that dotted keys opened. A table with a header of its own is not even
passed through. -/
def addValue (value : Value) : Path → Bool → Members → Option Members
  | [], _, _ => none
  | [key], accepts, members =>
      if accepts && (members.lookup key).isNone then some (members.insert key (.value value))
      else none
  | key :: rest, _, members =>
      match members.lookup key with
      | none =>
          (addValue value rest true []).map fun inner =>
            members.insert key (.table .dottedKey inner)
      | some (.table .header _) => none
      | some (.table origin inner) =>
          (addValue value rest (origin = .dottedKey) inner).map fun changed =>
            members.insert key (.table origin changed)
      | some (.tables last) =>
          (addValue value rest false last).map fun changed =>
            members.insert key (.tables changed)
      | some (.value _) => none

/-- Changes what stands under the path of a header. The tables on the way are there
or come into being; of an array of tables, the last element is on the way. -/
def changeAt (change : Option Node → Option Node) : Path → Members → Option Members
  | [], _ => none
  | [key], members => (change (members.lookup key)).map (members.insert key)
  | key :: rest, members =>
      match members.lookup key with
      | none =>
          (changeAt change rest []).map fun inner =>
            members.insert key (.table .innerHeader inner)
      | some (.table origin inner) =>
          (changeAt change rest inner).map fun changed =>
            members.insert key (.table origin changed)
      | some (.tables last) =>
          (changeAt change rest last).map fun changed => members.insert key (.tables changed)
      | some (.value _) => none

end Members

/-!
A header defines a table that is new or that only headers of inner tables have opened. A
header of an array of tables starts the array or a new element of it.
-/

namespace Node

def withHeader : Option Node → Option Node
  | none => some (.table .header [])
  | some (.table .innerHeader members) => some (.table .header members)
  | some _ => none

def withElement : Option Node → Option Node
  | none => some (.tables [])
  | some (.tables _) => some (.tables [])
  | some _ => none

def withValue (path : Path) (value : Value) : Option Node → Option Node
  | some (.table origin members) =>
      (Members.addValue value path true members).map (.table origin)
  | some (.tables last) => (Members.addValue value path true last).map .tables
  | some (.value _) | none => none

end Node

end Toml

end NativeTyping

import NativeTyping.Library.StructFormat
import NativeTyping.Program.Expr
import NativeTyping.Ty.Storage
/-!
How the result of a library function follows from the arguments of a call.
-/

namespace NativeTyping

inductive ReturnRule where
  /-- Always the same type. -/
  | fixed (type : Ty)
  /-- The type of the first argument. -/
  | sameAsArg
  /-- One element of the first argument. -/
  | elementOfArg
  /-- A list of the elements of the first argument. -/
  | listOfElements
  /-- A set of the elements of the first argument. -/
  | setOfElements
  /-- The elements of a single argument merged, or else all arguments. -/
  | extremum
  /-- Arithmetic over all arguments. -/
  | numeric
  /-- Arithmetic over the elements of the first argument and the start. -/
  | sum
  /-- An int, or a float where a number of digits is given. -/
  | round
  /-- Pairs of an index and an element. -/
  | enumerate
  /-- Tuples with one element of each argument. -/
  | zip
  /-- The tuple described by a literal format of packed data. -/
  | structUnpack
  /-- Twice the result of arithmetic. -/
  | divMod
  /-- A dict made from another one or from pairs. -/
  | dictFrom
  deriving DecidableEq, Repr

namespace ReturnRule

def promoteAll? (first : Ty) : List Ty → Option Ty
  | [] => some first
  | type :: rest => (Ty.promote? first type).bind fun merged => promoteAll? merged rest

def literalFormat? : Expr → Option (List Char)
  | .literal (.str text) => some text.toList
  | .literal (.bytes content) => some (content.map fun byte => Char.ofNat byte.toNat)
  | _ => none

def dictOf : Ty → Ty
  | .dict key value => (Ty.dict key value).owned
  | .list (.tuple [key, value]) => .dict key.owned value.owned
  | _ => .dict Ty.text .unknown

/-!
The rules read the types of the arguments. The expressions of the arguments matter only
where a literal decides.
-/

def apply (rule : ReturnRule) (args : List Ty) (exprs : List Expr) : Ty :=
  let first := Ty.orUnknown args.head?
  match rule with
  | .fixed type => type
  | .sameAsArg => first
  | .elementOfArg => first.iterElement
  | .listOfElements => .list first.iterElement.owned
  | .setOfElements => .set first.iterElement.owned
  | .extremum =>
      match args with
      | [single] => single.iterElement
      | _ => Ty.widenAll args
  | .numeric => Ty.orUnknown (promoteAll? first args.tail)
  | .sum => (Ty.promote? first.iterElement ((args[1]?).getD .int)).getD .int
  | .round => if 1 < args.length then .float else .int
  | .enumerate => .list (.tuple [.index, first.iterElement])
  | .zip => .list (.tuple (args.map Ty.iterElement))
  | .structUnpack =>
      match exprs.head?.bind literalFormat? with
      | some format => Ty.ofStructFormat format
      | none => .unknown
  | .divMod =>
      let number := Ty.orUnknown (Ty.promote? first ((args[1]?).getD .int))
      .tuple [number, number]
  | .dictFrom => dictOf first

end ReturnRule

/-! ## Tables of names

A table of the library lists groups of names that share an entry. The first group that
has a name counts.
-/

abbrev NameGroups (α : Type) := List (List String × α)

def NameGroups.find? {α : Type} (groups : NameGroups α) (name : String) : Option α :=
  (List.find? (fun group => group.1.contains name) groups).map Prod.snd

end NativeTyping

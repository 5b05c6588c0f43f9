import NativeTyping.Text.Alphanumeric
import NativeTyping.Text.Trim
import NativeTyping.Ty.Widen
/-!
Type hints: the annotations that a source program writes on its variables,
parameters and results, and the type that each of them denotes.

A hint is a union of members separated by `|`, or a head with arguments in square
brackets, or a head alone. Unrecognised heads that look like a class name denote
that class, and all others are unknown.
-/

namespace NativeTyping

namespace Hint

open Text

/-- Whether a head can name a class: it starts with an ASCII capital and goes on
with letters, numbers, underscores and dots. -/
def namesClass : List Char → Bool
  | [] => false
  | first :: rest =>
      first.isUpper &&
        (first :: rest).all fun char => isAlphanumeric char || char = '_' || char = '.'

/-- A hint without the blanks and then the quotes around it. -/
def unquote (hint : List Char) : List Char :=
  trimWhile isQuote (trim hint)

def application (hint : List Char) : List Char × List (List Char) :=
  match hint.span (· ≠ '[') with
  | (head, _ :: inner) =>
      if hint.getLast? = some ']' then (trim head, splitTopLevel ',' inner.dropLast)
      else (hint, [])
  | (_, []) => (hint, [])

def unqualified (head : List Char) : List Char :=
  let qualifier := "typing.".toList
  if qualifier.isPrefixOf head then head.drop qualifier.length else head

/-- The members of a union other than `None` are merged; `None` among them makes
the result optional. -/
def union (members : List Ty) : Ty :=
  let merged := Ty.widenAll (members.filter (· ≠ .none))
  if members.contains .none then .optional merged else merged

def ellipsis : List Char := "...".toList

def callableParams (params : List Char) : List (List Char) :=
  let inner := dropWhileEnd (· = ']') ((trim params).dropWhile (· = '['))
  (splitTopLevel ',' inner).filter fun param => !(trim param).isEmpty

def denoteApplication (denote : List Char → Ty) (head : List Char)
    (arguments : List (List Char)) : Ty :=
  let argument (position : Nat) := Ty.orUnknown ((arguments[position]?).map denote)
  match String.ofList head with
  | "int" => .int
  | "float" => .float
  | "bool" => .bool
  | "str" | "bytes" => Ty.text
  | "None" | "NoneType" => .none
  | "list" | "List" | "Sequence" | "Iterable" | "Iterator" => .list (argument 0)
  | "dict" | "Dict" | "Mapping" => .dict (argument 0) (argument 1)
  | "set" | "Set" | "frozenset" | "FrozenSet" => .set (argument 0)
  | "tuple" | "Tuple" =>
      let elements := (arguments.filter fun written => trim written ≠ ellipsis).map denote
      if arguments.any fun written => trim written = ellipsis then
        .list (Ty.orUnknown elements.head?)
      else .tuple elements
  | "Optional" => .optional (argument 0)
  | "Union" => union (arguments.map denote)
  | "Callable" =>
      match arguments with
      | [params, result] => .function ((callableParams params).map denote) (denote result)
      | _ => .callable
  | "Path" | "pathlib.Path" => .library .path
  | "Any" | "object" => .unknown
  | className => if namesClass head then .object className else .unknown

/-- The type denoted by a hint. Every hint inside another is shorter, so as many
steps as the hint has characters, and one, are enough. -/
def denoteIn : Nat → List Char → Ty
  | 0, _ => .unknown
  | steps + 1, written =>
      let hint := unquote written
      if hint.isEmpty then .unknown
      else
        let members := splitTopLevel '|' hint
        if 1 < members.length then union (members.map (denoteIn steps))
        else
          let (head, arguments) := application hint
          denoteApplication (denoteIn steps) (unqualified head) arguments

end Hint

def Ty.ofHint (hint : String) : Ty :=
  let written := hint.toList
  Hint.denoteIn (written.length + 1) written

end NativeTyping

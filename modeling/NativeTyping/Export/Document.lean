/-!
Documents in the JSON format, written with an indentation of two blanks.
-/

namespace NativeTyping

/-- The members of an object are written in the order given. -/
inductive Document where
  | null
  | bool (value : Bool)
  | number (value : Int)
  | text (content : String)
  | list (items : List Document)
  | object (members : List (String × Document))

namespace Document

def orNull : Option Document → Document
  | some document => document
  | none => .null

def ofNames (names : List String) : Document :=
  .list (names.map .text)

def tagged (form : String) (content : Document) : Document :=
  .object [(form, content)]

/-! ## Text -/

def hexDigit (value : Nat) : Char :=
  if value < 10 then Char.ofNat ('0'.toNat + value) else Char.ofNat ('a'.toNat + (value - 10))

/-- How a character is written inside a quoted text. Quotes, backslashes and control
characters are escaped, all others stand for themselves. -/
def escape (char : Char) : List Char :=
  if char = '\x22' then ['\\', '\x22']
  else if char = '\\' then ['\\', '\\']
  else if char = '\n' then ['\\', 'n']
  else if char = '\r' then ['\\', 'r']
  else if char = '\t' then ['\\', 't']
  else if char.toNat = 8 then ['\\', 'b']
  else if char.toNat = 12 then ['\\', 'f']
  else if char.toNat < 32 then
    ['\\', 'u', '0', '0', hexDigit (char.toNat / 16), hexDigit (char.toNat % 16)]
  else [char]

def quote (content : String) : String :=
  "\x22" ++ String.ofList (content.toList.flatMap escape) ++ "\x22"

def indentation (depth : Nat) : String :=
  String.ofList (List.replicate (2 * depth) ' ')

def bracket (opening closing : String) (depth : Nat) (lines : List String) : String :=
  if lines.isEmpty then opening ++ closing
  else
    opening ++ "\n" ++
      String.intercalate ",\n" (lines.map fun line => indentation (depth + 1) ++ line) ++
      "\n" ++ indentation depth ++ closing

mutual

def renderAt (depth : Nat) : Document → String
  | .null => "null"
  | .bool value => if value then "true" else "false"
  | .number value => toString value
  | .text content => quote content
  | .list items => bracket "[" "]" depth (renderEach (depth + 1) items)
  | .object members => bracket "\x7b" "\x7d" depth (renderMembers (depth + 1) members)
termination_by structural document => document

def renderEach (depth : Nat) : List Document → List String
  | [] => []
  | item :: rest => renderAt depth item :: renderEach depth rest
termination_by structural items => items

def renderMembers (depth : Nat) : List (String × Document) → List String
  | [] => []
  | (key, value) :: rest =>
      (quote key ++ ": " ++ renderAt depth value) :: renderMembers depth rest
termination_by structural members => members

end

def render (document : Document) : String :=
  document.renderAt 0

end Document

end NativeTyping

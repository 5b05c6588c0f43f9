import NativeTyping.Toml.Moment
import NativeTyping.Toml.Tables
/-!
The lines of a document in the TOML format: keys with values, and headers of tables.
-/

namespace NativeTyping

namespace Toml

inductive Line where
  | entry (path : Path) (value : Value)
  | table (path : Path)
  | arrayTable (path : Path)
  deriving DecidableEq, Repr

/-- How many brackets may be open at once in a value, and how many keys dots may
join. -/
def maxDepth : Nat := 79

/-! ## Keys -/

def isBareKeyChar (char : Char) : Bool :=
  char.isAlphanum || char = '_' || char = '-'

def readSimpleKey : Reader String := fun text =>
  match text.span isBareKeyChar with
  | ([], _) => readString text
  | (key, rest) => some (String.ofList key, rest)

def readPathUpTo : Nat → Reader Path
  | 0, _ => none
  | more + 1, text =>
      (readSimpleKey (skipBlanks text)).bind fun (key, rest) =>
        match skipBlanks rest with
        | '.' :: next =>
            (readPathUpTo more next).map fun (path, after) => (key :: path, after)
        | other => some ([key], other)

def readPath : Reader Path :=
  readPathUpTo maxDepth

/-! ## Values

Readers whose names start with `after` only find the end of what they read: the content of
an array or an inline table does not matter. The steps that are given bound how many items
or brackets there are.
-/

def readToken : Reader Value := fun text =>
  let isTokenChar (char : Char) := isBareKeyChar char || char = '+' || char = '.'
  let (token, rest) := text.span isTokenChar
  if token = "true".toList then some (.boolean true, rest)
  else if token = "false".toList then some (.boolean false, rest)
  else if isInteger token || isFloat token then some (.other, rest)
  else none

def readScalar : Reader Value := fun text =>
  match afterString text <|> afterMoment text with
  | some rest => some (.other, rest)
  | none => readToken text

def afterItems (readValue : Reader Value) : Nat → List Char → Option (List Char)
  | 0, _ => none
  | steps + 1, text =>
      (skipFiller text.length text).bind fun start =>
        match start with
        | ']' :: rest => some rest
        | _ =>
            (readValue start).bind fun (_, after) =>
              (skipFiller after.length after).bind fun next =>
                match next with
                | ',' :: rest => afterItems readValue steps rest
                | ']' :: rest => some rest
                | _ => none

/-- What follows an inline table, after a comma or the opening bracket, where the
members read so far are given. -/
def afterMembers (readValue : Reader Value) :
    Nat → Members → List Char → Option (List Char)
  | 0, _, _ => none
  | steps + 1, members, text =>
      (readPath text).bind fun (path, afterKey) =>
        match afterKey with
        | '=' :: afterEquals =>
            (readValue (skipBlanks afterEquals)).bind fun (value, after) =>
              (members.addValue value path true).bind fun known =>
                match skipBlanks after with
                | ',' :: rest => afterMembers readValue steps known rest
                | '\x7d' :: rest => some rest
                | _ => none
        | _ => none

def afterInlineTable (readValue : Reader Value) (text : List Char) : Option (List Char) :=
  match skipBlanks text with
  | '\x7d' :: rest => some rest
  | start => afterMembers readValue start.length [] start

def readValueUpTo : Nat → Reader Value
  | inner + 1, '[' :: rest =>
      (afterItems (readValueUpTo inner) (rest.length + 1) rest).map fun after => (.other, after)
  | inner + 1, '\x7b' :: rest =>
      (afterInlineTable (readValueUpTo inner) rest).map fun after => (.other, after)
  | _, text => readScalar text

def readValue : Reader Value :=
  readValueUpTo maxDepth

/-! ## Lines -/

def readHeader : Reader Line
  | '[' :: rest =>
      (readPath rest).bind fun (path, after) =>
        match after with
        | ']' :: ']' :: next => some (.arrayTable path, next)
        | _ => none
  | text =>
      (readPath text).bind fun (path, after) =>
        match after with
        | ']' :: next => some (.table path, next)
        | _ => none

def readEntry : Reader Line := fun text =>
  (readPath text).bind fun (path, after) =>
    match after with
    | '=' :: rest =>
        (readValue (skipBlanks rest)).map fun (value, next) => (.entry path value, next)
    | _ => none

def readLine : Reader Line
  | '[' :: rest => readHeader rest
  | text => readEntry text

def readLines : Nat → List Char → Option (List Line)
  | 0, _ => some []
  | steps + 1, text =>
      (skipFiller text.length text).bind fun start =>
        if start.isEmpty then some []
        else
          (readLine start).bind fun (line, after) =>
            (endLine after).bind fun next =>
              (readLines steps next).map (line :: ·)

end Toml

end NativeTyping

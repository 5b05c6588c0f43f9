/-!
Characters, comments and strings of the TOML format.

A string is found in two steps: its end is where the closing quotes stand, and its
body has to be well formed. The content of a string matters only where it is a key,
and a key is on one line.
-/

namespace NativeTyping

namespace Toml

abbrev Reader (α : Type) := List Char → Option (α × List Char)

/-! ## Characters -/

def isBlank (char : Char) : Bool :=
  char = ' ' || char = '\t'

def skipBlanks (text : List Char) : List Char :=
  text.dropWhile isBlank

def isControl (char : Char) : Bool :=
  (char.toNat < 32 && char ≠ '\t') || char.toNat = 127

def skipFiller : Nat → List Char → Option (List Char)
  | 0, text => some text
  | steps + 1, text =>
      match skipBlanks text with
      | '\n' :: rest => skipFiller steps rest
      | '\r' :: '\n' :: rest => skipFiller steps rest
      | '#' :: rest =>
          let after := rest.dropWhile fun char => !isControl char
          match after with
          | [] => some []
          | '\n' :: _ => skipFiller steps after
          | '\r' :: '\n' :: _ => skipFiller steps after
          | _ => none
      | other => some other

def endLine (text : List Char) : Option (List Char) :=
  let ended (rest : List Char) : Option (List Char) :=
    match rest with
    | [] => some []
    | '\n' :: next => some next
    | '\r' :: '\n' :: next => some next
    | _ => none
  match skipBlanks text with
  | '#' :: rest => ended (rest.dropWhile fun char => !isControl char)
  | other => ended other

def splitLines : List Char → List (List Char)
  | [] => [[]]
  | '\n' :: rest => [] :: splitLines rest
  | '\r' :: '\n' :: rest => [] :: splitLines rest
  | char :: rest =>
      match splitLines rest with
      | [] => [[char]]
      | line :: more => (char :: line) :: more

/-! ## Escapes -/

def hexValue? (char : Char) : Option Nat :=
  if char.isDigit then some (char.toNat - '0'.toNat)
  else if 'a' ≤ char && char ≤ 'f' then some (char.toNat - 'a'.toNat + 10)
  else if 'A' ≤ char && char ≤ 'F' then some (char.toNat - 'A'.toNat + 10)
  else none

def unicodeEscape? (digits : List Char) : Option Char := do
  let values ← digits.mapM hexValue?
  let code := values.foldl (fun code digit => code * 16 + digit) 0
  if code.isValidChar then some (Char.ofNat code) else none

def simpleEscape? : Char → Option Char
  | 'b' => some '\x08'
  | 't' => some '\t'
  | 'n' => some '\n'
  | 'f' => some '\x0c'
  | 'r' => some '\r'
  | '\x22' => some '\x22'
  | '\\' => some '\\'
  | _ => none

def unescape : List Char → Option (List Char)
  | [] => some []
  | '\\' :: 'u' :: a :: b :: c :: d :: rest =>
      (unicodeEscape? [a, b, c, d]).bind fun char => (unescape rest).map (char :: ·)
  | '\\' :: 'U' :: a :: b :: c :: d :: e :: f :: g :: h :: rest =>
      (unicodeEscape? [a, b, c, d, e, f, g, h]).bind fun char => (unescape rest).map (char :: ·)
  | '\\' :: escaped :: rest =>
      (simpleEscape? escaped).bind fun char => (unescape rest).map (char :: ·)
  | char :: rest =>
      if isControl char || char = '\\' then none else (unescape rest).map (char :: ·)

/-! ## Where a string ends -/

def closeLine (quote : Char) : Reader (List Char)
  | [] => none
  | char :: rest => if char = quote then some ([], rest) else none

/-- The three quotes that close a string on several lines. Up to two quotes right
before them belong to the string. -/
def closeLines (quote : Char) : Reader (List Char) := fun text =>
  let quotes := (text.takeWhile (· = quote)).length
  let inner := min (quotes - 3) 2
  if quotes < 3 then none else some (List.replicate inner quote, text.drop (inner + 3))

/-- Splits a text into the body of a string and what follows it, at the first place
where `close?` finds the string closed. With escapes, a backslash keeps the character
after it from closing anything. -/
def splitAtClose (close? : Reader (List Char)) (escapes : Bool) : Reader (List Char)
  | [] => none
  | [char] => close? [char]
  | char :: next :: rest =>
      match close? (char :: next :: rest) with
      | some found => some found
      | none =>
          if escapes && char = '\\' then
            (splitAtClose close? escapes rest).map fun (body, after) =>
              (char :: next :: body, after)
          else
            (splitAtClose close? escapes (next :: rest)).map fun (body, after) =>
              (char :: body, after)

/-! ## Strings on one line -/

def readBasic : Reader String := fun text => do
  let (body, rest) ← splitAtClose (closeLine '\x22') true text
  let content ← unescape body
  return (String.ofList content, rest)

def readLiteral : Reader String := fun text => do
  let (body, rest) ← splitAtClose (closeLine '\x27') false text
  if body.any isControl then none else some (String.ofList body, rest)

def readString : Reader String
  | '\x22' :: rest => readBasic rest
  | '\x27' :: rest => readLiteral rest
  | _ => none

/-! ## Strings on several lines -/

/-- A line without the backslash that joins it to the next one. Only blanks may
follow that backslash, and it is no escaped one: the backslashes there are odd in
number. -/
def withoutJoin (line : List Char) : List Char :=
  let trimmed := line.reverse.dropWhile isBlank
  if (trimmed.takeWhile (· = '\\')).length % 2 = 1 then (trimmed.drop 1).reverse else line

def areEscapedLines : List (List Char) → Bool
  | [] => true
  | [last] => (unescape last).isSome
  | line :: rest => (unescape (withoutJoin line)).isSome && areEscapedLines rest

def afterString (text : List Char) : Option (List Char) :=
  match text with
  | '\x22' :: '\x22' :: '\x22' :: start =>
      (splitAtClose (closeLines '\x22') true start).bind fun (body, rest) =>
        if areEscapedLines (splitLines body) then some rest else none
  | '\x27' :: '\x27' :: '\x27' :: start =>
      (splitAtClose (closeLines '\x27') false start).bind fun (body, rest) =>
        if (splitLines body).any (·.any isControl) then none else some rest
  | _ => (readString text).map Prod.snd

end Toml

end NativeTyping

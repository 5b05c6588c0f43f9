/-!
Taking characters off the ends of a text, and cutting a text at a separator.
-/

namespace NativeTyping

namespace Text

/-!
Blanks are the white space of all scripts.
-/

def isBlank (char : Char) : Bool :=
  let code := char.toNat
  (9 ≤ code && code ≤ 13) || code = 0x20 || code = 0x85 || code = 0xA0 || code = 0x1680 ||
    (0x2000 ≤ code && code ≤ 0x200A) || code = 0x2028 || code = 0x2029 || code = 0x202F ||
    code = 0x205F || code = 0x3000

def isQuote (char : Char) : Bool :=
  char = '\x22' || char = '\x27'

def dropWhileEnd (drop : Char → Bool) : List Char → List Char
  | [] => []
  | char :: rest =>
      match dropWhileEnd drop rest with
      | [] => if drop char then [] else [char]
      | kept => char :: kept

def trimWhile (drop : Char → Bool) (text : List Char) : List Char :=
  dropWhileEnd drop (text.dropWhile drop)

def trim (text : List Char) : List Char :=
  trimWhile isBlank text

/-! ## Cutting outside brackets -/

def extendFirst (char : Char) : List (List Char) → List (List Char)
  | [] => [[char]]
  | piece :: pieces => (char :: piece) :: pieces

/-- The pieces between the separators that stand at bracket depth zero, starting
from a given depth. There is always a first piece. -/
def splitFrom (separator : Char) : Int → List Char → List (List Char)
  | _, [] => [[]]
  | depth, char :: rest =>
      if char = '[' || char = '(' then extendFirst char (splitFrom separator (depth + 1) rest)
      else if char = ']' || char = ')' then
        extendFirst char (splitFrom separator (depth - 1) rest)
      else if char = separator && depth = 0 then [] :: splitFrom separator depth rest
      else extendFirst char (splitFrom separator depth rest)

def splitTopLevel (separator : Char) (text : List Char) : List (List Char) :=
  (splitFrom separator 0 text).map trim

end Text

end NativeTyping

import NativeTyping.Ty.Basic
/-!
Formats of packed binary data. A format is a sequence of codes, each with an
optional repeat count in front of it, and unpacking it gives a tuple.
-/

namespace NativeTyping

namespace StructFormat

/-!
A format that unpacks to more than `maxFields` values, or that has a repeat count above
`maxCount`, is not described.
-/

def maxFields : Nat := 256

def maxCount : Nat := UInt64.size - 1

/-- What one code adds to the tuple, given its repeat count. Integer codes give
ints, floating-point codes floats, `?` booleans and `c` strings; a counted string
is one value; byte orders, padding and anything else give none. -/
def codeFields (code : Char) (count : Nat) : Nat × Ty :=
  if "bBhHiIlLqQnN".toList.contains code then (count, .int)
  else if "efd".toList.contains code then (count, .float)
  else if code = '?' then (count, .bool)
  else if code = 's' || code = 'p' then (1, Ty.text)
  else if code = 'c' then (count, Ty.text)
  else (0, .unknown)

/-- Reads a format from left to right. `count` is the repeat count written so far
for the next code, and `fields` are the types read already. -/
def readFrom (count : Option Nat) (fields : List Ty) : List Char → Option (List Ty)
  | [] => some fields
  | char :: rest =>
      if char.isDigit then
        readFrom (some (count.getD 0 * 10 + (char.toNat - '0'.toNat))) fields rest
      else if maxCount < count.getD 1 then none
      else
        let (repeated, type) := codeFields char (count.getD 1)
        if fields.length + repeated ≤ maxFields then
          readFrom none (fields ++ List.replicate repeated type) rest
        else none

def fields? (format : List Char) : Option (List Ty) :=
  readFrom none [] format

end StructFormat

def Ty.ofStructFormat (format : List Char) : Ty :=
  match StructFormat.fields? format with
  | some fields => .tuple fields
  | Option.none => .unknown

end NativeTyping

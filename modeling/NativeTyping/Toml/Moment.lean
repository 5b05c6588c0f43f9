import NativeTyping.Toml.Number
/-!
Dates and times of the TOML format: a date, a time of day, or both with an optional
distance from universal time.
-/

namespace NativeTyping

namespace Toml

/-!
An `after` reader gives what follows something that has to be there, a `skip` reader what
follows something that may be missing.
-/

def readDigits (count low high : Nat) : Reader Nat := fun text =>
  let digits := text.take count
  let value := magnitude 10 digits
  if digits.length = count && digits.all Char.isDigit && low ≤ value && value ≤ high then
    some (value, text.drop count)
  else none

def afterChar (expected : Char) : List Char → Option (List Char)
  | [] => none
  | char :: rest => if char = expected then some rest else none

def isLeapYear (year : Nat) : Bool :=
  year % 4 = 0 && (year % 100 ≠ 0 || year % 400 = 0)

def daysInMonth (year month : Nat) : Nat :=
  match month with
  | 2 => if isLeapYear year then 29 else 28
  | 4 | 6 | 9 | 11 => 30
  | _ => 31

def afterDate (text : List Char) : Option (List Char) := do
  let (year, rest) ← readDigits 4 0 9999 text
  let (month, rest) ← readDigits 2 1 12 (← afterChar '-' rest)
  let (_, rest) ← readDigits 2 1 (daysInMonth year month) (← afterChar '-' rest)
  return rest

def skipFraction (text : List Char) : List Char :=
  match text with
  | '.' :: digit :: rest => if digit.isDigit then rest.dropWhile Char.isDigit else text
  | _ => text

/-- What follows the time of day in front of a text. A minute may have a leap
second. -/
def afterTime (text : List Char) : Option (List Char) := do
  let (_, rest) ← readDigits 2 0 23 text
  let (_, rest) ← readDigits 2 0 59 (← afterChar ':' rest)
  let (_, rest) ← readDigits 2 0 60 (← afterChar ':' rest)
  return skipFraction rest

def afterDistance (text : List Char) : Option (List Char) := do
  let (_, rest) ← readDigits 2 0 23 text
  let (_, rest) ← readDigits 2 0 59 (← afterChar ':' rest)
  return rest

def skipZone (text : List Char) : List Char :=
  match text with
  | 'Z' :: rest | 'z' :: rest => rest
  | '+' :: rest | '-' :: rest => (afterDistance rest).getD text
  | _ => text

def skipTimeOfDate (text : List Char) : List Char :=
  match text with
  | 'T' :: rest | 't' :: rest | ' ' :: rest => ((afterTime rest).map skipZone).getD text
  | _ => text

def afterMoment (text : List Char) : Option (List Char) :=
  match afterDate text with
  | some rest => some (skipTimeOfDate rest)
  | none => afterTime text

end Toml

end NativeTyping

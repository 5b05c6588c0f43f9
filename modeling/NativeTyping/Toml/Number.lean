import NativeTyping.Toml.Text
/-!
Numbers of the TOML format: integers of 64 bits, in four bases, and decimal numbers
in the range of double precision.
-/

namespace NativeTyping

namespace Toml

/-! ## Digits

Single underscores may stand between digits, and a decimal number has no superfluous zero
in front.
-/

def isDigitRun (isDigit : Char → Bool) : List Char → Bool
  | [] => false
  | [char] => isDigit char
  | char :: '_' :: rest => isDigit char && isDigitRun isDigit rest
  | char :: rest => isDigit char && isDigitRun isDigit rest

def dropSign : List Char → List Char
  | '+' :: rest => rest
  | '-' :: rest => rest
  | other => other

def isDecimalRun (digits : List Char) : Bool :=
  isDigitRun Char.isDigit digits &&
    match digits with
    | '0' :: _ :: _ => false
    | _ => true

def magnitude (base : Nat) (digits : List Char) : Nat :=
  digits.foldl (fun value char =>
    match hexValue? char with
    | some digit => value * base + digit
    | none => value) 0

/-! ## Integers -/

def isInteger (token : List Char) : Bool :=
  match token with
  | '0' :: 'x' :: digits =>
      isDigitRun (fun char => (hexValue? char).isSome) digits && magnitude 16 digits < Nat.pow 2 63
  | '0' :: 'o' :: digits =>
      isDigitRun (fun char => '0' ≤ char && char ≤ '7') digits && magnitude 8 digits < Nat.pow 2 63
  | '0' :: 'b' :: digits =>
      isDigitRun (fun char => char = '0' || char = '1') digits && magnitude 2 digits < Nat.pow 2 63
  | '-' :: digits => isDecimalRun digits && magnitude 10 digits ≤ Nat.pow 2 63
  | other => isDecimalRun (dropSign other) && magnitude 10 (dropSign other) < Nat.pow 2 63

/-! ## Decimal numbers -/

structure Decimal where
  mantissa : Nat
  exponent : Int

namespace Decimal

/-- The least number that rounds to no finite one in double precision: it lies halfway
between the greatest of those and the power of two above it. -/
def bound : Nat :=
  Nat.pow 2 1024 - Nat.pow 2 970

/-- Whether a number rounds to a finite one in double precision. The bound has 309
digits, so only numbers with as many before the point are compared with it. -/
def isFinite (decimal : Decimal) : Bool :=
  let size := (Nat.toDigits 10 decimal.mantissa).length + decimal.exponent
  decimal.mantissa = 0 || size < 309 ||
    (size = 309 &&
      decimal.mantissa * Nat.pow 10 decimal.exponent.toNat <
        bound * Nat.pow 10 (-decimal.exponent).toNat)

end Decimal

def fraction? : List Char → Option (List Char)
  | [] => some []
  | _ :: digits =>
      if isDigitRun Char.isDigit digits then some (digits.filter Char.isDigit) else none

def exponent? : List Char → Option Int
  | [] => some 0
  | _ :: '-' :: digits =>
      if isDigitRun Char.isDigit digits then some (-(magnitude 10 digits : Int)) else none
  | _ :: digits =>
      let unsigned := dropSign digits
      if isDigitRun Char.isDigit unsigned then some (magnitude 10 unsigned : Int) else none

def decimal? (text : List Char) : Option Decimal := do
  let (number, power) := text.span fun char => char ≠ 'e' && char ≠ 'E'
  let (whole, places) := number.span (· ≠ '.')
  if !isDecimalRun whole || (places.isEmpty && power.isEmpty) then none
  let fraction ← fraction? places
  let exponent ← exponent? power
  return { mantissa := magnitude 10 (whole ++ fraction), exponent := exponent - fraction.length }

/-- Numbers too great for double precision are refused; those below zero are taken
for negative infinity. -/
def isFloat (token : List Char) : Bool :=
  let unsigned := dropSign token
  unsigned = ['i', 'n', 'f'] || unsigned = ['n', 'a', 'n'] ||
    match decimal? unsigned with
    | some decimal => token.head? = some '-' || decimal.isFinite
    | none => false

end Toml

end NativeTyping

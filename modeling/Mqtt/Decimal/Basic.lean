import Mqtt.Text.Digits

/-!
# Decimal numbers

A decimal number is a sign, a whole number of digits, and a power of ten. It is read from digits
with at most one point and an exponent, either of which may be missing, and is written with its
point in place, filled up with zeros, and without an exponent.
-/
namespace Mqtt

/-- The number `± digits · 10 ^ exponent`. -/
structure Decimal where
  negative : Bool := false
  digits : Nat
  exponent : Int
  deriving DecidableEq

namespace Decimal

/-- Takes a sign off the front, and tells whether it is a minus. -/
def splitSign : List Char → Bool × List Char
  | '-' :: rest => (true, rest)
  | '+' :: rest => (false, rest)
  | rest => (false, rest)

/-- The number of decimal digits after an optional sign, at least one, and nothing else. -/
def readInt? (cs : List Char) : Option Int :=
  let (negative, digits) := splitSign cs
  if digits.isEmpty || !digits.all Char.isDigit then none
  else
    let n : Int := Digits.toNat 10 digits
    some (if negative then -n else n)

/-- The largest number of 64 bits. -/
def largestCount : Nat := Nat.pow 2 64 - 1

/-- The number of decimal digits after an optional plus, if it has 64 bits or fewer. -/
def readCount? (cs : List Char) : Option Nat :=
  if cs.head? = some '-' then none
  else ((readInt? cs).bind Int.toNat?).filter (· ≤ largestCount)

/-- The number of an exponent part, which may be missing. -/
def readExponent? : List Char → Option Int
  | [] => some 0
  | c :: rest => if c = 'e' || c = 'E' then readInt? rest else none

/-- Reads an optional sign, digits with at most one point among, before or behind them, and an
optional exponent. At least one digit is needed. -/
def read? (cs : List Char) : Option Decimal :=
  let (negative, unsigned) := splitSign cs
  let whole := unsigned.takeWhile Char.isDigit
  let rest := unsigned.dropWhile Char.isDigit
  let (fraction, rest) :=
    match rest with
    | '.' :: more => (more.takeWhile Char.isDigit, more.dropWhile Char.isDigit)
    | _ => ([], rest)
  if whole.isEmpty && fraction.isEmpty then none
  else
    (readExponent? rest).map fun exponent =>
      { negative
        digits := Digits.toNat 10 (whole ++ fraction)
        exponent := exponent - fraction.length }

/-- The digits of a number with a point in place, padded with zeros, and no exponent. -/
def positional (d : Decimal) : String :=
  let digits := Nat.toDigits 10 d.digits
  let places := (-d.exponent).toNat
  let padded := List.replicate (places + 1 - digits.length) '0' ++ digits
  let whole := padded.take (padded.length - places) ++ List.replicate d.exponent.toNat '0'
  let fraction := padded.drop (padded.length - places)
  String.ofList <|
    (if d.negative then ['-'] else []) ++ whole
      ++ (if fraction.isEmpty then [] else '.' :: fraction)

end Decimal
end Mqtt

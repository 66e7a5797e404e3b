import Mqtt.Decimal.Basic

/-!
# Binary floating-point numbers

Numbers with 53 binary digits, as exact values. Decimal numbers are rounded to the nearest of
them, a tie going to the even neighbour; back in decimal, a number stands with the fewest digits
that read back to it.
-/
namespace Mqtt

/-- A binary floating-point number. -/
inductive Binary64 where
  /-- The number `± mantissa · 2 ^ exponent`. -/
  | finite (negative : Bool) (mantissa : Nat) (exponent : Int)
  | infinite (negative : Bool)
  | nan
  deriving DecidableEq

namespace Binary64

/-- The whole number nearest to a quotient; a tie goes to the even neighbour. -/
def roundHalfEven (num den : Nat) : Nat :=
  let q := num / den
  let r := num % den
  if 2 * r < den then q
  else if den < 2 * r then q + 1
  else q + q % 2

/-- The fraction `num / den · base ^ exponent`. -/
def scale (base : Nat) (exponent : Int) (num den : Nat) : Nat × Nat :=
  (num * base.pow exponent.toNat, den * base.pow (-exponent).toNat)

/-- The exponent of the lowest binary digit that is kept of a positive quotient: 53 digits are
kept, but none below `2 ^ (-1074)`. -/
def lowestExponent (num den : Nat) : Int :=
  let guess : Int := (Nat.log2 num : Int) - (Nat.log2 den : Int)
  let (a, b) := scale 2 (-guess) num den
  let top := if a < b then guess - 1 else guess
  max (top - 52) (-1074)

/-- Rounds a positive quotient. -/
def ofQuotient (negative : Bool) (num den : Nat) : Binary64 :=
  let exponent := lowestExponent num den
  let (a, b) := scale 2 (-exponent) num den
  let mantissa := roundHalfEven a b
  let (mantissa, exponent) :=
    if mantissa = Nat.pow 2 53 then (Nat.pow 2 52, exponent + 1) else (mantissa, exponent)
  if 971 < exponent then infinite negative else finite negative mantissa exponent

/-- Rounds a decimal number. Numbers far outside the range need no arithmetic. -/
def ofDecimal (d : Decimal) : Binary64 :=
  let places : Int := (Nat.toDigits 10 d.digits).length + d.exponent
  if d.digits = 0 ∨ places < -330 then finite d.negative 0 0
  else if 330 < places then infinite d.negative
  else
    let (num, den) := scale 10 d.exponent d.digits 1
    ofQuotient d.negative num den

/-- The number of decimal places before the point of a positive quotient; for a quotient below
one tenth, the negative of the zeros behind it. -/
def decimalPlaces (num den : Nat) : Int :=
  if den ≤ num then (Nat.toDigits 10 (num / den)).length
  else
    Int.neg (((List.range 400).find? fun zeros => den ≤ num * Nat.pow 10 (zeros + 1)).getD 0)

/-- Of the two decimal numbers of at most `count` digits next to a positive number, the nearer
one that reads back to it; of two equally near ones the larger. -/
def shortestOf? (negative : Bool) (mantissa : Nat) (exponent : Int) (count : Nat) :
    Option Decimal :=
  let (num, den) := scale 2 exponent mantissa 1
  let unit := decimalPlaces num den - count
  let (a, b) := scale 10 (-unit) num den
  let below : Decimal := { negative, digits := a / b, exponent := unit }
  let above : Decimal :=
    if a / b + 1 = Nat.pow 10 count then { negative, digits := 1, exponent := unit + count }
    else { negative, digits := a / b + 1, exponent := unit }
  let readsBack (d : Decimal) : Bool := ofDecimal d == finite negative mantissa exponent
  let candidates := if 2 * (a % b) < b then [below, above] else [above, below]
  candidates.find? readsBack

/-- The fewest decimal digits that read back to a finite number. -/
def shortest (negative : Bool) (mantissa : Nat) (exponent : Int) : Decimal :=
  if mantissa = 0 then { negative, digits := 0, exponent := 0 }
  else
    ((List.range 17).findSome? fun i => shortestOf? negative mantissa exponent (i + 1)).getD
      { negative, digits := mantissa, exponent := 0 }

/-- A number as text: digits and zeros without an exponent. -/
def describe : Binary64 → String
  | finite negative mantissa exponent => (shortest negative mantissa exponent).positional
  | infinite negative => if negative then "-inf" else "inf"
  | nan => "NaN"

/-- The nearest whole number, a half going up, between 0 and `top`. -/
def toNat (top : Nat) : Binary64 → Nat
  | finite false mantissa exponent =>
    let (num, den) := scale 2 exponent mantissa 1
    min top ((2 * num + den) / (2 * den))
  | infinite false => top
  | _ => 0

end Binary64
end Mqtt

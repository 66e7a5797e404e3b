/-!
# Characters and digits

Readers of texts take what they know off the front of the characters and return the rest. Digits
stand in bases up to sixteen, in letters of either case.
-/
namespace Mqtt.Front

/-- Takes one character. -/
def char? (c : Char) : List Char → Option (List Char)
  | [] => none
  | d :: rest => if d = c then some rest else none

end Mqtt.Front

namespace Mqtt.Digits

/-- The value of a hexadecimal digit in either case. -/
def value? (c : Char) : Option Nat :=
  if '0' ≤ c ∧ c ≤ '9' then some (c.toNat - '0'.toNat)
  else if 'a' ≤ c ∧ c ≤ 'f' then some (c.toNat - 'a'.toNat + 10)
  else if 'A' ≤ c ∧ c ≤ 'F' then some (c.toNat - 'A'.toNat + 10)
  else none

/-- The value of a digit in a base. -/
def valueIn? (base : Nat) (c : Char) : Option Nat :=
  (value? c).filter (· < base)

/-- Whether a character is a digit of a base. -/
def isDigitOf (base : Nat) (c : Char) : Bool :=
  (valueIn? base c).isSome

/-- The number that digits of a base write, highest digit first. -/
def toNat (base : Nat) (digits : List Char) : Nat :=
  (digits.filterMap (valueIn? base)).foldl (fun n d => base * n + d) 0

/-- The lower-case hexadecimal digits of a number, without leading zeros. -/
def hex (n : Nat) : List Char :=
  Nat.toDigits 16 n

/-- The two lower-case hexadecimal digits of a byte. -/
def ofByte (b : UInt8) : List Char :=
  [Nat.digitChar (b.toNat / 16), Nat.digitChar (b.toNat % 16)]

end Mqtt.Digits

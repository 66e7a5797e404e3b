import Mqtt.Text.Digits
import Mqtt.Text.Utf8

/-!
# Captures

Captured bytes stand in a file or are given as hexadecimal digits, two for each byte. Blanks, line
ends and colons may stand anywhere between the digits. That a digit has no partner is found before
anything else is looked at, and the first two bytes that are no digits are named in the error.
-/
namespace Mqtt.Capture

/-- Where captured bytes come from. -/
inductive Source where
  | hex (digits : String)
  | file (path : String)
  deriving DecidableEq

/-- Why digits give no bytes. -/
inductive HexError where
  /-- The last digit has no partner. -/
  | oddDigits
  /-- Two bytes of the text are no digits of a byte. -/
  | invalidPair (high low : UInt8)
  deriving DecidableEq

/-- The words for an error. -/
def HexError.message : HexError → String
  | oddDigits => "hex input has an odd number of digits"
  | invalidPair high low => "invalid hex byte '" ++ Utf8.lossy [high, low] ++ "'"

/-- Whether a byte only separates digits: a colon, a blank, or an end of line or page. -/
def isSeparator (b : UInt8) : Bool :=
  [' ', '\t', '\n', '\x0c', '\r', ':'].contains (Char.ofNat b.toNat)

/-- The value of a digit. -/
def digit? (b : UInt8) : Option Nat :=
  Digits.value? (Char.ofNat b.toNat)

/-- The byte of two digits. A plus may stand for the first one, as the sign of the second. -/
def readPair? (high low : UInt8) : Option UInt8 := do
  let sixteens ← if high = '+'.toUInt8 then some 0 else digit? high
  return UInt8.ofNat (16 * sixteens + (← digit? low))

/-- The bytes of digits without separators. -/
def readPairs : Bytes → Except HexError Bytes
  | high :: low :: rest =>
    match readPair? high low with
    | none => .error (.invalidPair high low)
    | some b => (b :: ·) <$> readPairs rest
  | [_] => .error .oddDigits
  | [] => .ok []

/-- The bytes that digits give. That a digit has no partner is found first. -/
def ofHex (s : String) : Except HexError Bytes :=
  let digits := (Bytes.ofText s).filter (!isSeparator ·)
  if digits.length % 2 = 1 then .error .oddDigits else readPairs digits

end Mqtt.Capture

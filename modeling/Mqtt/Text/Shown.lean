import Mqtt.Bytes
import Mqtt.Text.Digits
import Mqtt.Text.Printable

/-!
# Shown values

How values are shown to a reader: records as a name and fields in braces, optional values as
`Some(…)` or `None`, lists in brackets, and text and bytes between double quotes, on one line, with
escapes for what does not print as itself.
-/
namespace Mqtt.Shown

/-- A truth value. -/
def bool (b : Bool) : String :=
  if b then "true" else "false"

/-- A named value: the name with the value in parentheses. -/
def named (name value : String) : String :=
  name ++ "(" ++ value ++ ")"

/-- A record with its fields in order. -/
def record (name : String) (fields : List (String × String)) : String :=
  name ++ " \x7b " ++ ", ".intercalate (fields.map fun f => f.1 ++ ": " ++ f.2) ++ " \x7d"

/-- A value that may be missing. -/
def option {α : Type} (show' : α → String) : Option α → String
  | some a => named "Some" (show' a)
  | none => "None"

/-- A list. -/
def list {α : Type} (show' : α → String) (l : List α) : String :=
  "[" ++ ", ".intercalate (l.map show') ++ "]"

end Mqtt.Shown

namespace Mqtt.Quoted

/-- The escape that a few characters have of their own. -/
def named? : Char → Option Char
  | '\x00' => some '0'
  | '\t' => some 't'
  | '\r' => some 'r'
  | '\n' => some 'n'
  | '"' => some '"'
  | '\\' => some '\\'
  | _ => none

/-- A character inside a quoted text: a character that does not print as itself stands as its code
point in hexadecimal. -/
def escape (c : Char) : List Char :=
  match named? c with
  | some letter => ['\\', letter]
  | none =>
    if Printable.isPrintable c then [c]
    else ['\\', 'u', '\x7b'] ++ Digits.hex c.toNat ++ ['\x7d']

/-- A byte inside a quoted byte string: only ASCII prints as itself. -/
def escapeByte (b : UInt8) : List Char :=
  match named? (Char.ofNat b.toNat) with
  | some letter => ['\\', letter]
  | none =>
    if 0x20 ≤ b.toNat ∧ b.toNat < 0x7f then [Char.ofNat b.toNat]
    else ['\\', 'x'] ++ Digits.ofByte b

/-- A text in quotes. -/
def text (s : String) : String :=
  String.ofList ('"' :: s.toList.flatMap escape ++ ['"'])

/-- A byte string in quotes. -/
def bytes (b : Bytes) : String :=
  String.ofList ('b' :: '"' :: b.flatMap escapeByte ++ ['"'])

end Mqtt.Quoted

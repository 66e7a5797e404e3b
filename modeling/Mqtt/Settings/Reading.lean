import Mqtt.Settings.Basic
import Mqtt.Toml.Value

/-!
# Settings in tables

Each setting stands in a section of its own; what is not given has its default, and what is not
known is skipped. What counts as a section, as text and as a number is a reading of values. A strict
reading takes values as they are, and a lenient one converts them.
-/
namespace Mqtt.Settings

open Toml (Value)

/-- What counts as text, as a number and as a section. -/
structure Reading where
  text? : Value → Option String
  count? : Value → Option Nat
  /-- The value that a section has under a key; the inner result is missing if it has none, and the
  outer one if it is no section. -/
  under? : String → Value → Option (Option Value)

namespace Reading

/-- The value that a table has under a key, or an array in its first place. A date counts as a
section without values. -/
def inSection? (key : String) : Value → Option (Option Value)
  | .table entries => some (entries.lookup key)
  | .array items => some items.head?
  | .datetime _ => some none
  | _ => none

/-- Only text is text, and only an integer is a number. -/
def strict : Reading where
  text?
    | .text s => some s
    | _ => none
  count?
    | .integer n => n.toNat?
    | _ => none
  under? := inSection?

/-- Words for one and zero, in letters of either case. -/
def truthWord? (s : String) : Option Nat :=
  if ["true", "on", "yes"].contains s.toLower then some 1
  else if ["false", "off", "no"].contains s.toLower then some 0
  else none

/-- Scalars are converted: truth values and numbers are text as they are written, and numbers are
rounded or read from text. -/
def lenient : Reading where
  text?
    | .text s => some s
    | .boolean b => some (Shown.bool b)
    | .integer n => some (toString n)
    | .float x => some x.describe
    | _ => none
  count?
    | .integer n => n.toNat?
    | .boolean b => some b.toNat
    | .float x => some (x.toNat Decimal.largestCount)
    | .text s => truthWord? s <|> Decimal.readCount? s.toList
    | _ => none
  under? := inSection?

end Reading

/-- The setting under a key of a section, or its default. -/
def entry? {α : Type} (r : Reading) (read : Value → Option α) (initial : α)
    (entries : List (String × Value)) (name key : String) : Option α :=
  match entries.lookup name with
  | none => some initial
  | some value => do
    match ← r.under? key value with
    | none => return initial
    | some value => read value

/-- The settings that a table holds. -/
def ofTable? (r : Reading) (entries : List (String × Value)) : Option Settings := do
  return {
    logLevel := ← entry? r r.text? initial.logLevel entries "log" "level"
    maxRemainingLength :=
      ← entry? r r.count? initial.maxRemainingLength entries "parser" "max_remaining_length"
    bind :=
      ← entry? r (fun v => (r.text? v).bind SocketAddress.read?) initial.bind entries "listen"
        "bind"
  }

end Mqtt.Settings

import Mqtt.Settings.Library
import Mqtt.Toml.Path

/-!
# Settings in TOML

Settings are read from documents in TOML: strictly from a text in TOML 1.0, and leniently from a
file in TOML 1.1. The names of variables that are settings have a mark in front and two underscores
for every point of a path.
-/
namespace Mqtt.Settings

open Toml (Value)

/-! ### The file -/

mutual

/-- A value with its dates and times as text. -/
def plain : Value → Value
  | .datetime d => .text d.describe
  | .array items => .array (plainItems items)
  | .table entries => .table (plainEntries entries)
  | value => value

/-- Items with their dates and times as text. -/
def plainItems : List Value → List Value
  | [] => []
  | item :: items => plain item :: plainItems items

/-- Entries with their dates and times as text. -/
def plainEntries : List (String × Value) → List (String × Value)
  | [] => []
  | (key, value) :: entries => (key, plain value) :: plainEntries entries

end

/-! ### The environment -/

/-- Characters with a point for every two underscores. -/
def pointed : List Char → List Char
  | '_' :: '_' :: cs => '.' :: pointed cs
  | c :: cs => c :: pointed cs
  | [] => []

/-- What the names of variables that are settings begin with. -/
def variableMark : List Char := "mqtt_wire__".toList

/-- The path that a variable is meant for, if it is a setting. The case of letters does not
count. -/
def variablePath? (name : String) : Option String :=
  let name := name.toLower.toList
  if variableMark.isPrefixOf name then
    some (String.ofList (pointed (name.drop variableMark.length)))
  else none

/-- The float that a text is. The words for infinity and for no number may have letters of either
case. -/
def readFloat? (cs : List Char) : Option Binary64 :=
  let (negative, unsigned) := Decimal.splitSign cs
  match String.ofList (unsigned.map Char.toLower) with
  | "inf" | "infinity" => some (.infinite negative)
  | "nan" => some .nan
  | _ => Binary64.ofDecimal <$> Decimal.read? cs

/-- The value that the text of a variable is: a truth value, an integer, a float, or else text. -/
def variableValue (s : String) : Value :=
  match s.toLower with
  | "true" => .boolean true
  | "false" => .boolean false
  | _ =>
    match (Decimal.readInt? s.toList).filter Toml.inRange, readFloat? s.toList with
    | some n, _ => .integer n
    | none, some x => .float x
    | none, none => .text s

/-! ### Both -/

/-- TOML 1.0 read strictly, and TOML 1.1 read leniently and laid over other values path by path. -/
def Library.toml : Library where
  strictDocument? := Toml.parse? .v10
  strict := .strict
  document? s := (Toml.parse? .v11 s).map plainEntries
  path? := variablePath?
  value := variableValue
  assign entries path value := Toml.assign entries (.ofText path) value
  lenient := .lenient

/-- The settings of a document in TOML 1.0, read strictly. -/
def parse (s : String) : Except SettingsError Settings :=
  Library.toml.parse s

/-- The settings that a file in TOML 1.1 and the environment make. -/
def load (env : Environment) (file : FileContent) : Except SettingsError Settings :=
  Library.toml.load env file

end Mqtt.Settings

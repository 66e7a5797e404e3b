import Mqtt.Text.Shown

/-!
# Log records

What is logged is data: a level, a message, and named values in order. A threshold lets through the
levels that are as grave as itself or graver. On a line the level stands first, and each value
stands behind its name, in quotes where it asks for them.
-/
namespace Mqtt.Log

/-- How grave a record is, gravest first. -/
inductive Level where
  | error
  | warn
  | info
  | debug
  | trace
  deriving DecidableEq

namespace Level

/-- The place of a level, counted from the gravest. -/
def rank : Level → Nat
  | error => 0
  | warn => 1
  | info => 2
  | debug => 3
  | trace => 4

/-- All levels, gravest first. -/
def all : List Level := [error, warn, info, debug, trace]

/-- The name of a level in settings and on the command line. -/
def name : Level → String
  | error => "error"
  | warn => "warn"
  | info => "info"
  | debug => "debug"
  | trace => "trace"

/-- The level of a name. -/
def ofName? (s : String) : Option Level :=
  all.find? (fun level => level.name == s)

/-- The name of a level on a line. -/
def label (level : Level) : String := level.name.toUpper

/-- Whether a threshold lets a level through. -/
def allows (threshold level : Level) : Bool :=
  level.rank ≤ threshold.rank

end Level

/-- A named value of a record. -/
structure Value where
  name : String
  text : String
  /-- Whether a line shows the text in quotes. -/
  quoted : Bool := false
  deriving DecidableEq

/-- One record. -/
structure Record where
  level : Level
  message : String
  values : List Value := []
  deriving DecidableEq

/-- A value with its name before it. -/
def Value.describe (v : Value) : String :=
  v.name ++ "=" ++ if v.quoted then Quoted.text v.text else v.text

/-- A record as one line. -/
def Record.line (r : Record) : String :=
  " ".intercalate (r.level.label :: r.message :: r.values.map Value.describe)

end Mqtt.Log

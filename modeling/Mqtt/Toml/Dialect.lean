/-!
# Dialects of TOML

TOML 1.1 allows more than TOML 1.0. A reader of either is one reader with a record of what the
two decide differently.
-/
namespace Mqtt.Toml

/-- What a reader of TOML decides. -/
structure Dialect where
  /-- The most levels of brackets, and the most keys that a dotted key has. -/
  maxDepth : Nat
  /-- Whether quoted text has the escapes `\e` and `\xHH`. -/
  shortEscapes : Bool
  /-- Whether a line end in text over several lines stays as it is written. If not, it is a line
  feed. -/
  keepsLineEnds : Bool
  /-- Whether an inline table may run over several lines, with comments, and end in a comma. -/
  wideTables : Bool
  /-- Whether a time may do without seconds. -/
  shortTimes : Bool
  /-- Whether a dotted key may add to a table that only a longer header implied. -/
  extendsImplied : Bool
  /-- Whether a negative number that is too large is infinity. If not, it is no number. -/
  negativeOverflow : Bool
  deriving DecidableEq

namespace Dialect

/-- TOML 1.0. -/
def v10 : Dialect where
  maxDepth := 79
  shortEscapes := false
  keepsLineEnds := false
  wideTables := false
  shortTimes := false
  extendsImplied := false
  negativeOverflow := true

/-- TOML 1.1. -/
def v11 : Dialect where
  maxDepth := 80
  shortEscapes := true
  keepsLineEnds := true
  wideTables := true
  shortTimes := true
  extendsImplied := true
  negativeOverflow := false

end Dialect
end Mqtt.Toml

import Mqtt.Program

/-!
# The executable

Reads the command line, the environment and the files, and prints what the program says.
-/
namespace Mqtt.Main

/-- What stands at a path. -/
def content (path : String) : IO FileContent := do
  try
    return .bytes (← IO.FS.readBinFile path).toList
  catch
    | .noFileOrDirectory .. => return .absent
    | _ => return .unreadable

/-- The variable of an entry of the environment. -/
def ofEntry? (entry : List UInt8) : Option (String × String) := do
  let name ← Bytes.text? (entry.takeWhile (· != 61))
  let value ← Bytes.text? ((entry.dropWhile (· != 61)).drop 1)
  return (name, value)

/-- The environment of the process, entries with a null behind each. -/
def environment : IO Settings.Environment := do
  match ← content "/proc/self/environ" with
  | .bytes b => return (b.splitOn 0).filterMap ofEntry?
  | _ => return []

/-- What the run finds. -/
def surroundings (paths : List String) : IO Program.Surroundings := do
  let files ← paths.mapM fun path => do return (path, ← content path)
  return { env := ← environment, file := fun path => (files.lookup path).getD .absent }

/-- Prints what a run says, log and error apart from the lines. -/
def report (outcome : Program.Outcome) : IO UInt32 := do
  for record in outcome.log do
    IO.eprintln record.line
  for line in outcome.lines do
    IO.println line
  if let some failed := outcome.failed then
    IO.eprintln failed.message
  return UInt32.ofNat outcome.exit

end Mqtt.Main

open Mqtt in
/-- The program. -/
def main (words : List String) : IO UInt32 := do
  let paths := ((Invocation.read? words).map Invocation.paths).getD []
  Main.report (Program.runWords (← Main.surroundings paths) words)

import Mqtt.Decimal.Basic
import Mqtt.Inspection
import Mqtt.SocketAddress

/-!
# The command line

The words of a command line are parameters with values, then a command, then the parameters of
that command. A value may stand in the same word as the name of its parameter, or in the next
one, which must not look like a parameter then.
-/
namespace Mqtt

namespace CommandLine

/-- How a word begins. -/
inductive Word where
  /-- `--name` or `--name=value`. -/
  | long (name : String) (value : Option String)
  /-- `-n`, `-nvalue` or `-n=value`. -/
  | short (letter : Char) (value : Option String)
  /-- `--`, which ends all parameters. -/
  | stop
  /-- Anything else; a single hyphen too. -/
  | plain
  deriving DecidableEq

/-- The value behind the equals sign of a word. -/
def attached? : List Char → Option String
  | '=' :: value => some (String.ofList value)
  | _ => none

/-- The value behind the letter of a word, with or without an equals sign. -/
def attachedShort? : List Char → Option String
  | [] => none
  | '=' :: value => some (String.ofList value)
  | value => some (String.ofList value)

/-- How a word begins. -/
def Word.ofText (s : String) : Word :=
  match s.toList with
  | ['-', '-'] => stop
  | '-' :: '-' :: rest =>
    long (String.ofList (rest.takeWhile (· ≠ '='))) (attached? (rest.dropWhile (· ≠ '=')))
  | '-' :: letter :: rest => short letter (attachedShort? rest)
  | _ => plain

/-- A parameter that takes a value. -/
structure Parameter where
  name : String
  letter : Option Char := none

/-- The parameters that are given, by name, with their values. -/
abbrev Given := List (String × String)

/-- The parameter that a word names, and the value in the same word. -/
def parameter? (known : List Parameter) : Word → Option (Parameter × Option String)
  | .long name value => (known.find? (·.name == name)).map (·, value)
  | .short letter value => (known.find? (·.letter == some letter)).map (·, value)
  | _ => none

/-- Adds a parameter, which may be given only once. -/
def Given.add? (given : Given) (p : Parameter) (value : String) : Option Given :=
  if (given.lookup p.name).isSome then none else some (given ++ [(p.name, value)])

/-- The parameters at the front, after those in `given`, and the words from the first one that
begins no parameter. -/
def readGiven? (known : List Parameter) (given : Given) : List String →
    Option (Given × List String)
  | [] => some (given, [])
  | word :: rest =>
    match Word.ofText word with
    | .plain | .stop => some (given, word :: rest)
    | w =>
      match parameter? known w with
      | none => none
      | some (p, some value) => do
        let given ← given.add? p value
        readGiven? known given rest
      | some (p, none) =>
        match rest with
        | [] => none
        | value :: rest => do
          let given ← if Word.ofText value = .plain then given.add? p value else none
          readGiven? known given rest

/-- The value of a parameter, if it is given, read by a function that may refuse it. -/
def Given.read? {α : Type} (given : Given) (name : String) (read : String → Option α) :
    Option (Option α) :=
  match given.lookup name with
  | none => some none
  | some value => (read value).map some

/-- A path must not be empty. -/
def path? (s : String) : Option String :=
  if s.isEmpty then none else some s

/-- The side that a word names. -/
def role? : String → Option Role
  | "server" => some .server
  | "client" => some .client
  | _ => none

end CommandLine

/-- What the program can do. -/
inductive Command where
  /-- Prints what a capture holds. -/
  | decode (request : Inspection.Request)
  /-- Accepts connections at an address. -/
  | listen (bind : Option SocketAddress)
  deriving DecidableEq

/-- What the program is asked to do. -/
structure Invocation where
  /-- The path of the settings file. -/
  config : Option String := none
  logLevel : Option Log.Level := none
  command : Command
  deriving DecidableEq

/-- The paths of the files that an invocation needs. -/
def Invocation.paths (i : Invocation) : List String :=
  i.config.toList ++
    match i.command with
    | .decode { source := .file path, .. } => [path]
    | _ => []

namespace Invocation

open CommandLine

/-- The source of a capture; exactly one is given. -/
def source? (hex file : Option String) : Option Capture.Source :=
  match hex, file with
  | some digits, none => some (.hex digits)
  | none, some path => some (.file path)
  | _, _ => none

/-- The command of a name and its words. -/
def readCommand? (name : String) (words : List String) : Option Command := do
  match name with
  | "decode" =>
    let (given, rest) ←
      readGiven? [⟨"role", 'r'⟩, ⟨"chunk", none⟩, ⟨"hex", none⟩, ⟨"file", none⟩] [] words
    if rest ≠ [] ∧ rest ≠ ["--"] then none
    else
      return .decode {
        role := (← given.read? "role" role?).getD .server
        chunk := (← given.read? "chunk" fun s => Decimal.readCount? s.toList).getD 0
        source := ← source? (given.lookup "hex") (← given.read? "file" path?) }
  | "listen" =>
    let (given, rest) ← readGiven? [⟨"bind", 'b'⟩] [] words
    if rest ≠ [] ∧ rest ≠ ["--"] then none
    else return .listen (← given.read? "bind" SocketAddress.read?)
  | _ => none

/-- The invocation that words make. -/
def read? (words : List String) : Option Invocation := do
  let (given, rest) ← readGiven? [⟨"config", 'c'⟩, ⟨"log-level", 'l'⟩] [] words
  match rest with
  | [] => none
  | name :: words =>
    return {
      config := ← given.read? "config" path?
      logLevel := ← given.read? "log-level" Log.Level.ofName?
      command := ← readCommand? name words }

end Invocation
end Mqtt

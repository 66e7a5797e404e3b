import Mqtt.Capture
import Mqtt.CommandLine
import Mqtt.Inspection
import Mqtt.Settings.Toml

/-!
# The program

What a run of the program does, as a function of its command line, its environment and the files
that it reads: the lines that it prints, the records that it logs, and the number that tells how it
ended. Settings are loaded before a capture is looked at, and a level on the command line beats
theirs.
-/
namespace Mqtt

namespace Program

/-- Why a run ends early. -/
inductive Failed where
  /-- The command line asks for nothing that the program can do. -/
  | usage
  /-- There are no settings, though the command line names a file for them. -/
  | settingsFile (error : SettingsError)
  /-- There are no settings. -/
  | settings (error : SettingsError)
  /-- The digits of the capture cannot be read. -/
  | hex (error : Capture.HexError)
  /-- The file of the capture cannot be read. -/
  | file (path : String)
  /-- There is no network to listen to. -/
  | noNetwork
  deriving DecidableEq

namespace Failed

/-- How a command line is written. -/
def usageText : String :=
  "Usage: [--config FILE] [--log-level LEVEL] "
    ++ "decode [--role SIDE] [--chunk N] (--hex DIGITS | --file FILE) | listen [--bind ADDRESS]"

/-- The words for a failed run. -/
def message : Failed → String
  | usage => usageText
  | settingsFile error => "Error loading config file: " ++ error.message
  | settings error => "Error: " ++ Shown.named error.name (Quoted.text error.detail)
  | hex error => "Error: " ++ Quoted.text error.message
  | file path => "Error: " ++ Shown.record "Os" [("path", Quoted.text path)]
  | noNetwork => "Error: " ++ Quoted.text "no network"

/-- The number that tells of a failed run. -/
def exit : Failed → Nat
  | usage => 2
  | _ => 1

end Failed

/-- What a run prints and how it ends. -/
structure Outcome where
  /-- The lines on the standard output. -/
  lines : List String := []
  /-- The records that are logged. -/
  log : List Log.Record := []
  failed : Option Failed := none
  /-- The number that tells how the run ended; zero stands for success. -/
  exit : Nat
  deriving DecidableEq

/-- What a run finds. -/
structure Surroundings where
  env : Settings.Environment
  file : String → FileContent

/-- The record of the settings file. -/
def settingsRecord (path : String) : Log.Record :=
  { level := .debug, message := "Loaded configuration from " ++ Quoted.text path }

/-- The bytes of a capture. -/
def capture (around : Surroundings) : Capture.Source → Except Failed Bytes
  | .hex digits => (Capture.ofHex digits).mapError .hex
  | .file path =>
    match around.file path with
    | .bytes b => .ok b
    | _ => .error (.file path)

/-- The settings of a run. Without a settings file the environment alone counts. -/
def settings (around : Surroundings) : Option String → Except Failed Settings
  | some path => (Settings.load around.env (around.file path)).mapError .settingsFile
  | none => (Settings.load around.env .absent).mapError .settings

/-- The records that a threshold lets through. -/
def logged (threshold : Log.Level) (records : List Log.Record) : List Log.Record :=
  records.filter fun r => threshold.allows r.level

/-- A run that ends early. -/
def Outcome.failure (failed : Failed) (log : List Log.Record) : Outcome :=
  { log, failed := some failed, exit := failed.exit }

/-- A run that has inspected a capture. -/
def Outcome.ofInspection (found : Inspection) (threshold : Log.Level)
    (opening : List Log.Record) : Outcome :=
  { lines := found.lines
    log := logged threshold (opening ++ found.records)
    exit := if found.failed then 1 else 0 }

/-- What a run does that is asked for something. The level of the command line beats the one of
the settings. -/
def run (around : Surroundings) (i : Invocation) : Outcome :=
  match settings around i.config with
  | .error failed => .failure failed []
  | .ok s =>
    let threshold := i.logLevel.getD (s.level?.getD .info)
    let opening := i.config.toList.map settingsRecord
    match i.command with
    | .listen _ => .failure .noNetwork (logged threshold opening)
    | .decode request =>
      match capture around request.source with
      | .error failed => .failure failed (logged threshold opening)
      | .ok bytes =>
        .ofInspection (Inspection.run (s.session request.role) request.chunk bytes) threshold
          opening

/-- What a run does with the words of its command line. -/
def runWords (around : Surroundings) (words : List String) : Outcome :=
  match Invocation.read? words with
  | none => .failure .usage []
  | some i => run around i

end Program
end Mqtt

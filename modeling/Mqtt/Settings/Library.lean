import Mqtt.Settings.Reading
import Mqtt.Settings.Reference

/-!
# Settings from several sources

Settings come from a text alone, or from a file and the environment: the environment beats the file,
and the file beats the defaults, for each setting on its own. What a document is, which variables
are settings, how a value is laid over others and what values convert to is the business of a
library, which is a record here. Settings are read with any such library.
-/
namespace Mqtt

/-- What stands at a path of the file system. -/
inductive FileContent where
  | absent
  /-- Something that cannot be read, such as a directory. -/
  | unreadable
  | bytes (bytes : Bytes)
  deriving DecidableEq

namespace Settings

open Toml (Value)

/-- Values, each with the text of the path it is meant for. -/
abbrev Layer := List (String × Value)

/-- Settings as a layer. -/
def toLayer (s : Settings) : Layer :=
  [ ("log.level", .text s.logLevel),
    ("parser.max_remaining_length", .integer s.maxRemainingLength),
    ("listen.bind", .text s.bind.describe) ]

/-- What settings are read with. -/
structure Library where
  /-- The entries of a document that is read strictly. -/
  strictDocument? : String → Option (List (String × Value))
  strict : Reading
  /-- What the document in a file sets. -/
  document? : String → Option Layer
  /-- The path that a variable is meant for, if it is a setting. -/
  path? : String → Option String
  /-- The value that the text of a variable is. -/
  value : String → Value
  /-- Lays a value over what stands at the end of a path. -/
  assign : List (String × Value) → String → Value → List (String × Value)
  lenient : Reading

namespace Library

variable (L : Library)

/-- The settings of a document, read strictly. -/
def parse (s : String) : Except SettingsError Settings :=
  match (L.strictDocument? s).bind (ofTable? L.strict) with
  | none => .error .malformed
  | some settings => settings.validated

/-- What a file sets. A missing file sets nothing. -/
def fileLayer (env : Environment) : FileContent → Except SettingsError Layer
  | .absent => .ok []
  | .unreadable => .error .unreadable
  | .bytes b =>
    match b.text? with
    | none => .error .unreadable
    | some s =>
      match L.document? (substitute env s) with
      | none => .error .unusable
      | some layer => .ok layer

/-- What the environment sets. -/
def environmentLayer (env : Environment) : Layer :=
  env.filterMap fun v => (L.path? v.1).map fun path => (path, L.value v.2)

/-- Lays the values of a layer over what stands at the end of their paths, one after the other. -/
def assignAll (entries : List (String × Value)) (layer : Layer) : List (String × Value) :=
  layer.foldl (fun entries e => L.assign entries e.1 e.2) entries

/-- Layers put over each other, the first one lowest. -/
def merge (layers : List Layer) : List (String × Value) :=
  layers.foldl L.assignAll []

/-- The settings that a file and the environment make. -/
def load (env : Environment) (file : FileContent) : Except SettingsError Settings := do
  let layer ← L.fileLayer env file
  match ofTable? L.lenient (L.merge [toLayer initial, layer, L.environmentLayer env]) with
  | none => .error .unusable
  | some settings => settings.validated

end Library
end Settings
end Mqtt

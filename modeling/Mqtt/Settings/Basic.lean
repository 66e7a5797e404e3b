import Mqtt.Session.Basic
import Mqtt.SocketAddress

/-!
# Settings

What a user can set: how much is logged, how large a packet may be, and where to listen. Settings
that name no level, or a limit that no fixed header can tell, mean nothing and are refused; the
errors tell this from sources that cannot be read and from values of the wrong type.
-/
namespace Mqtt

/-- What a user can set. -/
structure Settings where
  /-- The name of the least grave level that is logged, in letters of either case. -/
  logLevel : String := "info"
  /-- The largest remaining length that sessions accept. -/
  maxRemainingLength : Nat := defaultLimit
  /-- The address to listen at. -/
  bind : SocketAddress := .v4 #v[0, 0, 0, 0] 1883
  deriving DecidableEq

/-- Why settings mean nothing. -/
inductive SettingsFault where
  /-- No level has this name. -/
  | unknownLevel (name : String)
  /-- No fixed header can tell a length as large as the limit. -/
  | limitTooLarge
  deriving DecidableEq

/-- The words for a fault. -/
def SettingsFault.reason : SettingsFault → String
  | unknownLevel name =>
    "log.level must be one of " ++ ", ".intercalate (Log.Level.all.map Log.Level.name)
      ++ ", got '" ++ name ++ "'"
  | limitTooLarge =>
    "parser.max_remaining_length must be at most " ++ toString Varint.maximum

/-- Why there are no settings. -/
inductive SettingsError where
  /-- The file is there but holds no text that can be read. -/
  | unreadable
  /-- The text is no document, or a value in it is of the wrong type. -/
  | malformed
  /-- The sources do not come together to settings. -/
  | unusable
  /-- The settings mean nothing. -/
  | invalid (fault : SettingsFault)
  deriving DecidableEq

namespace SettingsError

/-- The name of an error. -/
def name : SettingsError → String
  | unreadable => "Io"
  | malformed => "Parse"
  | unusable => "Config"
  | invalid _ => "Validation"

/-- What an error says beyond its name. -/
def detail : SettingsError → String
  | unreadable => "the file cannot be read"
  | malformed => "not a document of settings"
  | unusable => "the sources do not make settings"
  | invalid fault => fault.reason

/-- The words for an error. -/
def message : SettingsError → String
  | unreadable => "IO error: " ++ detail unreadable
  | malformed => "Parse error: " ++ detail malformed
  | unusable => "Config error: " ++ detail unusable
  | invalid fault => "Validation error: " ++ fault.reason

end SettingsError

namespace Settings

/-- The settings where nothing is set. -/
def initial : Settings := {}

/-- The level that settings name. -/
def level? (s : Settings) : Option Log.Level :=
  Log.Level.ofName? s.logLevel.toLower

/-- The settings, if they mean something. The level is checked first. -/
def validated (s : Settings) : Except SettingsError Settings :=
  if s.level?.isNone then .error (.invalid (.unknownLevel s.logLevel))
  else if Varint.maximum < s.maxRemainingLength then .error (.invalid .limitTooLarge)
  else .ok s

/-- A session at the start of a stream, with the limit that is set. -/
def session (s : Settings) (role : Role) : Session :=
  (Session.start role).withLimit s.maxRemainingLength

theorem validated_eq_ok_iff {s t : Settings} :
    s.validated = .ok t ↔
      s = t ∧ s.level?.isSome ∧ s.maxRemainingLength ≤ Varint.maximum := by
  unfold validated
  split
  · next h => simp [Option.isNone_iff_eq_none.mp h]
  · next h =>
    have : s.level?.isSome := by simpa [Option.isSome_iff_ne_none] using h
    split
    · next h' => simp; omega
    · next h' => simp [this]; omega

/-- What is checked of settings that may be missing. -/
theorem validated_or_error_eq_ok_iff {error : SettingsError} {made : Option Settings}
    {s : Settings} :
    (match made with
      | none => Except.error error
      | some settings => settings.validated) = .ok s ↔
      made = some s ∧ s.level?.isSome ∧ s.maxRemainingLength ≤ Varint.maximum := by
  cases made with
  | none => simp
  | some settings =>
    rw [validated_eq_ok_iff, Option.some.injEq]
    constructor
    · intro h
      obtain ⟨rfl, checked⟩ := h
      exact ⟨rfl, checked⟩
    · intro h
      obtain ⟨rfl, checked⟩ := h
      exact ⟨rfl, checked⟩

end Settings
end Mqtt

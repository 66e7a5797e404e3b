import Mqtt.Proofs.Toml.Layering
import Mqtt.Proofs.Toml.Wider
import Mqtt.Settings.Library

/-!
# Lawful libraries

What settings rely on in the library that they are read with. Later values override earlier ones
leaf by leaf: a value that is laid at a setting stands there, a table that is laid over a section
goes over it key by key, and nothing changes outside of the section. Text and numbers convert to
themselves and tables to nothing. What both readers of documents read, they read alike, but for the
line ends of text.
-/
namespace Mqtt.Settings

open Toml (Value Leads inside?)

/-! ### Where settings stand -/

/-- The settings. -/
inductive Slot where
  /-- The least grave level that is logged. -/
  | level
  /-- The largest remaining length that sessions accept. -/
  | limit
  /-- The address to listen at. -/
  | address
  deriving DecidableEq

namespace Slot

/-- The section of a setting. -/
def group : Slot → String
  | level => "log"
  | limit => "parser"
  | address => "listen"

/-- Its key in the section. -/
def key : Slot → String
  | level => "level"
  | limit => "max_remaining_length"
  | address => "bind"

/-- The variable that overrides it. -/
def override : Slot → String
  | level => "MQTT_WIRE__LOG__LEVEL"
  | limit => "MQTT_WIRE__PARSER__MAX_REMAINING_LENGTH"
  | address => "MQTT_WIRE__LISTEN__BIND"

/-- Its value where nothing is set. -/
def initial : Slot → Value
  | level => .text Settings.initial.logLevel
  | limit => .integer Settings.initial.maxRemainingLength
  | address => .text Settings.initial.bind.describe

/-- The text of the path that leads to it. -/
def place (slot : Slot) : String := slot.group ++ "." ++ slot.key

variable {slot other : Slot}

theorem eq_of_group_eq (same : slot.group = other.group) : slot = other := by
  cases slot <;> cases other <;> first | rfl | exact absurd same (by decide)

theorem eq_of_override_eq (same : slot.override = other.override) : slot = other := by
  cases slot <;> cases other <;> first | rfl | exact absurd same (by decide)

theorem isBareKey_group (slot : Slot) : Toml.IsBareKey slot.group := by
  cases slot <;> decide

theorem isBareKey_key (slot : Slot) : Toml.IsBareKey slot.key := by
  cases slot <;> decide

theorem startsAt_place (slot : Slot) : Toml.StartsAt slot.group slot.place :=
  .two slot.isBareKey_group slot.isBareKey_key

end Slot

/-- Settings as a layer, with the places of the slots. -/
theorem toLayer_initial :
    toLayer initial =
      [Slot.level, .limit, .address].map fun slot => (slot.place, slot.initial) := by
  rfl

/-- The keys of a layer are bare, and the sections of the settings are tables if they are there. -/
structure Sectioned (layer : Layer) : Prop where
  bare : ∀ e ∈ layer, Toml.IsBareKey e.1
  tables : ∀ (slot : Slot) (v : Value), layer.lookup slot.group = some v →
    ∃ inner, v = .table inner

theorem sectioned_of_tables {layer : Layer} (bare : ∀ e ∈ layer, Toml.IsBareKey e.1)
    (tables : ∀ e ∈ layer, ∃ inner, e.2 = .table inner) : Sectioned layer :=
  ⟨bare, fun _ _ h => tables _ (Toml.mem_of_lookup h)⟩

/-! ### Laws -/

/-- What a value becomes when it is laid over another one: it hides what is below, or it is a table
and joins the one below. -/
inductive Laid : Value → Value → Prop
  | hides (v : Value) : Laid v v
  | joins (entries joined : List (String × Value)) : Laid (.table entries) (.table joined)

/-- The settings of one document stand in another one too: text but for its line ends, and integers
as they are. -/
structure Kept (entries layer : Layer) : Prop where
  sections : Sectioned layer
  absent : ∀ slot : Slot, inside? entries slot.group slot.key = none →
    inside? layer slot.group slot.key = none
  text : ∀ (slot : Slot) (s : String), inside? entries slot.group slot.key = some (.text s) →
    ∃ t, inside? layer slot.group slot.key = some (.text t) ∧ Toml.SameString s t
  integer : ∀ (slot : Slot) (n : Int), inside? entries slot.group slot.key = some (.integer n) →
    inside? layer slot.group slot.key = some (.integer n)

/-- A library that settings can rely on. -/
structure LawfulLibrary extends Library where
  /-- An empty text is a document that sets nothing. -/
  document?_empty : document? "" = some []
  /-- The keys of every table of a document differ. -/
  distinct : ∀ {s : String} {layer : Layer}, document? s = some layer →
    Toml.DistinctEntries layer
  /-- What both readers of documents read, they read alike. -/
  kept : ∀ {s : String} {entries layer : Layer}, strictDocument? s = some entries →
    document? s = some layer → Sectioned entries → Kept entries layer
  /-- Each setting has a variable that is meant for it. -/
  path?_override : ∀ slot : Slot, path? slot.override = some slot.place
  /-- A value that is laid at a path of two keys stands there. -/
  assign_pair : ∀ (entries : Layer) {name key : String} (v : Value), Toml.IsBareKey name →
    Toml.IsBareKey key → ∃ w, Laid v w ∧ Leads (assign entries (name ++ "." ++ key) v) name key w
  /-- A table that is laid over a section goes over it key by key. -/
  assign_section : ∀ {entries inner : Layer} {name key : String} {below : Value},
    Toml.IsBareKey name → (inner.map Prod.fst).Nodup → Leads entries name key below →
    ∃ w, Laid ((inner.lookup key).getD below) w
      ∧ Leads (assign entries name (.table inner)) name key w
  /-- A path changes nothing outside of the section that it starts at. -/
  assign_apart : ∀ {entries : Layer} {name key root path : String} {below : Value} (v : Value),
    Toml.StartsAt root path → name ≠ root → Leads entries name key below →
    Leads (assign entries path v) name key below
  /-- Tables are sections, for both readings. -/
  strict_under? : ∀ (key : String) (entries : Layer),
    strict.under? key (.table entries) = some (entries.lookup key)
  lenient_under? : ∀ (key : String) (entries : Layer),
    lenient.under? key (.table entries) = some (entries.lookup key)
  /-- Only text is text, and only an integer is a number, if values are read strictly. -/
  eq_text : ∀ {v : Value} {s : String}, strict.text? v = some s → v = .text s
  eq_integer : ∀ {v : Value} {n : Nat}, strict.count? v = some n → v = .integer n
  /-- Text and numbers are what they are, if values are read leniently, and tables are neither. -/
  lenient_text : ∀ s : String, lenient.text? (.text s) = some s
  lenient_integer : ∀ n : Nat, lenient.count? (.integer n) = some n
  text?_table : ∀ entries : Layer, lenient.text? (.table entries) = none
  count?_table : ∀ entries : Layer, lenient.count? (.table entries) = none

end Mqtt.Settings

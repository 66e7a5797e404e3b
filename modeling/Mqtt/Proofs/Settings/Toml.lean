import Mqtt.Proofs.Settings.Library
import Mqtt.Proofs.Toml.Dialects
import Mqtt.Settings.Toml

/-!
# TOML is lawful

The documents, the variables, the paths and the conversions that settings in TOML are read with obey
the laws that settings rely on. The two dialects read what both of them read alike, so the settings
of a document stand in it whichever of them it is read in.
-/
namespace Mqtt.Settings

open Toml (Value Leads Matching inside?)

/-! ### Dates and times as text -/

theorem plainItems_eq (items : List Value) : plainItems items = items.map plain := by
  induction items with
  | nil => rfl
  | cons item items ih => rw [plainItems, ih, List.map_cons]

theorem plainEntries_eq (entries : List (String × Value)) :
    plainEntries entries = entries.map fun e => (e.1, plain e.2) := by
  induction entries with
  | nil => rfl
  | cons e entries ih => rw [plainEntries, ih, List.map_cons]

theorem map_fst_plainEntries (entries : List (String × Value)) :
    (plainEntries entries).map Prod.fst = entries.map Prod.fst := by
  simp [plainEntries_eq]

theorem lookup_plainEntries (entries : List (String × Value)) (key : String) :
    (plainEntries entries).lookup key = (entries.lookup key).map plain := by
  rw [plainEntries_eq, Toml.lookup_map_values]

theorem distinct_plain {v : Value} (h : v.Distinct) : (plain v).Distinct := by
  induction h with
  | text s => exact .text s
  | integer n => exact .integer n
  | float x => exact .float x
  | boolean b => exact .boolean b
  | datetime d => exact .text d.describe
  | array _ ih =>
      rw [plain, plainItems_eq]
      exact .array (List.forall_mem_map.mpr ih)
  | table keys _ ih =>
      rw [plain]
      refine .table (by rwa [map_fst_plainEntries]) ?_
      rw [plainEntries_eq]
      exact List.forall_mem_map.mpr ih

/-! ### Documents that match -/

section Documents

variable {entries entries' : List (String × Value)}

/-- **A setting has values that are alike in both documents**, or none in both. -/
theorem inside?_matching (h : Sectioned entries) (matching : Matching Value.Alike entries entries')
    (slot : Slot) :
    inside? entries slot.group slot.key = none
        ∧ inside? (plainEntries entries') slot.group slot.key = none
      ∨ ∃ v v', inside? entries slot.group slot.key = some v
        ∧ inside? (plainEntries entries') slot.group slot.key = some (plain v') ∧ v.Alike v' := by
  unfold inside?
  rw [lookup_plainEntries]
  rcases matching.lookup slot.group with ⟨hv, hw⟩ | ⟨v, w, hv, hw, alike⟩
  · rw [hv, hw]
    exact .inl ⟨rfl, rfl⟩
  · obtain ⟨inner, rfl⟩ := h.tables slot v hv
    obtain ⟨inner', rfl, matching'⟩ := alike.exists_table
    rw [hv, hw, Option.map_some, plain, Option.bind_some, Option.bind_some, Value.entries,
      Value.entries, lookup_plainEntries]
    rcases matching'.lookup slot.key with ⟨hv, hw⟩ | ⟨v, w, hv, hw, alike⟩
    · rw [hv, hw]
      exact .inl ⟨rfl, rfl⟩
    · rw [hv, hw]
      exact .inr ⟨v, w, rfl, rfl, alike⟩

/-- The sections of a document are where they are in one that matches it. -/
theorem Sectioned.of_matching (h : Sectioned entries)
    (matching : Matching Value.Alike entries entries') : Sectioned (plainEntries entries') := by
  constructor
  · intro e he
    have key : e.1 ∈ entries'.map Prod.fst := by
      rw [← map_fst_plainEntries]
      exact List.mem_map_of_mem he
    rw [← Toml.isSome_lookup_iff, ← matching.keys, Toml.isSome_lookup_iff] at key
    obtain ⟨e', he', same⟩ := List.mem_map.mp key
    rw [← same]
    exact h.bare e' he'
  · intro slot v hv
    rw [lookup_plainEntries] at hv
    obtain ⟨w, hw, rfl⟩ := Option.map_eq_some_iff.mp hv
    rcases matching.lookup slot.group with ⟨-, absent⟩ | ⟨u, w', hu, hw', alike⟩
    · rw [hw] at absent
      cases absent
    · cases hw.symm.trans hw'
      obtain ⟨inner, rfl⟩ := h.tables slot u hu
      obtain ⟨inner', rfl, -⟩ := alike.exists_table
      exact ⟨plainEntries inner', by rw [plain]⟩

theorem exists_inside?_of_matching (h : Sectioned entries)
    (matching : Matching Value.Alike entries entries') {slot : Slot} {v : Value}
    (found : inside? entries slot.group slot.key = some v) :
    ∃ w, inside? (plainEntries entries') slot.group slot.key = some (plain w) ∧ v.Alike w := by
  rcases inside?_matching h matching slot with ⟨hv, -⟩ | ⟨u, w, hu, hw, alike⟩
  · rw [found] at hv
    cases hv
  · cases hu.symm.trans found
    exact ⟨w, hw, alike⟩

/-- **The settings of a document stand in one that matches it** too. -/
theorem kept_of_matching (h : Sectioned entries)
    (matching : Matching Value.Alike entries entries') : Kept entries (plainEntries entries') where
  sections := h.of_matching matching
  absent slot missing := by
    rcases inside?_matching h matching slot with ⟨-, hw⟩ | ⟨v, w, hv, -, -⟩
    · exact hw
    · rw [missing] at hv
      cases hv
  text slot s found := by
    obtain ⟨w, hw, alike⟩ := exists_inside?_of_matching h matching found
    cases alike with
    | same => exact ⟨s, hw, .inl rfl⟩
    | text same => exact ⟨_, hw, same⟩
  integer slot n found := by
    obtain ⟨w, hw, alike⟩ := exists_inside?_of_matching h matching found
    cases alike
    exact hw

end Documents

/-! ### Values at paths -/

/-- A value that is laid over another one hides it, or both are tables and joined. -/
theorem laid_over (below v : Value) : Laid v (Value.over below v) := by
  cases v with
  | table entries =>
      rw [Value.over]
      exact .joins _ _
  | _ => exact .hides _

/-- What is laid over a value, if something is, becomes what stands there. -/
theorem laid_getD (below : Value) (v : Option Value) :
    Laid (v.getD below) ((v.map (Value.over below)).getD below) := by
  cases v with
  | none => exact .hides below
  | some v => exact laid_over below v

theorem toml_assign (entries : Layer) (path : String) (v : Value) :
    Library.toml.assign entries path v = Toml.assign entries (.ofText path) v :=
  rfl

theorem exists_leads_assign_pair (entries : Layer) {name key : String} (v : Value)
    (bare : Toml.IsBareKey name) (bareKey : Toml.IsBareKey key) :
    ∃ w, Laid v w
      ∧ Leads (Library.toml.assign entries (name ++ "." ++ key) v) name key w := by
  rw [toml_assign, Toml.Path.ofText_pair bare bareKey]
  exact ⟨_, laid_over _ v, Toml.leads_assign entries name key v⟩

theorem exists_leads_assign_section {entries inner : Layer} {name key : String} {below : Value}
    (bare : Toml.IsBareKey name) (keys : (inner.map Prod.fst).Nodup)
    (leads : Leads entries name key below) :
    ∃ w, Laid ((inner.lookup key).getD below) w
      ∧ Leads (Library.toml.assign entries name (.table inner)) name key w := by
  rw [toml_assign, Toml.Path.ofText_bare bare]
  exact ⟨_, laid_getD below _, leads.assign_table keys⟩

/-! ### Documents and variables -/

theorem toml_document? (s : String) :
    Library.toml.document? s = (Toml.parse? .v11 s).map plainEntries :=
  rfl

theorem toml_document?_empty : Library.toml.document? "" = some [] := by
  have document : Toml.parse? .v11 "" = some [] := by decide +kernel
  rw [toml_document?, document, Option.map_some, plainEntries]

theorem distinct_document? {s : String} {layer : Layer}
    (h : Library.toml.document? s = some layer) : Toml.DistinctEntries layer := by
  obtain ⟨entries, hentries, rfl⟩ := Option.map_eq_some_iff.mp h
  have distinct := distinct_plain (Toml.distinct_parse? hentries).table
  exact Toml.distinctEntries_of_table distinct

theorem kept_document? {s : String} {entries layer : Layer}
    (document : Toml.parse? .v10 s = some entries) (h : Library.toml.document? s = some layer)
    (sections : Sectioned entries) : Kept entries layer := by
  obtain ⟨entries', document', rfl⟩ := Option.map_eq_some_iff.mp h
  exact kept_of_matching sections (Toml.matching_of_parse? document document')

/-- The variables of the settings are meant for their places. -/
theorem variablePath?_override (slot : Slot) : variablePath? slot.override = some slot.place := by
  cases slot <;> decide +kernel

/-! ### The laws -/

/-- Only text is text, if values are read strictly. -/
theorem eq_text_of_text? {v : Value} {s : String} (h : Reading.strict.text? v = some s) :
    v = .text s := by
  cases v with
  | text t =>
      cases h
      rfl
  | _ => cases h

/-- Only an integer is a number. -/
theorem eq_integer_of_count? {v : Value} {n : Nat} (h : Reading.strict.count? v = some n) :
    v = .integer n := by
  cases v with
  | integer m =>
      have same : m.toNat? = some n := h
      rw [Int.mem_toNat?.mp same]
  | _ => cases h

/-- **TOML is lawful.** -/
def LawfulLibrary.toml : LawfulLibrary where
  toLibrary := .toml
  document?_empty := toml_document?_empty
  distinct := distinct_document?
  kept := kept_document?
  path?_override := variablePath?_override
  assign_pair := exists_leads_assign_pair
  assign_section := exists_leads_assign_section
  assign_apart v starts apart leads := leads.assign (starts.root_eq ▸ apart) v
  strict_under? _ _ := rfl
  lenient_under? _ _ := rfl
  eq_text := eq_text_of_text?
  eq_integer := eq_integer_of_count?
  lenient_text _ := rfl
  lenient_integer _ := rfl
  text?_table _ := rfl
  count?_table _ := rfl

end Mqtt.Settings

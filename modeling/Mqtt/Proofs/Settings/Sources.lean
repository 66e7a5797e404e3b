import Mqtt.Proofs.Settings.Toml

/-!
# Every setting has its own source

Each of the settings is taken from the environment, or else from the file, or else it has its
default, whatever the sources of the others are. What is taken is converted after that, so a value
that is overridden is never converted. This holds with every lawful library, so with TOML. The three
sources are laid over each other one value at a time; what carries the proof is that a setting
stands at its place with a value that converts like the one that was chosen so far.
-/
namespace Mqtt.Settings

open Toml (Value Leads inside?)

namespace Library

variable (L : Library)

/-- Every variable has one value, and those that are meant for a path override a setting. -/
structure Overrides (env : Environment) : Prop where
  distinct : (env.map Prod.fst).Nodup
  known : ∀ v ∈ env, (L.path? v.1).isSome → ∃ slot : Slot, v.1 = slot.override

/-- The value that a setting is taken from: that of its variable, or else that of the file, or else
the default. -/
def chosen (env : Environment) (layer : Layer) (slot : Slot) : Value :=
  ((env.lookup slot.override).map L.value).getD
    ((inside? layer slot.group slot.key).getD slot.initial)

/-- The settings that three values make, if each of them converts. -/
def convert? (level limit address : Value) : Option Settings := do
  return {
    logLevel := ← L.lenient.text? level
    maxRemainingLength := ← L.lenient.count? limit
    bind := ← (L.lenient.text? address).bind SocketAddress.read?
  }

variable {L}

theorem Overrides.nil : L.Overrides [] :=
  ⟨List.nodup_nil, by simp⟩

theorem convert?_eq_some_iff {level limit address : Value} {s : Settings} :
    L.convert? level limit address = some s ↔
      L.lenient.text? level = some s.logLevel
        ∧ L.lenient.count? limit = some s.maxRemainingLength
        ∧ (L.lenient.text? address).bind SocketAddress.read? = some s.bind := by
  obtain ⟨logLevel, maxRemainingLength, bind⟩ := s
  rw [convert?]
  cases L.lenient.text? level <;> cases L.lenient.count? limit <;>
    cases (L.lenient.text? address).bind SocketAddress.read? <;> simp

end Library

namespace LawfulLibrary

/-- Values that convert alike. -/
def ReadAs (L : LawfulLibrary) (value value' : Value) : Prop :=
  L.lenient.text? value = L.lenient.text? value'
    ∧ L.lenient.count? value = L.lenient.count? value'

/-- A setting stands in entries with a value that converts like the given one. -/
def Holds (L : LawfulLibrary) (entries : Layer) (slot : Slot) (value : Value) : Prop :=
  ∃ w, L.ReadAs w value ∧ Leads entries slot.group slot.key w

variable {L : LawfulLibrary} {entries layer : Layer} {slot : Slot} {value value' value'' : Value}

theorem ReadAs.trans (h : L.ReadAs value value') (h' : L.ReadAs value' value'') :
    L.ReadAs value value'' :=
  ⟨h.1.trans h'.1, h.2.trans h'.2⟩

/-- What a value is laid over does not change how it converts. -/
theorem readAs_of_laid {w : Value} (h : Laid value w) : L.ReadAs w value := by
  cases h with
  | hides => exact ⟨rfl, rfl⟩
  | joins entries joined =>
      exact ⟨(L.text?_table joined).trans (L.text?_table entries).symm,
        (L.count?_table joined).trans (L.count?_table entries).symm⟩

/-! ### One value after the other -/

/-- A value that is laid at a setting stands there. -/
theorem holds_assign (L : LawfulLibrary) (entries : Layer) (slot : Slot) (value : Value) :
    L.Holds (L.assign entries slot.place value) slot value := by
  obtain ⟨w, laid, leads⟩ :=
    L.assign_pair entries value slot.isBareKey_group slot.isBareKey_key
  exact ⟨w, readAs_of_laid laid, leads⟩

/-- A path that starts elsewhere changes nothing. -/
theorem Holds.assign_apart (h : L.Holds entries slot value) {root path : String} (v : Value)
    (starts : Toml.StartsAt root path) (apart : slot.group ≠ root) :
    L.Holds (L.assign entries path v) slot value := by
  obtain ⟨w, same, leads⟩ := h
  exact ⟨w, same, L.assign_apart v starts apart leads⟩

/-- A section of a file hides what it has, and leaves what it has not. -/
theorem Holds.assign_section (h : L.Holds entries slot value) {inner : Layer}
    (keys : (inner.map Prod.fst).Nodup) :
    L.Holds (L.assign entries slot.group (.table inner)) slot
      ((inner.lookup slot.key).getD value) := by
  obtain ⟨below, same, leads⟩ := h
  obtain ⟨w, laid, leads'⟩ := L.assign_section slot.isBareKey_group keys leads
  refine ⟨w, ?_, leads'⟩
  cases hinner : inner.lookup slot.key with
  | none =>
      rw [hinner] at laid
      exact (readAs_of_laid laid).trans same
  | some v =>
      rw [hinner] at laid
      exact readAs_of_laid laid

/-! ### The defaults, the file and the environment -/

/-- The defaults lie where their settings stand. -/
theorem holds_initial (L : LawfulLibrary) (slot : Slot) :
    L.Holds (L.assignAll [] (toLayer initial)) slot slot.initial := by
  have apart {slot other : Slot} (differ : slot ≠ other) : slot.group ≠ other.group :=
    fun same => differ (Slot.eq_of_group_eq same)
  rw [toLayer_initial]
  cases slot with
  | level =>
      exact ((L.holds_assign _ _ _).assign_apart _ (Slot.startsAt_place .limit)
        (apart (by decide))).assign_apart _ (Slot.startsAt_place .address) (apart (by decide))
  | limit =>
      exact (L.holds_assign _ _ _).assign_apart _ (Slot.startsAt_place .address)
        (apart (by decide))
  | address => exact L.holds_assign _ _ _

/-- **A file goes over what is below it** setting by setting. The induction is on the entries of the
file; the section of the setting is among them at most once. -/
theorem Holds.file (h : L.Holds entries slot value) (bare : ∀ e ∈ layer, Toml.IsBareKey e.1)
    (distinct : Toml.DistinctEntries layer)
    (tables : ∀ v, layer.lookup slot.group = some v → ∃ inner, v = .table inner) :
    L.Holds (L.assignAll entries layer) slot
      ((inside? layer slot.group slot.key).getD value) := by
  induction layer generalizing entries value with
  | nil => exact h
  | cons e layer ih =>
      obtain ⟨name, v⟩ := e
      obtain ⟨first, others⟩ := List.forall_mem_cons.mp bare
      obtain ⟨fresh, later⟩ := List.nodup_cons.mp distinct.keys
      obtain ⟨inside, values⟩ := List.forall_mem_cons.mp distinct.values
      by_cases here : slot.group = name
      · subst here
        obtain ⟨inner, rfl⟩ := tables v (by simp)
        have nothing : layer.lookup slot.group = none := Toml.lookup_eq_none fresh
        have set := h.assign_section (Toml.distinctEntries_of_table inside).keys
        have kept := ih set others ⟨later, values⟩ (by simp [nothing])
        simp only [inside?, nothing, Option.bind_none, Option.getD_none] at kept
        simp only [inside?, List.lookup_cons, beq_self_eq_true, Option.bind_some, Value.entries]
        exact kept
      · have skipped := Toml.lookup_cons_of_ne here v layer
        rw [inside?, skipped]
        rw [skipped] at tables
        exact ih (h.assign_apart v (.one first) here) others ⟨later, values⟩ tables

theorem environmentLayer_cons_of_none (L : LawfulLibrary) {name : String}
    (h : L.path? name = none) (s : String) (env : Environment) :
    L.environmentLayer ((name, s) :: env) = L.environmentLayer env := by
  simp [Library.environmentLayer, h]

theorem environmentLayer_cons_override (L : LawfulLibrary) (slot : Slot) (s : String)
    (env : Environment) :
    L.environmentLayer ((slot.override, s) :: env)
      = (slot.place, L.value s) :: L.environmentLayer env := by
  simp [Library.environmentLayer, L.path?_override slot]

/-- A variable sets the setting that it overrides and leaves all others. -/
theorem Holds.override (h : L.Holds entries slot value) (other : Slot) (s : String) :
    L.Holds (L.assign entries other.place (L.value s)) slot
      (if slot = other then L.value s else value) := by
  by_cases here : slot = other
  · subst here
    rw [if_pos rfl]
    exact L.holds_assign entries slot (L.value s)
  · rw [if_neg here]
    exact h.assign_apart _ other.startsAt_place fun same => here (Slot.eq_of_group_eq same)

/-- **The environment goes over what is below it**, with the value of the variable if it is set. The
induction is on the variables; at most one of them is meant for the setting. -/
theorem Holds.environment {env : Environment} (overrides : L.Overrides env)
    (h : L.Holds entries slot value) :
    L.Holds (L.assignAll entries (L.environmentLayer env)) slot
      (((env.lookup slot.override).map L.value).getD value) := by
  induction env generalizing entries value with
  | nil => exact h
  | cons v env ih =>
      obtain ⟨name, s⟩ := v
      obtain ⟨fresh, later⟩ := List.nodup_cons.mp overrides.distinct
      obtain ⟨first, others⟩ := List.forall_mem_cons.mp overrides.known
      have rest : L.Overrides env := ⟨later, others⟩
      cases meant : L.path? name with
      | none =>
          have differ : slot.override ≠ name := by
            intro same
            rw [← same, L.path?_override slot] at meant
            cases meant
          rw [L.environmentLayer_cons_of_none meant, Toml.lookup_cons_of_ne differ]
          exact ih rest h
      | some path =>
          obtain ⟨other, rfl⟩ := first (Option.isSome_of_mem meant)
          rw [L.environmentLayer_cons_override]
          have set := ih rest (h.override other s)
          by_cases here : slot = other
          · subst here
            rw [Toml.lookup_eq_none fresh, if_pos rfl] at set
            rw [List.lookup_cons_self]
            exact set
          · have differ : slot.override ≠ other.override := fun same =>
              here (Slot.eq_of_override_eq same)
            rw [if_neg here] at set
            rw [Toml.lookup_cons_of_ne differ]
            exact set

/-! ### All sources -/

/-- The keys of every table that a file holds differ. -/
theorem distinct_fileLayer {env : Environment} {file : FileContent}
    (h : L.fileLayer env file = .ok layer) : Toml.DistinctEntries layer := by
  unfold Library.fileLayer at h
  split at h
  · cases h
    exact ⟨List.nodup_nil, by simp⟩
  · cases h
  · split at h
    · cases h
    · split at h
      · cases h
      · next hlayer =>
        cases h
        exact L.distinct hlayer

/-- **What the sources together have for a setting** converts like what it is taken from. -/
theorem holds_merge {env : Environment} {file : FileContent}
    (readable : L.fileLayer env file = .ok layer) (sections : Sectioned layer)
    (overrides : L.Overrides env) (slot : Slot) :
    L.Holds (L.merge [toLayer initial, layer, L.environmentLayer env]) slot
      (L.chosen env layer slot) :=
  ((L.holds_initial slot).file sections.bare (distinct_fileLayer readable)
    (sections.tables slot)).environment overrides

/-- A setting that stands in entries is read there. -/
theorem Holds.exists_read (h : L.Holds entries slot value) :
    ∃ w, L.ReadAs w value ∧ ∀ {α : Type} (read : Value → Option α) (default : α),
      entry? L.lenient read default entries slot.group slot.key = read w := by
  obtain ⟨w, same, inner, hname, hkey⟩ := h
  refine ⟨w, same, fun read default => ?_⟩
  simp [hname, L.lenient_under?, hkey, entry?]

/-- **Loading chooses a value for each setting**, converts the three, and checks the settings. -/
theorem load_eq {env : Environment} {file : FileContent}
    (readable : L.fileLayer env file = .ok layer) (sections : Sectioned layer)
    (overrides : L.Overrides env) :
    L.load env file =
      match L.convert? (L.chosen env layer .level) (L.chosen env layer .limit)
        (L.chosen env layer .address) with
      | none => .error .unusable
      | some settings => settings.validated := by
  have holds := holds_merge readable sections overrides
  obtain ⟨level, hlevel, level_eq⟩ := (holds .level).exists_read
  obtain ⟨limit, hlimit, limit_eq⟩ := (holds .limit).exists_read
  obtain ⟨address, haddress, address_eq⟩ := (holds .address).exists_read
  simp only [Slot.group, Slot.key] at level_eq limit_eq address_eq
  have table_eq :
      ofTable? L.lenient (L.merge [toLayer initial, layer, L.environmentLayer env]) =
        L.convert? (L.chosen env layer .level) (L.chosen env layer .limit)
          (L.chosen env layer .address) := by
    rw [ofTable?, level_eq, limit_eq, address_eq, Library.convert?, hlevel.1, hlimit.2,
      haddress.1]
  rw [Library.load, readable, ← table_eq]
  rfl

/-- Loading gives the settings that the chosen values make, if they mean something. -/
theorem load_eq_ok_iff {env : Environment} {file : FileContent}
    (readable : L.fileLayer env file = .ok layer) (sections : Sectioned layer)
    (overrides : L.Overrides env) {s : Settings} :
    L.load env file = .ok s ↔
      L.lenient.text? (L.chosen env layer .level) = some s.logLevel
        ∧ L.lenient.count? (L.chosen env layer .limit) = some s.maxRemainingLength
        ∧ (L.lenient.text? (L.chosen env layer .address)).bind SocketAddress.read?
            = some s.bind
        ∧ s.level?.isSome ∧ s.maxRemainingLength ≤ Varint.maximum := by
  rw [load_eq readable sections overrides]
  refine validated_or_error_eq_ok_iff.trans ?_
  rw [Library.convert?_eq_some_iff, and_assoc, and_assoc]

end LawfulLibrary

end Mqtt.Settings

import Mathlib.Data.List.TakeWhile
import Mqtt.Proofs.Toml.Keys
import Mqtt.Toml.Path

/-!
# Values laid over others

A value goes over a table at the end of a path. Keys without quotes are paths of one key, so a table
that is laid at such a key goes over the one below it key by key, and a path of two keys changes
what one key of one section leads to.
-/
namespace Mqtt.Toml

/-! ### Paths of bare keys -/

/-- A key that can stand without quotes. -/
def IsBareKey (key : String) : Prop :=
  key.toList ≠ [] ∧ ∀ c ∈ key.toList, isBareKeyChar c = true

instance (key : String) : Decidable (IsBareKey key) :=
  decidable_of_iff ((!key.toList.isEmpty && key.toList.all isBareKeyChar) = true)
    (by simp [IsBareKey])

/-- Characters of a key end where another character follows. -/
theorem takeWhile_bare {cs rest : List Char} (bare : ∀ c ∈ cs, isBareKeyChar c = true)
    (stop : ∀ c ∈ rest.head?, isBareKeyChar c = false) :
    (cs ++ rest).takeWhile isBareKeyChar = cs := by
  rw [List.takeWhile_append_of_pos bare]
  cases rest with
  | nil => simp
  | cons c rest =>
      have : isBareKeyChar c = false := stop c (by simp)
      simp [this]

/-- A key that can stand without quotes is a path of one key. -/
theorem Path.ofText_bare {key : String} (h : IsBareKey key) :
    Path.ofText key = { root := key } := by
  have root : key.toList.takeWhile isBareKeyChar = key.toList :=
    List.takeWhile_eq_self_iff.mpr h.2
  simp [Path.ofText, Path.read?, root, h.1, readSteps?]

/-- A point and a key are one step. -/
theorem readSteps?_point {key : String} (h : IsBareKey key) (bound : Nat) :
    readSteps? (bound + 1) ('.' :: key.toList) = some [.key key] := by
  have all : key.toList.takeWhile isBareKeyChar = key.toList :=
    List.takeWhile_eq_self_iff.mpr h.2
  simp [readSteps?, readStep?, all, h.1]

/-- Two such keys with a point between them are a path of two keys. -/
theorem Path.ofText_pair {name key : String} (hname : IsBareKey name) (hkey : IsBareKey key) :
    Path.ofText (name ++ "." ++ key) = { root := name, steps := [.key key] } := by
  have point : isBareKeyChar '.' = false := rfl
  have whole : (name ++ "." ++ key).toList = name.toList ++ '.' :: key.toList := by simp
  have root : (name.toList ++ '.' :: key.toList).takeWhile isBareKeyChar = name.toList :=
    takeWhile_bare hname.2 (by simp [point])
  have count : (name ++ "." ++ key).length = name.length + key.length + 1 := by
    have : ".".length = 1 := rfl
    simp only [String.length_append]
    omega
  simp only [Path.ofText, Path.read?, whole, root, count, List.drop_left,
    readSteps?_point hkey]
  simp [hname.1]

/-- A path that starts with a key without quotes, and has at most one other such key. -/
inductive StartsAt (root : String) : String → Prop
  | one (bare : IsBareKey root) : StartsAt root root
  | two {key : String} (bare : IsBareKey root) (bareKey : IsBareKey key) :
      StartsAt root (root ++ "." ++ key)

theorem StartsAt.root_eq {root path : String} (h : StartsAt root path) :
    (Path.ofText path).root = root := by
  cases h with
  | one bare => rw [Path.ofText_bare bare]
  | two bare bareKey => rw [Path.ofText_pair bare bareKey]

/-! ### Tables over tables -/

section Over

variable {entries : List (String × Value)} {key : String}

theorem get_of_lookup_eq {entries' : List (String × Value)}
    (h : entries'.lookup key = entries.lookup key) : get key entries' = get key entries := by
  rw [get, get, h]

/-- **What a key has under a table laid over others**: what the table has for it over what was
there. -/
theorem lookup_overAll (keys : (entries.map Prod.fst).Nodup) (below : List (String × Value))
    (key : String) :
    (overAll below entries).lookup key =
      ((entries.lookup key).map (Value.over (get key below))).or (below.lookup key) := by
  induction entries generalizing below with
  | nil => simp [overAll]
  | cons e entries ih =>
      obtain ⟨name, value⟩ := e
      obtain ⟨fresh, later⟩ := List.nodup_cons.mp keys
      rw [overAll, ih later]
      by_cases same : key = name
      · subst same
        simp [lookup_eq_none fresh]
      · have kept := lookup_put_of_ne same (Value.over (get name below) value) below
        rw [kept, get_of_lookup_eq kept, lookup_cons_of_ne same]

end Over

/-! ### What a key of a section leads to -/

/-- A key of a section leads to a value. -/
def Leads (entries : List (String × Value)) (name key : String) (value : Value) : Prop :=
  ∃ inner, entries.lookup name = some (.table inner) ∧ inner.lookup key = some value

/-- What a key of a section has, if the section is there and has the key. -/
def inside? (entries : List (String × Value)) (name key : String) : Option Value :=
  (entries.lookup name).bind fun v => v.entries.lookup key

section Leads

variable {entries : List (String × Value)} {name key : String} {value : Value}

/-- A table that is laid over a section goes over it key by key. -/
theorem Leads.assign_table (h : Leads entries name key value) {inner : List (String × Value)}
    (keys : (inner.map Prod.fst).Nodup) :
    Leads (assign entries { root := name } (.table inner)) name key
      (((inner.lookup key).map (Value.over value)).getD value) := by
  obtain ⟨below, hname, hkey⟩ := h
  have below_eq : (get name entries).entries = below := by
    rw [get, hname]
    rfl
  have value_eq : get key below = value := by
    rw [get, hkey]
    rfl
  have section_eq : assign entries { root := name } (.table inner)
      = put name (.table (overAll below inner)) entries := by
    rw [assign, changeAt, Value.over, below_eq]
  refine ⟨overAll below inner, ?_, ?_⟩
  · rw [section_eq, lookup_put_self]
  · rw [lookup_overAll keys, value_eq, hkey]
    cases inner.lookup key <;> rfl

/-- A value is laid over what stood at the end of a path of two keys. -/
theorem leads_assign (entries : List (String × Value)) (name key : String) (value : Value) :
    Leads (assign entries { root := name, steps := [.key key] } value) name key
      (Value.over (get key (get name entries).entries) value) :=
  ⟨_, lookup_put_self .., lookup_put_self ..⟩

/-- A path changes nothing outside of its section. -/
theorem Leads.assign (h : Leads entries name key value) {path : Path} (differ : name ≠ path.root)
    (value' : Value) : Leads (assign entries path value') name key value := by
  obtain ⟨inner, hname, hkey⟩ := h
  exact ⟨inner, (lookup_put_of_ne differ _ _).trans hname, hkey⟩

end Leads

end Mqtt.Toml

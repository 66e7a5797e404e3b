import Mqtt.Toml.Parser

/-!
# The keys of a table differ

No table that is read from a document has a key twice, at whatever depth the table stands. A
statement that gives a key a second time is refused, so this holds of the parts of a document in the
making and of the document that they make. Inline tables are documents of their own; for them the
induction is on the fuel of the reader.
-/
namespace Mqtt.Toml

/-! ### Entries with a value put in -/

section Put

variable {α : Type} {key : String} {a : α} {entries : List (String × α)}

theorem mem_put {e : String × α} (h : e ∈ put key a entries) : e = (key, a) ∨ e ∈ entries := by
  induction entries with
  | nil => simpa [put] using h
  | cons e' entries ih =>
      rw [put] at h
      split at h
      · simp at h
        grind
      · simp at h
        grind

theorem mem_keys_put {name : String} (h : name ∈ (put key a entries).map Prod.fst) :
    name = key ∨ name ∈ entries.map Prod.fst := by
  obtain ⟨e, he, rfl⟩ := List.mem_map.mp h
  rcases mem_put he with rfl | he
  · exact .inl rfl
  · exact .inr (List.mem_map_of_mem he)

/-- A value takes the place of the one that its key had. -/
theorem nodup_put (h : (entries.map Prod.fst).Nodup) :
    ((put key a entries).map Prod.fst).Nodup := by
  induction entries with
  | nil => simp [put]
  | cons e entries ih =>
      obtain ⟨fresh, later⟩ := List.nodup_cons.mp h
      rw [put]
      split
      · next same =>
        rw [beq_iff_eq] at same
        rw [List.map_cons, same]
        exact List.nodup_cons.mpr ⟨fresh, later⟩
      · next other =>
        rw [List.map_cons, List.nodup_cons]
        refine ⟨fun old => ?_, ih later⟩
        rcases mem_keys_put old with same | old
        · exact other (beq_iff_eq.mpr same.symm)
        · exact fresh old

theorem mem_of_lookup (h : entries.lookup key = some a) : (key, a) ∈ entries := by
  obtain ⟨front, back, rfl, -⟩ := List.lookup_eq_some_iff.mp h
  simp

theorem isSome_lookup_iff : (entries.lookup key).isSome ↔ key ∈ entries.map Prod.fst := by
  constructor
  · intro h
    obtain ⟨a, ha⟩ := Option.isSome_iff_exists.mp h
    exact List.mem_map.mpr ⟨(key, a), mem_of_lookup ha, rfl⟩
  · intro h
    obtain ⟨e, he, rfl⟩ := List.mem_map.mp h
    cases hlookup : entries.lookup e.1 with
    | some a => rfl
    | none => simpa using List.lookup_eq_none_iff.mp hlookup e he

theorem lookup_eq_none (h : key ∉ entries.map Prod.fst) : entries.lookup key = none := by
  rw [← isSome_lookup_iff] at h
  exact Option.not_isSome_iff_eq_none.mp h

theorem lookup_map_values {β : Type} (f : α → β) (entries : List (String × α)) (key : String) :
    (entries.map fun e => (e.1, f e.2)).lookup key = (entries.lookup key).map f := by
  induction entries with
  | nil => rfl
  | cons e entries ih =>
      rw [List.map_cons, List.lookup_cons, List.lookup_cons, ih]
      cases key == e.1 <;> rfl

end Put

/-! ### Values and parts -/

/-- A value in which the keys of every table differ. -/
inductive Value.Distinct : Value → Prop
  | text (s : String) : Distinct (.text s)
  | integer (n : Int) : Distinct (.integer n)
  | float (x : Binary64) : Distinct (.float x)
  | boolean (b : Bool) : Distinct (.boolean b)
  | datetime (d : Datetime) : Distinct (.datetime d)
  | array {items : List Value} (items_distinct : ∀ item ∈ items, Distinct item) :
      Distinct (.array items)
  | table {entries : List (String × Value)} (keys : (entries.map Prod.fst).Nodup)
      (values : ∀ e ∈ entries, Distinct e.2) : Distinct (.table entries)

/-- Entries with different keys, and in their values too. -/
structure DistinctEntries (entries : List (String × Value)) : Prop where
  keys : (entries.map Prod.fst).Nodup
  values : ∀ e ∈ entries, e.2.Distinct

/-- A part of a document in which the keys of every table differ. -/
inductive Draft.Distinct : Draft → Prop
  | closed {value : Value} (h : value.Distinct) : Distinct (.closed value)
  | table {origin : Origin} {entries : Entries} (keys : (entries.map Prod.fst).Nodup)
      (parts : ∀ e ∈ entries, Distinct e.2) : Distinct (.table origin entries)
  | tables {latest : Entries} {before : List Entries} (keys : (latest.map Prod.fst).Nodup)
      (parts : ∀ e ∈ latest, Distinct e.2)
      (keysBefore : ∀ entries ∈ before, (entries.map Prod.fst).Nodup)
      (partsBefore : ∀ entries ∈ before, ∀ e ∈ entries, Distinct e.2) :
      Distinct (.tables latest before)

/-- Entries in the making with different keys, and in their parts too. -/
structure Entries.Distinct (entries : Entries) : Prop where
  keys : (entries.map Prod.fst).Nodup
  parts : ∀ e ∈ entries, e.2.Distinct

/-- A statement that assigns, if it does, a value in which the keys of every table differ. -/
def Statement.Distinct : Statement → Prop
  | .assign _ value => value.Distinct
  | _ => True

namespace Entries

variable {entries entries' : Entries} {key : String} {d : Draft}

theorem distinct_nil : Entries.Distinct [] := ⟨List.nodup_nil, by simp⟩

theorem Distinct.put (h : entries.Distinct) (hd : d.Distinct) :
    Entries.Distinct (put key d entries) := by
  refine ⟨nodup_put h.keys, ?_⟩
  intro e he
  rcases mem_put he with rfl | he
  · exact hd
  · exact h.parts e he

theorem Distinct.lookup (h : entries.Distinct) (hlookup : entries.lookup key = some d) :
    d.Distinct :=
  h.parts _ (mem_of_lookup hlookup)

theorem Distinct.draft {origin : Origin} (h : entries.Distinct) :
    (Draft.table origin entries).Distinct :=
  .table h.keys h.parts

theorem distinct_of_table {origin : Origin} (h : (Draft.table origin entries).Distinct) :
    entries.Distinct := by
  cases h with
  | table keys parts => exact ⟨keys, parts⟩

theorem distinct_of_tables {before : List Entries} (h : (Draft.tables entries before).Distinct) :
    entries.Distinct := by
  cases h with
  | tables keys parts => exact ⟨keys, parts⟩

/-- The open table of an array may be exchanged for another one. -/
theorem Distinct.latest {before : List Entries} (h' : entries'.Distinct)
    (h : (Draft.tables entries before).Distinct) : (Draft.tables entries' before).Distinct := by
  cases h with
  | tables _ _ keysBefore partsBefore =>
      exact .tables h'.keys h'.parts keysBefore partsBefore

end Entries

/-! ### Statements -/

section Statements

variable {entries entries' : Entries} {key : String} {d : Dialect}

theorem distinct_addNew {part : Draft} (hpart : part.Distinct) (h : entries.Distinct)
    (added : addNew key part entries = some entries') : entries'.Distinct := by
  rw [addNew] at added
  split at added
  · cases added
    exact h.put hpart
  · cases added

/-- What keeps the keys apart in the table of a header keeps them apart in the document. -/
theorem distinct_underHeader {f : Entries → Option Entries}
    (hf : ∀ {es es' : Entries}, es.Distinct → f es = some es' → es'.Distinct) {path : List String}
    (h : entries.Distinct) (changed : underHeader f path entries = some entries') :
    entries'.Distinct := by
  induction path generalizing entries entries' with
  | nil => exact hf h changed
  | cons key path ih =>
      rw [underHeader] at changed
      split at changed
      · obtain ⟨inner, hinner, same⟩ := Option.bind_eq_some_iff.mp changed
        cases same
        exact h.put (ih Entries.distinct_nil hinner).draft
      · next origin inner hlookup =>
        obtain ⟨inner', hinner, same⟩ := Option.bind_eq_some_iff.mp changed
        cases same
        exact h.put (ih (Entries.distinct_of_table (h.lookup hlookup)) hinner).draft
      · next inner before hlookup =>
        obtain ⟨inner', hinner, same⟩ := Option.bind_eq_some_iff.mp changed
        cases same
        have tables := h.lookup hlookup
        exact h.put ((ih (Entries.distinct_of_tables tables) hinner).latest tables)
      · cases changed

/-- A value that a dotted key is given keeps the keys apart. -/
theorem distinct_assignDotted {last : String} {value : Value} (hvalue : value.Distinct)
    {path : List String} (h : entries.Distinct)
    (assigned : assignDotted d last value path entries = some entries') : entries'.Distinct := by
  induction path generalizing entries entries' with
  | nil => exact distinct_addNew (.closed hvalue) h assigned
  | cons key path ih =>
      cases path with
      | nil =>
          rw [assignDotted] at assigned
          split at assigned
          · cases assigned
            exact h.put (.table (by simp) (by simpa using .closed hvalue))
          · next origin inner hlookup =>
            split at assigned
            · obtain ⟨inner', hinner, same⟩ := Option.bind_eq_some_iff.mp assigned
              cases same
              have inner_distinct := Entries.distinct_of_table (h.lookup hlookup)
              exact h.put (distinct_addNew (.closed hvalue) inner_distinct hinner).draft
            · cases assigned
          · cases assigned
      | cons next path =>
          rw [assignDotted] at assigned
          split at assigned
          · obtain ⟨inner, hinner, same⟩ := Option.bind_eq_some_iff.mp assigned
            cases same
            exact h.put (ih Entries.distinct_nil hinner).draft
          · cases assigned
          · next origin inner _ hlookup =>
            obtain ⟨inner', hinner, same⟩ := Option.bind_eq_some_iff.mp assigned
            cases same
            exact h.put (ih (Entries.distinct_of_table (h.lookup hlookup)) hinner).draft
          · next inner before hlookup =>
            obtain ⟨inner', hinner, same⟩ := Option.bind_eq_some_iff.mp assigned
            cases same
            have tables := h.lookup hlookup
            exact h.put ((ih (Entries.distinct_of_tables tables) hinner).latest tables)
          · cases assigned
          · simp

theorem distinct_openTable (h : entries.Distinct)
    (opened : openTable key entries = some entries') : entries'.Distinct := by
  rw [openTable] at opened
  split at opened
  · cases opened
    exact h.put Entries.distinct_nil.draft
  · next inner hlookup =>
    cases opened
    exact h.put (Entries.distinct_of_table (h.lookup hlookup)).draft
  · cases opened

theorem distinct_openElement (h : entries.Distinct)
    (opened : openElement key entries = some entries') : entries'.Distinct := by
  rw [openElement] at opened
  split at opened
  · cases opened
    exact h.put (.tables (by simp) (by simp) (by simp) (by simp))
  · next inner before hlookup =>
    cases opened
    refine h.put ?_
    cases h.lookup hlookup with
    | tables keys parts keysBefore partsBefore =>
        exact .tables (by simp) (by simp) (List.forall_mem_cons.mpr ⟨keys, keysBefore⟩)
          (List.forall_mem_cons.mpr ⟨parts, partsBefore⟩)
  · cases opened

/-- **Every statement keeps the keys apart.** -/
theorem Progress.distinct_add {p p' : Progress} {statement : Statement}
    (hstatement : statement.Distinct) (h : p.entries.Distinct)
    (added : p.add d statement = some p') : p'.entries.Distinct := by
  cases statement with
  | header key =>
      obtain ⟨entries, changed, same⟩ := Option.bind_eq_some_iff.mp added
      cases same
      exact distinct_underHeader distinct_openTable h changed
  | element key =>
      obtain ⟨entries, changed, same⟩ := Option.bind_eq_some_iff.mp added
      cases same
      exact distinct_underHeader distinct_openElement h changed
  | assign key value =>
      obtain ⟨entries, changed, same⟩ := Option.bind_eq_some_iff.mp added
      cases same
      exact distinct_underHeader (distinct_assignDotted hstatement) h changed

theorem distinct_foldlM {statements : List Statement} (hall : ∀ s ∈ statements, s.Distinct)
    {p p' : Progress} (h : p.entries.Distinct)
    (added : statements.foldlM (Progress.add d) p = some p') : p'.entries.Distinct := by
  induction statements generalizing p with
  | nil =>
      cases added
      exact h
  | cons statement statements ih =>
      rw [List.foldlM_cons] at added
      obtain ⟨next, hnext, added⟩ := Option.bind_eq_some_iff.mp added
      obtain ⟨first, others⟩ := List.forall_mem_cons.mp hall
      exact ih others (Progress.distinct_add first h hnext) added

end Statements

/-! ### Finished documents -/

theorem finish_eq (entries : Entries) :
    finish entries = entries.map fun e => (e.1, e.2.toValue) := by
  induction entries with
  | nil => rfl
  | cons e entries ih => rw [finish, ih, List.map_cons]

theorem finishAll_eq (before : List Entries) (after : List Value) :
    finishAll before after =
      (before.reverse.map fun entries => .table (finish entries)) ++ after := by
  induction before generalizing after with
  | nil => rfl
  | cons entries before ih => rw [finishAll, ih]; simp

theorem distinct_finish {entries : Entries} (keys : (entries.map Prod.fst).Nodup)
    (values : ∀ e ∈ entries, e.2.toValue.Distinct) : DistinctEntries (finish entries) := by
  rw [finish_eq]
  constructor
  · rw [List.map_map]
    exact keys
  · intro e he
    obtain ⟨part, hpart, rfl⟩ := List.mem_map.mp he
    exact values part hpart

theorem DistinctEntries.table {entries : List (String × Value)} (h : DistinctEntries entries) :
    (Value.table entries).Distinct :=
  .table h.keys h.values

theorem distinctEntries_of_table {entries : List (String × Value)}
    (h : (Value.table entries).Distinct) : DistinctEntries entries := by
  cases h with
  | table keys values => exact ⟨keys, values⟩

theorem distinct_toValue {part : Draft} (h : part.Distinct) : part.toValue.Distinct := by
  induction h with
  | closed h => exact h
  | table keys _ ih => exact (distinct_finish keys ih).table
  | tables keys _ keysBefore _ ih ihBefore =>
      rw [Draft.toValue, finishAll_eq]
      refine .array fun item hitem => ?_
      rcases List.mem_append.mp hitem with hitem | hitem
      · obtain ⟨entries, hentries, rfl⟩ := List.mem_map.mp hitem
        rw [List.mem_reverse] at hentries
        exact (distinct_finish (keysBefore entries hentries) (ihBefore entries hentries)).table
      · rw [List.mem_singleton.mp hitem]
        exact (distinct_finish keys ih).table

/-- The keys of every table that statements make differ. -/
theorem distinct_build {d : Dialect} {statements : List Statement}
    (hall : ∀ s ∈ statements, s.Distinct) {entries : List (String × Value)}
    (built : build d statements = some entries) : DistinctEntries entries := by
  obtain ⟨p, hp, same⟩ := Option.bind_eq_some_iff.mp built
  cases same
  have parts : p.entries.Distinct := distinct_foldlM hall Entries.distinct_nil hp
  exact distinct_finish parts.keys fun e he => distinct_toValue (parts.parts e he)

/-! ### Reading -/

/-- What a word stands for is no table. -/
theorem distinct_readWord? {d : Dialect} {cs : List Char} {value : Value}
    (h : readWord? d cs = some value) : value.Distinct := by
  unfold readWord? at h
  split at h
  · cases h
    exact .boolean true
  · cases h
    exact .boolean false
  · simp only [Option.orElse_eq_orElse, Option.orElse_eq_or, Option.or_eq_some_iff,
      Option.map_eq_map, Option.map_eq_some_iff] at h
    rcases h with ⟨date, -, rfl⟩ | ⟨-, ⟨n, -, rfl⟩ | ⟨-, x, -, rfl⟩⟩
    · exact .datetime date
    · exact .integer n
    · exact .float x

section Within

/-- In what the readers of values get with some fuel, the keys of every table differ. -/
structure ReadsDistinct (d : Dialect) (fuel : Nat) : Prop where
  value : ∀ {depth cs v rest}, readValueWithin? d fuel depth cs = some (v, rest) → v.Distinct
  items : ∀ {depth cs items rest}, readItems? d fuel depth cs = some (items, rest) →
    ∀ item ∈ items, item.Distinct
  assignments : ∀ {depth cs statements rest},
    readAssignments? d fuel depth cs = some (statements, rest) → ∀ s ∈ statements, s.Distinct

variable {d : Dialect} {fuel depth : Nat} {cs rest : List Char}

theorem ReadsDistinct.value_succ (reads : ReadsDistinct d fuel) {value : Value}
    (h : readValueWithin? d (fuel + 1) depth cs = some (value, rest)) : value.Distinct := by
  unfold readValueWithin? at h
  split at h
  · split at h
    · cases h
    · simp only [Option.bind_eq_bind, Option.bind_eq_some_iff, Prod.exists] at h
      obtain ⟨front, -, items, rest', hitems, same⟩ := h
      cases same
      exact .array (reads.items hitems)
  · split at h
    · cases h
    · simp only [Option.bind_eq_bind, Option.bind_eq_some_iff] at h
      obtain ⟨front, -, h⟩ := h
      split at h
      · cases h
        exact .table (by simp) (by simp)
      · simp only [Option.bind_eq_some_iff, Prod.exists] at h
        obtain ⟨statements, rest', hstatements, entries, built, same⟩ := h
        cases same
        exact (distinct_build (reads.assignments hstatements) built).table
  iterate 2
    · simp only [Option.bind_eq_bind, Option.bind_eq_some_iff, Prod.exists] at h
      obtain ⟨s, rest', -, same⟩ := h
      cases same
      exact .text s
  · simp only [Option.bind_eq_bind, Option.bind_eq_some_iff] at h
    obtain ⟨value', hvalue, same⟩ := h
    cases same
    exact distinct_readWord? hvalue

theorem ReadsDistinct.items_succ (reads : ReadsDistinct d fuel) {items : List Value}
    (h : readItems? d (fuel + 1) depth cs = some (items, rest)) :
    ∀ item ∈ items, item.Distinct := by
  unfold readItems? at h
  split at h
  · cases h
    simp
  · simp only [Option.bind_eq_bind, Option.bind_eq_some_iff, Prod.exists] at h
    obtain ⟨item, front, hitem, front', -, h⟩ := h
    split at h
    · simp only [Option.bind_eq_some_iff, Prod.exists] at h
      obtain ⟨front, -, items', rest', hitems, same⟩ := h
      cases same
      exact List.forall_mem_cons.mpr ⟨reads.value hitem, reads.items hitems⟩
    · cases h
      simpa using reads.value hitem
    · cases h

theorem ReadsDistinct.assignments_succ (reads : ReadsDistinct d fuel) {statements : List Statement}
    (h : readAssignments? d (fuel + 1) depth cs = some (statements, rest)) :
    ∀ s ∈ statements, s.Distinct := by
  unfold readAssignments? at h
  simp only [Option.bind_eq_bind, Option.bind_eq_some_iff, Prod.exists] at h
  obtain ⟨key, _, -, _, -, _, -, _, -, value, _, hvalue, _, -, h⟩ := h
  have one : (Statement.assign key value).Distinct := reads.value hvalue
  split at h
  · cases h
    simpa using one
  · simp only [Option.bind_eq_some_iff] at h
    obtain ⟨front, -, h⟩ := h
    split at h
    · cases h
      simpa using one
    · simp only [Option.bind_eq_some_iff, Prod.exists] at h
      obtain ⟨statements', rest', hstatements, same⟩ := h
      cases same
      exact List.forall_mem_cons.mpr ⟨one, reads.assignments hstatements⟩
  · cases h

/-- The readers of values call each other with less fuel. -/
theorem readsDistinct (d : Dialect) (fuel : Nat) : ReadsDistinct d fuel := by
  induction fuel with
  | zero => constructor <;> simp [readValueWithin?, readItems?, readAssignments?]
  | succ fuel ih => exact ⟨ih.value_succ, ih.items_succ, ih.assignments_succ⟩

theorem distinct_readStatement? {statement : Statement}
    (h : readStatement? d cs = some (statement, rest)) : statement.Distinct := by
  unfold readStatement? at h
  split at h
  · simp only [Option.bind_eq_bind, Option.bind_eq_some_iff, Prod.exists] at h
    obtain ⟨key, _, -, _, -, _, -, _, -, same⟩ := h
    cases same
    trivial
  · simp only [Option.bind_eq_bind, Option.bind_eq_some_iff, Prod.exists] at h
    obtain ⟨key, _, -, _, -, _, -, same⟩ := h
    cases same
    trivial
  · simp only [Option.bind_eq_bind, Option.bind_eq_some_iff, Prod.exists] at h
    obtain ⟨key, _, -, _, -, value, _, hvalue, _, -, same⟩ := h
    cases same
    exact (readsDistinct d _).value hvalue

theorem distinct_readStatementsWithin? {bound : Nat} {statements : List Statement}
    (h : readStatementsWithin? d bound cs = some statements) : ∀ s ∈ statements, s.Distinct := by
  induction bound generalizing cs statements with
  | zero => simp [readStatementsWithin?] at h
  | succ bound ih =>
      unfold readStatementsWithin? at h
      simp only [Option.bind_eq_bind, Option.bind_eq_some_iff] at h
      obtain ⟨front, -, h⟩ := h
      split at h
      · cases h
        simp
      · simp only [Option.bind_eq_some_iff, Prod.exists] at h
        obtain ⟨statement, rest, hstatement, others, hothers, same⟩ := h
        cases same
        exact List.forall_mem_cons.mpr ⟨distinct_readStatement? hstatement, ih hothers⟩

end Within

/-- **The keys of every table of a document differ.** -/
theorem distinct_parse? {d : Dialect} {s : String} {entries : List (String × Value)}
    (h : parse? d s = some entries) : DistinctEntries entries := by
  obtain ⟨statements, read, built⟩ := Option.bind_eq_some_iff.mp h
  exact distinct_build (distinct_readStatementsWithin? read) built

end Mqtt.Toml

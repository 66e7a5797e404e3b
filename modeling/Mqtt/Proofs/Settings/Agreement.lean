import Mqtt.Proofs.Settings.Addresses
import Mqtt.Proofs.Settings.References
import Mqtt.Proofs.Settings.Sources
import Mqtt.Proofs.Wire.Field

/-!
# The two readers of settings agree

Settings are read strictly from a text alone, and leniently from a file that is laid over the
defaults. What the strict reader makes of a text, the lenient one makes of it too, as long as the
text refers to no variables, no variable overrides a setting, and the text is a document for both
readers. The two may differ in the line ends of text, but a text that means something as a setting
has none. This holds with every lawful library, so with the two dialects of TOML.
-/
namespace Mqtt.Settings

open Toml (Value SameString inside?)

/-! ### Text without line ends -/

/-- Text that holds no line end is the same wherever it is read. -/
theorem eq_of_sameString {s t : String} (h : SameString s t) (oneLine : '\n' ∉ s.toList) :
    t = s := by
  rcases h with same | ⟨ends, -⟩
  · exact (String.toList_inj.mp same).symm
  · exact absurd ends oneLine

/-- The name of a level holds no line end. -/
theorem not_mem_of_level? {s : Settings} (h : s.level?.isSome) : '\n' ∉ s.logLevel.toList := by
  intro ends
  obtain ⟨level, hlevel⟩ := Option.isSome_iff_exists.mp h
  have named : level.name = s.logLevel.toLower := by
    simpa using List.find?_some hlevel
  have folded : s.logLevel.toLower.toList = s.logLevel.toList.map Char.toLower :=
    String.toList_map
  have lower : '\n' ∈ level.name.toList := by
    rw [named, folded]
    exact List.mem_map.mpr ⟨'\n', ends, by decide⟩
  have plain : '\n' ∉ level.name.toList := by
    cases level <;> decide
  exact plain lower

theorem not_mem_of_read? {s : String} {address : SocketAddress}
    (h : SocketAddress.read? s = some address) : '\n' ∉ s.toList := by
  intro ends
  have := SocketAddress.isAddressChar_of_read? h ends
  revert this
  decide

/-- No reference starts in a text that never has a dollar before an opening brace. -/
theorem clear_of_no_start {cs : List Char} (h : ¬ ['$', '\x7b'] <:+: cs) :
    Reference.Clear cs [] := by
  rintro a b rfl - ⟨written, r, rest, hwritten, same⟩
  apply h
  rw [List.append_nil] at same
  subst same
  cases hwritten with
  | @bare name => exact ⟨a, name ++ '\x7d' :: rest, by simp⟩
  | @withFallback name fallback =>
      exact ⟨a, name ++ ':' :: '-' :: (fallback ++ '\x7d' :: rest), by simp⟩

namespace LawfulLibrary

variable {L : LawfulLibrary}

/-! ### Each setting -/

section Documents

variable {α : Type} {entries layer : Layer}

/-- In a document with sections a setting is read where it stands, or it has its default. -/
theorem entry?_of_sectioned (sections : Sectioned entries) (read : Value → Option α) (default : α)
    (slot : Slot) :
    entry? L.strict read default entries slot.group slot.key =
      match inside? entries slot.group slot.key with
      | none => some default
      | some v => read v := by
  unfold entry? inside?
  cases hv : entries.lookup slot.group with
  | none => rfl
  | some v =>
      obtain ⟨inner, rfl⟩ := sections.tables slot v hv
      simp only [L.strict_under?, Option.bind_some, Value.entries]
      cases inner.lookup slot.key <;> rfl

/-- **A setting that the strict reader reads is read leniently too**, if that holds of its default
and of what stands in both documents. -/
theorem read_chosen {strict lenient : Value → Option α} {slot : Slot} {a default : α}
    (sections : Sectioned entries) (kept : Kept entries layer)
    (initial_eq : lenient slot.initial = some default)
    (agrees : ∀ v, inside? entries slot.group slot.key = some v → strict v = some a →
      ∃ w, inside? layer slot.group slot.key = some w ∧ lenient w = some a)
    (read : entry? L.strict strict default entries slot.group slot.key = some a) :
    lenient (L.chosen [] layer slot) = some a := by
  have chosen_eq : L.chosen [] layer slot =
      (inside? layer slot.group slot.key).getD slot.initial := rfl
  rw [entry?_of_sectioned sections] at read
  rw [chosen_eq]
  cases found : inside? entries slot.group slot.key with
  | none =>
      rw [found] at read
      rw [kept.absent slot found, Option.getD_none, initial_eq]
      exact read
  | some v =>
      rw [found] at read
      obtain ⟨w, hw, same⟩ := agrees v found read
      rw [hw, Option.getD_some, same]

/-- What text means is the same for both readers, if what means it is on one line. -/
theorem text?_agrees (L : LawfulLibrary) (kept : Kept entries layer) (slot : Slot)
    {f : String → Option α} {a : α} (oneLine : ∀ s, f s = some a → '\n' ∉ s.toList) (v : Value)
    (found : inside? entries slot.group slot.key = some v)
    (strict : (L.strict.text? v).bind f = some a) :
    ∃ w, inside? layer slot.group slot.key = some w ∧ (L.lenient.text? w).bind f = some a := by
  obtain ⟨s, hs, means⟩ := Option.bind_eq_some_iff.mp strict
  cases L.eq_text hs
  obtain ⟨t, ht, same⟩ := kept.text slot s found
  cases eq_of_sameString same (oneLine s means)
  refine ⟨.text s, ht, ?_⟩
  rw [L.lenient_text, Option.bind_some, means]

/-- A number is the same for both readers. -/
theorem count?_agrees (L : LawfulLibrary) (kept : Kept entries layer) (slot : Slot) {n : Nat}
    (v : Value) (found : inside? entries slot.group slot.key = some v)
    (strict : L.strict.count? v = some n) :
    ∃ w, inside? layer slot.group slot.key = some w ∧ L.lenient.count? w = some n := by
  cases L.eq_integer strict
  exact ⟨.integer n, kept.integer slot n found, L.lenient_integer n⟩

end Documents

/-! ### Both readers -/

/-- What the strict reader makes of a text is read from a document and passes the check. -/
theorem exists_of_parse {text : String} {s : Settings} (h : L.parse text = .ok s) :
    ∃ entries, L.strictDocument? text = some entries ∧ ofTable? L.strict entries = some s
      ∧ s.level?.isSome ∧ s.maxRemainingLength ≤ Varint.maximum := by
  rw [Library.parse] at h
  obtain ⟨read, checked⟩ := validated_or_error_eq_ok_iff.mp h
  obtain ⟨entries, document, made⟩ := Option.bind_eq_some_iff.mp read
  exact ⟨entries, document, made, checked⟩

/-- The file of a text without references sets what its document sets, whatever the environment
is. -/
theorem fileLayer_of_plain {b : Bytes} {text : String} (hb : b.text? = some text)
    (plainText : ¬ ['$', '\x7b'] <:+: text.toList) {layer : Layer}
    (document : L.document? text = some layer) (env : Environment) :
    L.fileLayer env (.bytes b) = .ok layer := by
  have substituted : substitute env text = text :=
    substitute_of_clear env (clear_of_no_start plainText)
  simp only [Library.fileLayer, hb, substituted, document]

/-- An environment that overrides nothing makes no difference, unless the file refers to it. -/
theorem load_of_unmarked {env : Environment} (unmarked : ∀ v ∈ env, L.path? v.1 = none)
    {file : FileContent} (same : L.fileLayer env file = L.fileLayer [] file) :
    L.load env file = L.load [] file := by
  have nothing : L.environmentLayer env = L.environmentLayer [] := by
    rw [Library.environmentLayer, Library.environmentLayer, List.filterMap_nil,
      List.filterMap_eq_nil_iff]
    intro v hv
    rw [unmarked v hv]
    rfl
  rw [Library.load, Library.load, same, nothing]

end LawfulLibrary

/-- **The two readers of settings agree.** If the strict reader makes settings of a text, a file
with that text makes the same settings, where no variable overrides any. The text refers to no
variables, its keys are bare where they name a section, the sections of the settings are tables, and
the reader of files takes the text for a document too. -/
theorem load_of_parse {L : LawfulLibrary} {env : Environment}
    (unmarked : ∀ v ∈ env, L.path? v.1 = none) {b : Bytes} {text : String}
    (hb : b.text? = some text) (plainText : ¬ ['$', '\x7b'] <:+: text.toList)
    (sections : ∀ entries, L.strictDocument? text = some entries → Sectioned entries)
    (accepted : (L.document? text).isSome) {s : Settings} (parsed : L.parse text = .ok s) :
    L.load env (.bytes b) = .ok s := by
  obtain ⟨entries, document, made, level, bounded⟩ := LawfulLibrary.exists_of_parse parsed
  obtain ⟨layer, document'⟩ := Option.isSome_iff_exists.mp accepted
  have sectioned := sections entries document
  have kept := L.kept document document' sectioned
  have readable := LawfulLibrary.fileLayer_of_plain hb plainText document'
  rw [LawfulLibrary.load_of_unmarked unmarked ((readable env).trans (readable []).symm)]
  refine (LawfulLibrary.load_eq_ok_iff (readable []) kept.sections .nil).mpr ?_
  simp only [ofTable?, Option.bind_eq_bind, Option.bind_eq_some_iff] at made
  obtain ⟨logLevel, hlevel, limit, hlimit, bind, hbind, same⟩ := made
  cases same
  refine ⟨?_, ?_, ?_, level, bounded⟩
  · have oneLine : ∀ s, some s = some logLevel → '\n' ∉ s.toList := by
      intro s same
      cases same
      exact not_mem_of_level? level
    have agrees := L.text?_agrees kept .level oneLine
    simp only [Option.bind_fun_some] at agrees
    exact LawfulLibrary.read_chosen sectioned kept (L.lenient_text _) agrees hlevel
  · exact LawfulLibrary.read_chosen sectioned kept (L.lenient_integer _)
      (L.count?_agrees kept .limit) hlimit
  · have initial_eq :
        (L.lenient.text? Slot.address.initial).bind SocketAddress.read? = some initial.bind := by
      have reads : SocketAddress.read? initial.bind.describe = some initial.bind := by
        decide +kernel
      rw [Slot.initial, L.lenient_text, Option.bind_some, reads]
    have oneLine : ∀ s, SocketAddress.read? s = some bind → '\n' ∉ s.toList :=
      fun s hs => not_mem_of_read? hs
    exact LawfulLibrary.read_chosen sectioned kept initial_eq
      (L.text?_agrees kept .address oneLine) hbind

/-- The two documents of this run differ in a note on two lines, which is no setting. -/
theorem load_note :
    let text := "[log]\nlevel = \"WARN\"\nnote = \"\"\"a\r\nb\"\"\"\n[listen]\nbind = \"[::1]:7\"\n"
    let settings : Settings := { logLevel := "WARN", bind := .v6 #v[0, 0, 0, 0, 0, 0, 0, 1] 0 7 }
    parse text = .ok settings
      ∧ load [("HOME", "/")] (.bytes (Bytes.ofText text)) = .ok settings := by
  intro text settings
  have document : LawfulLibrary.toml.strictDocument? text =
      some [("log", .table [("level", .text "WARN"), ("note", .text "a\nb")]),
        ("listen", .table [("bind", .text "[::1]:7")])] := by decide +kernel
  have parsed : LawfulLibrary.toml.parse text = .ok settings := by
    rw [Library.parse, document]
    decide +kernel
  have sections : ∀ entries, LawfulLibrary.toml.strictDocument? text = some entries →
      Sectioned entries := by
    intro entries h
    cases document.symm.trans h
    exact sectioned_of_tables (by decide) (by simp)
  have unmarked : ∀ v ∈ [("HOME", "/")], LawfulLibrary.toml.path? v.1 = none := by
    intro v hv
    cases List.mem_singleton.mp hv
    decide +kernel
  have plainText : ¬ ['$', '\x7b'] <:+: text.toList := by
    have free : text.toList.contains '$' = false := by decide +kernel
    intro starts
    have dollar := starts.subset (List.mem_cons_self ..)
    rw [← List.contains_iff_mem, free] at dollar
    cases dollar
  have accepted : (LawfulLibrary.toml.document? text).isSome := by decide +kernel
  have hb : (Bytes.ofText text).text? = some text := Bytes.text?_eq_some_iff.mpr rfl
  exact ⟨parsed, load_of_parse unmarked hb plainText sections accepted parsed⟩

end Mqtt.Settings

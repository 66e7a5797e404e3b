import Mathlib.Data.List.Forall2
import Mqtt.Proofs.Toml.Keys
import Mqtt.Proofs.Toml.Wider

/-!
# Documents that are alike

Documents may be the same but for the line ends of text. Statements that are alike make documents
that are alike, and a wider dialect allows all statements that a narrower one allows. Entries match
if they have the same keys with related values; lookups and changes are compared once for all
relations, for finished values and for parts in the making.
-/
namespace Mqtt.Toml

/-! ### Entries that match -/

/-- Entries with the same keys, whose values are related. -/
structure Matching {α β : Type} (R : α → β → Prop) (entries : List (String × α))
    (entries' : List (String × β)) : Prop where
  keys : ∀ key, (entries.lookup key).isSome = (entries'.lookup key).isSome
  each : ∀ key a b, entries.lookup key = some a → entries'.lookup key = some b → R a b

namespace Matching

variable {α β : Type} {R : α → β → Prop} {entries : List (String × α)}
  {entries' : List (String × β)}

theorem nil : Matching R ([] : List (String × α)) [] :=
  ⟨fun _ => rfl, fun _ _ _ h => nomatch h⟩

theorem lookup (h : Matching R entries entries') (key : String) :
    entries.lookup key = none ∧ entries'.lookup key = none
      ∨ ∃ a b, entries.lookup key = some a ∧ entries'.lookup key = some b ∧ R a b := by
  have keys := h.keys key
  cases ha : entries.lookup key with
  | none =>
      rw [ha] at keys
      exact .inl ⟨rfl, Option.isNone_iff_eq_none.mp (by simpa using keys.symm)⟩
  | some a =>
      rw [ha] at keys
      obtain ⟨b, hb⟩ := Option.isSome_iff_exists.mp keys.symm
      exact .inr ⟨a, b, rfl, hb, h.each key a b ha hb⟩

theorem put (h : Matching R entries entries') (key : String) {a : α} {b : β} (hab : R a b) :
    Matching R (put key a entries) (put key b entries') := by
  constructor
  · intro name
    by_cases same : name = key
    · rw [same, lookup_put_self, lookup_put_self]
      rfl
    · rw [lookup_put_of_ne same, lookup_put_of_ne same]
      exact h.keys name
  · intro name a' b' ha hb
    by_cases same : name = key
    · rw [same, lookup_put_self] at ha hb
      cases ha
      cases hb
      exact hab
    · rw [lookup_put_of_ne same] at ha hb
      exact h.each name a' b' ha hb

end Matching

/-! ### Values that are alike -/

/-- Values that are the same but for the line ends of text. -/
inductive Value.Alike : Value → Value → Prop
  | same (v : Value) : Alike v v
  | text {s t : String} (h : SameString s t) : Alike (.text s) (.text t)
  | array {items items' : List Value} (count : items.length = items'.length)
      (each : ∀ p ∈ items.zip items', Alike p.1 p.2) : Alike (.array items) (.array items')
  | table {entries entries' : List (String × Value)}
      (keys : ∀ key, (entries.lookup key).isSome = (entries'.lookup key).isSome)
      (each : ∀ key a b, entries.lookup key = some a → entries'.lookup key = some b → Alike a b) :
      Alike (.table entries) (.table entries')

theorem Matching.alike {entries entries' : List (String × Value)}
    (h : Matching Value.Alike entries entries') : (Value.table entries).Alike (.table entries') :=
  .table h.keys h.each

/-- What is like a table is a table that matches it. -/
theorem Value.Alike.exists_table {entries : List (String × Value)} {v : Value}
    (h : (Value.table entries).Alike v) :
    ∃ entries', v = .table entries' ∧ Matching Value.Alike entries entries' := by
  cases h with
  | same =>
      refine ⟨entries, rfl, fun _ => rfl, fun _ a b ha hb => ?_⟩
      cases ha.symm.trans hb
      exact .same a
  | @table _ entries' keys each => exact ⟨entries', rfl, keys, each⟩

theorem Value.alike_array {items items' : List Value} (h : List.Forall₂ Alike items items') :
    (Value.array items).Alike (.array items') := by
  obtain ⟨count, each⟩ := List.forall₂_iff_zip.mp h
  exact .array count fun _ hp => each hp

/-- Relations that compose do so along lists. -/
theorem forall₂_comp {α β γ : Type} {P : α → β → Prop} {Q : β → γ → Prop} {R : α → γ → Prop}
    (compose : ∀ a b c, P a b → Q b c → R a c) {as : List α} {bs : List β} {cs : List γ}
    (h : List.Forall₂ P as bs) (h' : List.Forall₂ Q bs cs) : List.Forall₂ R as cs := by
  induction h generalizing cs with
  | nil =>
      cases h'
      exact .nil
  | cons hab _ ih =>
      cases h' with
      | cons hbc rest => exact .cons (compose _ _ _ hab hbc) (ih rest)

theorem Value.Alike.symm {v w : Value} (h : v.Alike w) : w.Alike v := by
  induction h with
  | same v => exact .same v
  | text h => exact .text (SameText.symm h)
  | array count _ ih =>
      have backwards := List.forall₂_iff_zip.mpr ⟨count, fun {_ _} hp => ih _ hp⟩
      exact alike_array backwards.flip
  | table keys _ ih =>
      exact .table (fun key => (keys key).symm) fun key a b ha hb => ih key b a hb ha

theorem Value.Alike.trans {u v w : Value} (h : u.Alike v) (h' : v.Alike w) : u.Alike w := by
  induction h generalizing w with
  | same => exact h'
  | text h =>
      cases h' with
      | same => exact .text h
      | text h' => exact .text (SameText.trans h h')
  | @array items items' count each ih =>
      cases h' with
      | same => exact .array count each
      | @array _ items'' count' each' =>
          have links : List.Forall₂ (fun u v => ∀ w, v.Alike w → u.Alike w) items items' :=
            List.forall₂_iff_zip.mpr ⟨count, fun {u v} hp w h' => ih (u, v) hp h'⟩
          have links' : List.Forall₂ Alike items' items'' :=
            List.forall₂_iff_zip.mpr ⟨count', fun {v w} hp => each' (v, w) hp⟩
          exact alike_array (forall₂_comp (fun u v w h h' => h w h') links links')
  | @table entries entries' keys each ih =>
      cases h' with
      | same => exact .table keys each
      | table keys' each' =>
          refine .table (fun key => (keys key).trans (keys' key)) fun key a c ha hc => ?_
          have present : (entries'.lookup key).isSome := by
            rw [← keys key, ha]
            rfl
          obtain ⟨b, hb⟩ := Option.isSome_iff_exists.mp present
          exact ih key a b ha hb (each' key b c hb hc)

/-- Parts of documents that are the same but for the line ends of text. -/
inductive Draft.Alike : Draft → Draft → Prop
  | closed {v v' : Value} (h : v.Alike v') : Alike (.closed v) (.closed v')
  | table {origin : Origin} {entries entries' : Entries}
      (keys : ∀ key, (entries.lookup key).isSome = (entries'.lookup key).isSome)
      (each : ∀ key a b, entries.lookup key = some a → entries'.lookup key = some b → Alike a b) :
      Alike (.table origin entries) (.table origin entries')
  | tables {latest latest' : Entries} {before before' : List Entries}
      (keys : ∀ key, (latest.lookup key).isSome = (latest'.lookup key).isSome)
      (each : ∀ key a b, latest.lookup key = some a → latest'.lookup key = some b → Alike a b)
      (count : before.length = before'.length)
      (keysBefore : ∀ p ∈ before.zip before', ∀ key,
        (p.1.lookup key).isSome = (p.2.lookup key).isSome)
      (eachBefore : ∀ p ∈ before.zip before', ∀ key a b, p.1.lookup key = some a →
        p.2.lookup key = some b → Alike a b) :
      Alike (.tables latest before) (.tables latest' before')

/-- Statements that do the same but for the line ends of text. -/
inductive Statement.Alike : Statement → Statement → Prop
  | header (key : Key) : Alike (.header key) (.header key)
  | element (key : Key) : Alike (.element key) (.element key)
  | assign (key : Key) {v v' : Value} (h : v.Alike v') : Alike (.assign key v) (.assign key v')

section Drafts

variable {entries entries' : Entries}

theorem lookup_finish (entries : Entries) (key : String) :
    (finish entries).lookup key = (entries.lookup key).map Draft.toValue := by
  rw [finish_eq, lookup_map_values]

/-- The tables of parts whose values are alike match. -/
theorem matching_finish (h : Matching (fun a b => a.toValue.Alike b.toValue) entries entries') :
    Matching Value.Alike (finish entries) (finish entries') := by
  constructor
  · intro key
    rw [lookup_finish, lookup_finish, Option.isSome_map, Option.isSome_map]
    exact h.keys key
  · intro key a b ha hb
    rw [lookup_finish] at ha hb
    obtain ⟨part, hpart, rfl⟩ := Option.map_eq_some_iff.mp ha
    obtain ⟨part', hpart', rfl⟩ := Option.map_eq_some_iff.mp hb
    exact h.each key part part' hpart hpart'

theorem Draft.Alike.toValue {a b : Draft} (h : a.Alike b) : a.toValue.Alike b.toValue := by
  induction h with
  | closed h => exact h
  | table keys _ ih => exact (matching_finish ⟨keys, ih⟩).alike
  | @tables latest latest' before before' keys _ count keysBefore _ ih ihBefore =>
      rw [Draft.toValue, Draft.toValue, finishAll_eq, finishAll_eq]
      apply Value.alike_array
      have open_alike := (matching_finish ⟨keys, ih⟩).alike
      have earlier : List.Forall₂ (fun a b => (Value.table (finish a)).Alike (.table (finish b)))
          before before' := by
        refine List.forall₂_iff_zip.mpr ⟨count, ?_⟩
        intro a b hab
        exact (matching_finish ⟨keysBefore _ hab, ihBefore _ hab⟩).alike
      refine List.rel_append ?_ (.cons open_alike .nil)
      rw [List.forall₂_map_left_iff, List.forall₂_map_right_iff, List.forall₂_reverse_iff]
      exact earlier

theorem Matching.finish (h : Matching Draft.Alike entries entries') :
    Matching Value.Alike (finish entries) (finish entries') :=
  matching_finish ⟨h.keys, fun key a b ha hb => (h.each key a b ha hb).toValue⟩

theorem Matching.draft (origin : Origin) (h : Matching Draft.Alike entries entries') :
    (Draft.table origin entries).Alike (.table origin entries') :=
  .table h.keys h.each

end Drafts

/-! ### Statements that are alike -/

section Statements

variable {d e : Dialect} {entries entries' : Entries}

theorem addNew_follows {part part' : Draft} (hpart : part.Alike part') (key : String)
    (h : Matching Draft.Alike entries entries') :
    Follows (Matching Draft.Alike) (addNew key part entries) (addNew key part' entries') := by
  unfold addNew
  rcases h.lookup key with ⟨ha, hb⟩ | ⟨a, b, ha, hb, -⟩
  · rw [ha, hb]
    exact .some (h.put key hpart)
  · rw [ha]
    exact .none _

/-- What follows in the table of a header follows in the document. -/
theorem underHeader_follows {f g : Entries → Option Entries}
    (hfg : ∀ {a b : Entries}, Matching Draft.Alike a b → Follows (Matching Draft.Alike) (f a) (g b))
    (path : List String) (h : Matching Draft.Alike entries entries') :
    Follows (Matching Draft.Alike) (underHeader f path entries) (underHeader g path entries') := by
  induction path generalizing entries entries' with
  | nil => exact hfg h
  | cons key path ih =>
      rw [underHeader, underHeader]
      rcases h.lookup key with ⟨ha, hb⟩ | ⟨a, b, ha, hb, alike⟩
      · rw [ha, hb]
        exact (ih .nil).bind fun a b inner => .some (h.put key (inner.draft _))
      · rw [ha, hb]
        cases alike with
        | closed => exact .none _
        | table keys each =>
            exact (ih ⟨keys, each⟩).bind fun a b inner => .some (h.put key (inner.draft _))
        | tables keys each count keysBefore eachBefore =>
            refine (ih ⟨keys, each⟩).bind fun a b inner => .some (h.put key ?_)
            exact .tables inner.keys inner.each count keysBefore eachBefore

theorem Origin.isOpen_of_within (h : d.Within e) {origin : Origin} (isOpen : origin.isOpen d) :
    origin.isOpen e := by
  cases origin with
  | header => exact isOpen
  | implied => exact h.extendsImplied isOpen
  | dotted => rfl

theorem assignDotted_follows (h : d.Within e) {v v' : Value} (hv : v.Alike v') (last : String)
    (path : List String) (hentries : Matching Draft.Alike entries entries') :
    Follows (Matching Draft.Alike) (assignDotted d last v path entries)
      (assignDotted e last v' path entries') := by
  have new : Draft.Alike (.closed v) (.closed v') := .closed hv
  induction path generalizing entries entries' with
  | nil => exact addNew_follows new last hentries
  | cons key path ih =>
      cases path with
      | nil =>
          rw [assignDotted, assignDotted]
          rcases hentries.lookup key with ⟨ha, hb⟩ | ⟨a, b, ha, hb, alike⟩
          · rw [ha, hb]
            have inner := Matching.put (R := Draft.Alike) .nil last new
            exact .some (hentries.put key (inner.draft _))
          · rw [ha, hb]
            cases alike with
            | closed => exact .none _
            | tables => exact .none _
            | @table origin _ _ keys each =>
                dsimp only
                split
                · next isOpen =>
                  rw [if_pos (Origin.isOpen_of_within h isOpen)]
                  refine (addNew_follows new last ⟨keys, each⟩).bind fun a b inner => ?_
                  exact .some (hentries.put key (inner.draft _))
                · exact .none _
      | cons next path =>
          unfold assignDotted
          rcases hentries.lookup key with ⟨ha, hb⟩ | ⟨a, b, ha, hb, alike⟩
          · rw [ha, hb]
            exact (ih .nil).bind fun a b inner => .some (hentries.put key (inner.draft _))
          · rw [ha, hb]
            cases alike with
            | closed => exact .none _
            | @table origin _ _ keys each =>
                cases origin with
                | header => exact .none _
                | implied =>
                    exact (ih ⟨keys, each⟩).bind fun a b inner =>
                      .some (hentries.put key (inner.draft _))
                | dotted =>
                    exact (ih ⟨keys, each⟩).bind fun a b inner =>
                      .some (hentries.put key (inner.draft _))
            | tables keys each count keysBefore eachBefore =>
                refine (ih ⟨keys, each⟩).bind fun a b inner => .some (hentries.put key ?_)
                exact .tables inner.keys inner.each count keysBefore eachBefore

theorem openTable_follows (key : String) (h : Matching Draft.Alike entries entries') :
    Follows (Matching Draft.Alike) (openTable key entries) (openTable key entries') := by
  unfold openTable
  rcases h.lookup key with ⟨ha, hb⟩ | ⟨a, b, ha, hb, alike⟩
  · rw [ha, hb]
    exact .some (h.put key (Matching.nil.draft _))
  · rw [ha, hb]
    cases alike with
    | closed => exact .none _
    | tables => exact .none _
    | @table origin _ _ keys each =>
        cases origin with
        | header => exact .none _
        | implied => exact .some (h.put key (.table keys each))
        | dotted => exact .none _

theorem openElement_follows (key : String) (h : Matching Draft.Alike entries entries') :
    Follows (Matching Draft.Alike) (openElement key entries) (openElement key entries') := by
  unfold openElement
  rcases h.lookup key with ⟨ha, hb⟩ | ⟨a, b, ha, hb, alike⟩
  · rw [ha, hb]
    exact .some (h.put key (.tables (by simp) (by simp) rfl (by simp) (by simp)))
  · rw [ha, hb]
    cases alike with
    | closed => exact .none _
    | table => exact .none _
    | tables keys each count keysBefore eachBefore =>
        refine .some (h.put key (.tables (by simp) (by simp) (by simp [count]) ?_ ?_))
        · rw [List.zip_cons_cons]
          exact List.forall_mem_cons.mpr ⟨keys, keysBefore⟩
        · rw [List.zip_cons_cons]
          exact List.forall_mem_cons.mpr ⟨each, eachBefore⟩

/-- Documents in the making that are the same but for the line ends of text. -/
def Progress.Alike (p p' : Progress) : Prop :=
  Matching Draft.Alike p.entries p'.entries ∧ p.current = p'.current

/-- **A statement does the same in the wider dialect.** -/
theorem Progress.add_follows (h : d.Within e) {p p' : Progress} (hp : p.Alike p')
    {s s' : Statement} (hs : s.Alike s') : Follows Progress.Alike (p.add d s) (p'.add e s') := by
  obtain ⟨matching, current⟩ := hp
  cases hs with
  | header key =>
      refine (underHeader_follows (openTable_follows key.last) _ matching).bind fun a b made => ?_
      exact .some ⟨made, rfl⟩
  | element key =>
      refine (underHeader_follows (openElement_follows key.last) _ matching).bind fun a b made => ?_
      exact .some ⟨made, rfl⟩
  | assign key hv =>
      rw [Progress.add, Progress.add, current]
      refine (underHeader_follows (assignDotted_follows h hv _ _) _ matching).bind ?_
      intro a b made
      exact .some ⟨made, rfl⟩

/-- **Statements that are alike make documents that are alike.** -/
theorem build_follows (h : d.Within e) {statements statements' : List Statement}
    (alike : List.Forall₂ Statement.Alike statements statements') :
    Follows (Matching Value.Alike) (build d statements) (build e statements') := by
  have run {p p' : Progress} (hp : p.Alike p') :
      Follows Progress.Alike (statements.foldlM (Progress.add d) p)
        (statements'.foldlM (Progress.add e) p') := by
    induction alike generalizing p p' with
    | nil => exact .some hp
    | cons hs _ ih =>
        rw [List.foldlM_cons, List.foldlM_cons]
        exact (Progress.add_follows h hp hs).bind fun a b related => ih related
  exact (run ⟨.nil, rfl⟩).bind fun a b related => .some related.1.finish

end Statements

end Mqtt.Toml

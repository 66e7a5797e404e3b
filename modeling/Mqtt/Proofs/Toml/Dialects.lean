import Mqtt.Proofs.Toml.Alike
import Mqtt.Proofs.Toml.Words

/-!
# A wider dialect reads the same documents

Every document of a dialect is one of each wider dialect too, and is read alike. Any two dialects
have one that is wider than both, so what two dialects both read, they read alike. Values nest, so
they are compared by induction on the fuel of their readers, and then statement by statement.
-/
namespace Mqtt.Toml

/-! ### Reading values alike -/

section Values

variable {d e : Dialect} {fuel : Nat}

theorem readWord?_nil (d : Dialect) : readWord? d [] = none := by
  rfl

/-- No word opens with a line end or a comment. -/
theorem takeWord_of_not_solid {cs : List Char} (h : ¬ Solid cs) : takeWord cs = ([], cs) := by
  rcases not_solid_cases h with rfl | ⟨c, rest, rfl, rfl | rfl | rfl⟩ <;> rfl

theorem readValueWithin?_eq_none (d : Dialect) (fuel depth : Nat) {cs : List Char}
    (h : ¬ Solid cs) : readValueWithin? d fuel depth cs = none := by
  cases fuel with
  | zero => rw [readValueWithin?]
  | succ fuel =>
      have word : takeWord cs = ([], cs) := takeWord_of_not_solid h
      rw [readValueWithin?, word]
      · dsimp only
        rw [readWord?_nil]
        rfl
      all_goals
        rintro rest rfl
        exact h (solid_cons (by decide) _)

/-- Without a key there is no assignment. -/
theorem readAssignments?_of_no_key {d : Dialect} {cs : List Char}
    (h : readSimpleKey? d (skipBlanks cs) = none) (fuel depth : Nat) :
    readAssignments? d fuel depth cs = none := by
  have no_key : readKey? d cs = none := by
    unfold readKey?
    cases d.maxDepth with
    | zero => rfl
    | succ bound =>
        rw [readKeys?, h]
        rfl
  cases fuel with
  | zero => rw [readAssignments?]
  | succ fuel =>
      rw [readAssignments?, no_key]
      rfl

theorem readAssignments?_eq_none (d : Dialect) (fuel depth : Nat) {cs : List Char}
    (h : ¬ Solid cs) : readAssignments? d fuel depth cs = none := by
  apply readAssignments?_of_no_key
  rcases not_solid_cases h with rfl | ⟨c, rest, rfl, rfl | rfl | rfl⟩ <;> rfl

/-- What the readers of values get with some fuel is alike. -/
structure ReadsAlike (d e : Dialect) (fuel : Nat) : Prop where
  value : ∀ depth cs, Follows (Beside Value.Alike) (readValueWithin? d fuel depth cs)
    (readValueWithin? e fuel depth cs)
  items : ∀ depth cs, Follows (Beside (List.Forall₂ Value.Alike)) (readItems? d fuel depth cs)
    (readItems? e fuel depth cs)
  assignments : ∀ depth cs, Follows (Beside (List.Forall₂ Statement.Alike))
    (readAssignments? d fuel depth cs) (readAssignments? e fuel depth cs)

theorem ReadsAlike.value_succ (reads : ReadsAlike d e fuel) (h : d.Within e) (depth : Nat)
    (cs : List Char) : Follows (Beside Value.Alike) (readValueWithin? d (fuel + 1) depth cs)
      (readValueWithin? e (fuel + 1) depth cs) := by
  have deeper : e.maxDepth ≤ depth → d.maxDepth ≤ depth := h.maxDepth.trans
  unfold readValueWithin?
  split
  · split
    · exact .none _
    · next shallow =>
      rw [if_neg (mt deeper shallow)]
      refine .bind_same fun front => ?_
      refine (reads.items _ _).bind fun a b beside => ?_
      exact .some ⟨Value.alike_array beside.1, beside.2⟩
  · split
    · exact .none _
    · next shallow =>
      rw [if_neg (mt deeper shallow)]
      refine .skipInTable h _ ?_ ?_
      · intro rest notSolid
        split
        · exact absurd (solid_cons (by decide) _) notSolid
        · rw [readAssignments?_eq_none d fuel _ notSolid]
          rfl
      · intro rest
        split
        · exact .some ⟨.same _, rfl⟩
        · refine (reads.assignments _ _).bind ?_
          rintro ⟨statements, rest⟩ ⟨statements', _⟩ ⟨alike, rfl⟩
          refine (build_follows h alike).bind fun a b matching => ?_
          exact .some ⟨matching.alike, rfl⟩
  · exact (readText?_follows h _).bind fun a b beside => .some ⟨.text beside.1, beside.2⟩
  · exact (readText?_follows h _).bind fun a b beside => .some ⟨.text beside.1, beside.2⟩
  · dsimp only
    refine (readWord?_follows h _).bind fun a b same => ?_
    subst same
    exact .some ⟨.same a, rfl⟩

theorem ReadsAlike.items_succ (reads : ReadsAlike d e fuel) (depth : Nat) (cs : List Char) :
    Follows (Beside (List.Forall₂ Value.Alike)) (readItems? d (fuel + 1) depth cs)
      (readItems? e (fuel + 1) depth cs) := by
  unfold readItems?
  split
  · exact .some ⟨.nil, rfl⟩
  · refine (reads.value _ _).bind ?_
    rintro ⟨item, rest⟩ ⟨item', _⟩ ⟨alike, rfl⟩
    dsimp only
    refine .bind_same fun front => ?_
    split
    · refine .bind_same fun front => (reads.items _ _).bind fun a b beside => ?_
      exact .some ⟨.cons alike beside.1, beside.2⟩
    · exact .some ⟨.cons alike .nil, rfl⟩
    · exact .none _

/-- Behind a comma the table goes on; in the wider dialect it may also end. -/
theorem ReadsAlike.after_comma (reads : ReadsAlike d e fuel) (h : d.Within e) (depth : Nat)
    {one one' : Statement} (alike : one.Alike one') (cs : List Char) :
    Follows (Beside (List.Forall₂ Statement.Alike))
      (do
        match ← skipInTable? d cs, d.wideTables with
        | '\x7d' :: rest, true => return ([one], rest)
        | rest, _ =>
          let (statements, rest) ← readAssignments? d fuel depth rest
          return (one :: statements, rest))
      (do
        match ← skipInTable? e cs, e.wideTables with
        | '\x7d' :: rest, true => return ([one'], rest)
        | rest, _ =>
          let (statements, rest) ← readAssignments? e fuel depth rest
          return (one' :: statements, rest)) := by
  refine .skipInTable h _ ?_ fun front => ?_
  · intro rest notSolid
    split
    · exact absurd (solid_cons (by decide) _) notSolid
    · rw [readAssignments?_eq_none d fuel depth notSolid]
      rfl
  by_cases closes : ∃ rest, front = '\x7d' :: rest
  · -- Only a dialect with wide tables lets a comma stand before the brace.
    obtain ⟨rest, rfl⟩ := closes
    by_cases wide : d.wideTables = true
    · rw [wide, h.wideTables wide]
      exact .some ⟨.cons alike .nil, rfl⟩
    · have no_key : readAssignments? d fuel depth ('\x7d' :: rest) = none :=
        readAssignments?_of_no_key rfl fuel depth
      rw [Bool.eq_false_iff.mpr wide]
      intro a ha
      simp [no_key] at ha
  · split
    · exact absurd ⟨_, rfl⟩ closes
    · split
      · exact absurd ⟨_, rfl⟩ closes
      · refine (reads.assignments _ _).bind fun a b beside => ?_
        exact .some ⟨.cons alike beside.1, beside.2⟩

theorem ReadsAlike.assignments_succ (reads : ReadsAlike d e fuel) (h : d.Within e) (depth : Nat)
    (cs : List Char) : Follows (Beside (List.Forall₂ Statement.Alike))
      (readAssignments? d (fuel + 1) depth cs) (readAssignments? e (fuel + 1) depth cs) := by
  unfold readAssignments?
  refine (readKey?_follows h cs).bind ?_
  rintro ⟨key, rest⟩ _ rfl
  dsimp only
  refine .skipInTable h _ ?_ fun front => .bind_same fun rest => ?_
  · intro rest notSolid
    cases hrest : Front.char? '=' rest with
    | none => rfl
    | some more =>
        rw [char?_eq_some_iff] at hrest
        subst hrest
        exact absurd (solid_cons (by decide) _) notSolid
  refine .skipInTable h _ ?_ fun front => ?_
  · intro rest notSolid
    rw [readValueWithin?_eq_none d fuel depth notSolid]
    rfl
  refine (reads.value _ _).bind ?_
  rintro ⟨value, rest⟩ ⟨value', _⟩ ⟨alike, rfl⟩
  dsimp only
  have one : Statement.Alike (.assign key value) (.assign key value') := .assign key alike
  refine .skipInTable h _ ?_ fun front => ?_
  · intro rest notSolid
    split
    · exact absurd (solid_cons (by decide) _) notSolid
    · exact absurd (solid_cons (by decide) _) notSolid
    · rfl
  split
  · exact .some ⟨.cons one .nil, rfl⟩
  · exact reads.after_comma h depth one _
  · exact .none _

/-- **Values are read alike**, and the items and assignments that they are made of. -/
theorem readsAlike (h : d.Within e) (fuel : Nat) : ReadsAlike d e fuel := by
  induction fuel with
  | zero =>
      constructor <;> intro depth cs
      · rw [readValueWithin?]
        exact .none _
      · rw [readItems?]
        exact .none _
      · rw [readAssignments?]
        exact .none _
  | succ fuel ih => exact ⟨ih.value_succ h, ih.items_succ, ih.assignments_succ h⟩

end Values

/-! ### Reading documents alike -/

section Documents

variable {d e : Dialect}

theorem readStatement?_follows (h : d.Within e) (cs : List Char) :
    Follows (Beside Statement.Alike) (readStatement? d cs) (readStatement? e cs) := by
  unfold readStatement?
  split
  · refine (readKey?_follows h _).bind ?_
    rintro ⟨key, rest⟩ _ rfl
    dsimp only
    refine .bind_same fun _ => .bind_same fun _ => .bind_same fun rest => ?_
    exact .some ⟨.element key, rfl⟩
  · refine (readKey?_follows h _).bind ?_
    rintro ⟨key, rest⟩ _ rfl
    dsimp only
    refine .bind_same fun _ => .bind_same fun rest => ?_
    exact .some ⟨.header key, rfl⟩
  · refine (readKey?_follows h _).bind ?_
    rintro ⟨key, rest⟩ _ rfl
    dsimp only
    refine .bind_same fun _ => ((readsAlike h _).value _ _).bind ?_
    rintro ⟨value, rest⟩ ⟨value', _⟩ ⟨alike, rfl⟩
    dsimp only
    refine .bind_same fun rest => ?_
    exact .some ⟨.assign key alike, rfl⟩

theorem readStatementsWithin?_follows (h : d.Within e) (bound : Nat) (cs : List Char) :
    Follows (List.Forall₂ Statement.Alike) (readStatementsWithin? d bound cs)
      (readStatementsWithin? e bound cs) := by
  induction bound generalizing cs with
  | zero => exact .none _
  | succ bound ih =>
      unfold readStatementsWithin?
      refine .bind_same fun front => ?_
      split
      · exact .some .nil
      · refine (readStatement?_follows h _).bind ?_
        rintro ⟨statement, rest⟩ ⟨statement', _⟩ ⟨alike, rfl⟩
        exact (ih rest).bind fun a b others => .some (.cons alike others)

/-- A wider dialect reads the documents of a narrower one alike. -/
theorem parse?_follows (h : d.Within e) (s : String) :
    Follows (Matching Value.Alike) (parse? d s) (parse? e s) :=
  (readStatementsWithin?_follows h _ _).bind fun _ _ alike => build_follows h alike

/-- **What two dialects both read, they read alike.** A dialect that allows what either of them
allows reads it alike too. -/
theorem matching_of_parse? {s : String} {entries entries' : List (String × Value)}
    (hd : parse? d s = some entries) (he : parse? e s = some entries') :
    Matching Value.Alike entries entries' := by
  obtain ⟨common, hcommon, left⟩ := parse?_follows (Dialect.within_join_left d e) s entries hd
  obtain ⟨_, hcommon', right⟩ := parse?_follows (Dialect.within_join_right d e) s entries' he
  rw [hcommon] at hcommon'
  cases hcommon'
  obtain ⟨_, same, matching⟩ := (left.alike.trans right.alike.symm).exists_table
  cases same
  exact matching

end Documents

end Mqtt.Toml

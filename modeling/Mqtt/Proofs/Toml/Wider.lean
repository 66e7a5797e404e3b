import Mqtt.Toml.Parser

/-!
# Quoted text in a wider dialect

A dialect that allows more reads the quoted text of a narrower one, and reads it as the same, but
for line ends in text over several lines, which a dialect may keep as they are written. One
computation follows another if it gives what goes with each result of it; this composes, so readers
are compared in the steps that they are made of.
-/
namespace Mqtt.Toml

/-! ### Wider dialects -/

/-- A dialect allows all that another one allows. They may differ in the line ends of text. -/
structure Dialect.Within (d e : Dialect) : Prop where
  maxDepth : d.maxDepth ≤ e.maxDepth
  shortEscapes : d.shortEscapes → e.shortEscapes
  wideTables : d.wideTables → e.wideTables
  shortTimes : d.shortTimes → e.shortTimes
  extendsImplied : d.extendsImplied → e.extendsImplied
  negativeOverflow : d.negativeOverflow → e.negativeOverflow

/-- The dialect of all that either of two dialects allows, with the line ends of the first. -/
def Dialect.join (d e : Dialect) : Dialect where
  maxDepth := max d.maxDepth e.maxDepth
  shortEscapes := d.shortEscapes || e.shortEscapes
  keepsLineEnds := d.keepsLineEnds
  wideTables := d.wideTables || e.wideTables
  shortTimes := d.shortTimes || e.shortTimes
  extendsImplied := d.extendsImplied || e.extendsImplied
  negativeOverflow := d.negativeOverflow || e.negativeOverflow

theorem Dialect.within_join_left (d e : Dialect) : d.Within (d.join e) := by
  refine ⟨Nat.le_max_left .., ?_, ?_, ?_, ?_, ?_⟩ <;> simp +contextual [join]

theorem Dialect.within_join_right (d e : Dialect) : e.Within (d.join e) := by
  refine ⟨Nat.le_max_right .., ?_, ?_, ?_, ?_, ?_⟩ <;> simp +contextual [join]

/-! ### Computations that follow others -/

section Follows

variable {α β γ δ : Type}

/-- Whatever the first computation gives, the second gives something that goes with it. -/
def Follows (R : α → β → Prop) (x : Option α) (y : Option β) : Prop :=
  ∀ a, x = some a → ∃ b, y = some b ∧ R a b

variable {R : α → β → Prop} {S : γ → δ → Prop} {x : Option α} {y : Option β}

theorem Follows.none (y : Option β) : Follows R none y := by
  intro a h
  cases h

theorem Follows.some {a : α} {b : β} (h : R a b) : Follows R (some a) (some b) := by
  intro a' same
  cases same
  exact ⟨b, rfl, h⟩

theorem Follows.refl (x : Option α) : Follows (· = ·) x x :=
  fun a h => ⟨a, h, rfl⟩

theorem Follows.bind {f : α → Option γ} {g : β → Option δ} (h : Follows R x y)
    (next : ∀ a b, R a b → Follows S (f a) (g b)) : Follows S (x >>= f) (y >>= g) := by
  intro c hc
  obtain ⟨a, ha, hc⟩ := Option.bind_eq_some_iff.mp hc
  obtain ⟨b, hb, related⟩ := h a ha
  obtain ⟨e, he, goes⟩ := next a b related c hc
  exact ⟨e, Option.bind_eq_some_iff.mpr ⟨b, hb, he⟩, goes⟩

/-- The same first step does not matter. -/
theorem Follows.bind_same {f : α → Option γ} {g : α → Option δ}
    (next : ∀ a, Follows S (f a) (g a)) : Follows S (x >>= f) (x >>= g) := by
  refine (Follows.refl x).bind ?_
  rintro a _ rfl
  exact next a

theorem Follows.map {f : α → γ} {g : β → δ} (h : Follows R x y)
    (goes : ∀ a b, R a b → S (f a) (g b)) : Follows S (f <$> x) (g <$> y) := by
  intro c hc
  obtain ⟨a, ha, rfl⟩ := Option.map_eq_some_iff.mp hc
  obtain ⟨b, hb, related⟩ := h a ha
  exact ⟨g b, Option.map_eq_some_iff.mpr ⟨b, hb, rfl⟩, goes a b related⟩

/-- What is read goes together, and the same characters are left. -/
def Beside (R : α → β → Prop) (a : α × List Char) (b : β × List Char) : Prop :=
  R a.1 b.1 ∧ a.2 = b.2

end Follows

/-! ### Quoted text -/

section Quoted

variable {d e : Dialect}

/-- Characters are the same, or a line ends in both. -/
def SameText (cs cs' : List Char) : Prop :=
  cs = cs' ∨ '\n' ∈ cs ∧ '\n' ∈ cs'

theorem SameText.cons {cs cs' : List Char} (c : Char) (h : SameText cs cs') :
    SameText (c :: cs) (c :: cs') := by
  rcases h with rfl | ⟨ends, ends'⟩
  · exact .inl rfl
  · exact .inr ⟨List.mem_cons_of_mem c ends, List.mem_cons_of_mem c ends'⟩

theorem SameText.symm {cs cs' : List Char} (h : SameText cs cs') : SameText cs' cs := by
  rcases h with rfl | ⟨ends, ends'⟩
  · exact .inl rfl
  · exact .inr ⟨ends', ends⟩

theorem SameText.trans {cs cs' cs'' : List Char} (h : SameText cs cs') (h' : SameText cs' cs'') :
    SameText cs cs'' := by
  rcases h with rfl | ⟨ends, ends'⟩
  · exact h'
  · rcases h' with rfl | ⟨-, ends''⟩
    · exact .inr ⟨ends, ends'⟩
    · exact .inr ⟨ends, ends''⟩

theorem beside_prepend (c : Char) (r r' : List Char × List Char) (h : Beside SameText r r') :
    Beside SameText (prepend c r) (prepend c r') :=
  ⟨h.1.cons c, h.2⟩

theorem beside_prependLineEnd (d e : Dialect) (r r' : List Char × List Char)
    (h : Beside SameText r r') : Beside SameText (prependLineEnd d r) (prependLineEnd e r') := by
  have ends (d : Dialect) (r : List Char × List Char) : '\n' ∈ (prependLineEnd d r).1 := by
    unfold prependLineEnd
    split <;> simp [prepend]
  have rest (d : Dialect) (r : List Char × List Char) : (prependLineEnd d r).2 = r.2 := by
    unfold prependLineEnd
    split <;> rfl
  exact ⟨.inr ⟨ends d r, ends e r'⟩, by rw [rest, rest, h.2]⟩

theorem escaped?_follows (h : d.Within e) (c : Char) :
    Follows (· = ·) (escaped? d c) (escaped? e c) := by
  have kept : d.shortEscapes = true → e.shortEscapes = true := h.shortEscapes
  intro a ha
  refine ⟨a, ?_, rfl⟩
  unfold escaped? at ha ⊢
  split at ha <;> grind

theorem shortCodePoint?_follows (h : d.Within e) (a b : Char) :
    Follows (· = ·) (shortCodePoint? d a b) (shortCodePoint? e a b) := by
  unfold shortCodePoint?
  split
  · next short =>
    rw [if_pos (h.shortEscapes short)]
    exact .refl _
  · exact .none _

/-- An escape goes in front of what is read behind it. -/
theorem Follows.escape {R : List Char × List Char → List Char × List Char → Prop}
    (goes : ∀ c r r', R r r' → R (prepend c r) (prepend c r')) {x y : Option Char}
    {r r' : Option (List Char × List Char)} (hx : Follows (· = ·) x y) (hr : Follows R r r') :
    Follows R (do return prepend (← x) (← r)) (do return prepend (← y) (← r')) := by
  refine hx.bind fun c _ same => ?_
  subst same
  exact hr.bind fun a b related => .some (goes c a b related)

theorem readBasic?_follows (h : d.Within e) (cs : List Char) :
    Follows (· = ·) (readBasic? d cs) (readBasic? e cs) := by
  have goes (c : Char) (r r' : List Char × List Char) (same : r = r') :
      prepend c r = prepend c r' := congrArg (prepend c) same
  fun_induction readBasic? d cs with
  | case1 rest =>
      rw [readBasic?]
      exact .refl _
  | case2 a b rest ih =>
      rw [readBasic?]
      exact .escape goes (shortCodePoint?_follows h a b) ih
  | case3 a b c f rest ih =>
      rw [readBasic?]
      exact .escape goes (.refl _) ih
  | case4 _ _ _ _ _ _ _ _ rest ih =>
      rw [readBasic?]
      exact .escape goes (.refl _) ih
  | case5 letter rest _ _ _ ih =>
      rw [readBasic?]
      · exact .escape goes (escaped?_follows h letter) ih
      all_goals assumption
  | case6 c rest _ _ _ _ _ plain ih =>
      rw [readBasic?, if_pos plain]
      · exact ih.map (goes c)
      all_goals assumption
  | case7 => exact .none _
  | case8 => exact .none _

theorem Beside.same {r : List Char × List Char} : Beside SameText r r :=
  ⟨.inl rfl, rfl⟩

theorem readBasicLines?_follows (h : d.Within e) (skipping : Bool) (cs : List Char) :
    Follows (Beside SameText) (readBasicLines? d skipping cs) (readBasicLines? e skipping cs) := by
  -- The cases are those of the reader; dialects differ in the escapes and in `case10`.
  fun_induction readBasicLines? d skipping cs with
  | case1 skipping rest =>
      rw [readBasicLines?]
      exact .some .same
  | case2 skipping rest =>
      rw [readBasicLines?]
      · exact .some .same
      all_goals assumption
  | case3 skipping rest =>
      rw [readBasicLines?]
      · exact .some .same
      all_goals assumption
  | case4 skipping a b rest ih =>
      rw [readBasicLines?]
      exact .escape beside_prepend (shortCodePoint?_follows h a b) ih
  | case5 skipping a b c f rest ih =>
      rw [readBasicLines?]
      exact .escape beside_prepend (.refl _) ih
  | case6 skipping _ _ _ _ _ _ _ _ rest ih =>
      rw [readBasicLines?]
      exact .escape beside_prepend (.refl _) ih
  | case7 skipping letter rest _ _ _ ends ih =>
      rw [readBasicLines?, if_pos ends]
      · exact ih
      all_goals assumption
  | case8 skipping letter rest _ _ _ goesOn ih =>
      rw [readBasicLines?, if_neg goesOn]
      · exact .escape beside_prepend (escaped?_follows h letter) ih
      all_goals assumption
  | case9 rest ih =>
      rw [readBasicLines?, if_pos rfl]
      exact ih
  | case10 skipping rest reading ih =>
      rw [readBasicLines?, if_neg reading]
      exact ih.map (beside_prependLineEnd d e)
  | case11 rest ih =>
      rw [readBasicLines?, if_pos rfl]
      exact ih
  | case12 skipping rest reading ih =>
      rw [readBasicLines?, if_neg reading]
      exact ih.map (beside_prepend _)
  | case13 skipping c rest _ _ _ _ _ _ _ _ _ blank ih =>
      rw [readBasicLines?, if_pos blank]
      · exact ih
      all_goals assumption
  | case14 skipping c rest _ _ _ _ _ _ _ _ _ solid plain ih =>
      rw [readBasicLines?, if_neg solid, if_pos plain]
      · exact ih.map (beside_prepend c)
      all_goals assumption
  | case15 => exact .none _
  | case16 => exact .none _

theorem readLiteralLines?_follows (d e : Dialect) (cs : List Char) :
    Follows (Beside SameText) (readLiteralLines? d cs) (readLiteralLines? e cs) := by
  fun_induction readLiteralLines? d cs with
  | case1 rest =>
      rw [readLiteralLines?]
      exact .some .same
  | case2 rest =>
      rw [readLiteralLines?]
      · exact .some .same
      all_goals assumption
  | case3 rest =>
      rw [readLiteralLines?]
      · exact .some .same
      all_goals assumption
  | case4 rest ih =>
      rw [readLiteralLines?]
      exact ih.map (beside_prependLineEnd d e)
  | case5 rest ih =>
      rw [readLiteralLines?]
      exact ih.map (beside_prepend _)
  | case6 c rest _ _ _ _ _ plain ih =>
      rw [readLiteralLines?, if_pos plain]
      · exact ih.map (beside_prepend c)
      all_goals assumption
  | case7 => exact .none _
  | case8 => exact .none _

/-- Texts are the same, or a line ends in both. -/
def SameString (s t : String) : Prop :=
  SameText s.toList t.toList

theorem readText?_follows (h : d.Within e) (cs : List Char) :
    Follows (Beside SameString) (readText? d cs) (readText? e cs) := by
  have goes (a b : List Char × List Char) (beside : Beside SameText a b) :
      Beside SameString (String.ofList a.1, a.2) (String.ofList b.1, b.2) := by
    simpa [Beside, SameString] using beside
  unfold readText?
  split
  · exact (readBasicLines?_follows h _ _).map goes
  · exact (readBasic?_follows h _).map fun a b same => same ▸ goes a a .same
  · exact (readLiteralLines?_follows d e _).map goes
  · exact (Follows.refl _).map fun a b same => same ▸ goes a a .same
  · exact .none _

end Quoted

end Mqtt.Toml

import Mathlib.Data.List.TakeWhile
import Mqtt.Settings.Reference

/-!
# References are replaced in one pass

A text splits in one way into its references and what stands between them, if each reference is the
first one that starts behind the one before. Replacing puts a value in the place of each reference
of that split and keeps all else, so values are not looked at again, and what only looks like the
start of a reference stays as it is.

## Main definitions

* `Settings.Reference.Written`: how a reference is written.
* `Settings.Reference.Opens`, `Settings.Reference.Clear`: where a reference starts, and where none
  does.
* `Settings.Reference.Malformed`: what may stand behind the two opening characters instead.
* `Settings.Decomposes`: the split of a text into its references and what stands between them.

## Main statements

* `Settings.Reference.read?_eq_some_iff`: the reader reads what is written as a reference.
* `Settings.Reference.opens_iff_not_malformed`: a start is a reference or malformed.
* `Settings.Decomposes.unique`, `Settings.exists_decomposes`: every text has exactly one split.
* `Settings.substitute_decomposition`: what replacing makes of a text.
-/
namespace Mqtt.Settings

namespace Reference

/-- How a reference is written. A name is not empty and holds neither a colon nor a closing brace;
a fallback holds no closing brace. -/
inductive Written : List Char → Reference → Prop
  | bare {name : List Char} (nonempty : name ≠ []) (free : ∀ c ∈ name, c ≠ '\x7d' ∧ c ≠ ':') :
      Written ('$' :: '\x7b' :: (name ++ ['\x7d'])) { name }
  | withFallback {name fallback : List Char} (nonempty : name ≠ [])
      (free : ∀ c ∈ name, c ≠ '\x7d' ∧ c ≠ ':') (closed : ∀ c ∈ fallback, c ≠ '\x7d') :
      Written ('$' :: '\x7b' :: (name ++ ':' :: '-' :: (fallback ++ ['\x7d']))) { name, fallback }

/-- A reference starts at the front of a text. -/
def Opens (cs : List Char) : Prop :=
  ∃ (written : List Char) (r : Reference) (rest : List Char),
    Written written r ∧ cs = written ++ rest

/-- No reference starts in the front of a text that goes on behind it. -/
def Clear (front back : List Char) : Prop :=
  ∀ a b, front = a ++ b → b ≠ [] → ¬ Opens (b ++ back)

/-- What is no reference though a dollar and an opening brace stand before it: there is no name, or
a colon without a hyphen behind the name, or no closing brace. -/
inductive Malformed : List Char → Prop
  | nameless {cs : List Char} (h : ∀ c ∈ cs.head?, c = '\x7d' ∨ c = ':') : Malformed cs
  | noHyphen {name cs : List Char} (free : ∀ c ∈ name, c ≠ '\x7d' ∧ c ≠ ':')
      (h : cs.head? ≠ some '-') : Malformed (name ++ ':' :: cs)
  | unclosed {cs : List Char} (h : '\x7d' ∉ cs) : Malformed cs

/-! ### Reading references -/

theorem isNameChar_iff {c : Char} : isNameChar c = true ↔ c ≠ '\x7d' ∧ c ≠ ':' := by
  simp [isNameChar]

theorem isFallbackChar_iff {c : Char} : isFallbackChar c = true ↔ c ≠ '\x7d' := by
  simp [isFallbackChar]

variable {cs front back written rest : List Char} {r : Reference}

/-- Characters that pass a test up to one that does not. -/
theorem span_of_stop {p : Char → Bool} {c : Char} (inside : ∀ d ∈ front, p d = true)
    (stop : p c = false) (back : List Char) :
    (front ++ c :: back).takeWhile p = front ∧ (front ++ c :: back).dropWhile p = c :: back := by
  constructor
  · simp [List.takeWhile_append_of_pos inside, stop]
  · simp [List.dropWhile_append_of_pos inside, stop]

/-- A text is characters that pass a test and a rest that does not open with one. -/
theorem exists_span (p : Char → Bool) (cs : List Char) :
    ∃ front back, cs = front ++ back ∧ (∀ c ∈ front, p c = true)
      ∧ ∀ c ∈ back.head?, p c = false := by
  refine ⟨cs.takeWhile p, cs.dropWhile p, List.takeWhile_append_dropWhile.symm, ?_, ?_⟩
  · intro c hc
    exact List.mem_takeWhile_imp hc
  · intro c hc
    have stop := List.head?_dropWhile_not p cs
    rw [Option.mem_def.mp hc] at stop
    simpa using stop

/-- What is written as a reference is read as it, whatever follows. -/
theorem read?_append (h : Written written r) (rest : List Char) :
    read? (written ++ rest) = some (r, rest) := by
  cases h with
  | @bare name nonempty free =>
      have names : ∀ c ∈ name, isNameChar c = true := fun c hc => isNameChar_iff.mpr (free c hc)
      obtain ⟨front, back⟩ := span_of_stop names (c := '\x7d') rfl rest
      simp [read?, front, back, nonempty, readFallback?]
  | @withFallback name fallback nonempty free closed =>
      have names : ∀ c ∈ name, isNameChar c = true := fun c hc => isNameChar_iff.mpr (free c hc)
      have fallbacks : ∀ c ∈ fallback, isFallbackChar c = true :=
        fun c hc => isFallbackChar_iff.mpr (closed c hc)
      obtain ⟨front, back⟩ :=
        span_of_stop names (c := ':') rfl ('-' :: (fallback ++ '\x7d' :: rest))
      obtain ⟨inside, behind⟩ := span_of_stop fallbacks (c := '\x7d') rfl rest
      simp [read?, front, back, inside, behind, nonempty, readFallback?]

/-- Behind a name stands a brace, or a colon, a hyphen, a fallback and a brace. -/
theorem exists_written_of_readFallback? {name fallback : List Char} (nonempty : name ≠ [])
    (free : ∀ c ∈ name, c ≠ '\x7d' ∧ c ≠ ':') (h : readFallback? cs = some (fallback, rest)) :
    ∃ written, Written written { name, fallback }
      ∧ '$' :: '\x7b' :: (name ++ cs) = written ++ rest := by
  unfold readFallback? at h
  split at h
  · cases h
    exact ⟨_, .bare nonempty free, by simp⟩
  · next more =>
    split at h
    · next behind =>
      cases h
      have closed : ∀ c ∈ more.takeWhile isFallbackChar, c ≠ '\x7d' :=
        fun c hc => isFallbackChar_iff.mp (List.mem_takeWhile_imp hc)
      have whole : more = more.takeWhile isFallbackChar ++ '\x7d' :: rest := by
        rw [← behind, List.takeWhile_append_dropWhile]
      refine ⟨_, .withFallback nonempty free closed, ?_⟩
      generalize more.takeWhile isFallbackChar = fallback at whole
      simp [whole]
    · cases h
  · cases h

/-- **The reader reads what is written as a reference**, and only that. -/
theorem read?_eq_some_iff :
    read? cs = some (r, rest) ↔ ∃ written, Written written r ∧ cs = written ++ rest := by
  constructor
  · intro h
    unfold read? at h
    split at h
    · next more =>
      simp only at h
      split at h
      · cases h
      · next nonempty =>
        obtain ⟨⟨fallback, rest'⟩, hfallback, same⟩ := Option.map_eq_some_iff.mp h
        cases same
        have free : ∀ c ∈ more.takeWhile isNameChar, c ≠ '\x7d' ∧ c ≠ ':' :=
          fun c hc => isNameChar_iff.mp (List.mem_takeWhile_imp hc)
        have written := exists_written_of_readFallback? (by simpa using nonempty) free hfallback
        rwa [List.takeWhile_append_dropWhile] at written
    · cases h
  · rintro ⟨written, h, rfl⟩
    exact read?_append h rest

theorem opens_iff : Opens cs ↔ ∃ r rest, read? cs = some (r, rest) := by
  simp only [Opens, read?_eq_some_iff]
  constructor
  · rintro ⟨written, r, rest, h⟩
    exact ⟨r, rest, written, h⟩
  · rintro ⟨r, rest, written, h⟩
    exact ⟨written, r, rest, h⟩

theorem not_opens_iff : ¬ Opens cs ↔ read? cs = none := by
  rw [opens_iff, Option.eq_none_iff_forall_ne_some]
  simp

theorem Written.ne_nil (h : Written written r) : written ≠ [] := by
  cases h <;> simp

/-- A reference opens with a dollar. -/
theorem not_opens_of_ne {c : Char} (h : c ≠ '$') (cs : List Char) : ¬ Opens (c :: cs) := by
  rw [not_opens_iff, read?]
  simp [h]

/-- What two texts hold up to the first character that fails a test is the same. -/
theorem span_inj {p : Char → Bool} {c d : Char} {name : List Char}
    (inside : ∀ x ∈ front, p x = true) (stop : p c = false) (inside' : ∀ x ∈ name, p x = true)
    (stop' : p d = false) (h : front ++ c :: back = name ++ d :: rest) :
    front = name ∧ c = d ∧ back = rest := by
  obtain ⟨first, second⟩ := span_of_stop inside stop back
  obtain ⟨first', second'⟩ := span_of_stop inside' stop' rest
  rw [h, first'] at first
  rw [h, second'] at second
  cases second
  exact ⟨first.symm, rfl, rfl⟩

/-- What is malformed is no reference. -/
theorem Malformed.not_opens (h : Malformed cs) : ¬ Opens ('$' :: '\x7b' :: cs) := by
  rintro ⟨written, r, rest, hwritten, same⟩
  -- Both forms of a reference have a name up to a first character that is none of a name.
  obtain ⟨name, c, back, nonempty, free, stop, cs_eq, closed⟩ :
      ∃ (name : List Char) (c : Char) (back : List Char), name ≠ []
        ∧ (∀ x ∈ name, x ≠ '\x7d' ∧ x ≠ ':') ∧ (c = ':' → back.head? = some '-')
        ∧ cs = name ++ c :: back ∧ '\x7d' ∈ c :: back ∧ (c = '\x7d' ∨ c = ':') := by
    cases hwritten with
    | @bare name nonempty free =>
        exact ⟨name, '\x7d', rest, nonempty, free, by simp, by simpa using same, by simp⟩
    | @withFallback name fallback nonempty free _ =>
        exact ⟨name, ':', '-' :: (fallback ++ '\x7d' :: rest), nonempty, free, by simp,
          by simpa using same, by simp⟩
  have stops : isNameChar c = false := by
    rcases closed.2 with rfl | rfl <;> rfl
  cases h with
  | nameless h =>
      obtain ⟨d, name, rfl⟩ := List.exists_cons_of_ne_nil nonempty
      have named := free d List.mem_cons_self
      have := h d (by simp [cs_eq])
      simp_all
  | @noHyphen other more others h =>
      have inside : ∀ x ∈ other, isNameChar x = true :=
        fun x hx => isNameChar_iff.mpr (others x hx)
      have inside' : ∀ x ∈ name, isNameChar x = true := fun x hx => isNameChar_iff.mpr (free x hx)
      obtain ⟨-, rfl, rfl⟩ := span_inj inside (c := ':') rfl inside' stops cs_eq
      exact h (stop rfl)
  | unclosed h =>
      rw [cs_eq] at h
      exact h (List.mem_append_right _ closed.1)

/-- **A start is a reference or malformed**, and never both. -/
theorem opens_iff_not_malformed : Opens ('$' :: '\x7b' :: cs) ↔ ¬ Malformed cs := by
  constructor
  · intro opens malformed
    exact malformed.not_opens opens
  · intro wellFormed
    obtain ⟨name, back, rfl, inside, stop⟩ := exists_span isNameChar cs
    have free : ∀ c ∈ name, c ≠ '\x7d' ∧ c ≠ ':' := fun c hc => isNameChar_iff.mp (inside c hc)
    have nonempty : name ≠ [] := by
      rintro rfl
      refine wellFormed (.nameless fun c hc => ?_)
      have := stop c hc
      simp [isNameChar] at this
      exact Classical.or_iff_not_imp_left.mpr this
    cases back with
    | nil =>
        refine absurd (.unclosed fun closing => ?_) wellFormed
        exact (free _ (by simpa using closing)).1 rfl
    | cons c back =>
        have closes : c = '\x7d' ∨ c = ':' := by
          have := stop c rfl
          simp [isNameChar] at this
          exact Classical.or_iff_not_imp_left.mpr this
        rcases closes with rfl | rfl
        · exact ⟨_, _, back, .bare nonempty free, by simp⟩
        · have hyphen : back.head? = some '-' :=
            Classical.byContradiction fun h => wellFormed (.noHyphen free h)
          obtain ⟨back, rfl⟩ := List.head?_eq_some_iff.mp hyphen
          obtain ⟨fallback, back, rfl, inside, stop⟩ := exists_span isFallbackChar back
          have closed : ∀ c ∈ fallback, c ≠ '\x7d' :=
            fun c hc => isFallbackChar_iff.mp (inside c hc)
          cases back with
          | nil =>
              refine absurd (.unclosed fun closing => ?_) wellFormed
              simp at closing
              exact closing.elim (fun h => (free _ h).1 rfl) fun h => closed _ h rfl
          | cons c back =>
              obtain rfl : c = '\x7d' := by
                have := stop c rfl
                simpa [isFallbackChar] using this
              exact ⟨_, _, back, .withFallback nonempty free closed, by simp⟩

/-! ### Where references start -/

theorem clear_nil (back : List Char) : Clear [] back := by
  intro a b h nonempty
  exact absurd (List.append_eq_nil_iff.mp h.symm).2 nonempty

theorem clear_cons_iff {c : Char} :
    Clear (c :: front) back ↔ ¬ Opens (c :: front ++ back) ∧ Clear front back := by
  constructor
  · intro clear
    refine ⟨clear [] (c :: front) rfl (List.cons_ne_nil _ _), ?_⟩
    intro a b h
    exact clear (c :: a) b (by rw [h, List.cons_append])
  · rintro ⟨here, later⟩ a b h nonempty
    cases a with
    | nil =>
        rw [List.nil_append] at h
        rwa [← h]
    | cons d a => exact later a b (List.cons.inj h).2 nonempty

end Reference

open Reference

/-! ### Splits -/

/-- A reference in a text, and what stands before it up to the one before. -/
structure Occurrence where
  before : List Char
  written : List Char
  reference : Reference

/-- The split of a text into its references, each with what stands before it, and what stands
behind the last. Each reference is the first that starts behind the one before. -/
inductive Decomposes : List Char → List Occurrence → List Char → Prop
  | last {cs : List Char} (clear : Clear cs []) : Decomposes cs [] cs
  | next {o : Occurrence} {rest : List Char} {others : List Occurrence} {last : List Char}
      (written : Written o.written o.reference) (first : Clear o.before (o.written ++ rest))
      (behind : Decomposes rest others last) :
      Decomposes (o.before ++ (o.written ++ rest)) (o :: others) last

/-- What an occurrence becomes: the value of its variable if that is set, and else its fallback,
behind what stands before it. -/
def Occurrence.filled (env : Environment) (o : Occurrence) : List Char :=
  o.before ++ match env.lookup (String.ofList o.reference.name) with
    | some value => value.toList
    | none => o.reference.fallback

variable {cs front written rest : List Char} {r : Reference} {parts others : List Occurrence}
  {last final : List Char}

/-- A split of a text is one of the text with a character more in front, if no reference starts
there. -/
theorem Decomposes.cons {c : Char} (h : Decomposes cs parts last) (here : ¬ Opens (c :: cs)) :
    ∃ parts last, Decomposes (c :: cs) parts last := by
  cases h with
  | last clear =>
      exact ⟨[], c :: cs, .last (clear_cons_iff.mpr ⟨by simpa using here, clear⟩)⟩
  | @next o rest others last written first behind =>
      exact ⟨{ o with before := c :: o.before } :: others, last,
        .next (o := { o with before := c :: o.before }) written
          (clear_cons_iff.mpr ⟨here, first⟩) behind⟩

/-- **Every text has a split.** -/
theorem exists_decomposes (cs : List Char) : ∃ parts last, Decomposes cs parts last := by
  induction hlength : cs.length using Nat.strongRecOn generalizing cs with
  | _ n ih =>
      subst hlength
      cases cs with
      | nil => exact ⟨[], [], .last (clear_nil [])⟩
      | cons c cs =>
          by_cases here : Opens (c :: cs)
          · obtain ⟨written, r, rest, hwritten, same⟩ := here
            have shorter : rest.length < (c :: cs).length := by
              have := List.length_pos_iff.mpr hwritten.ne_nil
              rw [same, List.length_append]
              omega
            obtain ⟨parts, last, behind⟩ := ih _ shorter rest rfl
            have whole := Decomposes.next (o := ⟨[], written, r⟩) hwritten (clear_nil _) behind
            rw [same]
            exact ⟨_, _, whole⟩
          · obtain ⟨parts, last, h⟩ := ih cs.length (by simp) cs rfl
            exact h.cons here

/-- The first reference of a text starts at one place. -/
theorem length_le_of_clear {before : List Char} (clear : Clear front rest)
    (h : front ++ rest = before ++ cs) (opens : Opens cs) : front.length ≤ before.length := by
  refine Nat.le_of_not_lt fun longer => ?_
  obtain ⟨middle, rfl, rfl⟩ : ∃ middle, front = before ++ middle ∧ cs = middle ++ rest := by
    rcases List.append_eq_append_iff.mp h with ⟨middle, rfl, rfl⟩ | ⟨middle, rfl, rfl⟩
    · rw [List.length_append] at longer
      omega
    · exact ⟨middle, rfl, rfl⟩
  have nonempty : middle ≠ [] := by
    rintro rfl
    simp at longer
  exact clear before middle rfl nonempty opens

/-- **A text has one split.** -/
theorem Decomposes.unique (h : Decomposes cs parts last) (h' : Decomposes cs others final) :
    others = parts ∧ final = last := by
  induction h generalizing others final with
  | @last cs clear =>
      cases h' with
      | last => exact ⟨rfl, rfl⟩
      | @next o rest _ _ written =>
          have opens : Opens (o.written ++ rest) := ⟨_, _, _, written, rfl⟩
          refine absurd opens ?_
          have nonempty : o.written ++ rest ≠ [] := by simp [written.ne_nil]
          simpa using clear o.before (o.written ++ rest) rfl nonempty
  | @next o rest parts last written first behind ih =>
      generalize hcs : o.before ++ (o.written ++ rest) = cs at h'
      cases h' with
      | last clear =>
          have opens : Opens (o.written ++ rest) := ⟨_, _, _, written, rfl⟩
          refine absurd opens ?_
          have nonempty : o.written ++ rest ≠ [] := by simp [written.ne_nil]
          simpa using clear o.before (o.written ++ rest) hcs.symm nonempty
      | @next o' rest' _ _ written' first' behind' =>
          have opens : Opens (o.written ++ rest) := ⟨_, _, _, written, rfl⟩
          have opens' : Opens (o'.written ++ rest') := ⟨_, _, _, written', rfl⟩
          have hlength : o.before.length = o'.before.length :=
            Nat.le_antisymm (length_le_of_clear first hcs opens')
              (length_le_of_clear first' hcs.symm opens)
          obtain ⟨hbefore, hbehind⟩ := List.append_inj hcs hlength
          have hread := read?_append written rest
          rw [hbehind, read?_append written' rest'] at hread
          obtain ⟨hreference, rfl⟩ := Prod.mk.inj (Option.some.inj hread)
          obtain ⟨rfl, rfl⟩ := ih behind'
          have hwritten := List.append_cancel_right hbehind
          obtain ⟨before, written, reference⟩ := o
          obtain ⟨before', written', reference'⟩ := o'
          simp_all

/-! ### Replacing -/

/-- A reference at the front is replaced by its value. -/
theorem substituteChars_of_written (env : Environment) (h : Written written r) (rest : List Char) :
    substituteChars env (written ++ rest) = r.value env ++ substituteChars env rest := by
  obtain ⟨c, cs, rfl⟩ := List.exists_cons_of_ne_nil h.ne_nil
  have hread := read?_append h rest
  rw [List.cons_append] at hread ⊢
  rw [substituteChars]
  split
  · next hread' =>
    rw [hread] at hread'
    cases hread'
    rfl
  · next hnone =>
    rw [hread] at hnone
    cases hnone

/-- A character at which no reference starts is kept. -/
theorem substituteChars_cons (env : Environment) {c : Char} (h : ¬ Opens (c :: cs)) :
    substituteChars env (c :: cs) = c :: substituteChars env cs := by
  have hnone := not_opens_iff.mp h
  rw [substituteChars]
  split
  · next hread =>
    rw [hnone] at hread
    cases hread
  · rfl

/-- Characters up to the first reference are kept. -/
theorem substituteChars_append (env : Environment) (clear : Clear front rest) :
    substituteChars env (front ++ rest) = front ++ substituteChars env rest := by
  induction front with
  | nil => rfl
  | cons c front ih =>
      obtain ⟨here, later⟩ := clear_cons_iff.mp clear
      rw [List.cons_append] at here
      rw [List.cons_append, substituteChars_cons env here, ih later, List.cons_append]

theorem value_eq (env : Environment) (r : Reference) :
    r.value env = match env.lookup (String.ofList r.name) with
      | some value => value.toList
      | none => r.fallback := by
  rw [Reference.value]
  cases env.lookup (String.ofList r.name) <;> rfl

/-- Replacing puts values in the places of the references and keeps all else. -/
theorem Decomposes.substituteChars_eq (env : Environment) (h : Decomposes cs parts last) :
    substituteChars env cs = parts.flatMap (Occurrence.filled env) ++ last := by
  induction h with
  | last clear =>
      have kept := substituteChars_append env clear
      rw [List.append_nil, substituteChars, List.append_nil] at kept
      exact kept
  | @next o rest parts last written first behind ih =>
      rw [substituteChars_append env first, substituteChars_of_written env written, ih, value_eq]
      simp [Occurrence.filled]

/-- **A text without references stays as it is.** -/
theorem substitute_of_clear (env : Environment) {s : String} (h : Clear s.toList []) :
    substitute env s = s := by
  rw [substitute, (Decomposes.last h).substituteChars_eq env]
  simp

/-- **References are replaced in one pass.** A text splits in exactly one way into references, each
the first that starts behind the one before, and what stands between them. Each reference becomes
the value of its variable if that is set and else its fallback, and all else is kept. So a text
without references stays as it is. A dollar and an opening brace are the start of a reference unless
what follows is malformed, and then they are copied. -/
theorem substitute_decomposition (env : Environment) (s : String) :
    (∃ parts last, Decomposes s.toList parts last
        ∧ (∀ others final, Decomposes s.toList others final → others = parts ∧ final = last)
        ∧ substitute env s = String.ofList (parts.flatMap (Occurrence.filled env) ++ last))
      ∧ (Clear s.toList [] → substitute env s = s)
      ∧ (∀ cs, Opens ('$' :: '\x7b' :: cs) ↔ ¬ Malformed cs)
      ∧ (∀ cs, Malformed cs → substituteChars env ('$' :: '\x7b' :: cs)
          = '$' :: '\x7b' :: substituteChars env cs) := by
  refine ⟨?_, substitute_of_clear env, fun _ => opens_iff_not_malformed, ?_⟩
  · obtain ⟨parts, last, h⟩ := exists_decomposes s.toList
    refine ⟨parts, last, h, fun others final => h.unique, ?_⟩
    rw [substitute, h.substituteChars_eq env]
  · intro cs malformed
    rw [substituteChars_cons env malformed.not_opens,
      substituteChars_cons env (not_opens_of_ne (by decide) cs)]

end Mqtt.Settings

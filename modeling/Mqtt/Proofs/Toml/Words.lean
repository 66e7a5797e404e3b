import Mathlib.Data.List.TakeWhile
import Mqtt.Proofs.Toml.Wider

/-!
# Words and keys in a wider dialect

A dialect that allows more reads the words and the keys of a narrower one as the same. It may read
more words as times, but those are nothing else in the narrower one, as only times have colons. It
may skip more in an inline table, but not where the narrower dialect goes on reading.
-/
namespace Mqtt.Toml

/-! ### Words -/

section Words

variable {d e : Dialect} {cs rest : List Char}

theorem char?_eq_some_iff {c : Char} : Front.char? c cs = some rest ↔ cs = c :: rest := by
  cases cs with
  | nil => simp [Front.char?]
  | cons a cs => simp [Front.char?]

theorem suffix_of_takeNumber? {width low high n : Nat}
    (h : takeNumber? width low high cs = some (n, rest)) : rest = cs.drop width := by
  simp only [takeNumber?] at h
  split at h
  · cases h
    rfl
  · cases h

theorem takeTime?_follows (h : d.Within e) (cs : List Char) :
    Follows (· = ·) (takeTime? d cs) (takeTime? e cs) := by
  unfold takeTime?
  refine .bind_same fun hour => .bind_same fun front => .bind_same fun minute => ?_
  obtain ⟨minute, rest⟩ := minute
  dsimp only
  split
  · exact .refl _
  · split
    · next short =>
      rw [if_pos (h.shortTimes short)]
      exact .refl _
    · exact .none _

/-- A colon follows two digits of a time. -/
theorem exists_of_takeTime? {time : Time} (h : takeTime? d cs = some (time, rest)) :
    ∃ a b more, cs = a :: b :: ':' :: more := by
  unfold takeTime? at h
  simp only [Option.bind_eq_bind, Option.bind_eq_some_iff, Prod.exists] at h
  obtain ⟨hour, front, hhour, more, hmore, -⟩ := h
  rw [char?_eq_some_iff, suffix_of_takeNumber? hhour] at hmore
  match cs, hmore with
  | [a, b], hmore => cases hmore
  | a :: b :: c :: cs, hmore =>
      cases hmore
      exact ⟨a, b, _, rfl⟩

/-- A time is no date. -/
theorem takeDate?_of_takeTime? {time : Time} (h : takeTime? d cs = some (time, rest)) :
    takeDate? cs = none := by
  obtain ⟨a, b, more, rfl⟩ := exists_of_takeTime? h
  have year : takeNumber? 4 0 9999 (a :: b :: ':' :: more) = none := by
    simp [takeNumber?]
  rw [takeDate?, year]
  rfl

/-- A time has a colon. -/
theorem takeTime?_eq_none (h : ':' ∉ cs) (d : Dialect) : takeTime? d cs = none := by
  cases htime : takeTime? d cs with
  | none => rfl
  | some r =>
      obtain ⟨a, b, more, rfl⟩ := exists_of_takeTime? htime
      simp at h

theorem readDatetime?_follows (h : d.Within e) (cs : List Char) :
    Follows (· = ·) (readDatetime? d cs) (readDatetime? e cs) := by
  have times := takeTime?_follows h
  unfold readDatetime?
  cases htime : takeTime? e cs with
  | some r =>
      rw [takeDate?_of_takeTime? htime]
      cases htime' : takeTime? d cs with
      | none => exact .none _
      | some r' =>
          obtain ⟨_, found, same⟩ := times cs r' htime'
          rw [htime] at found
          cases found
          cases same
          exact .refl _
  | none =>
      have narrow : takeTime? d cs = none := by
        cases htime' : takeTime? d cs with
        | none => rfl
        | some r' =>
            obtain ⟨_, found, -⟩ := times cs r' htime'
            rw [htime] at found
            cases found
      rw [narrow]
      dsimp only
      refine .bind_same fun date => ?_
      obtain ⟨date, rest⟩ := date
      dsimp only
      split
      · exact .refl _
      · split
        · exact .none _
        · refine (times _).bind fun time _ same => ?_
          subst same
          exact .refl _

theorem takeDate?_suffix {date : Date} (h : takeDate? cs = some (date, rest)) : rest <:+ cs := by
  unfold takeDate? at h
  simp only [Option.bind_eq_bind, Option.bind_eq_some_iff, Prod.exists] at h
  obtain ⟨year, a, hyear, b, hb, month, c, hmonth, f, hf, day, g, hday, same⟩ := h
  cases same
  rw [char?_eq_some_iff] at hb hf
  have after_year : a <:+ cs := suffix_of_takeNumber? hyear ▸ List.drop_suffix ..
  have after_month : c <:+ b := suffix_of_takeNumber? hmonth ▸ List.drop_suffix ..
  have after_day : rest <:+ f := suffix_of_takeNumber? hday ▸ List.drop_suffix ..
  have behind_month : rest <:+ c := after_day.trans (hf ▸ List.suffix_cons ..)
  have behind_year : rest <:+ a := (behind_month.trans after_month).trans (hb ▸ List.suffix_cons ..)
  exact behind_year.trans after_year

/-- Dialects do not differ in dates without a time. -/
theorem readDatetime?_eq_of_no_colon (h : ':' ∉ cs) (d e : Dialect) :
    readDatetime? d cs = readDatetime? e cs := by
  unfold readDatetime?
  rw [takeTime?_eq_none h, takeTime?_eq_none h]
  cases hdate : takeDate? cs with
  | none => rfl
  | some r =>
      obtain ⟨date, rest⟩ := r
      cases rest with
      | nil => rfl
      | cons between more =>
          have free : ':' ∉ more := by
            intro colon
            exact h ((takeDate?_suffix hdate).subset (List.mem_cons_of_mem _ colon))
          simp [takeTime?_eq_none free]

/-! Neither a number nor a part of one has a colon. -/

theorem no_colon_of_joinDigits? {isDigit : Char → Bool} (plain : isDigit ':' = false)
    {digits : List Char} (h : joinDigits? isDigit cs = some digits) : ':' ∉ cs := by
  fun_induction joinDigits? isDigit cs generalizing digits with
  | case1 => simp
  | case2 c digit => grind
  | case3 => cases h
  | case4 c rest digit ih =>
      obtain ⟨_, read, -⟩ := Option.map_eq_some_iff.mp h
      have := ih read
      grind
  | case5 => cases h
  | case6 c rest _ _ digit ih =>
      obtain ⟨_, read, -⟩ := Option.map_eq_some_iff.mp h
      have := ih read
      grind
  | case7 => cases h

theorem no_colon_of_splitSign (h : ':' ∉ (Decimal.splitSign cs).2) : ':' ∉ cs := by
  unfold Decimal.splitSign at h
  split at h <;> simp_all

theorem no_colon_of_dropWhile {p : Char → Bool} (plain : p ':' = false)
    (h : ':' ∉ cs.dropWhile p) : ':' ∉ cs := by
  intro colon
  rw [← List.takeWhile_append_dropWhile (p := p) (l := cs), List.mem_append] at colon
  cases colon with
  | inl front =>
      have := List.mem_takeWhile_imp front
      rw [plain] at this
      cases this
  | inr back => exact h back

theorem no_colon_of_exponentDigits? {digits : List Char} (h : exponentDigits? cs = some digits) :
    ':' ∉ cs := by
  obtain ⟨_, read, -⟩ := Option.bind_eq_some_iff.mp h
  exact no_colon_of_splitSign (no_colon_of_joinDigits? rfl read)

theorem no_colon_of_exponent {c : Char} {digits : List Char} (hc : ':' ≠ c)
    (h : exponentDigits? cs = some digits) : ':' ∉ c :: cs := by
  rw [List.mem_cons, not_or]
  exact ⟨hc, no_colon_of_exponentDigits? h⟩

theorem no_colon_of_floatTail? {tail : List Char} (h : floatTail? cs = some tail) : ':' ∉ cs := by
  unfold floatTail? at h
  split at h
  · next rest =>
    simp only [Option.bind_eq_bind, Option.bind_eq_some_iff] at h
    obtain ⟨fraction, -, h⟩ := h
    suffices ':' ∉ rest by simpa using this
    refine no_colon_of_dropWhile (p := fun c => c.isDigit || c = '_') rfl ?_
    split at h
    · next whole =>
      rw [whole]
      simp
    · next more behind =>
      obtain ⟨_, read, -⟩ := Option.bind_eq_some_iff.mp h
      rw [behind]
      exact no_colon_of_exponent (by decide) read
    · next more behind =>
      obtain ⟨_, read, -⟩ := Option.bind_eq_some_iff.mp h
      rw [behind]
      exact no_colon_of_exponent (by decide) read
    · cases h
  · obtain ⟨_, read, -⟩ := Option.bind_eq_some_iff.mp h
    exact no_colon_of_exponent (by decide) read
  · obtain ⟨_, read, -⟩ := Option.bind_eq_some_iff.mp h
    exact no_colon_of_exponent (by decide) read
  · cases h

theorem no_colon_of_readFloat? {x : Binary64} (h : readFloat? d cs = some x) : ':' ∉ cs := by
  unfold readFloat? at h
  dsimp only at h
  refine no_colon_of_splitSign ?_
  split at h
  · next infinite => simp [infinite]
  · next missing => simp [missing]
  · unfold readNumber? at h
    simp only [Option.bind_eq_bind, Option.bind_eq_some_iff] at h
    obtain ⟨whole, -, tail, read, -⟩ := h
    exact no_colon_of_dropWhile rfl (no_colon_of_floatTail? read)

theorem no_colon_of_readInteger? {n : Int} (h : readInteger? cs = some n) : ':' ∉ cs := by
  obtain ⟨m, read⟩ : ∃ m, readUnbounded? cs = some m := ⟨n, (Option.filter_eq_some_iff.mp h).1⟩
  unfold readUnbounded? at read
  have based {base : Nat} {cs : List Char} {m : Int} (plain : Digits.isDigitOf base ':' = false)
      (h : readUnbounded?.inBase base cs = some m) : ':' ∉ cs := by
    obtain ⟨digits, joined, -⟩ := Option.map_eq_some_iff.mp h
    exact no_colon_of_joinDigits? plain joined
  split at read
  · have := based (by decide) read
    simpa using this
  · have := based (by decide) read
    simpa using this
  · have := based (by decide) read
    simpa using this
  · obtain ⟨digits, hdigits, -⟩ := Option.bind_eq_some_iff.mp read
    have joined := (Option.filter_eq_some_iff.mp hdigits).1
    exact no_colon_of_splitSign (no_colon_of_joinDigits? rfl joined)

theorem readFloat?_follows (h : d.Within e) (cs : List Char) :
    Follows (· = ·) (readFloat? d cs) (readFloat? e cs) := by
  unfold readFloat?
  dsimp only
  split
  · exact .refl _
  · exact .refl _
  · unfold readNumber?
    refine .bind_same fun whole => .bind_same fun tail => .bind_same fun decimal => ?_
    split
    · split
      · next negative =>
        rw [Bool.and_eq_true] at negative
        rw [if_pos (Bool.and_eq_true_iff.mpr ⟨negative.1, h.negativeOverflow negative.2⟩)]
        exact .refl _
      · exact .none _
    · exact .refl _

/-- A word that only the wider dialect reads as a time has a colon, so it is no number either. -/
theorem readWord?_follows (h : d.Within e) (cs : List Char) :
    Follows (· = ·) (readWord? d cs) (readWord? e cs) := by
  unfold readWord?
  split
  · exact .refl _
  · exact .refl _
  · cases hdate : readDatetime? d cs with
    | some date =>
        obtain ⟨_, hdate', rfl⟩ := readDatetime?_follows h cs date hdate
        rw [hdate']
        exact .refl _
    | none =>
        -- The wider dialect may find a time here, but only behind a colon.
        by_cases colon : ':' ∈ cs
        · have no_integer : readInteger? cs = none :=
            Option.eq_none_iff_forall_ne_some.mpr fun n hn => no_colon_of_readInteger? hn colon
          have no_float : readFloat? d cs = none :=
            Option.eq_none_iff_forall_ne_some.mpr fun x hx => no_colon_of_readFloat? hx colon
          rw [no_integer, no_float]
          exact .none _
        · rw [← readDatetime?_eq_of_no_colon colon d e, hdate]
          cases readInteger? cs with
          | some n => exact .refl _
          | none => exact (readFloat?_follows h cs).map fun x _ same => congrArg Value.float same

end Words

/-! ### Keys -/

section Keys

variable {d e : Dialect}

theorem readSimpleKey?_follows (h : d.Within e) (cs : List Char) :
    Follows (· = ·) (readSimpleKey? d cs) (readSimpleKey? e cs) := by
  unfold readSimpleKey?
  split
  · refine (readBasic?_follows h _).map fun a _ same => ?_
    rw [same]
  · exact .refl _
  · exact .refl _

/-- More keys may follow each other in the wider dialect. -/
theorem readKeys?_follows (h : d.Within e) {bound bound' : Nat} (le : bound ≤ bound')
    (cs : List Char) : Follows (· = ·) (readKeys? d bound cs) (readKeys? e bound' cs) := by
  induction bound generalizing bound' cs with
  | zero => exact .none _
  | succ bound ih =>
      obtain ⟨bound', rfl⟩ := Nat.exists_eq_add_of_le' (Nat.lt_of_lt_of_le bound.succ_pos le)
      rw [readKeys?, readKeys?]
      refine (readSimpleKey?_follows h _).bind fun r _ same => ?_
      subst same
      dsimp only
      split
      · refine (ih (by omega) _).bind fun keys _ same => ?_
        subst same
        exact .refl _
      · exact .refl _

theorem readKey?_follows (h : d.Within e) (cs : List Char) :
    Follows (· = ·) (readKey? d cs) (readKey? e cs) := by
  refine (readKeys?_follows h h.maxDepth cs).bind fun r _ same => ?_
  subst same
  exact .refl _

end Keys

/-! ### Between the parts of an inline table -/

section Solid

variable {d e : Dialect} {cs : List Char}

/-- Characters that open with neither a line end nor a comment. -/
def Solid (cs : List Char) : Prop :=
  ∃ c rest, cs = c :: rest ∧ c ∉ ['\n', '\r', '#']

theorem solid_cons {c : Char} (h : c ∉ ['\n', '\r', '#']) (rest : List Char) : Solid (c :: rest) :=
  ⟨c, rest, rfl, h⟩

theorem not_solid_cases (h : ¬ Solid cs) :
    cs = [] ∨ ∃ c rest, cs = c :: rest ∧ (c = '\n' ∨ c = '\r' ∨ c = '#') := by
  cases cs with
  | nil => exact .inl rfl
  | cons c rest =>
      by_cases open_ : c ∈ ['\n', '\r', '#']
      · exact .inr ⟨c, rest, rfl, by simpa using open_⟩
      · exact absurd (solid_cons open_ rest) h

theorem skipFiller?_cons {c : Char} (feed : c ≠ '\n') (back : c ≠ '\r') (cs : List Char) :
    skipFiller? (c :: cs) =
      if isBlank c then skipFiller? cs
      else if c = '#' then skipFillerFrom? true cs
      else some (c :: cs) := by
  unfold skipFiller?
  rw [skipFillerFrom?]
  · simp
  · exact feed
  · intro _ same _
    exact back same

/-- If no line ends before the next part, blanks are all there is to skip. -/
theorem skipFiller?_of_solid (h : Solid (skipBlanks cs)) :
    skipFiller? cs = some (skipBlanks cs) := by
  induction cs with
  | nil => rfl
  | cons c cs ih =>
      by_cases blank : isBlank c = true
      · have skipped : skipBlanks (c :: cs) = skipBlanks cs := List.dropWhile_cons_of_pos blank
        have feed : c ≠ '\n' := by
          rintro rfl
          simp [isBlank] at blank
        have back : c ≠ '\r' := by
          rintro rfl
          simp [isBlank] at blank
        rw [skipFiller?_cons feed back, if_pos blank, skipped]
        exact ih (skipped ▸ h)
      · have skipped : skipBlanks (c :: cs) = c :: cs := List.dropWhile_cons_of_neg blank
        rw [skipped] at h ⊢
        obtain ⟨_, _, same, solid⟩ := h
        cases same
        simp only [List.mem_cons, List.not_mem_nil, or_false, not_or] at solid
        rw [skipFiller?_cons solid.1 solid.2.1, if_neg blank, if_neg solid.2.2]

/-- **The wider dialect may skip more**, but not where the narrower one goes on. -/
theorem Follows.skipInTable {α β : Type} {S : α → β → Prop} (h : d.Within e) (cs : List Char)
    {f : List Char → Option α} {g : List Char → Option β}
    (stops : ∀ rest, ¬ Solid rest → f rest = .none) (next : ∀ rest, Follows S (f rest) (g rest)) :
    Follows S (skipInTable? d cs >>= f) (skipInTable? e cs >>= g) := by
  unfold skipInTable?
  by_cases wide : d.wideTables = true
  · rw [if_pos wide, if_pos (h.wideTables wide)]
    exact .bind_same next
  · rw [if_neg wide]
    split
    · by_cases solid : Solid (skipBlanks cs)
      · rw [skipFiller?_of_solid solid]
        exact .bind_same next
      · have none_eq : (Option.some (skipBlanks cs) >>= f) = Option.none := stops _ solid
        rw [none_eq]
        exact .none _
    · exact .bind_same next

end Solid

end Mqtt.Toml

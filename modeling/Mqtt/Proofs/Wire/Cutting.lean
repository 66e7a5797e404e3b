import Mqtt.Proofs.Wire.Reading

/-!
# Bodies that go on or stop early

A decoder takes its body from the front, and looks into a field only if all of it is there. So what
it found stands when more bytes come behind, unless it ran off the end of the body; and on the front
of a body that it accepts it fails in no other way.

## Main definitions

* `Cursor.offer`: a cursor with more bytes ahead.
* `DecodeError.OffEnd`: the failure of a field that is not all there.
* `Decoder.Steady`: more bytes change nothing but a run off the end.
* `Decoder.CutSafe`: the front of an accepted body fails only by a run off the end.
* `Decoder.RunsOff`: the result of such a run.

## Main statements

* `Decoder.Steady.bind`: one steady decoder after the other.
* `Decoder.Steady.bind_cutSafe`: a decoder that may look at the end, behind a steady one.
* `Decoder.Steady.untilEnd`: a steady decoder again and again, up to the end of the body.
-/
namespace Mqtt

/-- The cursor with bytes put behind those that are ahead. -/
def Cursor.offer (c : Cursor) (more : Bytes) : Cursor := ⟨c.position, c.ahead ++ more⟩

/-- A field that is not all there. -/
def DecodeError.OffEnd (e : DecodeError) : Prop :=
  ∃ needed available, e = .outOfData needed available

theorem DecodeError.offEnd_outOfData (needed available : Nat) :
    OffEnd (.outOfData needed available) :=
  ⟨needed, available, rfl⟩

namespace Decoder

variable {α β : Type} {d : Decoder α}

/-- What the decoder finds is not changed by bytes that come behind, unless it ran off the end. -/
structure Steady (d : Decoder α) : Prop where
  ok : ∀ {c a c'}, d.read c = (.ok a, c') → ∀ more, d.read (c.offer more) = (.ok a, c'.offer more)
  error : ∀ {c e c'}, d.read c = (.error e, c') → ¬ e.OffEnd → ∀ more,
    d.read (c.offer more) = (.error e, c'.offer more)

/-- On the front of a body that it accepts, the decoder fails only by running off the end. -/
structure CutSafe (d : Decoder α) : Prop where
  offEnd : ∀ {c more a c' e m}, d.read (c.offer more) = (.ok a, c') → d.read c = (.error e, m) →
    e.OffEnd

/-- What was read ran off the end. -/
def RunsOff (r : Except DecodeError α) : Prop :=
  ∃ needed available, r = .error (.outOfData needed available)

/-- If all that can go wrong is a run off the end, there is that, or a value. -/
theorem runsOff_or_ok {c : Cursor} (h : ∀ e m, d.read c = (.error e, m) → e.OffEnd) :
    RunsOff (d.read c).1 ∨ ∃ a, (d.read c).1 = .ok a := by
  cases result : d.read c with
  | mk r m =>
      cases r with
      | ok a => exact .inr ⟨a, rfl⟩
      | error e =>
          obtain ⟨needed, available, rfl⟩ := h e m result
          exact .inl ⟨needed, available, rfl⟩

/-! ### Steady decoders -/

/-- A decoder that consumes nothing and looks at nothing. -/
theorem steady_of_stay {r : Except DecodeError α} (h : ∀ c, d.read c = (r, c)) : d.Steady where
  ok := by
    intro c a c' found more
    rw [h] at found ⊢
    cases found
    rfl
  error := by
    intro c e c' found _ more
    rw [h] at found ⊢
    cases found
    rfl

theorem steady_pure (a : α) : (pure a : Decoder α).Steady :=
  steady_of_stay (r := .ok a) fun _ => rfl

theorem steady_require (condition : Bool) (kind : Kind) (violation : Violation) :
    (require condition kind violation).Steady := by
  cases condition
  · exact steady_of_stay (r := .error (.malformed kind violation)) fun _ => rfl
  · exact steady_of_stay (r := .ok ()) fun _ => rfl

theorem steady_lift (kind : Kind) (x : Except Violation α) : (lift kind x).Steady := by
  cases x with
  | ok a => exact steady_of_stay (r := .ok a) fun _ => rfl
  | error violation => exact steady_of_stay (r := .error (.malformed kind violation)) fun _ => rfl

theorem steady_guarantee (level : Nat) (kind : Kind) (violation : Violation) :
    (guarantee level kind violation).Steady := by
  unfold guarantee
  cases QoS.ofLevel? level with
  | some q => exact steady_of_stay (r := .ok q) fun _ => rfl
  | none => exact steady_of_stay (r := .error (.malformed kind violation)) fun _ => rfl

/-- **One steady decoder after the other** is steady. -/
theorem Steady.bind {f : α → Decoder β} (hd : d.Steady) (hf : ∀ a, (f a).Steady) :
    (d >>= f).Steady where
  ok := by
    intro c b c' found more
    obtain ⟨a, m, first, second⟩ := read_bind_eq_ok_iff.mp found
    exact read_bind_eq_ok_iff.mpr ⟨a, _, hd.ok first more, (hf a).ok second more⟩
  error := by
    intro c e c' found inside more
    rw [read_bind_eq_error_iff] at found ⊢
    rcases found with first | ⟨a, m, first, second⟩
    · exact .inl (hd.error first inside more)
    · exact .inr ⟨a, _, hd.ok first more, (hf a).error second inside more⟩

theorem Steady.map (f : α → β) (h : d.Steady) : (f <$> d).Steady :=
  h.bind fun a => steady_pure (f a)

theorem steady_byte : byte.Steady where
  ok := by
    intro c a c' found more
    rcases c with ⟨n, _ | ⟨b, ahead⟩⟩
    · cases found
    · cases found
      rfl
  error := by
    intro c e c' found inside more
    rcases c with ⟨n, _ | ⟨b, ahead⟩⟩
    · cases found
      exact absurd (DecodeError.offEnd_outOfData _ _) inside
    · cases found

theorem steady_word : word.Steady where
  ok := by
    intro c a c' found more
    rcases c with ⟨n, _ | ⟨high, _ | ⟨low, ahead⟩⟩⟩
    · cases found
    · cases found
    · cases found
      rfl
  error := by
    intro c e c' found inside more
    rcases c with ⟨n, _ | ⟨high, _ | ⟨low, ahead⟩⟩⟩
    · cases found
      exact absurd (DecodeError.offEnd_outOfData _ _) inside
    · cases found
      exact absurd (DecodeError.offEnd_outOfData _ _) inside
    · cases found

theorem steady_take (n : Nat) : (take n).Steady where
  ok := by
    intro c a c' found more
    obtain ⟨b, past, rfl, rfl⟩ := (reads_take n c a c').mp found
    have ahead : (c.offer more).ahead = b ++ (c'.offer more).ahead := by
      simp [Cursor.offer, past.ahead]
    exact (reads_take _ _ _ _).mpr ⟨b, ⟨ahead, past.position⟩, rfl, rfl⟩
  error := by
    intro c e c' found inside more
    rw [read, take] at found
    split at found
    · cases found
      exact absurd (DecodeError.offEnd_outOfData _ _) inside
    · cases found

theorem steady_data : data.Steady :=
  steady_word.bind fun size => steady_take size.toNat

theorem steady_text : text.Steady :=
  steady_data.bind fun raw => steady_of_stay (r := textOf raw) fun _ => rfl

theorem Steady.optional (announced : Bool) (h : d.Steady) : (optional announced d).Steady := by
  cases announced with
  | true => exact h.map some
  | false => exact steady_pure none

/-! ### Decoders that look at the end -/

/-- More bytes do not make an end. -/
theorem atEnd_offer {c : Cursor} (h : c.atEnd = false) (more : Bytes) :
    (c.offer more).atEnd = false := by
  rw [Cursor.atEnd, List.isEmpty_eq_false_iff] at h ⊢
  simp [Cursor.offer, h]

theorem Steady.cutSafe (h : d.Steady) : d.CutSafe where
  offEnd := by
    intro c more a c' e m accepted failed
    by_cases inside : e.OffEnd
    · exact inside
    · rw [h.error failed inside more] at accepted
      cases accepted

/-- **Behind a steady decoder** there may be one that looks at the end: what the first one found in
the front of the body is what it finds in the whole. -/
theorem Steady.bind_cutSafe {f : α → Decoder β} (hd : d.Steady) (hf : ∀ a, (f a).CutSafe) :
    (d >>= f).CutSafe where
  offEnd := by
    intro c more b c' e m accepted failed
    obtain ⟨a, n, first, second⟩ := read_bind_eq_ok_iff.mp accepted
    rcases read_bind_eq_error_iff.mp failed with early | ⟨a', n', found, late⟩
    · exact hd.cutSafe.offEnd first early
    · rw [hd.ok found more] at first
      cases first
      exact (hf a).offEnd second late

/-- A decoder that cannot fail may come last. -/
theorem CutSafe.map (f : α → β) (h : d.CutSafe) : (f <$> d).CutSafe where
  offEnd := by
    intro c more b c' e m accepted failed
    obtain ⟨a, n, first, -⟩ := read_bind_eq_ok_iff.mp accepted
    rcases read_bind_eq_error_iff.mp failed with early | ⟨a', n', -, late⟩
    · exact h.offEnd first early
    · cases late

theorem cutSafe_rest : rest.CutSafe where
  offEnd := by
    intro c more a c' e m _ failed
    cases failed

/-- Nothing is ahead in the front of a body that has nothing ahead. -/
theorem cutSafe_ended (kind : Kind) : (ended kind).CutSafe where
  offEnd := by
    intro c more a c' e m accepted failed
    obtain ⟨b, past, rfl, left⟩ := (reads_ended kind _ a c').mp accepted
    have nothing : c.ahead = [] ∧ more = [] := by
      rw [← List.append_eq_nil_iff]
      exact past.ahead.trans left
    rw [read, ended, Cursor.atEnd, nothing.1] at failed
    cases failed

/-- **A steady decoder again and again.** The induction is on the loop over the front of the body:
the items found in it are the first ones of the whole. -/
theorem Steady.untilEndFrom (h : d.Steady) (consumes : d.Consumes) (found : List α) :
    CutSafe (untilEndFrom d consumes found) where
  offEnd := by
    intro c more items c' e m accepted failed
    change Decoder.untilEndFrom d consumes found (c.offer more) = _ at accepted
    change Decoder.untilEndFrom d consumes found c = _ at failed
    induction found, c using Decoder.untilEndFrom.induct d consumes with
    | case1 found c hend =>
        rw [untilEndFrom_of_atEnd hend] at failed
        cases failed
    | case2 found c hend e' n item =>
        have hend' : c.atEnd = false := Bool.eq_false_iff.mpr hend
        have more_ahead := atEnd_offer hend' more
        rw [untilEndFrom_of_error hend' item] at failed
        cases failed
        by_cases inside : e.OffEnd
        · exact inside
        · have again : d (c.offer more) = (.error e, m.offer more) := h.error item inside more
          rw [untilEndFrom_of_error more_ahead again] at accepted
          cases accepted
    | case3 found c hend a n item ih =>
        have hend' : c.atEnd = false := Bool.eq_false_iff.mpr hend
        have more_ahead := atEnd_offer hend' more
        have again : d (c.offer more) = (.ok a, n.offer more) := h.ok item more
        rw [untilEndFrom_of_ok hend' item] at failed
        rw [untilEndFrom_of_ok more_ahead again] at accepted
        exact ih accepted failed

theorem Steady.untilEnd (h : d.Steady) (consumes : d.Consumes) : (untilEnd d consumes).CutSafe :=
  h.untilEndFrom consumes []

end Decoder
end Mqtt

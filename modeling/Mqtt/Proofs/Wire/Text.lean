import Mqtt.Proofs.Text.Utf8
import Mqtt.Proofs.Wire.Failing

/-!
# Texts in a body

A text is read exactly where it was written. Where a length prefix and as many bytes are ahead, the
bytes alone decide what is found: a text, a text with U+0000 in it, or no text at all. Bytes that
are no text are blamed on a surrogate if the first two bytes of one occur in them, whether or not
the third follows.
-/
namespace Mqtt.Decoder

open Utf8

variable {raw : Bytes}

/-! ### Bytes taken for a text -/

theorem textOf_ofText (s : String) :
    textOf (Bytes.ofText s) = if '\x00' ∈ s.toList then .error .containsNull else .ok s := by
  rw [textOf, Bytes.text?_eq_some_iff.mpr rfl]

theorem textOf_of_not_wellFormed (h : ¬ WellFormed raw) :
    textOf raw = .error (if hasSurrogate raw then .surrogates else .invalidUtf8) := by
  cases found : Bytes.text? raw with
  | none => rw [textOf, found]
  | some s =>
      have same : raw = Bytes.ofText s := Bytes.text?_eq_some_iff.mp found
      exact absurd (wellFormed_iff.mpr ⟨s, same⟩) h

theorem exists_textOf_eq_ok_iff : (∃ s, textOf raw = .ok s) ↔ WellFormed raw ∧ 0 ∉ raw := by
  simp only [textOf_eq_ok_iff, wellFormed_iff]
  constructor
  · intro h
    obtain ⟨s, clean, rfl⟩ := h
    exact ⟨⟨s, rfl⟩, mt zero_mem_ofText.mp clean⟩
  · intro h
    obtain ⟨⟨s, rfl⟩, clean⟩ := h
    exact ⟨s, mt zero_mem_ofText.mpr clean, rfl⟩

theorem textOf_eq_containsNull_iff :
    textOf raw = .error .containsNull ↔ WellFormed raw ∧ 0 ∈ raw := by
  by_cases well : WellFormed raw
  · obtain ⟨s, rfl⟩ := wellFormed_iff.mp well
    rw [textOf_ofText, zero_mem_ofText]
    by_cases null : '\x00' ∈ s.toList <;> simp [null, well]
  · rw [textOf_of_not_wellFormed well]
    cases hasSurrogate raw <;> simp [well]

/-- What is blamed on a surrogate is never well-formed, so that need not be asked for. -/
theorem textOf_eq_surrogates_iff : textOf raw = .error .surrogates ↔ hasSurrogate raw = true := by
  by_cases well : WellFormed raw
  · have none : hasSurrogate raw = false := well.hasSurrogate_eq_false
    obtain ⟨s, rfl⟩ := wellFormed_iff.mp well
    rw [textOf_ofText, none]
    by_cases null : '\x00' ∈ s.toList <;> simp [null]
  · rw [textOf_of_not_wellFormed well]
    cases hasSurrogate raw <;> simp

theorem textOf_eq_invalidUtf8_iff :
    textOf raw = .error .invalidUtf8 ↔ ¬ WellFormed raw ∧ hasSurrogate raw = false := by
  by_cases well : WellFormed raw
  · obtain ⟨s, rfl⟩ := wellFormed_iff.mp well
    rw [textOf_ofText]
    by_cases null : '\x00' ∈ s.toList <;> simp [null, well]
  · rw [textOf_of_not_wellFormed well]
    cases hasSurrogate raw <;> simp [well]

/-- The content of a text is never found to be too short. -/
theorem textOf_ne_outOfData (raw : Bytes) (needed available : Nat) :
    textOf raw ≠ .error (.outOfData needed available) := by
  by_cases well : WellFormed raw
  · obtain ⟨s, rfl⟩ := wellFormed_iff.mp well
    rw [textOf_ofText]
    by_cases null : '\x00' ∈ s.toList <;> simp [null]
  · rw [textOf_of_not_wellFormed well]
    cases hasSurrogate raw <;> simp

/-! ### Texts that are read -/

/-- **Where a text is read, and what else can happen.** A text is read exactly where the bytes ahead
open with what it is written as, and all of that is consumed: two bytes of length, high byte first,
and its UTF-8 form, of at most 65535 bytes and without U+0000. If a length prefix and as many bytes
are ahead, they are a text, or well-formed with U+0000 in it, or not well-formed, and the result
says which. Otherwise the field runs off the end. What is well-formed is said of the bytes alone;
it is what the texts are written as. -/
theorem text_exact (c : Cursor) :
    let result := (text.read c).1
    (∀ (s : String) (c' : Cursor), text.read c = (.ok s, c')
        ↔ ∃ w, Field.encodeText s = .ok w ∧ c.ahead = w ++ c'.ahead
            ∧ c'.position = c.position + w.length)
      ∧ (∀ (s : String) (w : Bytes), Field.encodeText s = .ok w
          ↔ '\x00' ∉ s.toList ∧ (Bytes.ofText s).length ≤ 65535
              ∧ w = Bytes.ofWord (UInt16.ofNat (Bytes.ofText s).length) ++ Bytes.ofText s)
      ∧ (∀ raw, c.Announces raw →
          ((∃ s, result = .ok s) ↔ WellFormed raw ∧ 0 ∉ raw)
            ∧ (result = .error .containsNull ↔ WellFormed raw ∧ 0 ∈ raw)
            ∧ (result = .error .surrogates ∨ result = .error .invalidUtf8 ↔ ¬ WellFormed raw))
      ∧ ((∃ needed available, result = .error (.outOfData needed available))
          ↔ ∀ raw, ¬ c.Announces raw)
      ∧ ∀ raw, WellFormed raw ↔ ∃ s, raw = Bytes.ofText s := by
  intro result
  refine ⟨fun s c' => ?_, fun s w => ?_, fun raw present => ?_, ?_, fun raw => wellFormed_iff⟩
  · rw [reads_text c s c']
    constructor
    · intro h
      obtain ⟨w, past, written⟩ := h
      exact ⟨w, written, past.ahead, past.position⟩
    · intro h
      obtain ⟨w, written, ahead, position⟩ := h
      exact ⟨w, ⟨ahead, position⟩, written⟩
  · rw [Field.encodeText_eq_ok_iff, Field.encodeData_eq_ok_iff, Nat.lt_succ_iff]
  · have content : result = textOf raw := read_text_of_announces present
    rw [content]
    refine ⟨exists_textOf_eq_ok_iff, textOf_eq_containsNull_iff, ?_⟩
    rw [textOf_eq_surrogates_iff, textOf_eq_invalidUtf8_iff]
    constructor
    · intro h well
      rcases h with holds | ⟨broken, -⟩
      · rw [well.hasSurrogate_eq_false] at holds
        cases holds
      · exact broken well
    · intro broken
      cases holds : hasSurrogate raw with
      | true => exact .inl rfl
      | false => exact .inr ⟨broken, rfl⟩
  · constructor
    · intro h raw present
      obtain ⟨needed, available, off⟩ := h
      have content : result = textOf raw := read_text_of_announces present
      rw [content] at off
      exact textOf_ne_outOfData raw needed available off
    · exact exists_read_text_of_not_announces

/-- U+FEFF at the front is kept, and what follows the text is left. -/
example : text.read (.start [0, 4, 0xEF, 0xBB, 0xBF, 0x41, 0xBF])
    = (.ok "\uFEFFA", ⟨6, [0xBF]⟩) := by
  cbv

/-! ### Bytes that are no text -/

/-- **What bytes that are no text are blamed on.** It is a surrogate exactly if one occurs in them,
or the first two bytes of one without the third; all others are only not well-formed. Where no
surrogate is cut short, it is a surrogate exactly if one occurs. Nothing that is well-formed is
blamed. The surrogates are the bytes from 0xED 0xA0 0x80 to 0xED 0xBF 0xBF. -/
theorem text_diagnosis {c : Cursor} (h : c.Announces raw) :
    let result := (text.read c).1
    (result = .error .surrogates ↔ HoldsSurrogate raw ∨ CutSurrogate raw)
      ∧ (result = .error .invalidUtf8
          ↔ ¬ WellFormed raw ∧ ¬ HoldsSurrogate raw ∧ ¬ CutSurrogate raw)
      ∧ (¬ WellFormed raw → ¬ CutSurrogate raw →
          (result = .error .surrogates ↔ HoldsSurrogate raw)
            ∧ (result = .error .invalidUtf8 ↔ ¬ HoldsSurrogate raw))
      ∧ (WellFormed raw → result ≠ .error .surrogates ∧ result ≠ .error .invalidUtf8)
      ∧ ∀ s, Surrogate s
          ↔ ∃ x y : UInt8, s = [0xED, x, y] ∧ 0xA0 ≤ x.toNat ∧ x.toNat ≤ 0xBF
              ∧ 0x80 ≤ y.toNat ∧ y.toNat ≤ 0xBF := by
  intro result
  have content : result = textOf raw := read_text_of_announces h
  have blamed : result = .error .surrogates ↔ HoldsSurrogate raw ∨ CutSurrogate raw := by
    rw [content, textOf_eq_surrogates_iff, hasSurrogate_iff]
  have others : result = .error .invalidUtf8
      ↔ ¬ WellFormed raw ∧ ¬ HoldsSurrogate raw ∧ ¬ CutSurrogate raw := by
    rw [content, textOf_eq_invalidUtf8_iff, Bool.eq_false_iff, ne_eq, hasSurrogate_iff, not_or]
  refine ⟨blamed, others, fun broken uncut => ?_, fun well => ?_, fun s => surrogate_iff⟩
  · rw [blamed, others]
    simp [broken, uncut]
  · rw [content, ne_eq, ne_eq, textOf_eq_surrogates_iff, textOf_eq_invalidUtf8_iff,
      well.hasSurrogate_eq_false]
    simp [well]

/-- A surrogate between two stray bytes. -/
theorem text_diagnosis_between :
    (Cursor.start [0, 5, 0xC3, 0xED, 0xA0, 0x80, 0xBF]).Announces [0xC3, 0xED, 0xA0, 0x80, 0xBF]
      ∧ (text.read (.start [0, 5, 0xC3, 0xED, 0xA0, 0x80, 0xBF])).1 = .error .surrogates := by
  have present : (Cursor.start [0, 5, 0xC3, 0xED, 0xA0, 0x80, 0xBF]).Announces
      [0xC3, 0xED, 0xA0, 0x80, 0xBF] := ⟨5, rfl, [], rfl⟩
  have surrogate : Surrogate [0xED, 0xA0, 0x80] := ⟨0xD800, by decide, by decide, rfl⟩
  exact ⟨present,
    (text_diagnosis present).1.mpr (.inl ⟨_, surrogate, [0xC3], [0xBF], rfl⟩)⟩

/-- Bytes that are blamed on a surrogate, when none occurs in them: its third byte is missing. -/
theorem text_cut_surrogate :
    let c := Cursor.start [0, 2, 0xED, 0xA0]
    let raw := [0xED, 0xA0]
    c.Announces raw ∧ ¬ WellFormed raw ∧ ¬ HoldsSurrogate raw
      ∧ (text.read c).1 = .error .surrogates := by
  intro c raw
  have present : c.Announces raw := ⟨2, rfl, [], rfl⟩
  have front : hasSurrogate raw = true := by decide
  refine ⟨present, fun well => ?_, fun holds => ?_, ?_⟩
  · rw [well.hasSurrogate_eq_false] at front
    cases front
  · obtain ⟨s, surrogate, within⟩ := holds
    obtain ⟨x, y, rfl, -⟩ := surrogate_iff.mp surrogate
    have three_le_two : 3 ≤ 2 := within.length_le
    omega
  · rw [read_text_of_announces present]
    exact textOf_eq_surrogates_iff.mpr front

end Mqtt.Decoder

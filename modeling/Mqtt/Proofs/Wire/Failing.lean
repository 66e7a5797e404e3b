import Mqtt.Proofs.Wire.Reading

/-!
# How a field fails

A field fails where it runs off the end of the body, and a text also where its bytes are no text.
What is consumed by then is fixed: nothing where the first bytes are not all there, the length
prefix where it reaches past the end, and all of a text that is refused for its content.
-/
namespace Mqtt

/-- A length prefix is ahead, high byte first, and as many bytes as it says. -/
def Cursor.Announces (c : Cursor) (raw : Bytes) : Prop :=
  ∃ size : UInt16, size.toNat = raw.length ∧ Bytes.ofWord size ++ raw <+: c.ahead

namespace Decoder

variable {c c' : Cursor} {e : DecodeError} {raw : Bytes}

/-! ### Fields of fixed length -/

theorem read_take_eq_error_iff {n : Nat} :
    (take n).read c = (.error e, c')
      ↔ c.remaining < n ∧ e = .outOfData n c.remaining ∧ c' = c := by
  have short : (c.ahead.take n).length < n ↔ c.remaining < n := by
    rw [List.length_take, Cursor.remaining]
    omega
  rw [read, take]
  by_cases few : c.remaining < n
  · rw [if_pos (short.mpr few)]
    simp [few, eq_comm]
  · rw [if_neg (mt short.mp few)]
    simp [few]

theorem read_byte_eq_error_iff :
    byte.read c = (.error e, c')
      ↔ c.remaining < 1 ∧ e = .outOfData 1 c.remaining ∧ c' = c := by
  rcases c with ⟨n, _ | ⟨b, ahead⟩⟩
  · simp [read, byte, Cursor.remaining, eq_comm]
  · simp [read, byte, Cursor.remaining]

theorem read_word_eq_error_iff :
    word.read c = (.error e, c')
      ↔ c.remaining < 2 ∧ e = .outOfData 2 c.remaining ∧ c' = c := by
  rcases c with ⟨n, _ | ⟨high, _ | ⟨low, ahead⟩⟩⟩
  · simp [read, word, Cursor.remaining, eq_comm]
  · simp [read, word, Cursor.remaining, eq_comm]
  · have enough : ¬ ahead.length + 1 + 1 < 2 := by omega
    simp [read, word, Cursor.remaining, enough]

/-! ### Prefixed fields -/

theorem read_data_eq_ok_iff :
    data.read c = (.ok raw, c')
      ↔ ∃ size : UInt16, size.toNat = raw.length ∧ c.Past (Bytes.ofWord size ++ raw) c' := by
  rw [reads_data c raw c']
  simp only [Field.encode, Field.encodeData_eq_ok_iff_exists]
  constructor
  · intro h
    obtain ⟨_, past, size, same, rfl⟩ := h
    exact ⟨size, same, past⟩
  · intro h
    obtain ⟨size, same, past⟩ := h
    exact ⟨_, past, size, same, rfl⟩

/-- **Prefixed data fails** where there is no length prefix, which is not consumed then, and where
the prefix reaches past the end, which is consumed. -/
theorem read_data_eq_error_iff :
    data.read c = (.error e, c')
      ↔ (c.remaining < 2 ∧ e = .outOfData 2 c.remaining ∧ c' = c)
        ∨ ∃ size : UInt16, c.Past (Bytes.ofWord size) c' ∧ c'.remaining < size.toNat
            ∧ e = .outOfData size.toNat c'.remaining := by
  rw [data, read_bind_eq_error_iff, read_word_eq_error_iff]
  refine or_congr_right ?_
  constructor
  · intro h
    obtain ⟨size, m, hword, htake⟩ := h
    obtain ⟨few, rfl, rfl⟩ := read_take_eq_error_iff.mp htake
    obtain ⟨_, past, ⟨⟩⟩ := (reads_word c size c').mp hword
    exact ⟨size, past, few, rfl⟩
  · intro h
    obtain ⟨size, past, few, rfl⟩ := h
    exact ⟨size, c', (reads_word c size c').mpr ⟨_, past, rfl⟩,
      read_take_eq_error_iff.mpr ⟨few, rfl, rfl⟩⟩

/-- **A text fails** like data, and behind all of its bytes if they are no text. -/
theorem read_text_eq_error_iff :
    text.read c = (.error e, c')
      ↔ data.read c = (.error e, c')
        ∨ ∃ raw, data.read c = (.ok raw, c') ∧ textOf raw = .error e := by
  refine read_bind_eq_error_iff.trans (or_congr_right ?_)
  constructor
  · intro h
    obtain ⟨raw, m, hdata, hraw⟩ := h
    obtain ⟨refused, rfl⟩ := Prod.mk.inj hraw
    exact ⟨raw, hdata, refused⟩
  · intro h
    obtain ⟨raw, hdata, refused⟩ := h
    exact ⟨raw, c', hdata, Prod.ext refused rfl⟩

/-! ### Fields that are all there -/

theorem announces_iff : c.Announces raw ↔ ∃ c', data.read c = (.ok raw, c') := by
  simp only [read_data_eq_ok_iff]
  constructor
  · intro h
    obtain ⟨size, same, left, ahead⟩ := h
    exact ⟨⟨_, left⟩, size, same, ahead.symm, rfl⟩
  · intro h
    obtain ⟨c', size, same, past⟩ := h
    exact ⟨size, same, c'.ahead, past.ahead.symm⟩

/-- **A field that is all there is judged by its content**, whatever follows it. -/
theorem read_text_of_announces (h : c.Announces raw) : (text.read c).1 = textOf raw := by
  obtain ⟨c', hdata⟩ := announces_iff.mp h
  rcases htext : text.read c with ⟨_ | s, m⟩
  · rcases read_text_eq_error_iff.mp htext with failed | ⟨raw', found, refused⟩
    · rw [hdata] at failed
      cases failed
    · rw [hdata] at found
      cases found
      exact refused.symm
  · obtain ⟨raw', m', found, accepted⟩ := read_bind_eq_ok_iff.mp htext
    rw [hdata] at found
    cases found
    exact (Prod.mk.inj accepted).1.symm

/-- A field that is not all there runs off the end. -/
theorem exists_read_text_of_not_announces (h : ∀ raw, ¬ c.Announces raw) :
    ∃ needed available, (text.read c).1 = .error (.outOfData needed available) := by
  rcases hdata : data.read c with ⟨e | raw, c'⟩
  · have failed : text.read c = (.error e, c') := read_text_eq_error_iff.mpr (.inl hdata)
    rw [failed]
    rcases read_data_eq_error_iff.mp hdata with ⟨-, rfl, -⟩ | ⟨size, -, -, rfl⟩
    · exact ⟨_, _, rfl⟩
    · exact ⟨_, _, rfl⟩
  · exact absurd (announces_iff.mpr ⟨c', hdata⟩) (h raw)

end Decoder
end Mqtt

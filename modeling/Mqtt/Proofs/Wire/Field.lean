import Mqtt.Wire.Cursor
import Mqtt.Wire.Field

/-!
# Fields as bytes

When a field can be written, and as which bytes; and the same for words and texts read back. Two
bytes are the form of one word, a text has one form in UTF-8, and binary data stands behind the word
that is its length, if there is such a word.
-/
namespace Mqtt

namespace Bytes

@[simp] theorem ofWord_word (high low : UInt8) : ofWord (word high low) = [high, low] := by
  have hhigh := high.toNat_lt
  have hlow := low.toNat_lt
  have hword : (word high low).toNat = 256 * high.toNat + low.toNat := by
    rw [word, UInt16.toNat_ofNat']
    omega
  have h1 : (256 * high.toNat + low.toNat) / 256 = high.toNat := by omega
  have h2 : (256 * high.toNat + low.toNat) % 256 = low.toNat := by omega
  rw [ofWord, hword, h1, h2, UInt8.ofNat_toNat, UInt8.ofNat_toNat]

theorem text?_eq_some_iff {b : Bytes} {s : String} : text? b = some s ↔ b = ofText s := by
  rw [text?, String.fromUTF8?, ofText]
  constructor
  · intro h
    split at h
    · cases h
      simp [String.fromUTF8]
    · cases h
  · rintro rfl
    rw [Array.toArray_toList, String.toUTF8_eq_toByteArray]
    exact dif_pos s.isValidUTF8

end Bytes

namespace Field

theorem encodeData_eq_ok_iff {value b : Bytes} :
    encodeData value = .ok b
      ↔ value.length < 65536 ∧ b = Bytes.ofWord (UInt16.ofNat value.length) ++ value := by
  rw [encodeData]
  by_cases h : value.length < 65536
  · simp [h, eq_comm]
  · simp [h]

/-- Data is written behind the word that is its length, if there is one. -/
theorem encodeData_eq_ok_iff_exists {value b : Bytes} :
    encodeData value = .ok b
      ↔ ∃ size : UInt16, size.toNat = value.length ∧ b = Bytes.ofWord size ++ value := by
  rw [encodeData_eq_ok_iff]
  constructor
  · intro h
    obtain ⟨fits, rfl⟩ := h
    refine ⟨UInt16.ofNat value.length, ?_, rfl⟩
    rw [UInt16.toNat_ofNat', Nat.mod_eq_of_lt fits]
  · intro h
    obtain ⟨size, same, rfl⟩ := h
    rw [← same, UInt16.ofNat_toNat]
    exact ⟨size.toNat_lt, rfl⟩

theorem encodeText_eq_ok_iff {value : String} {b : Bytes} :
    encodeText value = .ok b
      ↔ '\x00' ∉ value.toList ∧ encodeData (Bytes.ofText value) = .ok b := by
  rw [encodeText]
  by_cases h : '\x00' ∈ value.toList <;> simp [h]

end Field

theorem Decoder.textOf_eq_ok_iff {raw : Bytes} {s : String} :
    textOf raw = .ok s ↔ '\x00' ∉ s.toList ∧ raw = Bytes.ofText s := by
  rw [textOf, ← Bytes.text?_eq_some_iff]
  cases Bytes.text? raw with
  | none => simp
  | some t =>
      by_cases h : '\x00' ∈ t.toList
      · simp only [h, if_true, reduceCtorEq, Option.some.injEq, false_iff, not_and]
        rintro hs rfl
        exact hs h
      · simp only [h, if_false, Except.ok.injEq, Option.some.injEq]
        constructor
        · rintro rfl
          exact ⟨h, rfl⟩
        · exact And.right

end Mqtt

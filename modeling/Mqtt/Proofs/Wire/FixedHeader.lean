import Mqtt.Proofs.Wire.Varint
import Mqtt.Wire.FixedHeader

/-!
# Fixed headers, there and back

The laws of variable byte integers carried over to the header that opens every packet: reading
undoes writing, a verdict other than `incomplete` is final, and the written header is the shortest
of those with its remaining length. A header is written behind a buffer as on its own, or not at
all, since its length is checked before its first byte is written.
-/
namespace Mqtt

/-- What a buffer holds behind an attempt to add to it, and what is wrong if it failed. -/
def Bytes.extend (buffer : Bytes) : Except EncodeError Bytes → Bytes × Option EncodeError
  | .ok bytes => (buffer ++ bytes, none)
  | .error e => (buffer, some e)

namespace FixedHeader

/-- The length is checked first, so no first byte is written in front of a length that cannot be. -/
theorem appendTo_eq (buffer : Bytes) (kind : Kind) (flags remaining : Nat) :
    appendTo buffer kind flags remaining = buffer.extend (encode kind flags remaining) := by
  rw [appendTo, encode, Varint.encode?]
  by_cases h : remaining ≤ Varint.maximum
  · rw [if_neg (Nat.not_lt.mpr h), if_pos h, Varint.appendTo_of_le h]
    simp [Bytes.extend]
  · simp [h, Nat.lt_of_not_le h, Bytes.extend]

/-- A header is written exactly if its length can be told. -/
theorem encode_eq_ok_iff {kind : Kind} {flags n : Nat} {w : Bytes} :
    encode kind flags n = .ok w
      ↔ n ≤ Varint.maximum ∧ w = firstByte kind flags :: Varint.encode n := by
  rw [encode, Varint.encode?]
  by_cases h : n ≤ Varint.maximum
  · simp [h, eq_comm]
  · simp [h]

theorem length_of_encode {kind : Kind} {flags n : Nat} {w : Bytes}
    (h : encode kind flags n = .ok w) : w.length = 1 + Varint.size n := by
  obtain ⟨hn, rfl⟩ := encode_eq_ok_iff.mp h
  rw [List.length_cons, Varint.length_encode hn, Nat.add_comm]

theorem toNat_firstByte (kind : Kind) (flags : Nat) :
    (firstByte kind flags).toNat = 16 * kind.code + flags % 16 := by
  have hcode := kind.code_lt
  rw [firstByte, UInt8.toNat_ofNat']
  omega

/-- **Reading undoes writing**, whatever follows the header. Of the flags only the low four bits
are written. -/
theorem decode_encode_append {kind : Kind} {flags n : Nat} {w : Bytes}
    (h : encode kind flags n = .ok w) (more : Bytes) :
    decode (w ++ more) = .complete ⟨kind.code, flags % 16, n⟩ (1 + Varint.size n) := by
  obtain ⟨hn, rfl⟩ := encode_eq_ok_iff.mp h
  have hcode : (firstByte kind flags).toNat / 16 = kind.code := by
    rw [toNat_firstByte]; omega
  have hflags : (firstByte kind flags).toNat % 16 = flags % 16 := by
    rw [toNat_firstByte]; omega
  rw [List.cons_append, decode, Varint.decode_encode_append hn, Scan.map, hcode, hflags,
    Nat.add_comm]

/-- **A verdict is final**: once a byte string tells a header, or that there is none, longer ones
tell the same. -/
theorem decode_append {b : Bytes} (h : decode b ≠ .incomplete) (more : Bytes) :
    decode (b ++ more) = decode b := by
  cases b with
  | nil => exact absurd rfl h
  | cons first rest =>
      rw [decode, ne_eq, Scan.map_eq_incomplete_iff] at h
      rw [List.cons_append, decode, decode, Varint.decode_append h]

theorem decode_append_of_complete {b : Bytes} {header : FixedHeader} {size : Nat}
    (h : decode b = .complete header size) (more : Bytes) :
    decode (b ++ more) = .complete header size := by
  rw [decode_append (by rw [h]; nofun), h]

theorem decode_append_of_overlong {b : Bytes} (h : decode b = .overlong) (more : Bytes) :
    decode (b ++ more) = .overlong := by
  rw [decode_append (by rw [h]; nofun), h]

theorem size_le_of_decode {b : Bytes} {header : FixedHeader} {size : Nat}
    (h : decode b = .complete header size) : size ≤ b.length := by
  cases b with
  | nil => cases h
  | cons first rest =>
      obtain ⟨n, k, hk, -, rfl⟩ := Scan.map_eq_complete_iff.mp h
      exact Nat.succ_le_succ (Varint.size_le_of_decodeWithin hk)

/-- A header is read from its own bytes alone, which are then used up. -/
theorem decode_take_length {b : Bytes} {header : FixedHeader} {size : Nat}
    (h : decode b = .complete header size) :
    decode (b.take size) = .complete header (b.take size).length := by
  rw [List.length_take_of_le (size_le_of_decode h)]
  cases b with
  | nil => cases h
  | cons first rest =>
      obtain ⟨n, k, hk, rfl, rfl⟩ := Scan.map_eq_complete_iff.mp h
      rw [List.take_succ_cons, decode, Varint.decode, Varint.decodeWithin_take hk, Scan.map]

/-- Code and flags are the halves of a byte. -/
theorem halves_lt_of_decode {b : Bytes} {header : FixedHeader} {size : Nat}
    (h : decode b = .complete header size) : header.code < 16 ∧ header.flags < 16 := by
  cases b with
  | nil => cases h
  | cons first rest =>
      obtain ⟨n, k, -, rfl, -⟩ := Scan.map_eq_complete_iff.mp h
      have hfirst := first.toNat_lt
      exact ⟨by simp only; omega, by simp only; omega⟩

/-- An unfinished header takes at most four bytes. -/
theorem length_le_of_decode_incomplete {b : Bytes} (h : decode b = .incomplete) :
    b.length ≤ 4 := by
  cases b with
  | nil => simp
  | cons first rest =>
      rw [decode, Scan.map_eq_incomplete_iff] at h
      have hrest := (Varint.decodeWithin_eq_incomplete_iff.mp h).1
      rw [List.length_cons]
      omega

/-- A length is overlong exactly if the four bytes behind the first have their top bit set. -/
theorem decode_eq_overlong_iff {b : Bytes} :
    decode b = .overlong ↔ 5 ≤ b.length ∧ ∀ x ∈ (b.drop 1).take 4, 128 ≤ x.toNat := by
  cases b with
  | nil => simp [decode]
  | cons first rest =>
      rw [decode, Scan.map_eq_overlong_iff, Varint.decode, Varint.decodeWithin_eq_overlong_iff]
      simp

/-- **The written header is the shortest** of all forms that are read as headers of the same
remaining length. -/
theorem length_le_of_decode {kind : Kind} {flags : Nat} {w b : Bytes} {header : FixedHeader}
    {size : Nat} (h : encode kind flags header.remaining = .ok w)
    (hb : decode b = .complete header size) : w.length ≤ size := by
  obtain ⟨-, rfl⟩ := encode_eq_ok_iff.mp h
  cases b with
  | nil => cases hb
  | cons first rest =>
      obtain ⟨n, k, hk, rfl, rfl⟩ := Scan.map_eq_complete_iff.mp hb
      exact Nat.succ_le_succ (Varint.length_encode_le hk)

end FixedHeader
end Mqtt

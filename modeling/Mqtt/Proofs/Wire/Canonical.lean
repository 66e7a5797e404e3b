import Mathlib.Algebra.BigOperators.Ring.List
import Mathlib.Algebra.Order.Ring.Nat
import Mathlib.Tactic.Ring
import Mqtt.Proofs.Wire.FixedHeader

/-!
# Shortest forms

Numbers are written in their shortest form, and read in longer ones too. What is read is the sum of
the digits up to the first byte without its top bit, each at its place; it fits into four bytes, and
to write it again takes no more bytes than were read.
-/
namespace Mqtt

namespace Varint

/-! ### What the digits stand for -/

/-- The low seven bits of each byte, the first byte at the place of the ones, the others each at a
place 128 times as high as that before it. -/
def digitSum (form : Bytes) : Nat :=
  (form.mapIdx fun i x => x.toNat % 128 * 128 ^ i).sum

theorem digitSum_cons (x : UInt8) (form : Bytes) :
    digitSum (x :: form) = x.toNat % 128 + 128 * digitSum form := by
  have shift : (form.mapIdx fun i x => x.toNat % 128 * 128 ^ (i + 1)).sum
      = 128 * (form.mapIdx fun i x => x.toNat % 128 * 128 ^ i).sum := by
    rw [List.mapIdx_eq_zipIdx_map, List.mapIdx_eq_zipIdx_map, ← List.sum_map_mul_left]
    congr 2
    funext p
    ring
  rw [digitSum, List.mapIdx_cons, List.sum_cons, shift, Nat.pow_zero, Nat.mul_one, digitSum]

theorem digitSum_lt (form : Bytes) : digitSum form < 128 ^ form.length := by
  induction form with
  | nil => simp [digitSum]
  | cons x form ih =>
      have digit := Nat.mod_lt x.toNat (show 0 < 128 by decide)
      rw [digitSum_cons, List.length_cons, Nat.pow_succ]
      omega

/-- **What is read, from which bytes**: the sum of the digits up to the first byte without its top
bit, which must be among those that the number may take. -/
theorem decodeWithin_eq_complete_iff {places : Nat} {b : Bytes} {n k : Nat} :
    decodeWithin places b = .complete n k
      ↔ ∃ front last rest, b = front ++ last :: rest ∧ front.length < places
          ∧ (∀ x ∈ front, 128 ≤ x.toNat) ∧ last.toNat < 128
          ∧ n = digitSum (front ++ [last]) ∧ k = front.length + 1 := by
  induction places generalizing b n k with
  | zero => simp [decodeWithin]
  | succ places ih =>
      cases b with
      | nil => simp [decodeWithin]
      | cons first rest =>
          by_cases small : first.toNat < 128
          · have alone : digitSum [first] = first.toNat := by
              rw [digitSum_cons, Nat.mod_eq_of_lt small]
              rfl
            rw [decodeWithin, if_pos small]
            constructor
            · intro h
              cases h
              exact ⟨[], first, rest, rfl, Nat.succ_pos _, List.forall_mem_nil _, small,
                alone.symm, rfl⟩
            · intro h
              obtain ⟨front, last, rest', same, -, high, -, rfl, rfl⟩ := h
              cases front with
              | nil =>
                  obtain ⟨rfl, -⟩ := List.cons.inj same
                  rw [List.nil_append, alone]
                  rfl
              | cons x front =>
                  obtain ⟨rfl, -⟩ := List.cons.inj same
                  have := high first (List.mem_cons_self ..)
                  omega
          · rw [decodeWithin, if_neg small, Scan.map_eq_complete_iff]
            constructor
            · intro h
              obtain ⟨m, j, hm, rfl, rfl⟩ := h
              obtain ⟨front, last, rest', rfl, short, high, low, rfl, rfl⟩ := ih.mp hm
              refine ⟨first :: front, last, rest', rfl, Nat.succ_lt_succ short, ?_, low, ?_, rfl⟩
              · exact List.forall_mem_cons.mpr ⟨Nat.not_lt.mp small, high⟩
              · rw [List.cons_append, digitSum_cons]
            · intro h
              obtain ⟨front, last, rest', same, short, high, low, rfl, rfl⟩ := h
              cases front with
              | nil =>
                  obtain ⟨rfl, -⟩ := List.cons.inj same
                  exact absurd low small
              | cons x front =>
                  obtain ⟨rfl, rfl⟩ := List.cons.inj same
                  refine ⟨_, _, ih.mpr ⟨front, last, rest', rfl, Nat.lt_of_succ_lt_succ short,
                    (List.forall_mem_cons.mp high).2, low, rfl, rfl⟩, ?_, rfl⟩
                  rw [List.cons_append, digitSum_cons]

/-- A number that is read fits into the bytes that it may take. -/
theorem lt_of_decodeWithin {places : Nat} {b : Bytes} {n k : Nat}
    (h : decodeWithin places b = .complete n k) : n < 128 ^ k ∧ k ≤ places := by
  obtain ⟨front, last, rest, -, short, -, -, rfl, rfl⟩ := decodeWithin_eq_complete_iff.mp h
  have below := digitSum_lt (front ++ [last])
  rw [List.length_append, List.length_singleton] at below
  exact ⟨below, short⟩

theorem le_maximum_of_decode {b : Bytes} {n k : Nat} (h : decode b = .complete n k) :
    n ≤ maximum := by
  obtain ⟨below, few⟩ := lt_of_decodeWithin h
  have most : 128 ^ k ≤ 128 ^ 4 := Nat.pow_le_pow_right (by decide) few
  rw [maximum]
  omega

/-! ### Shortest forms -/

/-- There is no other form as short as the written one. The induction takes a digit at a time. -/
theorem take_eq_encode {places : Nat} {b : Bytes} {n k : Nat}
    (h : decodeWithin places b = .complete n k) (short : k ≤ (encode n).length) :
    b.take k = encode n := by
  induction places generalizing b n k with
  | zero => cases h
  | succ places ih =>
      cases b with
      | nil => cases h
      | cons first rest =>
          by_cases small : first.toNat < 128
          · rw [decodeWithin, if_pos small] at h
            cases h
            rw [encode_of_lt small, UInt8.ofNat_toNat]
            rfl
          · rw [decodeWithin, if_neg small] at h
            obtain ⟨m, j, hm, rfl, rfl⟩ := Scan.map_eq_complete_iff.mp h
            have hfirst := first.toNat_lt
            have some_more : 1 ≤ j := by
              obtain ⟨front, -, -, -, -, -, -, -, rfl⟩ := decodeWithin_eq_complete_iff.mp hm
              omega
            by_cases single : first.toNat % 128 + 128 * m < 128
            · rw [encode_of_lt single, List.length_singleton] at short
              omega
            · have others : (first.toNat % 128 + 128 * m) / 128 = m := by omega
              have digit : (first.toNat % 128 + 128 * m) % 128 + 128 = first.toNat := by omega
              rw [encode_of_le (Nat.not_lt.mp single), others, List.length_cons] at short
              rw [encode_of_le (Nat.not_lt.mp single), others, digit, UInt8.ofNat_toNat,
                List.take_succ_cons, ih hm (Nat.le_of_succ_le_succ short)]

/-- **A form is written again exactly if there is no shorter one** of the same number. -/
theorem encode_eq_take_iff {b : Bytes} {n k : Nat} (h : decode b = .complete n k) :
    encode n = b.take k ↔ ∀ b' k', decode b' = .complete n k' → k ≤ k' := by
  constructor
  · intro same b' k' h'
    have length : (encode n).length = k := by
      rw [same, List.length_take_of_le (size_le_of_decodeWithin h)]
    rw [← length]
    exact length_encode_le h'
  · intro shortest
    have fits := le_maximum_of_decode h
    have written := decode_encode_append fits []
    have short := shortest _ _ written
    rw [← length_encode fits] at short
    exact (take_eq_encode h short).symm

end Varint

/-- A header that is written is read back, whatever the buffer held and whatever follows. -/
theorem FixedHeader.exists_appendTo (kind : Kind) (flags : Nat) {n : Nat} (h : n ≤ Varint.maximum)
    (buffer : Bytes) :
    ∃ w, appendTo buffer kind flags n = (buffer ++ w, none) ∧ w.length = 1 + Varint.size n
      ∧ ∀ more, decode (w ++ more)
          = .complete ⟨kind.code, flags % 16, n⟩ (1 + Varint.size n) := by
  have written : encode kind flags n = .ok (firstByte kind flags :: Varint.encode n) :=
    encode_eq_ok_iff.mpr ⟨h, rfl⟩
  refine ⟨_, ?_, length_of_encode written, decode_encode_append written⟩
  rw [appendTo_eq, written, Bytes.extend]

namespace Varint

/-- **Numbers and headers as they are written and read.** A number that four bytes hold is written
behind any buffer in its shortest form, of the length that is computed in advance, and is read back
whatever follows; a larger one is not written at all. Of any bytes, the first four decide: there is
no number if all of them have their top bit set, more bytes are needed if there are fewer and all of
them have it set, and otherwise the digits up to the first byte without it are summed up. Such a sum
fits into four bytes, stands whatever follows, and is not longer when written again; it is then the
same bytes exactly if no shorter form is read as the same number. A header is read back with the
code of its kind, the low four bits of its flags and its length. -/
theorem forms_exact :
    (∀ (n : Nat) (buffer more : Bytes), n ≤ 268435455 →
        appendTo buffer n = (buffer ++ encode n, some (size n))
          ∧ (encode n).length = size n
          ∧ decode (encode n ++ more) = .complete n (size n)
          ∧ ∀ b k, decode b = .complete n k → size n ≤ k)
      ∧ (∀ (n : Nat) (buffer : Bytes), 268435455 < n → appendTo buffer n = (buffer, none))
      ∧ (∀ s : Bytes,
          (decode s = .overlong ↔ 4 ≤ s.length ∧ ∀ x ∈ s.take 4, 128 ≤ x.toNat)
            ∧ (decode s = .incomplete ↔ s.length ≤ 3 ∧ ∀ x ∈ s, 128 ≤ x.toNat)
            ∧ (∀ n k, decode s = .complete n k
                ↔ ∃ front last rest, s = front ++ last :: rest ∧ front.length ≤ 3
                    ∧ (∀ x ∈ front, 128 ≤ x.toNat) ∧ last.toNat < 128
                    ∧ n = digitSum (front ++ [last]) ∧ k = front.length + 1)
            ∧ ∀ n k, decode s = .complete n k →
                n ≤ 268435455 ∧ (∀ more, decode (s ++ more) = .complete n k)
                  ∧ (encode n).length ≤ k
                  ∧ (encode n = s.take k ↔ ∀ b m, decode b = .complete n m → k ≤ m))
      ∧ ∀ (kind : Kind) (flags n : Nat) (buffer : Bytes), n ≤ 268435455 → ∃ w,
          FixedHeader.appendTo buffer kind flags n = (buffer ++ w, none)
            ∧ w.length = 1 + size n
            ∧ ∀ more, FixedHeader.decode (w ++ more)
                = .complete ⟨kind.code, flags % 16, n⟩ (1 + size n) := by
  refine ⟨fun n buffer more fits => ?_, fun n buffer large => appendTo_of_lt large buffer,
    fun s => ⟨decodeWithin_eq_overlong_iff, ?_, fun n k => ?_, fun n k h => ?_⟩,
    fun kind flags n buffer fits => FixedHeader.exists_appendTo kind flags fits buffer⟩
  · refine ⟨appendTo_of_le fits buffer, length_encode fits, decode_encode_append fits more, ?_⟩
    intro b k h
    rw [← length_encode fits]
    exact length_encode_le h
  · rw [← Nat.lt_succ_iff]
    exact decodeWithin_eq_incomplete_iff
  · refine decodeWithin_eq_complete_iff.trans ?_
    simp only [Nat.lt_succ_iff]
  · refine ⟨le_maximum_of_decode h, fun more => ?_, length_encode_le h, encode_eq_take_iff h⟩
    rw [decode_append (by rw [h]; nofun), h]

/-- A longer form of the number 1 is read, and is not written again. -/
example : decode [0x81, 0x80, 0x00, 0xFF] = .complete 1 3 ∧ encode 1 = [1] := by
  cbv

end Varint
end Mqtt

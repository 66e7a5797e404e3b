import Mathlib.Algebra.Group.Nat.Defs
import Mqtt.Wire.Varint

/-!
# Variable byte integers, there and back

Reading what was written gives the number again, whatever follows it. What the front of a byte
string tells about a number is final: bytes that come later change nothing about it. No form of a
number is shorter than the written one, and written behind a buffer it stands as on its own.
-/
namespace Mqtt

namespace Scan

variable {α β : Type}

@[simp] theorem map_eq_incomplete_iff {f : α → β} {grow : Nat → Nat} {r : Scan α} :
    r.map f grow = .incomplete ↔ r = .incomplete := by
  cases r <;> simp [map]

@[simp] theorem map_eq_overlong_iff {f : α → β} {grow : Nat → Nat} {r : Scan α} :
    r.map f grow = .overlong ↔ r = .overlong := by
  cases r <;> simp [map]

theorem map_eq_complete_iff {f : α → β} {grow : Nat → Nat} {r : Scan α} {b : β} {n : Nat} :
    r.map f grow = .complete b n ↔ ∃ a k, r = .complete a k ∧ f a = b ∧ grow k = n := by
  cases r <;> simp [map, and_assoc]

end Scan

namespace Varint

/-! ## The written form -/

theorem encode_of_lt {n : Nat} (h : n < 128) : encode n = [UInt8.ofNat n] := by
  rw [encode, if_pos h]

theorem encode_of_le {n : Nat} (h : 128 ≤ n) :
    encode n = UInt8.ofNat (n % 128 + 128) :: encode (n / 128) := by
  rw [encode, if_neg (Nat.not_lt.mpr h)]

theorem length_encode_ne_zero (n : Nat) : (encode n).length ≠ 0 := by
  rw [encode]
  split <;> simp

theorem length_encode_le_iff {places : Nat} :
    ∀ {n : Nat}, (encode n).length ≤ places + 1 ↔ n < 128 ^ (places + 1) := by
  induction places with
  | zero =>
      intro n
      by_cases h : n < 128
      · simp [encode_of_lt h, h]
      · rw [encode_of_le (by omega), List.length_cons]
        have hpos := length_encode_ne_zero (n / 128)
        omega
  | succ places ih =>
      intro n
      by_cases h : n < 128
      · rw [encode_of_lt h, List.length_singleton, Nat.pow_succ]
        have hpow : 0 < 128 ^ (places + 1) := Nat.pow_pos (by decide)
        omega
      · rw [encode_of_le (by omega), List.length_cons, Nat.pow_succ, Nat.add_le_add_iff_right, ih]
        exact Nat.div_lt_iff_lt_mul (by decide)

/-- The written form of a number has the length that is computed for it in advance. -/
theorem length_encode {n : Nat} (h : n ≤ maximum) : (encode n).length = size n := by
  have h1 := @length_encode_le_iff 0 n
  have h2 := @length_encode_le_iff 1 n
  have h3 := @length_encode_le_iff 2 n
  have h4 := @length_encode_le_iff 3 n
  have hpos := length_encode_ne_zero n
  simp only [Nat.reduceAdd, Nat.reducePow] at h1 h2 h3 h4
  simp only [maximum] at h
  simp only [size]
  repeat' split
  all_goals omega

/-- **The digits that are written one by one** are the shortest form; they are counted as they are
written. -/
theorem writeDigits_eq (buffer : Bytes) (count n : Nat) :
    writeDigits buffer count n = (buffer ++ encode n, count + (encode n).length) := by
  induction buffer, count, n using writeDigits.induct with
  | case1 buffer count n small =>
      rw [writeDigits, if_pos small, encode_of_lt small, List.length_singleton]
  | case2 buffer count n large ih =>
      rw [writeDigits, if_neg large, ih, encode_of_le (Nat.not_lt.mp large), List.length_cons]
      simp [Nat.add_assoc, Nat.add_comm]

theorem appendTo_of_le {n : Nat} (h : n ≤ maximum) (buffer : Bytes) :
    appendTo buffer n = (buffer ++ encode n, some (size n)) := by
  rw [appendTo, if_neg (Nat.not_lt.mpr h), writeDigits_eq, length_encode h, Nat.zero_add]

theorem appendTo_of_lt {n : Nat} (h : maximum < n) (buffer : Bytes) :
    appendTo buffer n = (buffer, none) := by
  rw [appendTo, if_pos h]

/-! ## Reading -/

theorem decodeWithin_encode_append_of_lt (places : Nat) {n : Nat} (h : n < 128) (more : Bytes) :
    decodeWithin (places + 1) (encode n ++ more) = .complete n (encode n).length := by
  have hbyte : (UInt8.ofNat n).toNat = n := by rw [UInt8.toNat_ofNat']; omega
  rw [encode_of_lt h, List.singleton_append, decodeWithin, if_pos (by omega), hbyte,
    List.length_singleton]

/-- Reading undoes writing for every number that the allowed bytes hold. -/
theorem decodeWithin_encode_append (places : Nat) {n : Nat} (h : n < 128 ^ (places + 1))
    (more : Bytes) :
    decodeWithin (places + 1) (encode n ++ more) = .complete n (encode n).length := by
  induction places generalizing n with
  | zero => exact decodeWithin_encode_append_of_lt 0 h more
  | succ places ih =>
      by_cases hn : n < 128
      · exact decodeWithin_encode_append_of_lt (places + 1) hn more
      · have hbyte : (UInt8.ofNat (n % 128 + 128)).toNat = n % 128 + 128 := by
          rw [UInt8.toNat_ofNat']; omega
        have hdiv : n / 128 < 128 ^ (places + 1) := by
          rw [Nat.pow_succ] at h
          exact (Nat.div_lt_iff_lt_mul (by decide)).mpr h
        rw [encode_of_le (by omega), List.cons_append, decodeWithin, if_neg (by omega), ih hdiv,
          Scan.map, hbyte, List.length_cons]
        congr 1
        omega

/-- **Reading undoes writing**, whatever follows the number. -/
theorem decode_encode_append {n : Nat} (h : n ≤ maximum) (more : Bytes) :
    decode (encode n ++ more) = .complete n (size n) := by
  rw [← length_encode h]
  refine decodeWithin_encode_append 3 ?_ more
  simp only [maximum] at h
  omega

theorem decodeWithin_append {places : Nat} {b : Bytes} (h : decodeWithin places b ≠ .incomplete)
    (more : Bytes) : decodeWithin places (b ++ more) = decodeWithin places b := by
  induction places generalizing b with
  | zero => rfl
  | succ places ih =>
      cases b with
      | nil => exact absurd rfl h
      | cons first rest =>
          simp only [List.cons_append, decodeWithin] at h ⊢
          split
          · rfl
          · next hfirst =>
            rw [if_neg hfirst, ne_eq, Scan.map_eq_incomplete_iff] at h
            rw [ih h]

/-- **A verdict is final**: once a byte string tells a number, or that there is none, longer ones
tell the same. -/
theorem decode_append {b : Bytes} (h : decode b ≠ .incomplete) (more : Bytes) :
    decode (b ++ more) = decode b :=
  decodeWithin_append h more

theorem size_le_of_decodeWithin {places : Nat} {b : Bytes} {n k : Nat}
    (h : decodeWithin places b = .complete n k) : k ≤ b.length := by
  induction places generalizing b n k with
  | zero => cases h
  | succ places ih =>
      cases b with
      | nil => cases h
      | cons first rest =>
          rw [decodeWithin] at h
          split at h
          · cases h
            simp
          · obtain ⟨m, j, hm, -, rfl⟩ := Scan.map_eq_complete_iff.mp h
            simpa using ih hm

/-- A number is read from its own bytes alone. -/
theorem decodeWithin_take {places : Nat} {b : Bytes} {n k : Nat}
    (h : decodeWithin places b = .complete n k) :
    decodeWithin places (b.take k) = .complete n k := by
  induction places generalizing b n k with
  | zero => cases h
  | succ places ih =>
      cases b with
      | nil => cases h
      | cons first rest =>
          by_cases hfirst : first.toNat < 128
          · rw [decodeWithin, if_pos hfirst] at h
            cases h
            rw [List.take_succ_cons, decodeWithin, if_pos hfirst]
          · rw [decodeWithin, if_neg hfirst] at h
            obtain ⟨m, j, hm, rfl, rfl⟩ := Scan.map_eq_complete_iff.mp h
            rw [List.take_succ_cons, decodeWithin, if_neg hfirst, ih hm, Scan.map]

/-- More bytes are needed as long as there are too few, each with its top bit set. -/
theorem decodeWithin_eq_incomplete_iff {places : Nat} {b : Bytes} :
    decodeWithin places b = .incomplete ↔ b.length < places ∧ ∀ x ∈ b, 128 ≤ x.toNat := by
  induction places generalizing b with
  | zero => simp [decodeWithin]
  | succ places ih =>
      cases b with
      | nil => simp [decodeWithin]
      | cons first rest =>
          by_cases hfirst : first.toNat < 128
          · have : ¬ 128 ≤ first.toNat := by omega
            simp [decodeWithin, hfirst, this]
          · have : 128 ≤ first.toNat := by omega
            simp [decodeWithin, hfirst, this, ih]

/-- There is no number exactly if all bytes that it may take have their top bit set. -/
theorem decodeWithin_eq_overlong_iff {places : Nat} {b : Bytes} :
    decodeWithin places b = .overlong
      ↔ places ≤ b.length ∧ ∀ x ∈ b.take places, 128 ≤ x.toNat := by
  induction places generalizing b with
  | zero => simp [decodeWithin]
  | succ places ih =>
      cases b with
      | nil => simp [decodeWithin]
      | cons first rest =>
          by_cases hfirst : first.toNat < 128
          · have : ¬ 128 ≤ first.toNat := by omega
            simp [decodeWithin, hfirst, this]
          · have : 128 ≤ first.toNat := by omega
            simp [decodeWithin, hfirst, this, ih]

/-- **The written form is the shortest** of all forms that are read as the same number. -/
theorem length_encode_le {places : Nat} {b : Bytes} {n k : Nat}
    (h : decodeWithin places b = .complete n k) : (encode n).length ≤ k := by
  induction places generalizing b n k with
  | zero => cases h
  | succ places ih =>
      cases b with
      | nil => cases h
      | cons first rest =>
          rw [decodeWithin] at h
          split at h
          · next hfirst =>
            cases h
            exact Nat.le_of_eq (congrArg List.length (encode_of_lt hfirst))
          · obtain ⟨m, j, hm, rfl, rfl⟩ := Scan.map_eq_complete_iff.mp h
            by_cases hsmall : first.toNat % 128 + 128 * m < 128
            · rw [encode_of_lt hsmall, List.length_singleton]
              omega
            · have hdiv : (first.toNat % 128 + 128 * m) / 128 = m := by omega
              rw [encode_of_le (by omega), hdiv, List.length_cons]
              exact Nat.succ_le_succ (ih hm)

end Varint
end Mqtt

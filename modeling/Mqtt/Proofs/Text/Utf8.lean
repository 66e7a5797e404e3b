import Mqtt.Bytes
import Mqtt.Text.Utf8

/-!
# Well-formed UTF-8

Which bytes are the UTF-8 form of a text, said of the bytes alone: they are made up of sequences of
one to four bytes, each with its own bounds. The bounds leave out longer forms of what fewer bytes
can tell, the surrogates, and all that is above U+10FFFF. Bytes that hold the front of an encoded
surrogate are never well-formed.

## Main definitions

* `Utf8.Sequence`: the bytes of one character.
* `Utf8.WellFormed`: sequences one behind the other.
* `Utf8.Surrogate`: the three bytes that a surrogate would have.
* `Utf8.HoldsSurrogate`, `Utf8.CutSurrogate`: they occur, or the first two without the third.

## Main statements

* `Utf8.sequence_iff`: the sequences are the forms of the characters.
* `Utf8.wellFormed_iff`: what is well-formed is the form of a text.
* `Utf8.hasSurrogate_iff`: what is looked for in bytes that are not well-formed.
* `Utf8.WellFormed.hasSurrogate_eq_false`: it is not found in bytes that are.
-/
namespace Mqtt

namespace Utf8

/-! ### Sequences -/

/-- A byte that goes on with a sequence, and starts none. -/
def Tail (b : UInt8) : Prop :=
  0x80 ≤ b.toNat ∧ b.toNat ≤ 0xBF

/-- The bytes of one character. -/
inductive Sequence : Bytes → Prop where
  | one {a : UInt8} (most : a.toNat ≤ 0x7F) : Sequence [a]
  /-- A first byte below 0xC2 would tell what one byte can tell. -/
  | two {a b : UInt8} (least : 0xC2 ≤ a.toNat) (most : a.toNat ≤ 0xDF) (second : Tail b) :
      Sequence [a, b]
  /-- Behind 0xE0, a second byte below 0xA0 would tell what two bytes can tell; behind 0xED, one
  above 0x9F would tell a surrogate. -/
  | three {a b c : UInt8} (least : 0xE0 ≤ a.toNat) (most : a.toNat ≤ 0xEF) (second : Tail b)
      (third : Tail c) (short : a.toNat = 0xE0 → 0xA0 ≤ b.toNat)
      (scalar : a.toNat = 0xED → b.toNat ≤ 0x9F) : Sequence [a, b, c]
  /-- Behind 0xF0, a second byte below 0x90 would tell what three bytes can tell; behind 0xF4, one
  above 0x8F would tell more than U+10FFFF. -/
  | four {a b c d : UInt8} (least : 0xF0 ≤ a.toNat) (most : a.toNat ≤ 0xF4) (second : Tail b)
      (third : Tail c) (fourth : Tail d) (short : a.toNat = 0xF0 → 0x90 ≤ b.toNat)
      (scalar : a.toNat = 0xF4 → b.toNat ≤ 0x8F) : Sequence [a, b, c, d]

theorem exists_char {n : Nat} (h : n.isValidChar) : ∃ c : Char, c.val.toNat = n :=
  ⟨Char.ofNatAux n h, rfl⟩

theorem eq_ofNat {b : UInt8} {n : Nat} (h : n = b.toNat) : b = UInt8.ofNat n := by
  rw [h, UInt8.ofNat_toNat]

/-- Every sequence is the form of a character: its code point is made of the low bits of the
bytes. -/
theorem Sequence.exists_char {b : Bytes} (h : Sequence b) :
    ∃ c, b = String.utf8EncodeChar c := by
  cases h with
  | @one a most =>
      obtain ⟨c, hc⟩ := Utf8.exists_char (n := a.toNat) (Or.inl (by omega))
      refine ⟨c, ?_⟩
      simp only [String.utf8EncodeChar, hc]
      rw [if_pos most, UInt8.ofNat_toNat]
  | @two a b least most second =>
      have second : 0x80 ≤ b.toNat ∧ b.toNat ≤ 0xBF := second
      obtain ⟨c, hc⟩ := Utf8.exists_char (n := (a.toNat - 0xC0) * 64 + (b.toNat - 0x80))
        (Or.inl (by omega))
      refine ⟨c, ?_⟩
      simp only [String.utf8EncodeChar, hc]
      rw [if_neg (by omega), if_pos (by omega)]
      simp only [List.cons.injEq, and_true]
      exact ⟨eq_ofNat (by omega), eq_ofNat (by omega)⟩
  | @three a b d least most second third short scalar =>
      have second : 0x80 ≤ b.toNat ∧ b.toNat ≤ 0xBF := second
      have third : 0x80 ≤ d.toNat ∧ d.toNat ≤ 0xBF := third
      have valid : ((a.toNat - 0xE0) * 4096 + (b.toNat - 0x80) * 64
          + (d.toNat - 0x80)).isValidChar := by
        unfold Nat.isValidChar
        omega
      obtain ⟨c, hc⟩ := Utf8.exists_char valid
      refine ⟨c, ?_⟩
      simp only [String.utf8EncodeChar, hc]
      rw [if_neg (by omega), if_neg (by omega), if_pos (by omega)]
      simp only [List.cons.injEq, and_true]
      exact ⟨eq_ofNat (by omega), eq_ofNat (by omega), eq_ofNat (by omega)⟩
  | @four a b d e least most second third fourth short scalar =>
      have second : 0x80 ≤ b.toNat ∧ b.toNat ≤ 0xBF := second
      have third : 0x80 ≤ d.toNat ∧ d.toNat ≤ 0xBF := third
      have fourth : 0x80 ≤ e.toNat ∧ e.toNat ≤ 0xBF := fourth
      have valid : ((a.toNat - 0xF0) * 262144 + (b.toNat - 0x80) * 4096 + (d.toNat - 0x80) * 64
          + (e.toNat - 0x80)).isValidChar := by
        unfold Nat.isValidChar
        omega
      obtain ⟨c, hc⟩ := Utf8.exists_char valid
      refine ⟨c, ?_⟩
      simp only [String.utf8EncodeChar, hc]
      rw [if_neg (by omega), if_neg (by omega), if_neg (by omega)]
      simp only [List.cons.injEq, and_true]
      exact ⟨eq_ofNat (by omega), eq_ofNat (by omega), eq_ofNat (by omega), eq_ofNat (by omega)⟩

/-- The form of every character is a sequence. -/
theorem sequence_utf8EncodeChar (c : Char) : Sequence (String.utf8EncodeChar c) := by
  have valid : c.val.toNat < 0xD800 ∨ 0xDFFF < c.val.toNat ∧ c.val.toNat < 0x110000 := c.valid
  simp only [String.utf8EncodeChar]
  by_cases one : c.val.toNat ≤ 0x7F
  · rw [if_pos one]
    exact .one (by simp only [UInt8.toNat_ofNat']; omega)
  by_cases two : c.val.toNat ≤ 0x7FF
  · rw [if_neg one, if_pos two]
    constructor <;> simp only [Tail, UInt8.toNat_ofNat'] <;> omega
  by_cases three : c.val.toNat ≤ 0xFFFF
  · rw [if_neg one, if_neg two, if_pos three]
    constructor <;> simp only [Tail, UInt8.toNat_ofNat'] <;> omega
  · rw [if_neg one, if_neg two, if_neg three]
    constructor <;> simp only [Tail, UInt8.toNat_ofNat'] <;> omega

/-- **The sequences are the forms of the characters.** -/
theorem sequence_iff {b : Bytes} : Sequence b ↔ ∃ c, b = String.utf8EncodeChar c := by
  constructor
  · exact Sequence.exists_char
  · intro h
    obtain ⟨c, rfl⟩ := h
    exact sequence_utf8EncodeChar c

/-! ### Texts -/

/-- Sequences one behind the other. -/
inductive WellFormed : Bytes → Prop where
  | nil : WellFormed []
  | cons {first rest : Bytes} (front : Sequence first) (others : WellFormed rest) :
      WellFormed (first ++ rest)

theorem wellFormed_flatMap (cs : List Char) : WellFormed (cs.flatMap String.utf8EncodeChar) := by
  induction cs with
  | nil => exact .nil
  | cons c cs ih => exact .cons (sequence_iff.mpr ⟨c, rfl⟩) ih

theorem WellFormed.exists_chars {b : Bytes} (h : WellFormed b) :
    ∃ cs : List Char, b = cs.flatMap String.utf8EncodeChar := by
  induction h with
  | nil => exact ⟨[], rfl⟩
  | cons front _ ih =>
      obtain ⟨c, rfl⟩ := sequence_iff.mp front
      obtain ⟨cs, rfl⟩ := ih
      exact ⟨c :: cs, rfl⟩

end Utf8

theorem Bytes.ofText_eq (s : String) : ofText s = s.toList.flatMap String.utf8EncodeChar := by
  have form : s.toByteArray = s.toList.utf8Encode := by
    rw [← String.toByteArray_ofList, String.ofList_toList]
  rw [ofText, String.toUTF8_eq_toByteArray, form, List.utf8Encode, List.data_toByteArray]

namespace Utf8

/-- **What is well-formed is the form of a text.** -/
theorem wellFormed_iff {b : Bytes} : WellFormed b ↔ ∃ s, b = Bytes.ofText s := by
  constructor
  · intro h
    obtain ⟨cs, rfl⟩ := h.exists_chars
    exact ⟨String.ofList cs, by rw [Bytes.ofText_eq, String.toList_ofList]⟩
  · intro h
    obtain ⟨s, rfl⟩ := h
    rw [Bytes.ofText_eq]
    exact wellFormed_flatMap s.toList

theorem utf8EncodeChar_of_lt {c : Char} (h : c.toNat < 128) :
    String.utf8EncodeChar c = [UInt8.ofNat c.toNat] := by
  have : c.val.toNat ≤ 127 := Nat.le_of_lt_succ h
  exact if_pos this

/-- What is not ASCII stands as bytes that are not ASCII. -/
theorem le_toNat_of_mem_utf8EncodeChar {c : Char} (h : 128 ≤ c.toNat) :
    String.utf8EncodeChar c ≠ [] ∧ ∀ b ∈ String.utf8EncodeChar c, 128 ≤ b.toNat := by
  have : ¬ c.val.toNat ≤ 127 := Nat.not_le.mpr h
  simp only [String.utf8EncodeChar, if_neg this]
  split
  · simp [UInt8.toNat_ofNat']
    omega
  · split
    · simp [UInt8.toNat_ofNat']
      omega
    · simp [UInt8.toNat_ofNat']
      omega

/-- Only U+0000 has a byte zero in its form. -/
theorem zero_mem_utf8EncodeChar {c : Char} : 0 ∈ String.utf8EncodeChar c ↔ c = '\x00' := by
  by_cases ascii : c.toNat < 128
  · rw [utf8EncodeChar_of_lt ascii, List.mem_singleton]
    constructor
    · intro h
      have code : c.toNat = 0 := by
        have := congrArg UInt8.toNat h
        rw [UInt8.toNat_ofNat'] at this
        simp only [UInt8.toNat_zero] at this
        omega
      rw [← Char.ofNat_toNat c, code]
    · intro h
      rw [h]
      rfl
  · have high := (le_toNat_of_mem_utf8EncodeChar (Nat.not_lt.mp ascii)).2
    constructor
    · intro h
      exact absurd (high 0 h) (by decide)
    · intro h
      rw [h] at ascii
      exact absurd (by decide) ascii

theorem zero_mem_ofText {s : String} : 0 ∈ Bytes.ofText s ↔ '\x00' ∈ s.toList := by
  simp [Bytes.ofText_eq, zero_mem_utf8EncodeChar]

/-! ### Surrogates -/

/-- The three bytes that a code point of sixteen bits takes. -/
def threeBytes (n : Nat) : Bytes :=
  [UInt8.ofNat (0xE0 + n / 4096), UInt8.ofNat (0x80 + n / 64 % 64), UInt8.ofNat (0x80 + n % 64)]

/-- The bytes that would stand for a code point from U+D800 to U+DFFF. -/
def Surrogate (b : Bytes) : Prop :=
  ∃ n, 0xD800 ≤ n ∧ n ≤ 0xDFFF ∧ b = threeBytes n

/-- A surrogate occurs, complete. -/
def HoldsSurrogate (b : Bytes) : Prop :=
  ∃ s, Surrogate s ∧ s <:+: b

/-- The first two bytes of a surrogate occur, with no byte behind them that would go on with it. -/
def CutSurrogate (b : Bytes) : Prop :=
  ∃ before x after, b = before ++ 0xED :: x :: after ∧ 0xA0 ≤ x.toNat ∧ x.toNat ≤ 0xBF
    ∧ ∀ y ∈ after.head?, ¬ Tail y

/-- **The bytes of the surrogates** are those from 0xED 0xA0 0x80 to 0xED 0xBF 0xBF. -/
theorem surrogate_iff {b : Bytes} :
    Surrogate b ↔ ∃ x y : UInt8, b = [0xED, x, y] ∧ 0xA0 ≤ x.toNat ∧ x.toNat ≤ 0xBF ∧ Tail y := by
  constructor
  · intro h
    obtain ⟨n, low, high, rfl⟩ := h
    refine ⟨UInt8.ofNat (0x80 + n / 64 % 64), UInt8.ofNat (0x80 + n % 64), ?_, ?_⟩
    · have lead : 0xE0 + n / 4096 = 0xED := by omega
      rw [threeBytes, lead]
      rfl
    · simp only [Tail, UInt8.toNat_ofNat']
      omega
  · intro h
    obtain ⟨x, y, rfl, low, high, tail⟩ := h
    have tail : 0x80 ≤ y.toNat ∧ y.toNat ≤ 0xBF := tail
    refine ⟨0xD000 + (x.toNat - 0x80) * 64 + (y.toNat - 0x80), by omega, by omega, ?_⟩
    simp only [threeBytes, List.cons.injEq, and_true]
    refine ⟨eq_ofNat ?_, eq_ofNat (by omega), eq_ofNat (by omega)⟩
    have lead : (0xED : UInt8).toNat = 0xED := rfl
    omega

theorem isSurrogateTail_iff {b : UInt8} :
    isSurrogateTail b = true ↔ 0xA0 ≤ b.toNat ∧ b.toNat ≤ 0xBF := by
  simp [isSurrogateTail, UInt8.le_iff_toNat_le]

theorem hasSurrogate_cons (a : UInt8) (rest : Bytes) :
    hasSurrogate (a :: rest)
      = (a == 0xED && rest.head?.any isSurrogateTail || hasSurrogate rest) := by
  cases rest <;> simp [hasSurrogate]

/-- What is looked for are the first two bytes of a surrogate, anywhere. -/
theorem hasSurrogate_iff_front {b : Bytes} :
    hasSurrogate b = true
      ↔ ∃ before x after, b = before ++ 0xED :: x :: after ∧ 0xA0 ≤ x.toNat ∧ x.toNat ≤ 0xBF := by
  induction b with
  | nil => simp [hasSurrogate]
  | cons a rest ih =>
      rw [hasSurrogate_cons, Bool.or_eq_true, ih]
      constructor
      · intro h
        rcases h with here | later
        · cases rest with
          | nil => simp at here
          | cons x after =>
              simp only [Bool.and_eq_true, beq_iff_eq, List.head?_cons, Option.any_some,
                isSurrogateTail_iff] at here
              exact ⟨[], x, after, by rw [here.1]; rfl, here.2⟩
        · obtain ⟨before, x, after, rfl, bounds⟩ := later
          exact ⟨a :: before, x, after, rfl, bounds⟩
      · intro h
        obtain ⟨before, x, after, same, bounds⟩ := h
        cases before with
        | nil =>
            obtain ⟨rfl, rfl⟩ := List.cons.inj same
            exact .inl (by simp [isSurrogateTail_iff, bounds])
        | cons b before =>
            obtain ⟨rfl, rfl⟩ := List.cons.inj same
            exact .inr ⟨before, x, after, rfl, bounds⟩

/-- **What is looked for**: a surrogate, or its first two bytes cut off from the third. -/
theorem hasSurrogate_iff {b : Bytes} :
    hasSurrogate b = true ↔ HoldsSurrogate b ∨ CutSurrogate b := by
  rw [hasSurrogate_iff_front]
  constructor
  · intro h
    obtain ⟨before, x, after, rfl, low, high⟩ := h
    by_cases whole : ∃ y ∈ after.head?, Tail y
    · obtain ⟨y, hy, tail⟩ := whole
      obtain ⟨rest, rfl⟩ := List.head?_eq_some_iff.mp hy
      refine .inl ⟨[0xED, x, y], surrogate_iff.mpr ⟨x, y, rfl, low, high, tail⟩, before, rest, ?_⟩
      simp
    · refine .inr ⟨before, x, after, rfl, low, high, ?_⟩
      intro y hy tail
      exact whole ⟨y, hy, tail⟩
  · intro h
    rcases h with whole | cut
    · obtain ⟨s, surrogate, before, rest, rfl⟩ := whole
      obtain ⟨x, y, rfl, low, high, -⟩ := surrogate_iff.mp surrogate
      exact ⟨before, x, y :: rest, by simp, low, high⟩
    · obtain ⟨before, x, after, same, low, high, -⟩ := cut
      exact ⟨before, x, after, same, low, high⟩

theorem hasSurrogate_cons_of_ne {a : UInt8} (h : a.toNat ≠ 0xED) (rest : Bytes) :
    hasSurrogate (a :: rest) = hasSurrogate rest := by
  have other : a ≠ 0xED := fun same => h (congrArg UInt8.toNat same)
  simp [hasSurrogate_cons, other]

/-- Behind 0xED a sequence goes on with a byte that no surrogate has there. -/
theorem hasSurrogate_cons_of_le {b : UInt8} (h : b.toNat ≤ 0x9F) (a : UInt8) (rest : Bytes) :
    hasSurrogate (a :: b :: rest) = hasSurrogate (b :: rest) := by
  have other : isSurrogateTail b = false := by
    rw [Bool.eq_false_iff, ne_eq, isSurrogateTail_iff]
    omega
  rw [hasSurrogate_cons]
  simp [other]

theorem Tail.ne_lead {b : UInt8} (h : Tail b) : b.toNat ≠ 0xED := by
  have := h.2
  omega

/-- A sequence at the front holds no front of a surrogate, and does not end in one. -/
theorem Sequence.hasSurrogate_append {first : Bytes} (h : Sequence first) (rest : Bytes) :
    hasSurrogate (first ++ rest) = hasSurrogate rest := by
  cases h with
  | one most => exact hasSurrogate_cons_of_ne (by omega) rest
  | two least most second =>
      simp only [List.cons_append, List.nil_append]
      rw [hasSurrogate_cons_of_ne (by omega), hasSurrogate_cons_of_ne second.ne_lead]
  | @three a b c least most second third short scalar =>
      simp only [List.cons_append, List.nil_append]
      have front : hasSurrogate (a :: b :: c :: rest) = hasSurrogate (b :: c :: rest) := by
        by_cases lead : a.toNat = 0xED
        · exact hasSurrogate_cons_of_le (scalar lead) a _
        · exact hasSurrogate_cons_of_ne lead _
      rw [front, hasSurrogate_cons_of_ne second.ne_lead, hasSurrogate_cons_of_ne third.ne_lead]
  | four least most second third fourth =>
      simp only [List.cons_append, List.nil_append]
      rw [hasSurrogate_cons_of_ne (by omega), hasSurrogate_cons_of_ne second.ne_lead,
        hasSurrogate_cons_of_ne third.ne_lead, hasSurrogate_cons_of_ne fourth.ne_lead]

/-- **Bytes that are well-formed hold no front of a surrogate.** -/
theorem WellFormed.hasSurrogate_eq_false {b : Bytes} (h : WellFormed b) :
    hasSurrogate b = false := by
  induction h with
  | nil => rfl
  | cons front _ ih => rw [front.hasSurrogate_append, ih]

end Utf8
end Mqtt

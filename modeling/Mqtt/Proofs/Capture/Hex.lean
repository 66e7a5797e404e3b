import Mqtt.Capture
import Mqtt.Proofs.Text.Utf8

/-!
# Captures in hexadecimal

The digits of a capture are exactly the two for each byte that hexadecimal writing has, in letters
of either case, with separators anywhere, also between the two digits of a byte. There is one
exception: a plus in the first place of a pair is taken for a zero. A text is read as UTF-8, where
what is not ASCII stands as several bytes, none of which is a digit or a separator.
-/
namespace Mqtt

/-! ### Digits -/

namespace Digits

/-- What is not ASCII is not below an ASCII character. -/
theorem not_le_of_le_toNat {c d : Char} (h : 128 ≤ c.toNat) (hd : d.toNat < 128) : ¬ c ≤ d := by
  intro hle
  have : c.toNat ≤ d.toNat := UInt32.le_iff_toNat_le.mp hle
  omega

theorem value?_of_le_toNat {c : Char} (h : 128 ≤ c.toNat) : value? c = none := by
  rw [value?, if_neg, if_neg, if_neg]
  · exact fun upper => not_le_of_le_toNat h (by decide) upper.2
  · exact fun lower => not_le_of_le_toNat h (by decide) lower.2
  · exact fun decimal => not_le_of_le_toNat h (by decide) decimal.2

theorem toLower_of_le_toNat {c : Char} (h : 128 ≤ c.toNat) : c.toLower = c :=
  dif_neg fun upper => not_le_of_le_toNat (d := 'Z') h (by decide) upper.2

theorem toNat_digitChar_lt {n : Nat} (h : n < 16) : (Nat.digitChar n).toNat < 128 := by
  revert n
  decide

/-- The digits among the ASCII characters, by inspection. -/
theorem value?_ofNat : ∀ k < 128,
    (value? (Char.ofNat k)).all (· < 16) = true
      ∧ ∀ n < 16, value? (Char.ofNat k) = some n
        ↔ (Char.ofNat k).toLower = Nat.digitChar n := by
  decide +kernel

/-- **The digits of a number** are its digit in either case. -/
theorem value?_eq_some_iff {c : Char} {n : Nat} :
    value? c = some n ↔ n < 16 ∧ c.toLower = Nat.digitChar n := by
  by_cases ascii : c.toNat < 128
  · obtain ⟨small, digit⟩ := value?_ofNat c.toNat ascii
    rw [Char.ofNat_toNat] at small digit
    constructor
    · intro h
      have hn : n < 16 := by simpa [h] using small
      exact ⟨hn, (digit n hn).mp h⟩
    · intro h
      exact (digit n h.1).mpr h.2
  · have far : 128 ≤ c.toNat := Nat.not_lt.mp ascii
    rw [value?_of_le_toNat far, toLower_of_le_toNat far]
    constructor
    · intro h
      cases h
    · intro h
      have := toNat_digitChar_lt h.1
      rw [← h.2] at this
      omega

theorem toNat_lt_of_toLower {c : Char} {n : Nat} (hn : n < 16) (h : c.toLower = Nat.digitChar n) :
    c.toNat < 128 := by
  refine Classical.byContradiction fun far => ?_
  rw [toLower_of_le_toNat (Nat.not_lt.mp far)] at h
  rw [h] at far
  exact far (toNat_digitChar_lt hn)

theorem halves_lt (b : UInt8) : b.toNat / 16 < 16 ∧ b.toNat % 16 < 16 := by
  have := b.toNat_lt
  omega

end Digits

/-! ### Text as bytes -/

namespace Capture

/-- The character with the code of a byte. -/
def character (b : UInt8) : Char := Char.ofNat b.toNat

theorem toNat_character (b : UInt8) : (character b).toNat = b.toNat := by
  have valid : b.toNat.isValidChar := Or.inl (by have := b.toNat_lt; omega)
  rw [character, Char.ofNat, dif_pos valid]
  rfl

theorem character_ofNat {c : Char} (h : c.toNat < 128) : character (UInt8.ofNat c.toNat) = c := by
  have : (UInt8.ofNat c.toNat).toNat = c.toNat := by
    rw [UInt8.toNat_ofNat']
    omega
  rw [character, this, Char.ofNat_toNat]

/-- Characters as UTF-8. -/
def utf8 (cs : List Char) : Bytes := cs.flatMap String.utf8EncodeChar

/-- ASCII is written as it is. -/
theorem map_character_utf8 {cs : List Char} (h : ∀ c ∈ cs, c.toNat < 128) :
    (utf8 cs).map character = cs := by
  induction cs with
  | nil => rfl
  | cons c cs ih =>
      obtain ⟨hc, hcs⟩ := List.forall_mem_cons.mp h
      rw [utf8, List.flatMap_cons, Utf8.utf8EncodeChar_of_lt hc, List.singleton_append,
        List.map_cons, character_ofNat hc]
      exact congrArg _ (ih hcs)

/-- Characters that are written in ASCII are ASCII. -/
theorem toNat_lt_of_utf8 {cs : List Char} (h : ∀ c ∈ (utf8 cs).map character, c.toNat < 128) :
    ∀ c ∈ cs, c.toNat < 128 := by
  intro c hc
  refine Classical.byContradiction fun far => ?_
  obtain ⟨nonempty, high⟩ := Utf8.le_toNat_of_mem_utf8EncodeChar (Nat.not_lt.mp far)
  obtain ⟨b, hb⟩ := List.exists_mem_of_ne_nil _ nonempty
  have low := h (character b) (List.mem_map_of_mem (List.mem_flatMap_of_mem hc hb))
  rw [toNat_character] at low
  have := high b hb
  omega

/-! ### Separators -/

/-- Whether a character only separates digits. -/
def isBlank (c : Char) : Bool :=
  [' ', '\t', '\n', '\x0c', '\r', ':'].contains c

/-- A text without its separators. -/
def bare (s : String) : List Char :=
  s.toList.filter (!isBlank ·)

theorem isSeparator_eq (b : UInt8) : isSeparator b = isBlank (character b) :=
  rfl

theorem isBlank_of_le_toNat {c : Char} (h : 128 ≤ c.toNat) : isBlank c = false := by
  have blanks : ∀ d ∈ [' ', '\t', '\n', '\x0c', '\r', ':'], d.toNat < 128 := by simp
  refine Bool.eq_false_iff.mpr fun blank => ?_
  have := blanks c (List.contains_iff_mem.mp blank)
  omega

/-- **Separators may be taken off a text or off its bytes**: none is a part of what is not ASCII. -/
theorem filter_utf8 (cs : List Char) :
    (utf8 cs).filter (!isSeparator ·) = utf8 (cs.filter (!isBlank ·)) := by
  induction cs with
  | nil => rfl
  | cons c cs ih =>
      have front : (String.utf8EncodeChar c).filter (!isSeparator ·)
          = if isBlank c then [] else String.utf8EncodeChar c := by
        by_cases ascii : c.toNat < 128
        · rw [Utf8.utf8EncodeChar_of_lt ascii, List.filter_cons, List.filter_nil, isSeparator_eq,
            character_ofNat ascii]
          cases isBlank c <;> rfl
        · have high := (Utf8.le_toNat_of_mem_utf8EncodeChar (Nat.not_lt.mp ascii)).2
          rw [isBlank_of_le_toNat (Nat.not_lt.mp ascii)]
          refine List.filter_eq_self.mpr fun b hb => ?_
          rw [isSeparator_eq, isBlank_of_le_toNat]
          · rfl
          · rw [toNat_character]
            exact high b hb
      rw [utf8, List.flatMap_cons, List.filter_append, front]
      rw [utf8] at ih
      rw [ih, List.filter_cons]
      cases isBlank c <;> rfl

theorem filter_ofText (s : String) :
    (Bytes.ofText s).filter (!isSeparator ·) = utf8 (bare s) := by
  rw [Bytes.ofText_eq]
  exact filter_utf8 s.toList

/-! ### Pairs -/

/-- Digits with a zero for each plus in the first place of a pair. -/
def unsigned : List Char → List Char
  | high :: low :: rest => (if high = '+' then '0' else high) :: low :: unsigned rest
  | short => short

theorem length_unsigned (cs : List Char) : (unsigned cs).length = cs.length := by
  induction cs using unsigned.induct with
  | case1 high low rest ih => simp [unsigned, ih]
  | case2 short alone => rw [unsigned.eq_2 short alone]

theorem unsigned_of_not_mem {cs : List Char} (h : '+' ∉ cs) : unsigned cs = cs := by
  induction cs using unsigned.induct with
  | case1 high low rest ih =>
      simp only [List.mem_cons, not_or] at h
      rw [unsigned, if_neg (Ne.symm h.1), ih h.2.2]
  | case2 short alone => rw [unsigned.eq_2 short alone]

theorem eq_plus_iff (b : UInt8) : b = '+'.toUInt8 ↔ character b = '+' := by
  constructor
  · intro h
    rw [h]
    decide
  · intro h
    have code := toNat_character b
    rw [h] at code
    exact UInt8.toNat_inj.mp code.symm

theorem readPair?_eq (high low : UInt8) :
    readPair? high low
      = (Digits.value? (if character high = '+' then '0' else character high)).bind fun m =>
          (Digits.value? (character low)).bind fun n => some (UInt8.ofNat (16 * m + n)) := by
  by_cases plus : character high = '+'
  · have zero : Digits.value? '0' = some 0 := by decide
    rw [readPair?, if_pos ((eq_plus_iff high).mpr plus), if_pos plus, zero]
    rfl
  · rw [readPair?, if_neg (fun h => plus ((eq_plus_iff high).mp h)), if_neg plus]
    rfl

/-- **A pair is read as the byte whose digits it has.** -/
theorem readPair?_eq_some_iff {high low b : UInt8} :
    readPair? high low = some b
      ↔ (if character high = '+' then '0' else character high).toLower
            = Nat.digitChar (b.toNat / 16)
        ∧ (character low).toLower = Nat.digitChar (b.toNat % 16) := by
  rw [readPair?_eq]
  constructor
  · intro h
    obtain ⟨m, hm, h⟩ := Option.bind_eq_some_iff.mp h
    obtain ⟨n, hn, h⟩ := Option.bind_eq_some_iff.mp h
    obtain rfl := Option.some.inj h
    obtain ⟨hm, high⟩ := Digits.value?_eq_some_iff.mp hm
    obtain ⟨hn, low⟩ := Digits.value?_eq_some_iff.mp hn
    have value : (UInt8.ofNat (16 * m + n)).toNat = 16 * m + n := by
      rw [UInt8.toNat_ofNat']
      omega
    have first : (16 * m + n) / 16 = m := by omega
    have second : (16 * m + n) % 16 = n := by omega
    rw [value, first, second]
    exact ⟨high, low⟩
  · intro h
    obtain ⟨small, small'⟩ := Digits.halves_lt b
    have high := Digits.value?_eq_some_iff.mpr ⟨small, h.1⟩
    have low := Digits.value?_eq_some_iff.mpr ⟨small', h.2⟩
    have value : 16 * (b.toNat / 16) + b.toNat % 16 = b.toNat := Nat.div_add_mod ..
    rw [high, low, Option.bind_some, Option.bind_some, value, UInt8.ofNat_toNat]

/-- The lower-case digits of bytes. -/
def hexadecimal (bytes : Bytes) : List Char := bytes.flatMap Digits.ofByte

theorem length_hexadecimal (bytes : Bytes) : (hexadecimal bytes).length = 2 * bytes.length := by
  induction bytes with
  | nil => rfl
  | cons b bytes ih =>
      rw [hexadecimal] at ih
      simp [hexadecimal, Digits.ofByte, ih]
      omega

/-- A pair at the front is the writing of the byte at the front. -/
theorem unsigned_eq_hexadecimal_cons_iff {high low b : UInt8} {rest bytes : Bytes} :
    (unsigned ((high :: low :: rest).map character)).map Char.toLower = hexadecimal (b :: bytes)
      ↔ readPair? high low = some b
        ∧ (unsigned (rest.map character)).map Char.toLower = hexadecimal bytes := by
  rw [readPair?_eq_some_iff, hexadecimal, List.flatMap_cons, Digits.ofByte]
  simp only [List.map_cons, unsigned, List.cons_append, List.nil_append, List.cons.injEq,
    and_assoc, hexadecimal]

/-- **Digits without separators** are read exactly if they are the writing of bytes. The induction
takes a pair at a time. -/
theorem readPairs_eq_ok_iff {digits bytes : Bytes} :
    readPairs digits = .ok bytes
      ↔ (unsigned (digits.map character)).map Char.toLower = hexadecimal bytes := by
  induction digits using readPairs.induct generalizing bytes with
  | case1 high low rest invalid =>
      have refused : readPairs (high :: low :: rest) = .error (.invalidPair high low) := by
        simp only [readPairs, invalid]
      rw [refused]
      constructor
      · intro h
        cases h
      · intro h
        cases bytes with
        | nil => cases h
        | cons b bytes =>
            have valid := (unsigned_eq_hexadecimal_cons_iff.mp h).1
            rw [invalid] at valid
            cases valid
  | case2 high low rest first valid ih =>
      have read : readPairs (high :: low :: rest) = (first :: ·) <$> readPairs rest := by
        simp only [readPairs, valid]
      rw [read]
      constructor
      · intro h
        cases hrest : readPairs rest with
        | error e =>
            rw [hrest] at h
            cases h
        | ok others =>
            rw [hrest] at h
            cases h
            exact unsigned_eq_hexadecimal_cons_iff.mpr ⟨valid, ih.mp hrest⟩
      · intro h
        cases bytes with
        | nil => cases h
        | cons b bytes =>
            obtain ⟨same, others⟩ := unsigned_eq_hexadecimal_cons_iff.mp h
            rw [valid] at same
            obtain rfl := Option.some.inj same
            rw [ih.mpr others]
            rfl
  | case3 lone =>
      constructor
      · intro h
        cases h
      · intro h
        have parity := congrArg List.length h
        rw [length_hexadecimal] at parity
        simp [unsigned] at parity
        omega
  | case4 =>
      cases bytes with
      | nil => exact iff_of_true rfl rfl
      | cons b bytes => exact iff_of_false nofun nofun

/-- Pairs are not found to be odd if their bytes are even in number. -/
theorem readPairs_ne_oddDigits {digits : Bytes} (h : digits.length % 2 = 0) :
    readPairs digits ≠ .error .oddDigits := by
  induction digits using readPairs.induct with
  | case1 high low rest invalid =>
      simp only [readPairs, invalid]
      nofun
  | case2 high low rest first valid ih =>
      simp only [List.length_cons] at h
      have others := ih (by omega)
      simp only [readPairs, valid]
      cases hrest : readPairs rest with
      | ok => nofun
      | error e =>
          intro odd
          cases odd
          exact others hrest
  | case3 lone => cases h
  | case4 => nofun

/-! ### Texts -/

/-- Only ASCII is the writing of bytes. -/
theorem toNat_lt_of_unsigned {cs : List Char} {bytes : Bytes}
    (h : (unsigned cs).map Char.toLower = hexadecimal bytes) : ∀ c ∈ cs, c.toNat < 128 := by
  induction cs using unsigned.induct generalizing bytes with
  | case1 high low rest ih =>
      cases bytes with
      | nil => cases h
      | cons b bytes =>
          obtain ⟨small, small'⟩ := Digits.halves_lt b
          rw [hexadecimal, List.flatMap_cons, Digits.ofByte] at h
          simp only [unsigned, List.map_cons, List.cons_append, List.nil_append,
            List.cons.injEq] at h
          refine List.forall_mem_cons.mpr ⟨?_, List.forall_mem_cons.mpr ⟨?_, ih h.2.2⟩⟩
          · by_cases plus : high = '+'
            · rw [plus]
              decide
            · rw [if_neg plus] at h
              exact Digits.toNat_lt_of_toLower small h.1
          · exact Digits.toNat_lt_of_toLower small' h.2.1
  | case2 short alone =>
      have parity := congrArg List.length h
      rw [List.length_map, length_unsigned, length_hexadecimal] at parity
      cases short with
      | nil => nofun
      | cons c others =>
          cases others with
          | nil =>
              rw [List.length_singleton] at parity
              omega
          | cons d rest => exact absurd rfl (alone c d rest)

/-- The bytes of a text without separators are the writing of bytes exactly if its characters
are. -/
theorem readPairs_utf8_eq_ok_iff {cs : List Char} {bytes : Bytes} :
    readPairs (utf8 cs) = .ok bytes ↔ (unsigned cs).map Char.toLower = hexadecimal bytes := by
  rw [readPairs_eq_ok_iff]
  constructor
  · intro h
    have ascii := toNat_lt_of_utf8 (toNat_lt_of_unsigned h)
    rwa [map_character_utf8 ascii] at h
  · intro h
    rwa [map_character_utf8 (toNat_lt_of_unsigned h)]

theorem length_of_readPairs {digits bytes : Bytes} (h : readPairs digits = .ok bytes) :
    digits.length = 2 * bytes.length := by
  have := congrArg List.length (readPairs_eq_ok_iff.mp h)
  rwa [List.length_map, length_unsigned, List.length_map, length_hexadecimal] at this

theorem ofHex_eq (s : String) :
    ofHex s = if (utf8 (bare s)).length % 2 = 1 then .error .oddDigits
      else readPairs (utf8 (bare s)) := by
  rw [ofHex, filter_ofText]

theorem ofHex_eq_ok_iff {s : String} {bytes : Bytes} :
    ofHex s = .ok bytes ↔ (unsigned (bare s)).map Char.toLower = hexadecimal bytes := by
  rw [ofHex_eq, ← readPairs_utf8_eq_ok_iff]
  by_cases odd : (utf8 (bare s)).length % 2 = 1
  · rw [if_pos odd]
    constructor
    · intro h
      cases h
    · intro h
      have := length_of_readPairs h
      omega
  · rw [if_neg odd]

theorem ofHex_eq_oddDigits_iff {s : String} :
    ofHex s = .error .oddDigits ↔ (utf8 (bare s)).length % 2 = 1 := by
  rw [ofHex_eq]
  by_cases odd : (utf8 (bare s)).length % 2 = 1
  · rw [if_pos odd]
    exact iff_of_true rfl odd
  · rw [if_neg odd]
    exact iff_of_false (readPairs_ne_oddDigits (by omega)) odd

/-- **Which texts give a byte string**: without separators they have the two digits for each byte,
in either case, where a plus in the first place of a pair counts as a zero. Every other text is an
error, and an odd number of bytes is found before anything else. A text without a plus gives a byte
string exactly if, without separators, it is its hexadecimal writing. -/
theorem ofHex_exact (s : String) :
    (∀ bytes, ofHex s = .ok bytes
      ↔ (unsigned (bare s)).map Char.toLower = hexadecimal bytes)
    ∧ (ofHex s = .error .oddDigits ↔ (utf8 (bare s)).length % 2 = 1)
    ∧ ((∃ e, ofHex s = .error e)
      ↔ ∀ bytes, (unsigned (bare s)).map Char.toLower ≠ hexadecimal bytes)
    ∧ ('+' ∉ bare s → ∀ bytes, ofHex s = .ok bytes
      ↔ (bare s).map Char.toLower = hexadecimal bytes) := by
  refine ⟨fun bytes => ofHex_eq_ok_iff, ofHex_eq_oddDigits_iff, ?_, ?_⟩
  · simp only [ne_eq, ← ofHex_eq_ok_iff]
    cases ofHex s with
    | error e => exact iff_of_true ⟨e, rfl⟩ nofun
    | ok bytes => exact iff_of_false nofun fun h => h bytes rfl
  · intro plain bytes
    rw [ofHex_eq_ok_iff, unsigned_of_not_mem plain]

/-- A plus passes for a digit: this text gives a byte and is not the writing of any. -/
theorem ofHex_plus :
    ofHex "+f" = .ok [15] ∧ ∀ bytes, (bare "+f").map Char.toLower ≠ hexadecimal bytes := by
  constructor
  · exact ofHex_eq_ok_iff.mpr (by decide)
  · intro bytes h
    cases bytes with
    | nil => cases h
    | cons b bytes =>
        obtain ⟨small, -⟩ := Digits.halves_lt b
        have digit : ∀ n < 16, '+' ≠ Nat.digitChar n := by decide
        exact digit _ small (List.cons.inj h).1

end Capture
end Mqtt

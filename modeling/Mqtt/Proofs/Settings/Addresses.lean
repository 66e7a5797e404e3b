import Mathlib.Data.List.TakeWhile
import Mqtt.SocketAddress

/-!
# The characters of an address

The text of an address holds only hexadecimal digits, points, colons, brackets and the percent
sign. Every reader of a part of an address leaves all other characters in the rest, and the rest
behind an address is empty, so no other character can have been in the text.
-/
namespace Mqtt.SocketAddress

/-- Whether a character can be part of an address. -/
def isAddressChar (c : Char) : Bool :=
  Digits.isDigitOf 16 c || ['.', ':', '[', ']', '%'].contains c

variable {c : Char} {cs rest : List Char}

/-- A character that stood in front of a reader stands in the rest too. -/
def Passes (c : Char) (cs rest : List Char) : Prop :=
  c ∈ cs → c ∈ rest

theorem Passes.trans {middle : List Char} (h : Passes c cs middle) (h' : Passes c middle rest) :
    Passes c cs rest :=
  fun hc => h' (h hc)

section Foreign

variable (foreign : isAddressChar c = false)

include foreign

theorem passes_char? {mark : Char} (hmark : isAddressChar mark = true)
    (h : Front.char? mark cs = some rest) : Passes c cs rest := by
  intro hc
  cases cs with
  | nil => cases h
  | cons a cs =>
      rw [Front.char?] at h
      split at h
      · next same =>
        cases h
        rcases List.mem_cons.mp hc with rfl | hc
        · rw [same, hmark] at foreign
          cases foreign
        · exact hc
      · cases h

theorem isDigitOf_eq_false {base : Nat} (hbase : base ≤ 16) : Digits.isDigitOf base c = false := by
  have wide : Digits.isDigitOf 16 c = false := (Bool.or_eq_false_iff.mp foreign).1
  unfold Digits.isDigitOf Digits.valueIn? at wide ⊢
  cases hvalue : Digits.value? c with
  | none => rfl
  | some v =>
      simp [hvalue] at wide
      simp
      omega

theorem passes_readNumber? {base most bound n : Nat} (hbase : base ≤ 16)
    (h : readNumber? base most bound cs = some (n, rest)) : Passes c cs rest := by
  simp only [readNumber?] at h
  split at h
  · cases h
  · cases h
    intro hc
    have whole := List.prefix_iff_eq_append.mp
      (List.takeWhile_prefix (Digits.isDigitOf base) : _ <+: cs)
    rw [← whole, List.mem_append] at hc
    rcases hc with digit | hc
    · have := List.mem_takeWhile_imp digit
      rw [isDigitOf_eq_false foreign hbase] at this
      cases this
    · exact hc

theorem passes_readService? {service : UInt16} (h : readService? cs = some (service, rest)) :
    Passes c cs rest := by
  simp only [readService?, Option.bind_eq_bind, Option.bind_eq_some_iff, Prod.exists] at h
  obtain ⟨front, hfront, n, rest', hrest, same⟩ := h
  cases same
  exact (passes_char? foreign (by decide) hfront).trans
    (passes_readNumber? foreign (by decide) hrest)

theorem passes_readOctet? {octet : UInt8} (h : readOctet? cs = some (octet, rest)) :
    Passes c cs rest := by
  simp only [readOctet?, Option.bind_eq_bind, Option.bind_eq_some_iff, Prod.exists] at h
  obtain ⟨n, rest', hrest, h⟩ := h
  split at h
  · cases h
  · cases h
    exact passes_readNumber? foreign (by decide) hrest

theorem passes_readOctets? {octets : Vector UInt8 4} (h : readOctets? cs = some (octets, rest)) :
    Passes c cs rest := by
  simp only [readOctets?, Option.bind_eq_bind, Option.bind_eq_some_iff, Prod.exists] at h
  obtain ⟨_, _, first, _, point, _, _, second, _, point', _, _, third, _, point'', _, _, fourth,
    same⟩ := h
  cases same
  have octet {cs rest : List Char} {o : UInt8} (h : readOctet? cs = some (o, rest)) :
      Passes c cs rest := passes_readOctet? foreign h
  have mark {cs rest : List Char} (h : Front.char? '.' cs = some rest) : Passes c cs rest :=
    passes_char? foreign (by decide) h
  exact ((((((octet first).trans (mark point)).trans (octet second)).trans (mark point')).trans
    (octet third)).trans (mark point'')).trans (octet fourth)

theorem passes_readGroups (count : Nat) (first : Bool) (cs : List Char) :
    Passes c cs (readGroups count first cs).2.2 := by
  induction count generalizing first cs with
  | zero => exact id
  | succ count ih =>
      rw [readGroups]
      split
      · exact id
      · next group hgroup =>
        have start : Passes c cs group := by
          split at hgroup
          · cases hgroup
            exact id
          · exact passes_char? foreign (by decide) hgroup
        split
        · next octets rest hoctets =>
          split at hoctets
          · cases hoctets
          · exact start.trans (passes_readOctets? foreign hoctets)
        · split
          · exact id
          · next n rest hnumber =>
            have number := passes_readNumber? foreign (by decide) hnumber
            exact (start.trans number).trans (ih false rest)

theorem passes_readAddress? {groups : Vector UInt16 8}
    (h : readAddress? cs = some (groups, rest)) : Passes c cs rest := by
  have front := passes_readGroups foreign 8 true cs
  unfold readAddress? at h
  dsimp only at h
  split at h
  · cases h
    exact front
  · split at h
    · cases h
    · simp only [Option.bind_eq_bind, Option.bind_eq_some_iff] at h
      obtain ⟨_, colon, _, colon', h⟩ := h
      split at h
      · cases h
        exact ((front.trans (passes_char? foreign (by decide) colon)).trans
          (passes_char? foreign (by decide) colon')).trans (passes_readGroups foreign _ _ _)
      · cases h

theorem passes_readScope? {scope : UInt32} (h : readScope? cs = some (scope, rest)) :
    Passes c cs rest := by
  simp only [readScope?, Option.bind_eq_bind, Option.bind_eq_some_iff, Prod.exists] at h
  obtain ⟨front, hfront, n, rest', hrest, same⟩ := h
  cases same
  exact (passes_char? foreign (by decide) hfront).trans
    (passes_readNumber? foreign (by decide) hrest)

theorem passes_readV4? {address : SocketAddress} (h : readV4? cs = some (address, rest)) :
    Passes c cs rest := by
  simp only [readV4?, Option.bind_eq_bind, Option.bind_eq_some_iff, Prod.exists] at h
  obtain ⟨octets, front, hoctets, service, rest', hservice, same⟩ := h
  cases same
  exact (passes_readOctets? foreign hoctets).trans (passes_readService? foreign hservice)

theorem passes_readV6? {address : SocketAddress} (h : readV6? cs = some (address, rest)) :
    Passes c cs rest := by
  simp only [readV6?, Option.bind_eq_bind, Option.bind_eq_some_iff, Prod.exists] at h
  obtain ⟨_, bracket, groups, front, hgroups, _, bracket', service, rest', hservice, same⟩ := h
  cases same
  have behind : Passes c front ((readScope? front).getD (0, front)).2 := by
    cases hscope : readScope? front with
    | none => exact id
    | some r => exact passes_readScope? foreign hscope
  exact ((((passes_char? foreign (by decide) bracket).trans
    (passes_readAddress? foreign hgroups)).trans behind).trans
    (passes_char? foreign (by decide) bracket')).trans (passes_readService? foreign hservice)

end Foreign

/-- **An address holds no other characters.** -/
theorem isAddressChar_of_read? {s : String} {address : SocketAddress}
    (h : read? s = some address) (hc : c ∈ s.toList) : isAddressChar c = true := by
  by_contra foreign
  rw [Bool.not_eq_true] at foreign
  unfold read? at h
  split at h
  · next _ hread =>
    simp only [Option.orElse_eq_orElse, Option.orElse_eq_or, Option.or_eq_some_iff] at hread
    have nothing : c ∈ ([] : List Char) := by
      rcases hread with hread | ⟨-, hread⟩
      · exact passes_readV4? foreign hread hc
      · exact passes_readV6? foreign hread hc
    cases nothing
  · cases h

end Mqtt.SocketAddress

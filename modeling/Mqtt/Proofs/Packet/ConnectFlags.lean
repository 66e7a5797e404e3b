import Mathlib.Algebra.Group.Nat.Defs
import Mqtt.Packet.ConnectFlags

/-!
# The flags of a connect packet, there and back

A byte is read as flags exactly if it is the byte of those flags and they use will guarantee and
will retain only under the will flag.
-/
namespace Mqtt.ConnectFlags

theorem toNat_bit (b : UInt8) (i : Nat) : (bit b i).toNat = b.toNat / 2 ^ i % 2 := by
  rw [bit, Nat.toNat_testBit]

theorem toNat_byte (f : ConnectFlags) :
    f.byte.toNat = 128 * f.username.toNat + 64 * f.password.toNat + 32 * f.willRetain.toNat
      + 8 * f.willQoS.level + 4 * f.will.toNat + 2 * f.cleanSession.toNat := by
  have h1 := f.username.toNat_le
  have h2 := f.password.toNat_le
  have h3 := f.willRetain.toNat_le
  have h4 := f.willQoS.level_lt
  have h5 := f.will.toNat_le
  have h6 := f.cleanSession.toNat_le
  rw [byte, UInt8.toNat_ofNat']
  omega

/-- The bits of the byte are the flags that it was made of. -/
theorem bits_byte (f : ConnectFlags) :
    bit f.byte 0 = false ∧ bit f.byte 1 = f.cleanSession ∧ bit f.byte 2 = f.will
      ∧ f.byte.toNat / 8 % 4 = f.willQoS.level ∧ bit f.byte 5 = f.willRetain
      ∧ bit f.byte 6 = f.password ∧ bit f.byte 7 = f.username := by
  have h1 := f.username.toNat_le
  have h2 := f.password.toNat_le
  have h3 := f.willRetain.toNat_le
  have h4 := f.willQoS.level_lt
  have h5 := f.will.toNat_le
  have h6 := f.cleanSession.toNat_le
  have hbit (i : Nat) (x : Bool) (h : f.byte.toNat / 2 ^ i % 2 = x.toNat) :
      bit f.byte i = x := by
    rw [← toNat_bit] at h
    revert h
    cases bit f.byte i <;> cases x <;> simp
  refine ⟨hbit 0 _ ?_, hbit 1 _ ?_, hbit 2 _ ?_, ?_, hbit 5 _ ?_, hbit 6 _ ?_, hbit 7 _ ?_⟩
  all_goals
    simp only [Nat.reducePow, Bool.toNat_false, toNat_byte]
    omega

/-- **A byte is read as flags exactly if it is the byte of those flags** and they are consistent. -/
theorem ofByte_eq_ok_iff {b : UInt8} {f : ConnectFlags} :
    ofByte b = .ok f ↔ b = f.byte ∧ f.willBitsAllowed = true := by
  constructor
  · intro h
    rw [ofByte] at h
    split at h
    · cases h
    · next hreserved =>
      split at h
      · cases h
      · next q hq =>
        simp only at h
        split at h
        · next hallowed =>
          cases h
          refine ⟨?_, hallowed⟩
          have hlt := b.toNat_lt
          have hzero := toNat_bit b 0
          have hlevel := QoS.ofLevel?_eq_some_iff.mp hq
          simp only [hreserved, Bool.toNat_false, Nat.pow_zero, Nat.div_one] at hzero
          apply UInt8.toNat_inj.mp
          rw [toNat_byte]
          simp only [toNat_bit, Nat.reducePow, ← hlevel]
          omega
        · cases h
  · rintro ⟨rfl, hallowed⟩
    obtain ⟨h0, h1, h2, hq, h5, h6, h7⟩ := f.bits_byte
    rw [ofByte, h0, hq, QoS.ofLevel?_level]
    simp only [h1, h2, h5, h6, h7, hallowed, if_true, Bool.false_eq_true, if_false]

end Mqtt.ConnectFlags

import Mqtt.Packet.Basic
import Mqtt.Wire.DecodeError

/-!
# The flags of a connect packet as a byte

From the top bit down: username, password, will retain, two bits of will guarantee, will, clean
session, and a reserved bit that must be clear.
-/
namespace Mqtt.ConnectFlags

/-- The byte of the flags. -/
def byte (f : ConnectFlags) : UInt8 :=
  UInt8.ofNat (128 * f.username.toNat + 64 * f.password.toNat + 32 * f.willRetain.toNat
    + 8 * f.willQoS.level + 4 * f.will.toNat + 2 * f.cleanSession.toNat)

/-- Whether a bit of a byte is set, the lowest being bit 0. -/
def bit (b : UInt8) (i : Nat) : Bool :=
  b.toNat.testBit i

/-- Whether will guarantee and will retain are only used under the will flag. -/
def willBitsAllowed (f : ConnectFlags) : Bool :=
  f.will || (!f.willRetain && f.willQoS == .atMostOnce)

/-- The flags of a byte. Of several violations the first is reported in the order: reserved bit,
will guarantee out of range, will guarantee or retain without will. -/
def ofByte (b : UInt8) : Except Violation ConnectFlags :=
  if bit b 0 then .error .reservedConnectFlag
  else
    match QoS.ofLevel? (b.toNat / 8 % 4) with
    | none => .error .invalidWillQoS
    | some willQoS =>
      let flags : ConnectFlags :=
        { username := bit b 7
          password := bit b 6
          willRetain := bit b 5
          willQoS
          will := bit b 2
          cleanSession := bit b 1 }
      if flags.willBitsAllowed then .ok flags else .error .willBitsWithoutWill

end Mqtt.ConnectFlags

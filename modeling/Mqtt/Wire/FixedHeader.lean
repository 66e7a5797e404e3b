import Mqtt.Wire.Varint
import Mqtt.Wire.EncodeError

/-!
# Fixed headers

Every packet opens with one byte of type code and flags, and the length of what follows as a
variable byte integer. Any type code is read, also one that names no kind; a header is written for a
kind, and only if its length can be told.
-/
namespace Mqtt

/-- What stands before the body of a packet. The type code may be a reserved one: a frame has a
length whatever its kind. -/
structure FixedHeader where
  /-- The high half of the first byte. -/
  code : Nat
  /-- The low half of the first byte. -/
  flags : Nat
  /-- The length of the body. -/
  remaining : Nat
  deriving DecidableEq

namespace FixedHeader

/-- Reads a header from the front of a byte string. -/
def decode : Bytes → Scan FixedHeader
  | [] => .incomplete
  | first :: rest =>
    (Varint.decode rest).map (fun n => ⟨first.toNat / 16, first.toNat % 16, n⟩) (· + 1)

/-- The first byte of a header: the code above the low four bits of the flags. -/
def firstByte (kind : Kind) (flags : Nat) : UInt8 :=
  UInt8.ofNat (16 * kind.code + flags % 16)

/-- The header of a packet, if its length can be written. -/
def encode (kind : Kind) (flags remaining : Nat) : Except EncodeError Bytes :=
  match Varint.encode? remaining with
  | some size => .ok (firstByte kind flags :: size)
  | none => .error ⟨kind, .packetTooLarge⟩

/-- Writes the header of a packet behind what a buffer holds. The length is checked before the
first byte is written. -/
def appendTo (buffer : Bytes) (kind : Kind) (flags remaining : Nat) :
    Bytes × Option EncodeError :=
  if Varint.maximum < remaining then (buffer, some ⟨kind, .packetTooLarge⟩)
  else
    match Varint.appendTo (buffer ++ [firstByte kind flags]) remaining with
    | (buffer, some _) => (buffer, none)
    | (buffer, none) => (buffer, some ⟨kind, .packetTooLarge⟩)

end FixedHeader
end Mqtt

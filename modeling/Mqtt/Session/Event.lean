import Mqtt.Packet.Basic
import Mqtt.Wire.DecodeError

/-!
# Events

What a session tells about a stream: packets, and at the end perhaps the failure that makes the
rest of the stream unreadable. A failure has a cause, with the words for it, and the kind of the
packet that it happened at, once that is known.
-/
namespace Mqtt

/-- Why a stream is given up. -/
inductive FailureCause where
  /-- A header or a body cannot be read. -/
  | undecodable (error : DecodeError)
  /-- The stream does not open with the kind it must open with. -/
  | notFirst (first : Kind)
  /-- The kind that opens a stream comes again. -/
  | repeated (first : Kind)
  /-- A type code that the other side may not send. -/
  | unaccepted (code : Nat)
  /-- A cause found elsewhere, in words. -/
  | stated (reason : String)
  deriving DecidableEq

/-- The words for a cause. -/
def FailureCause.reason : FailureCause → String
  | undecodable (.outOfData needed available) =>
    "Corrupt data, fell off the end: " ++ DecodeError.message (.outOfData needed available)
  | undecodable error => error.message
  | notFirst first => first.name ++ " packet was not first"
  | repeated first => "Multiple " ++ first.name ++ " packets"
  | unaccepted code => "Unimplemented packet type " ++ toString code
  | stated reason => reason

/-- A stream is given up. -/
structure Failure where
  cause : FailureCause
  /-- The kind of the packet, once its header is known and names one. -/
  kind : Option Kind := none
  deriving DecidableEq

namespace Failure

/-- The words for a failure. -/
def reason (f : Failure) : String := f.cause.reason

/-- The same failure, said to happen at a kind of packet. -/
def about (f : Failure) (kind : Kind) : Failure := { f with kind := some kind }

/-- The same failure, said to happen at the packet of a type code. -/
def aboutCode (f : Failure) (code : Nat) : Failure :=
  match Kind.ofCode? code with
  | some kind => f.about kind
  | none => f

end Failure

/-- What a session tells. -/
inductive Event where
  | packet (packet : Packet)
  | failure (failure : Failure)
  deriving DecidableEq

namespace Event

/-- Whether an event is a failure. -/
def isFailure : Event → Bool
  | packet _ => false
  | failure _ => true

/-- The packet of an event. -/
def packet? : Event → Option Packet
  | packet p => some p
  | failure _ => none

end Event
end Mqtt

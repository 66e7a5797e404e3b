import Mqtt.Packet.Kind

/-!
# Packets that cannot be written

Why the wire cannot carry a packet, and how that is put into words.
-/
namespace Mqtt

/-- Why the wire cannot carry a packet. -/
inductive EncodeFault where
  /-- A text holds the character U+0000. -/
  | containsNull
  /-- A text or binary field is longer than its length prefix can tell. -/
  | fieldTooLong
  /-- The body is longer than the fixed header can tell. -/
  | packetTooLarge
  /-- The will flag, the will topic and the will message are not all there or all absent. -/
  | willMismatch
  /-- A will guarantee or will retain without the will flag. -/
  | willBitsWithoutWill
  /-- The username flag and the username are not both there or both absent. -/
  | usernameMismatch
  /-- The password flag and the password are not both there or both absent. -/
  | passwordMismatch
  /-- A message sent at most once has a packet identifier. -/
  | identifierUnwanted
  /-- A message sent with a better guarantee has no packet identifier. -/
  | identifierMissing
  /-- A subscribe packet asks for nothing. -/
  | noRequests
  /-- An unsubscribe packet names no topic. -/
  | noTopics
  deriving DecidableEq

/-- The words for a fault. -/
def EncodeFault.reason : EncodeFault → String
  | containsNull => "Invalid UTF-8 string (contains nulls)"
  | fieldTooLong => "String too long"
  | packetTooLarge => "Packet too large"
  | willMismatch => "Will flag does not match will topic and message"
  | willBitsWithoutWill => "Will QoS or retain set without will flag"
  | usernameMismatch => "Username flag does not match username"
  | passwordMismatch => "Password flag does not match password"
  | identifierUnwanted => "Packet Identifier on non-QoS 1/2 packet"
  | identifierMissing => "QoS level > 0 but no Packet Identifier"
  | noRequests => "Must contain at least one topic request"
  | noTopics => "Must contain a payload"

/-- A packet that the wire cannot carry: its kind, and what is wrong with it. -/
structure EncodeError where
  kind : Kind
  fault : EncodeFault
  deriving DecidableEq

/-- The words for an error. -/
def EncodeError.message (e : EncodeError) : String :=
  "cannot serialise " ++ e.kind.name ++ ": " ++ e.fault.reason

end Mqtt

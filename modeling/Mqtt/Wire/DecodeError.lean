import Mqtt.Packet.Kind

/-!
# Bytes that are no packet

Why a header or a body cannot be read, and how that is put into words.
-/
namespace Mqtt

/-- What a body of one kind violates. -/
inductive Violation where
  /-- The flags of the fixed header are not the required ones. -/
  | badFlags
  | badProtocolName
  | badProtocolLevel
  /-- Bit 0 of the connect flags is set. -/
  | reservedConnectFlag
  | invalidWillQoS
  | willBitsWithoutWill
  /-- A bit above the first of the acknowledge flags is set. -/
  | reservedAckFlag
  | invalidPublishQoS
  /-- One of the six high bits of a request's options is set. -/
  | reservedRequestBits
  | invalidRequestQoS
  /-- An unsubscribe packet names no topic. -/
  | noTopics
  /-- Bytes follow a body of fixed length. -/
  | trailingData
  /-- A violation found elsewhere, in words. -/
  | stated (reason : String)
  deriving DecidableEq

/-- The words for a violation. -/
def Violation.reason : Violation → String
  | badFlags => "Bad flags"
  | badProtocolName => "Bad protocol name"
  | badProtocolLevel => "Bad protocol level"
  | reservedConnectFlag => "Reserved flag in CONNECT used"
  | invalidWillQoS => "Invalid will QoS"
  | willBitsWithoutWill => "Will QoS or retain set without will flag"
  | reservedAckFlag => "Reserved flag used"
  | invalidPublishQoS => "Invalid QoS value"
  | reservedRequestBits => "Data in QoS Reserved area"
  | invalidRequestQoS => "Invalid QoS"
  | noTopics => "Must contain a payload"
  | trailingData => "Unexpected trailing data"
  | stated reason => reason

/-- Why a header or a body cannot be read. -/
inductive DecodeError where
  /-- A field ends behind the end of the body. -/
  | outOfData (needed available : Nat)
  /-- The remaining length takes more than four bytes. -/
  | lengthOverlong
  /-- The remaining length is above the limit. -/
  | lengthOverLimit (length limit : Nat)
  /-- A text is not UTF-8. -/
  | invalidUtf8
  /-- A text is not UTF-8 and holds an encoded surrogate. -/
  | surrogates
  /-- A text holds the character U+0000. -/
  | containsNull
  /-- The body violates a rule of its kind. -/
  | malformed (kind : Kind) (violation : Violation)
  deriving DecidableEq

namespace DecodeError

/-- The words for an error. -/
def message : DecodeError → String
  | outOfData needed available =>
    "cannot read " ++ toString needed ++ " bytes, only " ++ toString available ++ " available"
  | lengthOverlong => "Too big packet size"
  | lengthOverLimit length limit =>
    "Packet too large: remaining length " ++ toString length ++ " exceeds limit of "
      ++ toString limit
  | invalidUtf8 => "Invalid UTF-8 string"
  | surrogates => "Invalid UTF-8 string (contains surrogates)"
  | containsNull => "Invalid UTF-8 string (contains nulls)"
  | malformed kind violation => violation.reason ++ " in " ++ kind.name

/-- The kind that an error is about, if it is about one. -/
def kind? : DecodeError → Option Kind
  | malformed kind _ => some kind
  | _ => none

end DecodeError
end Mqtt

import Mqtt.Packet.ConnectFlags
import Mqtt.Wire.Field
import Mqtt.Wire.FixedHeader

/-!
# Writing packets

What a packet writes is told by its steps: the conditions that it must satisfy and its fields, in
the order of the wire. A body is written up to the first step that fails, but a packet is written as
a whole or not at all, also behind what a buffer already holds.
-/
namespace Mqtt

/-- The name that every connect packet starts with. -/
def protocolName : String := "MQTT"

/-- The level of protocol version 3.1.1. -/
def protocolLevel : UInt8 := 4

/-- Will topic and will message, when both are there. -/
def Connect.will? (c : Connect) : Option (String × Bytes) :=
  match c.willTopic, c.willMessage with
  | some topic, some message => some (topic, message)
  | _, _ => none

/-- The fields of a will, which are written both or not at all. -/
def Connect.willSteps (c : Connect) : List Step :=
  match c.will? with
  | some (topic, message) => [.write (.text topic), .write (.data message)]
  | none => []

/-- The optional fields have to agree with the flags before any field is written. -/
def Connect.steps (c : Connect) : List Step :=
  [ .require (c.flags.will == c.willTopic.isSome && c.flags.will == c.willMessage.isSome)
      .willMismatch,
    .require c.flags.willBitsAllowed .willBitsWithoutWill,
    .require (c.flags.username == c.username.isSome) .usernameMismatch,
    .require (c.flags.password == c.password.isSome) .passwordMismatch,
    .write (.text protocolName),
    .write (.byte protocolLevel),
    .write (.byte c.flags.byte),
    .write (.word c.keepAlive),
    .write (.text c.clientId) ]
  ++ c.willSteps
  ++ Step.optional .text c.username
  ++ Step.optional .text c.password

/-- Session present is the only acknowledge flag. -/
def ConnAck.steps (a : ConnAck) : List Step :=
  [.write (.byte (UInt8.ofNat a.sessionPresent.toNat)), .write (.byte a.returnCode)]

/-- The topic is written before the packet identifier is checked. -/
def Publish.steps (p : Publish) : List Step :=
  [ .write (.text p.topicName),
    .require (p.qos != .atMostOnce || p.packetId.isNone) .identifierUnwanted,
    .require (p.qos == .atMostOnce || p.packetId.isSome) .identifierMissing ]
  ++ Step.optional .word p.packetId
  ++ [.write (.rest p.payload)]

/-- A topic filter, then the guarantee in a byte of its own. -/
def TopicRequest.steps (r : TopicRequest) : List Step :=
  [.write (.text r.topicFilter), .write (.byte (UInt8.ofNat r.maxQoS.level))]

/-- There must be a request. -/
def Subscribe.steps (s : Subscribe) : List Step :=
  [.require (!s.requests.isEmpty) .noRequests, .write (.word s.packetId)]
  ++ s.requests.flatMap TopicRequest.steps

/-- The return codes reach to the end of the body. -/
def SubAck.steps (s : SubAck) : List Step :=
  [.write (.word s.packetId), .write (.rest s.returnCodes)]

/-- There must be a topic. -/
def Unsubscribe.steps (u : Unsubscribe) : List Step :=
  [.require (!u.topics.isEmpty) .noTopics, .write (.word u.packetId)]
  ++ u.topics.map (fun topic => .write (.text topic))

namespace Packet

/-- The conditions and fields of a body, in the order of the wire. -/
def steps : Packet → List Step
  | connect c => c.steps
  | connAck a => a.steps
  | publish p => p.steps
  | receipt _ packetId => [.write (.word packetId)]
  | subscribe s => s.steps
  | subAck s => s.steps
  | unsubscribe u => u.steps
  | signal _ => []

/-- The flags of the fixed header. -/
def headerFlags : Packet → Nat
  | publish p => 8 * p.duplicate.toNat + 2 * p.qos.level + p.retain.toNat
  | p => p.kind.requiredFlags.getD 0

/-- The body up to the first step that fails, and the fault if one does. -/
def encodeBody (p : Packet) : Bytes × Option EncodeFault :=
  Step.writeAll p.steps

/-- The whole packet, if the wire can carry it. -/
def encode (p : Packet) : Except EncodeError Bytes :=
  match p.encodeBody with
  | (_, some fault) => .error ⟨p.kind, fault⟩
  | (body, none) => (· ++ body) <$> FixedHeader.encode p.kind p.headerFlags body.length

/-- Writes a packet behind what a buffer holds. The body is written apart from the buffer, since its
length stands in front of it; what a body that fails has written is dropped. -/
def appendTo (buffer : Bytes) (p : Packet) : Bytes × Option EncodeError :=
  match p.encodeBody with
  | (_, some fault) => (buffer, some ⟨p.kind, fault⟩)
  | (body, none) =>
    match FixedHeader.appendTo buffer p.kind p.headerFlags body.length with
    | (buffer, some e) => (buffer, some e)
    | (buffer, none) => (buffer ++ body, none)

/-- Writes packets one behind the other; the result has the buffer and the error after each. -/
def appendAllTo (buffer : Bytes) : List Packet → List (Bytes × Option EncodeError)
  | [] => []
  | p :: packets =>
    let step := appendTo buffer p
    step :: appendAllTo step.1 packets

end Packet
end Mqtt

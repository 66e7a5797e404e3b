import Mqtt.Log
import Mqtt.Packet.Encode
import Mqtt.Wire.Cursor

/-!
# Reading packets

A packet is read from its kind, the flags of its fixed header, and its body. The body is framed:
nothing is read beyond its end, and what a kind of packet does not use of it is an error, except
behind a connect packet or its answer, where padding is common.
-/
namespace Mqtt

namespace Decoder

/-- Goes on only if the condition holds. -/
def require (condition : Bool) (kind : Kind) (violation : Violation) : Decoder Unit :=
  if condition then Decoder.pure () else fail (.malformed kind violation)

/-- Goes on with a value, or fails with the violation found instead. -/
def lift {α : Type} (kind : Kind) : Except Violation α → Decoder α
  | .ok a => Decoder.pure a
  | .error violation => fail (.malformed kind violation)

/-- Goes on with the guarantee of a level, unless it is reserved. -/
def guarantee (level : Nat) (kind : Kind) (violation : Violation) : Decoder QoS :=
  match QoS.ofLevel? level with
  | some q => Decoder.pure q
  | none => fail (.malformed kind violation)

/-- Reads a value only if it is announced. -/
def optional {α : Type} (announced : Bool) (d : Decoder α) : Decoder (Option α) :=
  if announced then some <$> d else Decoder.pure none

theorem advances_require (condition : Bool) (kind : Kind) (violation : Violation) :
    (require condition kind violation).Advances := by
  cases condition
  · exact advances_fail _
  · exact advances_pure _

theorem advances_guarantee (level : Nat) (kind : Kind) (violation : Violation) :
    (guarantee level kind violation).Advances := by
  unfold guarantee
  split
  · exact advances_pure _
  · exact advances_fail _

/-- Nothing may be ahead. -/
def ended (kind : Kind) : Decoder Unit := fun c =>
  require c.atEnd kind .trailingData c

end Decoder

open Decoder

/-- The body of a connect packet. Bytes behind it are left. -/
def Connect.decode : Decoder Connect := do
  let name ← text
  require (name == protocolName) .connect .badProtocolName
  let level ← byte
  require (level == protocolLevel) .connect .badProtocolLevel
  let flags ← byte
  let flags ← lift .connect (ConnectFlags.ofByte flags)
  let keepAlive ← word
  let clientId ← text
  let willTopic ← optional flags.will text
  let willMessage ← optional flags.will data
  let username ← optional flags.username text
  let password ← optional flags.password text
  return { clientId, flags, keepAlive, willTopic, willMessage, username, password }

/-- The body of the answer to a connect packet. Bytes behind it are left. -/
def ConnAck.decode : Decoder ConnAck := do
  let acknowledge ← byte
  require (acknowledge.toNat < 2) .connAck .reservedAckFlag
  let returnCode ← byte
  return { sessionPresent := acknowledge.toNat % 2 == 1, returnCode }

/-- The body of a publish packet; its flags tell how the message is delivered. -/
def Publish.decode (flags : Nat) : Decoder Publish := do
  let qos ← guarantee (flags / 2 % 4) .publish .invalidPublishQoS
  let topicName ← text
  let packetId ← optional (qos != .atMostOnce) word
  let payload ← rest
  return { duplicate := flags / 8 % 2 == 1, qos, retain := flags % 2 == 1, topicName, payload,
           packetId }

/-- A topic filter and its options, of which only the two lowest bits are in use. -/
def TopicRequest.decode : Decoder TopicRequest := do
  let topicFilter ← text
  let options ← byte
  require (options.toNat < 4) .subscribe .reservedRequestBits
  let maxQoS ← guarantee options.toNat .subscribe .invalidRequestQoS
  return { topicFilter, maxQoS }

theorem TopicRequest.consumes_decode : TopicRequest.decode.Consumes :=
  consumes_text.bind fun _ => advances_byte.bind fun _ =>
    (advances_require _ _ _).bind fun _ => (advances_guarantee _ _ _).bind fun _ =>
      advances_pure _

/-- The body of a subscribe packet. The first request is read even at the end of the body, so a
packet without one runs off the end. -/
def Subscribe.decode : Decoder Subscribe := do
  let packetId ← word
  let first ← TopicRequest.decode
  let others ← untilEnd TopicRequest.decode TopicRequest.consumes_decode
  return { packetId, requests := first :: others }

/-- The body of the answer to a subscribe packet. -/
def SubAck.decode : Decoder SubAck := do
  let packetId ← word
  let returnCodes ← rest
  return { packetId, returnCodes }

/-- The body of an unsubscribe packet. -/
def Unsubscribe.decode : Decoder Unsubscribe := do
  let packetId ← word
  let topics ← untilEnd text consumes_text
  require (!topics.isEmpty) .unsubscribe .noTopics
  return { packetId, topics }

namespace Packet

/-- The packet identifier of a receipt, and nothing behind it. -/
def decodeReceipt (r : Receipt) : Decoder Packet := do
  let packetId ← word
  ended r.kind
  return .receipt r packetId

/-- Nothing at all. -/
def decodeSignal (s : Signal) : Decoder Packet := do
  ended s.kind
  return .signal s

/-- Reads the body of a kind. Only a publish packet looks at the flags. -/
def decodeBody (flags : Nat) : Kind → Decoder Packet
  | .connect => .connect <$> Connect.decode
  | .connAck => .connAck <$> ConnAck.decode
  | .publish => .publish <$> Publish.decode flags
  | .pubAck => decodeReceipt .pubAck
  | .pubRec => decodeReceipt .pubRec
  | .pubRel => decodeReceipt .pubRel
  | .pubComp => decodeReceipt .pubComp
  | .subscribe => .subscribe <$> Subscribe.decode
  | .subAck => .subAck <$> SubAck.decode
  | .unsubscribe => .unsubscribe <$> Unsubscribe.decode
  | .unsubAck => decodeReceipt .unsubAck
  | .pingReq => decodeSignal .pingReq
  | .pingResp => decodeSignal .pingResp
  | .disconnect => decodeSignal .disconnect

/-- Reads the body of a kind, after a check that the flags are the required ones. -/
def decode (kind : Kind) (flags : Nat) : Decoder Packet := do
  require (kind.requiredFlags.all (· == flags)) kind .badFlags
  decodeBody flags kind

/-- Whether bytes behind the body of a kind are tolerated. -/
def toleratesPadding : Kind → Bool
  | .connect | .connAck => true
  | _ => false

/-- The warning about bytes behind a packet whose body ends at a cursor. -/
def paddingNotice (kind : Kind) (c : Cursor) : List Log.Record :=
  if toleratesPadding kind && !c.atEnd then
    [{ level := .warn
       message := "Quirky " ++ kind.name ++ " -- packet length was " ++ toString c.length
         ++ " bytes but only had " ++ toString c.position ++ " bytes of useful data" }]
  else []

end Packet
end Mqtt

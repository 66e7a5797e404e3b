import Mqtt.Packet.Basic
import Mqtt.Text.Shown

/-!
# Packets as text

A packet is shown on one line: its kind, and in parentheses the record of its fields.
-/
namespace Mqtt

/-- The flags of a connect packet as text. -/
def ConnectFlags.describe (f : ConnectFlags) : String :=
  Shown.record "ConnectFlags"
    [ ("username", Shown.bool f.username),
      ("password", Shown.bool f.password),
      ("will_retain", Shown.bool f.willRetain),
      ("will_qos", f.willQoS.name),
      ("will", Shown.bool f.will),
      ("clean_session", Shown.bool f.cleanSession) ]

/-- A topic request as text. -/
def TopicRequest.describe (r : TopicRequest) : String :=
  Shown.record "SubscriptionTopicRequest"
    [("topic_filter", Quoted.text r.topicFilter), ("max_qos", r.maxQoS.name)]

/-- A packet identifier as a field. -/
def shownPacketId (packetId : UInt16) : String × String :=
  ("packet_identifier", toString packetId.toNat)

namespace Packet

/-- The fields of a packet in order, shown as text. -/
def shownFields : Packet → List (String × String)
  | connect c =>
    [ ("client_id", Quoted.text c.clientId),
      ("flags", c.flags.describe),
      ("keep_alive", toString c.keepAlive.toNat),
      ("will_topic", Shown.option Quoted.text c.willTopic),
      ("will_message", Shown.option Quoted.bytes c.willMessage),
      ("username", Shown.option Quoted.text c.username),
      ("password", Shown.option Quoted.text c.password) ]
  | connAck a =>
    [ ("session_present", Shown.bool a.sessionPresent),
      ("return_code", toString a.returnCode.toNat) ]
  | publish p =>
    [ ("duplicate", Shown.bool p.duplicate),
      ("qos_level", p.qos.name),
      ("retain", Shown.bool p.retain),
      ("topic_name", Quoted.text p.topicName),
      ("payload", Quoted.bytes p.payload),
      ("packet_identifier", Shown.option (fun n => toString n.toNat) p.packetId) ]
  | receipt _ packetId => [shownPacketId packetId]
  | subscribe s =>
    [ shownPacketId s.packetId,
      ("topic_requests", Shown.list TopicRequest.describe s.requests) ]
  | subAck s =>
    [ shownPacketId s.packetId,
      ("return_codes", Shown.list (fun code => toString code.toNat) s.returnCodes) ]
  | unsubscribe u =>
    [shownPacketId u.packetId, ("topics", Shown.list Quoted.text u.topics)]
  | signal _ => []

/-- A packet as one line of text. A packet without fields is shown by its name alone. -/
def describe (p : Packet) : String :=
  let name := p.kind.name
  Shown.named name <|
    match p.shownFields with
    | [] => name
    | fields => Shown.record name fields

end Packet
end Mqtt

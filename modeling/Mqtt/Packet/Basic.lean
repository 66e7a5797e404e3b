import Mqtt.Bytes
import Mqtt.QoS
import Mqtt.Packet.Kind

/-!
# Control packets

Packets are plain values. Six kinds have a body of their own; a receipt carries a packet identifier
and nothing else, and a signal nothing at all. A value need not be one that the wire can carry: what
a packet must satisfy is checked when it is written, and what is read satisfies it.
-/
namespace Mqtt

/-- What a connect packet announces about its payload and the session. -/
structure ConnectFlags where
  username : Bool := false
  password : Bool := false
  willRetain : Bool := false
  willQoS : QoS := .atMostOnce
  will : Bool := false
  cleanSession : Bool := false
  deriving DecidableEq

/-- Opens a session. The optional fields belong to the flags of the same name; the will topic and
the will message both belong to `flags.will`. -/
structure Connect where
  clientId : String := ""
  flags : ConnectFlags := { cleanSession := true }
  keepAlive : UInt16 := 60
  willTopic : Option String := none
  willMessage : Option Bytes := none
  username : Option String := none
  password : Option String := none
  deriving BEq, DecidableEq

/-- Answers a connect packet; return code 0 accepts it. -/
structure ConnAck where
  sessionPresent : Bool := false
  returnCode : UInt8 := 0
  deriving DecidableEq

/-- Carries a message. The packet identifier belongs to the guarantees above at most once. -/
structure Publish where
  duplicate : Bool := false
  qos : QoS := .atMostOnce
  retain : Bool := false
  topicName : String := ""
  payload : Bytes := []
  packetId : Option UInt16 := none
  deriving BEq, DecidableEq

/-- A topic filter, and the best guarantee that is asked for it. -/
structure TopicRequest where
  topicFilter : String
  maxQoS : QoS
  deriving DecidableEq

/-- Asks for the messages of some topics. -/
structure Subscribe where
  packetId : UInt16
  requests : List TopicRequest
  deriving DecidableEq

/-- Answers a subscribe packet with one code for each request. -/
structure SubAck where
  packetId : UInt16
  returnCodes : Bytes
  deriving BEq, DecidableEq

/-- Asks for no more messages of some topics. -/
structure Unsubscribe where
  packetId : UInt16
  topics : List String
  deriving DecidableEq

/-- The kinds of packets that carry a packet identifier and nothing else. -/
inductive Receipt where
  | pubAck
  | pubRec
  | pubRel
  | pubComp
  | unsubAck
  deriving DecidableEq

/-- The kinds of packets without a body. -/
inductive Signal where
  | pingReq
  | pingResp
  | disconnect
  deriving DecidableEq

/-- A control packet. -/
inductive Packet where
  | connect (body : Connect)
  | connAck (body : ConnAck)
  | publish (body : Publish)
  | receipt (receipt : Receipt) (packetId : UInt16)
  | subscribe (body : Subscribe)
  | subAck (body : SubAck)
  | unsubscribe (body : Unsubscribe)
  | signal (signal : Signal)
  deriving BEq, DecidableEq

/-- The kind of a receipt. -/
def Receipt.kind : Receipt → Kind
  | pubAck => .pubAck
  | pubRec => .pubRec
  | pubRel => .pubRel
  | pubComp => .pubComp
  | unsubAck => .unsubAck

/-- The kind of a signal. -/
def Signal.kind : Signal → Kind
  | pingReq => .pingReq
  | pingResp => .pingResp
  | disconnect => .disconnect

/-- The kind of a packet. -/
def Packet.kind : Packet → Kind
  | connect _ => .connect
  | connAck _ => .connAck
  | publish _ => .publish
  | receipt r _ => r.kind
  | subscribe _ => .subscribe
  | subAck _ => .subAck
  | unsubscribe _ => .unsubscribe
  | signal s => s.kind

end Mqtt

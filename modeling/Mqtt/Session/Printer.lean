import Mqtt.Session.Basic

/-!
# Sessions as text

A session is shown with the length of its buffer in place of the bytes.
-/
namespace Mqtt

/-- The name of a phase. -/
def Phase.name : Phase → String
  | awaitingHeader => "AwaitingHeader"
  | collectingBody _ => "CollectingBody"
  | violated => "ProtocolViolation"

/-- A fixed header as text. -/
def FixedHeader.describe (h : FixedHeader) : String :=
  Shown.record "FixedHeader"
    [ ("packet_type", toString h.code),
      ("flags", toString h.flags),
      ("remaining_length", toString h.remaining) ]

/-- A phase as text, with the header that waits for its body. -/
def Phase.describe (p : Phase) : String :=
  match p with
  | collectingBody header => Shown.named p.name header.describe
  | _ => p.name

/-- A session as one line of text. -/
def Session.describe (s : Session) : String :=
  Shown.record "Parser"
    [ ("role", s.role.name),
      ("state", s.phase.describe),
      ("buffered", toString s.buffer.length),
      ("packet_count", toString s.packets),
      ("max_remaining_length", toString s.limit) ]

end Mqtt

import Mqtt.Session.Event
import Mqtt.Session.Role
import Mqtt.Text.Shown

/-!
# Sessions

A session puts packets together from a stream that arrives in pieces, cut anywhere. It alternates
between waiting for a fixed header and collecting a body; the first frame that breaks a rule ends
it for good.
-/
namespace Mqtt

/-- Where a session stands in its stream. -/
inductive Phase where
  /-- The buffered bytes open with a fixed header. -/
  | awaitingHeader
  /-- The buffered bytes open with the body of a header. -/
  | collectingBody (header : FixedHeader)
  /-- A rule is broken; all further bytes are dropped. -/
  | violated
  deriving DecidableEq

/-- The remaining length that a session accepts unless told otherwise. -/
def defaultLimit : Nat := 1048576

/-- The state of a stream. -/
structure Session where
  role : Role
  phase : Phase := .awaitingHeader
  /-- The bytes received and not yet used. -/
  buffer : Bytes := []
  /-- The number of packets decoded. -/
  packets : Nat := 0
  /-- The largest remaining length that is accepted. -/
  limit : Nat := defaultLimit
  deriving DecidableEq

/-- An event, and the records that are logged with it. -/
structure Report where
  event : Event
  records : List Log.Record
  deriving DecidableEq

namespace Session

/-- A session at the start of a stream. -/
def start (role : Role) : Session := { role }

/-- Changes the largest remaining length that is accepted. No limit is above what a fixed header
can tell. -/
def withLimit (s : Session) (limit : Nat) : Session :=
  { s with limit := min limit Varint.maximum }

/-- The header whose body is being collected. -/
def pendingHeader (s : Session) : Option FixedHeader :=
  match s.phase with
  | .collectingBody header => some header
  | _ => none

/-- Reads a framed body. Checked in this order: what must come first comes first, and only then;
the other side may send the kind; the flags and the body are those of the kind. -/
def judge (s : Session) (header : FixedHeader) (body : Bytes) :
    Except FailureCause (Packet × Cursor) :=
  if s.packets = 0 ∧ header.code ≠ s.role.first.code then
    .error (.notFirst s.role.first)
  else if 0 < s.packets ∧ header.code = s.role.first.code then
    .error (.repeated s.role.first)
  else
    match s.role.reader? header.code with
    | none => .error (.unaccepted header.code)
    | some decode =>
      match (decode header.flags).read (.start body) with
      | (.error error, _) => .error (.undecodable error)
      | (.ok packet, c) => .ok (packet, c)

/-- The record of a broken rule. -/
def violationRecord (s : Session) (f : Failure) : Log.Record :=
  { level := .debug
    message := "protocol violation"
    values :=
      [ { name := "role", text := s.role.name },
        { name := "packets", text := toString s.packets },
        { name := "packet_type", text := Shown.option Kind.name f.kind },
        { name := "reason", text := f.reason, quoted := true } ] }

/-- The record of a packet of a remaining length. -/
def packetRecord (p : Packet) (remaining : Nat) : Log.Record :=
  { level := .trace
    message := "decoded packet"
    values :=
      [ { name := "packet_type", text := p.kind.name },
        { name := "remaining_length", text := toString remaining } ] }

/-- What is told of a broken rule. -/
def violation (s : Session) (f : Failure) : Report :=
  { event := .failure f, records := [s.violationRecord f] }

/-- What is told of a packet: padding behind it, then the packet. -/
def decoded (p : Packet) (c : Cursor) : Report :=
  { event := .packet p
    records := Packet.paddingNotice p.kind c ++ [packetRecord p c.length] }

/-- A session whose stream broke a rule. -/
def giveUp (s : Session) : Session :=
  { s with phase := .violated, buffer := [] }

/-- What a session does next. -/
inductive Move where
  /-- Nothing, until more bytes come. -/
  | wait
  /-- A header is complete. -/
  | frame (next : Session)
  /-- A frame is judged. -/
  | tell (report : Report) (next : Session)

/-- The next move that the buffered bytes allow. -/
def step (s : Session) : Move :=
  match s.phase with
  | .violated => .wait
  | .awaitingHeader =>
    match FixedHeader.decode s.buffer with
    | .incomplete => .wait
    | .overlong => .tell (s.violation ⟨.undecodable .lengthOverlong, none⟩) s.giveUp
    | .complete header size =>
      if s.limit < header.remaining then
        let error := DecodeError.lengthOverLimit header.remaining s.limit
        .tell (s.violation (Failure.aboutCode ⟨.undecodable error, none⟩ header.code)) s.giveUp
      else
        .frame { s with phase := .collectingBody header, buffer := s.buffer.drop size }
  | .collectingBody header =>
    let body := s.buffer.take header.remaining
    if body.length < header.remaining then .wait
    else
      match s.judge header body with
      | .error cause =>
        .tell (s.violation (Failure.aboutCode ⟨cause, none⟩ header.code)) s.giveUp
      | .ok (packet, c) =>
        .tell (decoded packet c)
          { s with
            phase := .awaitingHeader
            buffer := s.buffer.drop header.remaining
            packets := s.packets + 1 }

/-- Bounds the moves that the buffered bytes still allow: each byte counts twice, and a header
that waits for its body once. -/
def work (s : Session) : Nat :=
  2 * s.buffer.length
    + match s.phase with
      | .collectingBody _ => 1
      | _ => 0

end Session
end Mqtt

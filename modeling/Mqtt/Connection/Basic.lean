import Mqtt.Connection.ByteStream
import Mqtt.Session.Receive

/-!
# Connections

A connection binds a session to a byte stream. Events that one read brings wait in a queue; the
stream is read only when the queue is empty. A failure is the last event that is handed out: what
waits behind it is dropped, and the connection is finished, as it is when the peer closes or when it
is closed from this side. Packets are sent as a whole or not at all, as far as the stream lets them.
-/
namespace Mqtt

/-- A session on a byte stream. -/
structure Connection where
  stream : ByteStream
  session : Session
  /-- Bytes read and not yet given to the session. -/
  readBuffer : Bytes := []
  /-- The bytes of the packet that was to be sent last. -/
  writeBuffer : Bytes := []
  /-- Events told and not yet handed out. -/
  queue : List Event := []
  /-- The stream is not read any more. -/
  finished : Bool := false
  deriving DecidableEq

/-- What an operation gives, what it logs, and the connection after it. -/
structure Outcome (α : Type) where
  value : α
  records : List Log.Record
  after : Connection

/-- Why a packet was not sent. -/
inductive SendError where
  | stream (fault : WriteFault)
  | packet (error : EncodeError)
  deriving DecidableEq

namespace SendError

/-- The words for the cause of an error. -/
def source : SendError → String
  | stream fault => fault.message
  | packet error => error.message

/-- The words for an error. -/
def message : SendError → String
  | stream fault => "IO error: " ++ fault.message
  | packet error => "Serialisation error: " ++ error.message

end SendError

namespace Connection

/-- A connection on which nothing has been read or sent. -/
def start (stream : ByteStream) (session : Session) : Connection :=
  { stream, session }

/-- The most bytes that one read takes. -/
def readSize : Nat := 4096

/-- The record of a read. -/
def readRecord (n : Nat) : Log.Record :=
  { level := .trace, message := "read", values := [{ name := "bytes", text := toString n }] }

/-- The record of a sent packet. -/
def sentRecord (p : Packet) (n : Nat) : Log.Record :=
  { level := .trace
    message := "sent"
    values :=
      [{ name := "packet_type", text := p.kind.name }, { name := "bytes", text := toString n }] }

/-- What is logged when the peer closes: something only if bytes of an unfinished packet are
left over. -/
def closedRecords (s : Session) : List Log.Record :=
  if s.buffer.isEmpty then []
  else
    [{ level := .debug
       message := "peer closed mid-packet"
       values := [{ name := "buffered", text := toString s.buffer.length }] }]

/-- The next event: nothing once the peer has closed, or a failure has been handed out. An error
of the stream is told and leaves all as it is, so that the next call reads on. -/
def next (c : Connection) : Outcome (Except String (Option Event)) :=
  match c.queue with
  | event :: queue =>
    let after := if event.isFailure then { c with finished := true, queue := [] }
      else { c with queue }
    ⟨.ok (some event), [], after⟩
  | [] =>
    if c.finished then ⟨.ok none, [], c⟩
    else
      match _h : c.stream.read readSize with
      | (.error text, stream) => ⟨.error text, [], { c with stream }⟩
      | (.ok [], stream) =>
        ⟨.ok none, closedRecords c.session, { c with stream, finished := true }⟩
      | (.ok (b :: bytes), stream) =>
        let run := c.session.receive (c.readBuffer ++ b :: bytes)
        let later := next
          { c with
            stream
            session := run.2
            readBuffer := []
            queue := Session.events run.1 }
        let records := readRecord (b :: bytes).length :: Session.records run.1
        { later with records := records ++ later.records }
termination_by c.stream.unread
decreasing_by exact ByteStream.unread_of_read _h (by simp)

/-- Writes a packet and flushes the stream. The packet is written to the buffer first, behind
nothing that is left of others, so a packet that the wire cannot carry does not reach the stream. -/
def send (c : Connection) (p : Packet) : Outcome (Except SendError Unit) :=
  let c := { c with writeBuffer := [] }
  match p.appendTo c.writeBuffer with
  | (writeBuffer, some error) => ⟨.error (.packet error), [], { c with writeBuffer }⟩
  | (writeBuffer, none) =>
    let c := { c with writeBuffer }
    match c.stream.writeAll c.writeBuffer with
    | (.error fault, stream) => ⟨.error (.stream fault), [], { c with stream }⟩
    | (.ok (), stream) =>
      ⟨.ok (), [sentRecord p c.writeBuffer.length], { c with stream := stream.flush }⟩

/-- Closes the direction of writing, and reads no more. -/
def close (c : Connection) : Connection :=
  { c with stream := c.stream.shutdown, finished := true }

end Connection
end Mqtt

import Mqtt.Capture
import Mqtt.Packet.Printer
import Mqtt.Session.Receive

/-!
# Inspecting a capture

A capture is fed to a session in pieces of one size, or as a whole. Each event makes a line, and so
do the bytes that are left over at the end. The capture breaks a rule if one of the events is a
failure.
-/
namespace Mqtt

/-- What is to be inspected, and how. -/
structure Inspection.Request where
  /-- The side that received the bytes. -/
  role : Role := .server
  /-- The size of the pieces that the session gets; zero stands for a single piece. -/
  chunk : Nat := 0
  source : Capture.Source
  deriving DecidableEq

/-- What is found in a capture. -/
structure Inspection where
  lines : List String
  /-- Whether the capture breaks a rule. -/
  failed : Bool
  records : List Log.Record
  deriving DecidableEq

/-- An event as one line. -/
def Event.line : Event → String
  | packet p => p.describe
  | failure f =>
    match f.kind with
    | some kind => "Failure (" ++ kind.name ++ "): " ++ f.reason
    | none => "Failure: " ++ f.reason

namespace Inspection

/-- The line for the bytes that a session still waits with. -/
def leftover (s : Session) : List String :=
  if s.buffer.isEmpty then []
  else ["Incomplete: " ++ toString s.buffer.length ++ " bytes left over"]

/-- Feeds a capture to a session, in pieces of a size; zero stands for a single piece. -/
def run (s : Session) (chunk : Nat) (capture : Bytes) : Inspection :=
  let (reports, last) := s.receiveAll (capture.chunks chunk)
  let events := Session.events reports
  { lines := events.map Event.line ++ leftover last
    failed := events.any Event.isFailure
    records := Session.records reports }

end Inspection
end Mqtt

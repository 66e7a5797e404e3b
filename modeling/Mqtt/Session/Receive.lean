import Mqtt.Session.Basic

/-!
# Receiving a stream

A session makes every move that the bytes it has received allow. Each move leaves less work: a
header takes bytes off the buffer, a judged frame takes the header off the session, and a failure
leaves no work at all. So the moves end, and the session waits for the next piece of the stream.
-/
namespace Mqtt

theorem Varint.size_pos_of_decodeWithin {places : Nat} {b : Bytes} {n size : Nat}
    (h : decodeWithin places b = .complete n size) : 1 ≤ size := by
  cases places with
  | zero => simp [decodeWithin] at h
  | succ places =>
    cases b with
    | nil => simp [decodeWithin] at h
    | cons first rest =>
      simp only [decodeWithin] at h
      split at h
      · cases h; exact Nat.le_refl 1
      · generalize decodeWithin places rest = r at h
        cases r <;> simp only [Scan.map, reduceCtorEq, Scan.complete.injEq] at h
        omega

namespace FixedHeader

theorem ne_nil_of_decode_overlong {b : Bytes} (h : decode b = .overlong) : b ≠ [] := by
  rintro rfl
  simp [decode] at h

theorem ne_nil_of_decode {b : Bytes} {header : FixedHeader} {size : Nat}
    (h : decode b = .complete header size) : b ≠ [] := by
  rintro rfl
  simp [decode] at h

theorem size_pos_of_decode {b : Bytes} {header : FixedHeader} {size : Nat}
    (h : decode b = .complete header size) : 2 ≤ size := by
  cases b with
  | nil => simp [decode] at h
  | cons first rest =>
    simp only [decode] at h
    generalize hr : Varint.decode rest = r at h
    cases r <;> simp only [Scan.map, reduceCtorEq, Scan.complete.injEq] at h
    have := Varint.size_pos_of_decodeWithin hr
    omega

end FixedHeader

namespace Session

@[simp] theorem work_giveUp (s : Session) : s.giveUp.work = 0 := rfl

theorem work_of_step_frame {s next : Session} (h : s.step = .frame next) : next.work < s.work := by
  unfold step at h
  split at h
  · cases h
  · next phase =>
    split at h
    · cases h
    · cases h
    · next header size decoded =>
      split at h
      · cases h
      · cases h
        have hne := List.length_pos_iff.mpr (FixedHeader.ne_nil_of_decode decoded)
        have hsize := FixedHeader.size_pos_of_decode decoded
        simp only [work, phase, List.length_drop]
        omega
  · simp only at h
    split at h
    · cases h
    · split at h <;> cases h

theorem work_of_step_tell {s next : Session} {r : Report} (h : s.step = .tell r next) :
    next.work < s.work := by
  unfold step at h
  split at h
  · cases h
  · split at h
    · cases h
    · next overlong =>
      cases h
      have := List.length_pos_iff.mpr (FixedHeader.ne_nil_of_decode_overlong overlong)
      rw [work_giveUp, work]
      omega
    · next header size decoded =>
      split at h
      · cases h
        have := List.length_pos_iff.mpr (FixedHeader.ne_nil_of_decode decoded)
        rw [work_giveUp, work]
        omega
      · cases h
  · next header phase =>
    simp only at h
    split at h
    · cases h
    · split at h <;> cases h
      · rw [work_giveUp]
        simp only [work, phase]
        omega
      · simp only [work, phase, List.length_drop]
        omega

/-- Makes all moves that the buffered bytes allow. The result has what is told, in order, and the
session that waits for more. -/
def drain (s : Session) : List Report × Session :=
  match _h : s.step with
  | .wait => ([], s)
  | .frame next => drain next
  | .tell report next =>
    let run := drain next
    (report :: run.1, run.2)
termination_by s.work
decreasing_by
  · exact work_of_step_frame _h
  · exact work_of_step_tell _h

/-- Takes the next piece of the stream. A session that is given up takes nothing. -/
def receive (s : Session) (bytes : Bytes) : List Report × Session :=
  match s.phase with
  | .violated => ([], s)
  | _ => drain { s with buffer := s.buffer ++ bytes }

/-- Takes pieces of the stream one after the other. -/
def receiveAll (s : Session) : List Bytes → List Report × Session
  | [] => ([], s)
  | piece :: pieces =>
    let first := s.receive piece
    let others := first.2.receiveAll pieces
    (first.1 ++ others.1, others.2)

/-- The events of a run. -/
def events (run : List Report) : List Event :=
  run.map Report.event

/-- What a run logs. -/
def records (run : List Report) : List Log.Record :=
  run.flatMap Report.records

end Session
end Mqtt

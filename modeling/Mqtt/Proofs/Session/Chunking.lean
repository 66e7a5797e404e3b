import Mqtt.Proofs.Session.Rules
import Mqtt.Proofs.Wire.FixedHeader

/-!
# Pieces of a stream

How a stream is cut into pieces makes no difference. A move that the buffered bytes allow is not
changed by bytes that come later, so they may as well come first; and a session that has made all
moves waits, whatever the last piece was.

## Main definitions

* `Session.offer`: a session with more bytes to use, before any move.
* `Session.Settled`: a session that waits for more bytes.
* `Session.Reachable`: the sessions that occur on a stream.

## Main statements

* `Session.step_offer`: a move is not changed by bytes that come later.
* `Session.drain_offer`: moves may be made before more bytes come.
* `Session.Reachable.receiveAll_eq_receive_flatten`: pieces are received like the whole.
-/
namespace Mqtt.Session

/-- The session with bytes put behind those that it holds. One that is given up takes none. -/
def offer (s : Session) (bytes : Bytes) : Session :=
  match s.phase with
  | .violated => s
  | _ => { s with buffer := s.buffer ++ bytes }

/-- What a move becomes if all sessions are changed. -/
def Move.map (f : Session → Session) : Move → Move
  | .wait => .wait
  | .frame next => .frame (f next)
  | .tell report next => .tell report (f next)

/-- A session that waits for more bytes. -/
def Settled (s : Session) : Prop := s.step = .wait

/-- The sessions that a stream leads to, also if the limit is changed on the way. -/
inductive Reachable : Session → Prop
  | start (role : Role) : Reachable (start role)
  | withLimit {s : Session} (h : Reachable s) (limit : Nat) : Reachable (s.withLimit limit)
  | receive {s : Session} (h : Reachable s) (bytes : Bytes) : Reachable (s.receive bytes).2

/-! ### Offered bytes -/

theorem offer_of_violated {s : Session} (h : s.phase = .violated) (bytes : Bytes) :
    s.offer bytes = s := by
  rw [offer, h]

theorem offer_of_ne_violated {s : Session} (h : s.phase ≠ .violated) (bytes : Bytes) :
    s.offer bytes = { s with buffer := s.buffer ++ bytes } := by
  rw [offer]
  split
  · contradiction
  · rfl

theorem ne_violated_of_awaiting {s : Session} (h : s.phase = .awaitingHeader) :
    s.phase ≠ .violated := by
  rw [h]
  nofun

theorem ne_violated_of_collecting {s : Session} {header : FixedHeader}
    (h : s.phase = .collectingBody header) : s.phase ≠ .violated := by
  rw [h]
  nofun

theorem offer_of_awaiting {s : Session} (h : s.phase = .awaitingHeader) (bytes : Bytes) :
    s.offer bytes = { s with buffer := s.buffer ++ bytes } :=
  offer_of_ne_violated (ne_violated_of_awaiting h) bytes

theorem offer_of_collecting {s : Session} {header : FixedHeader}
    (h : s.phase = .collectingBody header) (bytes : Bytes) :
    s.offer bytes = { s with buffer := s.buffer ++ bytes } :=
  offer_of_ne_violated (ne_violated_of_collecting h) bytes

@[simp] theorem offer_nil (s : Session) : s.offer [] = s := by
  rw [offer]
  split
  · rfl
  · rw [List.append_nil]

theorem offer_append (s : Session) (a b : Bytes) : s.offer (a ++ b) = (s.offer a).offer b := by
  by_cases h : s.phase = .violated
  · rw [offer_of_violated h, offer_of_violated h, offer_of_violated h]
  · rw [offer_of_ne_violated h, offer_of_ne_violated h, offer_of_ne_violated (by exact h),
      List.append_assoc]

/-- **A move is not changed by bytes that come later**: they are behind what it uses. A session
that is given up drops them before or after, and tells the same of its role and its packets. -/
theorem Rule.offer {s : Session} {m : Move} (h : s.Rule m) (live : m ≠ .wait) (bytes : Bytes) :
    (s.offer bytes).Rule (m.map (·.offer bytes)) := by
  cases h with
  | dropped | shortHeader | shortBody => exact absurd rfl live
  | overlong phase scan =>
      rw [offer_of_awaiting phase]
      exact .overlong phase (FixedHeader.decode_append_of_overlong scan bytes)
  | overLimit phase scan limit =>
      rw [offer_of_awaiting phase]
      exact .overLimit phase (FixedHeader.decode_append_of_complete scan bytes) limit
  | @frame header size phase scan limit =>
      have next : (s.framed header size).offer bytes
          = { s with buffer := s.buffer ++ bytes }.framed header size := by
        simp only [framed, Session.offer,
          List.drop_append_of_le_length (FixedHeader.size_le_of_decode scan)]
      rw [offer_of_awaiting phase, Move.map, next]
      exact .frame phase (FixedHeader.decode_append_of_complete scan bytes) limit
  | @refuse header cause phase body verdict =>
      have front : (s.buffer ++ bytes).take header.remaining = s.buffer.take header.remaining :=
        List.take_append_of_le_length body
      rw [← front] at verdict
      rw [offer_of_collecting phase]
      exact .refuse phase (by rw [List.length_append]; omega) verdict
  | @accept header packet c phase body verdict =>
      have next : (s.behind header).offer bytes
          = { s with buffer := s.buffer ++ bytes }.behind header := by
        simp only [behind, Session.offer, List.drop_append_of_le_length body]
      have front : (s.buffer ++ bytes).take header.remaining = s.buffer.take header.remaining :=
        List.take_append_of_le_length body
      rw [← front] at verdict
      rw [offer_of_collecting phase, Move.map, next]
      exact .accept phase (by rw [List.length_append]; omega) verdict

theorem step_offer {s : Session} (h : ¬ s.Settled) (bytes : Bytes) :
    (s.offer bytes).step = s.step.map (·.offer bytes) :=
  (s.rule_step.offer h bytes).step_eq

/-! ### Runs -/

theorem settled_drain (s : Session) : s.drain.2.Settled := by
  induction s using drain.induct with
  | case1 s wait => rwa [drain_of_wait wait]
  | case2 s next frame ih => rwa [drain_of_frame frame]
  | case3 s report next tell ih => rwa [drain_of_tell tell]

/-- **Moves may be made before more bytes come.** The induction is on the moves that are made
first; each is made unchanged when the bytes are there already. -/
theorem drain_offer (s : Session) (bytes : Bytes) :
    (s.offer bytes).drain
      = (s.drain.1 ++ (s.drain.2.offer bytes).drain.1, (s.drain.2.offer bytes).drain.2) := by
  induction s using drain.induct with
  | case1 s wait => rw [drain_of_wait wait, List.nil_append]
  | case2 s next frame ih =>
      have later := step_offer (by rw [Settled, frame]; nofun) bytes
      rw [frame] at later
      rw [drain_of_frame later, drain_of_frame frame, ih]
  | case3 s report next tell ih =>
      have later := step_offer (by rw [Settled, tell]; nofun) bytes
      rw [tell] at later
      rw [drain_of_tell later, drain_of_tell tell, ih, List.cons_append]

theorem receive_eq_drain_offer (s : Session) (bytes : Bytes) :
    s.receive bytes = (s.offer bytes).drain := by
  rw [receive]
  split
  · next phase => rw [offer_of_violated phase, drain_of_wait (Rule.dropped phase).step_eq]
  · next live => rw [offer_of_ne_violated live]

theorem settled_receive (s : Session) (bytes : Bytes) : (s.receive bytes).2.Settled := by
  rw [receive_eq_drain_offer]
  exact settled_drain _

/-- A session that waits goes on waiting if no bytes come. -/
theorem Settled.receive_nil {s : Session} (h : s.Settled) : s.receive [] = ([], s) := by
  rw [receive_eq_drain_offer, offer_nil]
  exact drain_of_wait h

/-- Two pieces are received like the one piece that they make. -/
theorem receive_append (s : Session) (a b : Bytes) :
    s.receive (a ++ b)
      = ((s.receive a).1 ++ ((s.receive a).2.receive b).1, ((s.receive a).2.receive b).2) := by
  simp only [receive_eq_drain_offer]
  rw [offer_append, drain_offer]

/-- A session that waits receives pieces like the whole that they make. -/
theorem Settled.receiveAll {s : Session} (h : s.Settled) (pieces : List Bytes) :
    s.receiveAll pieces = s.receive pieces.flatten := by
  induction pieces generalizing s with
  | nil =>
      rw [Session.receiveAll, List.flatten_nil, h.receive_nil]
  | cons piece pieces ih =>
      rw [Session.receiveAll, List.flatten_cons, receive_append, ih (settled_receive s piece)]

/-! ### Sessions on a stream -/

theorem settled_iff {s : Session} : s.Settled ↔ s.Rule .wait :=
  rule_iff.symm

/-- A session that waits for a header has no whole one in its buffer, nor bytes that are none. -/
theorem Settled.decode_buffer {s : Session} (h : s.Settled) (phase : s.phase = .awaitingHeader) :
    FixedHeader.decode s.buffer = .incomplete := by
  cases settled_iff.mp h with
  | dropped other | shortBody other => simp [phase] at other
  | shortHeader _ scan => exact scan

/-- A session that collects a body has less than that in its buffer. -/
theorem Settled.length_buffer_lt {s : Session} {header : FixedHeader} (h : s.Settled)
    (phase : s.phase = .collectingBody header) : s.buffer.length < header.remaining := by
  cases settled_iff.mp h with
  | dropped other | shortHeader other => simp [phase] at other
  | shortBody other body =>
      rw [phase] at other
      cases other
      exact body

theorem settled_start (role : Role) : (start role).Settled :=
  (Rule.shortHeader rfl rfl).step_eq

/-- A limit that changes while a session waits does not end the wait. -/
theorem Settled.withLimit {s : Session} (h : s.Settled) (limit : Nat) :
    (s.withLimit limit).Settled := by
  rw [settled_iff] at h ⊢
  cases h with
  | dropped phase => exact .dropped phase
  | shortHeader phase scan => exact .shortHeader phase scan
  | shortBody phase body => exact .shortBody phase body

theorem Reachable.settled {s : Session} (h : s.Reachable) : s.Settled := by
  induction h with
  | start role => exact settled_start role
  | withLimit _ limit ih => exact ih.withLimit limit
  | receive _ bytes _ => exact settled_receive _ bytes

/-- **How a stream is cut makes no difference.** From every session that occurs on a stream, pieces
of any size, empty ones and no piece at all included, are received like the whole: the same is told
and logged, in the same order, and the same session waits for more. -/
theorem Reachable.receiveAll_eq_receive_flatten {s : Session} (h : s.Reachable)
    (pieces : List Bytes) : s.receiveAll pieces = s.receive pieces.flatten :=
  h.settled.receiveAll pieces

/-- A connect packet cut inside its length and inside its body, behind a first byte that came
before, with a ping packet of which the second byte is missing. -/
theorem receiveAll_cut_connect :
    let s := (((start .server).withLimit 12).receive [0x10]).2
    s.Reachable ∧
      s.receiveAll [[0x8c], [], [0x00, 0, 4, 0x4d], [0x51, 0x54, 0x54, 4, 2, 0, 60, 0, 0, 0xc0]]
        = s.receive [0x8c, 0x00, 0, 4, 0x4d, 0x51, 0x54, 0x54, 4, 2, 0, 60, 0, 0, 0xc0] :=
  have reachable := ((Reachable.start .server).withLimit 12).receive [0x10]
  ⟨reachable, reachable.receiveAll_eq_receive_flatten _⟩

end Mqtt.Session

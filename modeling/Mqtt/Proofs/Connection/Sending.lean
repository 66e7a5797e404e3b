import Mqtt.Proofs.Connection.Calls

/-!
# What a connection sends

Whatever is asked of a connection in between, its stream has the bytes of the packets that were to
be sent, one behind the other, as far as they fit. A packet that the wire cannot carry has no bytes;
a packet of which some bytes did not fit is the last of which the stream has any.
-/
namespace Mqtt

theorem Packet.ne_nil_of_encode {p : Packet} {bytes : Bytes} (h : p.encode = .ok bytes) :
    bytes ≠ [] := by
  obtain ⟨header, body, hheader, -, rfl⟩ := encode_eq_ok_iff.mp h
  obtain ⟨-, rfl⟩ := FixedHeader.encode_eq_ok_iff.mp hheader
  simp

namespace Connection

/-- The packets that were to be sent. -/
def sent (calls : List Call) : List Packet :=
  calls.filterMap fun
    | .send p => some p
    | _ => none

@[simp] theorem sent_cons_send (p : Packet) (calls : List Call) :
    sent (.send p :: calls) = p :: sent calls :=
  rfl

/-- A stream that was given some bytes has the front of them, and accepts more as before. -/
structure Wrote (stream : ByteStream) (bytes : Bytes) (c : Connection) : Prop where
  flows : c.stream.Flowing
  limit : c.stream.limit = stream.limit
  written : c.stream.written = stream.within bytes

/-- The answer to sending a packet behind some bytes. -/
def answerTo (stream : ByteStream) (bytes : Bytes) (p : Packet) : Except SendError Unit :=
  match p.encode with
  | .error e => .error (.packet e)
  | .ok wire =>
    match stream.verdict (bytes ++ wire).length with
    | .error fault => .error (.stream fault)
    | .ok () => .ok ()

variable {c : Connection} {stream : ByteStream} {bytes : Bytes}

theorem answerTo_of_encode {p : Packet} {wire : Bytes} (h : p.encode = .ok wire) :
    answerTo stream bytes p
      = match stream.verdict (bytes ++ wire).length with
        | .error fault => .error (.stream fault)
        | .ok () => .ok () := by
  rw [answerTo, h]

theorem answerTo_of_encode_error {p : Packet} {e : EncodeError} (h : p.encode = .error e) :
    answerTo stream bytes p = .error (.packet e) := by
  rw [answerTo, h]

/-! ### What is written -/

/-- **What sending adds, and the answer to it.** -/
theorem Wrote.send (h : c.Wrote stream bytes) (p : Packet) :
    (c.send p).value = answerTo stream bytes p
      ∧ (c.send p).after.Wrote stream (bytes ++ p.wire) := by
  cases hencode : p.encode with
  | error e =>
      rw [send_of_encode_error hencode, Packet.wire_of_encode_error hencode, List.append_nil,
        answerTo_of_encode_error hencode]
      exact ⟨rfl, h.flows, h.limit, h.written⟩
  | ok wire =>
      have front : c.stream.written = c.stream.within bytes :=
        h.written.trans (ByteStream.within_congr h.limit.symm bytes)
      have fits : c.stream.Fits c.stream.written.length := front ▸ ByteStream.fits_within bytes
      obtain ⟨pieces, positive, written⟩ := c.stream.writeAll_eq h.flows fits wire
      have answer : c.stream.verdict (c.stream.written ++ wire).length
          = stream.verdict (bytes ++ wire).length := by
        rw [front, ByteStream.verdict_within_append (Packet.ne_nil_of_encode hencode),
          ByteStream.verdict_congr h.limit]
      have added : c.stream.within (c.stream.written ++ wire) = stream.within (bytes ++ wire) := by
        rw [front, ByteStream.within_append, ByteStream.within_congr h.limit]
      rw [answer, added] at written
      rw [send_of_encode hencode, written, Packet.wire_of_encode hencode,
        answerTo_of_encode hencode]
      cases stream.verdict (bytes ++ wire).length with
      | error fault => exact ⟨rfl, ⟨positive, h.flows.maxWrite⟩, h.limit, rfl⟩
      | ok done => exact ⟨rfl, ⟨positive, h.flows.maxWrite⟩, h.limit, rfl⟩

theorem Wrote.next (h : c.Wrote stream bytes) : c.next.after.Wrote stream bytes := by
  obtain ⟨incoming, reads, session, readBuffer, queue, finished, frame⟩ := c.next_rule.frame
  rw [frame]
  exact ⟨⟨h.flows.pieces, h.flows.maxWrite⟩, h.limit, h.written⟩

theorem Wrote.callAll (h : c.Wrote stream bytes) (calls : List Call) :
    (c.callAll calls).2.Wrote stream (bytes ++ (sent calls).flatMap Packet.wire) := by
  induction calls generalizing c bytes with
  | nil => rwa [Connection.callAll, sent, List.filterMap_nil, List.flatMap_nil, List.append_nil]
  | cons call calls ih =>
      cases call with
      | next => exact ih h.next
      | send p =>
          rw [sent_cons_send, List.flatMap_cons, ← List.append_assoc]
          exact ih (h.send p).2
      | close => exact ih (c := c.close) ⟨⟨h.flows.pieces, h.flows.maxWrite⟩, h.limit, h.written⟩

/-! ### What is left in the buffer -/

/-- The connection with other bytes left in the buffer for writing. -/
def rebuffer (c : Connection) (writeBuffer : Bytes) : Connection :=
  { c with writeBuffer }

theorem Next.rebuffer {answer : Except String (Option Event)} {after : Connection}
    (rule : c.Next answer after) (b : Bytes) : (c.rebuffer b).Next answer (after.rebuffer b) := by
  induction rule with
  | packet queued => exact .packet queued
  | failure queued => exact .failure queued
  | ended empty finished => exact .ended empty finished
  | fault empty unfinished incoming => exact .fault empty unfinished incoming
  | closed empty unfinished incoming => exact .closed empty unfinished incoming
  | bytes empty unfinished incoming taken _ ih => exact .bytes empty unfinished incoming taken ih

/-- What is left in the buffer for writing makes no difference to a row of calls. -/
theorem callAll_rebuffer (c : Connection) (b : Bytes) (calls : List Call) :
    ((c.rebuffer b).callAll calls).1 = (c.callAll calls).1
      ∧ ∃ b', ((c.rebuffer b).callAll calls).2 = (c.callAll calls).2.rebuffer b' := by
  induction calls generalizing c b with
  | nil => exact ⟨rfl, b, rfl⟩
  | cons call calls ih =>
      cases call with
      | next =>
          obtain ⟨value, after⟩ := (c.next_rule.rebuffer b).next_eq
          obtain ⟨answers, b', last⟩ := ih c.next.after b
          refine ⟨?_, b', ?_⟩
          · rw [callAll, callAll, Connection.call, Connection.call, value, after, answers]
          · rw [callAll, callAll, Connection.call, Connection.call, after, last]
      | send p => exact ⟨rfl, (c.callAll (.send p :: calls)).2.writeBuffer, rfl⟩
      | close =>
          obtain ⟨answers, b', last⟩ := ih c.close b
          exact ⟨congrArg (Answer.close :: ·) answers, b', last⟩

/-! ### Answers -/

theorem answerTo_eq_ok_iff {p : Packet} :
    answerTo stream bytes p = .ok ()
      ↔ (∃ wire, p.encode = .ok wire) ∧ stream.Fits (bytes ++ p.wire).length := by
  cases h : p.encode with
  | error e => simp [answerTo_of_encode_error h]
  | ok wire =>
      rw [answerTo_of_encode h, Packet.wire_of_encode h, ← ByteStream.verdict_eq_ok_iff]
      generalize stream.verdict (bytes ++ wire).length = verdict
      cases verdict <;> simp

theorem answerTo_eq_packet_iff {p : Packet} {e : EncodeError} :
    answerTo stream bytes p = .error (.packet e) ↔ p.encode = .error e := by
  cases h : p.encode with
  | error other => simp [answerTo_of_encode_error h]
  | ok wire =>
      rw [answerTo_of_encode h]
      generalize stream.verdict (bytes ++ wire).length = verdict
      cases verdict <;> simp

theorem answerTo_eq_stream_iff {p : Packet} {fault : WriteFault} :
    answerTo stream bytes p = .error (.stream fault)
      ↔ (∃ wire, p.encode = .ok wire)
        ∧ ∃ limit ∈ stream.limit, limit.total < (bytes ++ p.wire).length
          ∧ fault = .refused limit.fault := by
  cases h : p.encode with
  | error e => simp [answerTo_of_encode_error h]
  | ok wire =>
      rw [answerTo_of_encode h, Packet.wire_of_encode h, ← ByteStream.verdict_eq_error_iff]
      generalize stream.verdict (bytes ++ wire).length = verdict
      cases verdict <;> simp

/-! ### Rows of calls -/

/-- Sending a packet among other calls. -/
theorem callAll_send (c : Connection) (before : List Call) (p : Packet) (after : List Call) :
    c.callAll (before ++ .send p :: after)
      = ((c.callAll before).1
            ++ .send ((c.callAll before).2.send p).value
              :: (((c.callAll before).2.send p).after.callAll after).1,
          (((c.callAll before).2.send p).after.callAll after).2) :=
  callAll_append ..

/-- **A packet that the wire cannot carry** makes no difference to the other calls. -/
theorem callAll_send_of_encode_error (c : Connection) (before : List Call) {p : Packet}
    {e : EncodeError} (h : p.encode = .error e) (after : List Call) :
    let run := c.callAll (before ++ .send p :: after)
    let others := c.callAll (before ++ after)
    run.1.eraseIdx before.length = others.1 ∧ run.2.stream = others.2.stream := by
  intro run others
  have left : ((c.callAll before).2.send p).after = (c.callAll before).2.rebuffer [] := by
    rw [send_of_encode_error h, rebuffer]
  obtain ⟨answers, b, last⟩ := (c.callAll before).2.callAll_rebuffer [] after
  have same := length_callAll c before
  have run_eq : run = _ := callAll_send c before p after
  have others_eq : others = _ := callAll_append c before after
  rw [run_eq, others_eq, left, answers, last, ← same]
  refine ⟨?_, rfl⟩
  rw [List.eraseIdx_append_of_length_le (Nat.le_refl _), Nat.sub_self, List.eraseIdx_cons_zero]

/-- **What the stream has behind a row of calls**, when each write accepts some bytes up to the end
of what it accepts in all: the bytes of the packets that were to be sent, in order, up to that end.
Sending a packet succeeds exactly if the wire can carry it and all bytes up to its last one fit. If
the wire cannot carry it, the answer says why, and all other answers and the stream are as if it had
not been asked for; in all other cases the answer is the fault of the stream. -/
theorem callAll_written (session : Session) {stream : ByteStream} (flows : stream.Flowing)
    (unused : stream.written = []) (calls : List Call) :
    let run := (start stream session).callAll calls
    run.2.stream.written = stream.within ((sent calls).flatMap Packet.wire)
      ∧ ∀ before p after, calls = before ++ .send p :: after →
        let others := (start stream session).callAll (before ++ after)
        let total := ((sent before).flatMap Packet.wire ++ p.wire).length
        ∃ value, run.1[before.length]? = some (.send value)
          ∧ (value = .ok () ↔ (∃ wire, p.encode = .ok wire) ∧ stream.Fits total)
          ∧ (∀ e, value = .error (.packet e) ↔ p.encode = .error e)
          ∧ (∀ fault, value = .error (.stream fault)
            ↔ (∃ wire, p.encode = .ok wire)
              ∧ ∃ limit ∈ stream.limit, limit.total < total ∧ fault = .refused limit.fault)
          ∧ ((∃ e, p.encode = .error e) →
            run.1.eraseIdx before.length = others.1 ∧ run.2.stream = others.2.stream) := by
  intro run
  have new : (start stream session).Wrote stream [] := by
    refine ⟨flows, rfl, unused.trans ?_⟩
    rw [ByteStream.within_of_fits (fun _ _ => Nat.zero_le _)]
  refine ⟨(new.callAll calls).written, ?_⟩
  intro before p after split others total
  refine ⟨answerTo stream ((sent before).flatMap Packet.wire) p, ?_, answerTo_eq_ok_iff,
    fun e => answerTo_eq_packet_iff, fun fault => answerTo_eq_stream_iff, ?_⟩
  · have answers := congrArg Prod.fst (callAll_send (start stream session) before p after)
    rw [← split, ((new.callAll before).send p).1] at answers
    rw [show run.1 = _ from answers, ← length_callAll (start stream session) before]
    simp
  · rintro ⟨e, h⟩
    have same := callAll_send_of_encode_error (start stream session) before h after
    rwa [← split] at same

/-- A ping, a packet with a topic that cannot be written, and an acknowledgement of which the last
byte does not fit; the writes accept one byte, two, and then up to three. -/
theorem callAll_short_stream :
    let stream : ByteStream := { pieces := [1, 2], maxWrite := some 3, limit := some ⟨5, "full"⟩ }
    let session := Session.start .client
    let calls : List Call :=
      [.send (.signal .pingReq), .send (.unsubscribe ⟨1, ["a", "\x00"]⟩), .next,
        .send (.receipt .pubAck 7), .send (.signal .disconnect)]
    let run := (start stream session).callAll calls
    stream.Flowing ∧ stream.written = []
      ∧ run.2.stream.written = [0xc0, 0, 0x40, 2, 0]
      ∧ run.1[1]? = some (.send (.error (.packet ⟨.unsubscribe, .containsNull⟩)))
      ∧ run.1[3]? = some (.send (.error (.stream (.refused "full")))) := by
  intro stream session calls run
  have flows : stream.Flowing := ⟨by decide, by decide⟩
  obtain ⟨written, answers⟩ := callAll_written session flows rfl calls
  refine ⟨flows, rfl, written.trans (by decide +kernel), ?_, ?_⟩
  · obtain ⟨value, at1, -, refused, -⟩ := answers [_] _ _ rfl
    rw [(refused ⟨.unsubscribe, .containsNull⟩).mpr rfl] at at1
    exact at1
  · obtain ⟨value, at3, -, -, refused, -⟩ := answers [_, _, _] _ _ rfl
    rw [(refused (.refused "full")).mpr ⟨⟨_, rfl⟩, ⟨5, "full"⟩, rfl, by decide +kernel, rfl⟩] at at3
    exact at3

end Connection
end Mqtt

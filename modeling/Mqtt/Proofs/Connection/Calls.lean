import Mqtt.Connection.Basic
import Mqtt.Proofs.Connection.ByteStream
import Mqtt.Proofs.Packet.Appending

/-!
# Calls of a connection

A connection is asked for the next event, to send a packet, or to close, in any order. What the call
for the next event can do is said as rules; the loop of reads in it is the one rule that uses the
others. Reading and sending do not meet: each leaves alone what the other works on.
-/
namespace Mqtt.Connection

variable {c : Connection}

/-! ### The next event -/

/-- The connection behind a read: the session has taken the bytes, and what it told is queued. -/
def refill (c : Connection) (stream : ByteStream) (bytes : Bytes) : Connection :=
  { c with
    stream
    session := (c.session.receive (c.readBuffer ++ bytes)).2
    readBuffer := []
    queue := Session.events (c.session.receive (c.readBuffer ++ bytes)).1 }

/-- What the call for the next event can answer, and the connection behind it, one rule a
constructor. -/
inductive Next : Connection → Except String (Option Event) → Connection → Prop
  | packet {c : Connection} {p : Packet} {queue : List Event}
      (queued : c.queue = .packet p :: queue) : Next c (.ok (some (.packet p))) { c with queue }
  | failure {c : Connection} {f : Failure} {queue : List Event}
      (queued : c.queue = .failure f :: queue) :
      Next c (.ok (some (.failure f))) { c with finished := true, queue := [] }
  | ended {c : Connection} (empty : c.queue = []) (finished : c.finished = true) :
      Next c (.ok none) c
  | fault {c : Connection} {text : String} {rest : List Delivery} (empty : c.queue = [])
      (unfinished : c.finished = false) (incoming : c.stream.incoming = .fault text :: rest) :
      Next c (.error text) { c with stream := c.stream.afterRead rest }
  | closed {c : Connection} {rest : List Delivery} (empty : c.queue = [])
      (unfinished : c.finished = false)
      (incoming : c.stream.incoming = [] ∧ rest = [] ∨ c.stream.incoming = .bytes [] :: rest) :
      Next c (.ok none) { c with stream := c.stream.afterRead rest, finished := true }
  | bytes {c : Connection} {b : Bytes} {rest : List Delivery}
      {answer : Except String (Option Event)} {after : Connection} (empty : c.queue = [])
      (unfinished : c.finished = false) (incoming : c.stream.incoming = .bytes b :: rest)
      (taken : b.take readSize ≠ [])
      (later : Next
        (c.refill (c.stream.afterRead (Delivery.afterTaking readSize b ++ rest))
          (b.take readSize)) answer after) : Next c answer after

theorem next_of_queue {event : Event} {queue : List Event} (queued : c.queue = event :: queue) :
    c.next = ⟨.ok (some event), [],
      if event.isFailure then { c with finished := true, queue := [] } else { c with queue }⟩ := by
  rw [next]
  split <;> simp_all

theorem next_of_finished (empty : c.queue = []) (finished : c.finished = true) :
    c.next = ⟨.ok none, [], c⟩ := by
  rw [next]
  split <;> simp_all

theorem next_of_read_error {text : String} {stream : ByteStream} (empty : c.queue = [])
    (unfinished : ¬ c.finished = true) (read : c.stream.read readSize = (.error text, stream)) :
    c.next = ⟨.error text, [], { c with stream }⟩ := by
  rw [next]
  split
  · simp_all
  · rw [if_neg unfinished]
    split <;> simp_all

theorem next_of_read_nil {stream : ByteStream} (empty : c.queue = [])
    (unfinished : ¬ c.finished = true) (read : c.stream.read readSize = (.ok [], stream)) :
    c.next = ⟨.ok none, closedRecords c.session, { c with stream, finished := true }⟩ := by
  rw [next]
  split
  · simp_all
  · rw [if_neg unfinished]
    split <;> simp_all

theorem next_of_read {bytes : Bytes} {stream : ByteStream} (empty : c.queue = [])
    (unfinished : ¬ c.finished = true) (read : c.stream.read readSize = (.ok bytes, stream))
    (taken : bytes ≠ []) :
    c.next = { (c.refill stream bytes).next with
      records := readRecord bytes.length
          :: Session.records (c.session.receive (c.readBuffer ++ bytes)).1
        ++ (c.refill stream bytes).next.records } := by
  rw [next]
  split
  · simp_all
  · rw [if_neg unfinished]
    split <;> simp_all [refill]

/-- Some rule allows what the call does. The induction is on the bytes still to be delivered. -/
theorem next_rule (c : Connection) : c.Next c.next.value c.next.after := by
  induction hunread : c.stream.unread using Nat.strongRecOn generalizing c with
  | ind n ih =>
      cases hqueue : c.queue with
      | cons event queue =>
          rw [next_of_queue hqueue]
          cases event with
          | packet p => exact .packet hqueue
          | failure f => exact .failure hqueue
      | nil =>
          by_cases hfinished : c.finished = true
          · rw [next_of_finished hqueue hfinished]
            exact .ended hqueue hfinished
          · have unfinished := Bool.eq_false_iff.mpr hfinished
            rcases c.stream.incoming_cases (show 0 < readSize by decide) with
              ⟨text, rest, incoming⟩ | ⟨rest, incoming⟩ | ⟨b, rest, incoming, hb⟩
            · rw [next_of_read_error hqueue hfinished (ByteStream.read_of_fault incoming readSize)]
              exact .fault hqueue unfinished incoming
            · rw [next_of_read_nil hqueue hfinished (ByteStream.read_of_end incoming readSize)]
              exact .closed hqueue unfinished incoming
            · have read := ByteStream.read_of_bytes incoming readSize
              have shorter := ByteStream.unread_of_read read hb
              have later := ih _ (hunread ▸ shorter)
                (c.refill (c.stream.afterRead (Delivery.afterTaking readSize b ++ rest))
                  (b.take readSize)) rfl
              rw [next_of_read hqueue hfinished read hb]
              exact .bytes hqueue unfinished incoming hb later

/-- The rules leave no choice. -/
theorem Next.next_eq {answer : Except String (Option Event)} {after : Connection}
    (h : c.Next answer after) : c.next.value = answer ∧ c.next.after = after := by
  induction h with
  | packet queued | failure queued =>
      rw [next_of_queue queued]
      exact ⟨rfl, rfl⟩
  | ended empty finished =>
      rw [next_of_finished empty finished]
      exact ⟨rfl, rfl⟩
  | fault empty unfinished incoming =>
      rw [next_of_read_error empty (ne_true_of_eq_false unfinished)
        (ByteStream.read_of_fault incoming readSize)]
      exact ⟨rfl, rfl⟩
  | closed empty unfinished incoming =>
      rw [next_of_read_nil empty (ne_true_of_eq_false unfinished)
        (ByteStream.read_of_end incoming readSize)]
      exact ⟨rfl, rfl⟩
  | bytes empty unfinished incoming taken _ ih =>
      rw [next_of_read empty (ne_true_of_eq_false unfinished)
        (ByteStream.read_of_bytes incoming readSize) taken]
      exact ih

/-- **The rules allow exactly what the call does.** -/
theorem next_iff {answer : Except String (Option Event)} {after : Connection} :
    c.Next answer after ↔ c.next.value = answer ∧ c.next.after = after := by
  constructor
  · exact Next.next_eq
  · rintro ⟨rfl, rfl⟩
    exact c.next_rule

/-- **Reading leaves the writing side as it is.** -/
theorem Next.frame {answer : Except String (Option Event)} {after : Connection}
    (h : c.Next answer after) :
    ∃ incoming reads session readBuffer queue finished,
      after = { c with
        stream := { c.stream with incoming, reads }
        session, readBuffer, queue, finished } := by
  induction h with
  | packet | failure | ended | fault | closed => exact ⟨_, _, _, _, _, _, rfl⟩
  | bytes _ _ _ _ _ ih =>
      obtain ⟨incoming, reads, session, readBuffer, queue, finished, rfl⟩ := ih
      exact ⟨incoming, reads, session, readBuffer, queue, finished, rfl⟩

/-! ### Sending -/

/-- A packet that the wire cannot carry does not reach the stream. -/
theorem send_of_encode_error {p : Packet} {e : EncodeError} (h : p.encode = .error e) :
    c.send p = ⟨.error (.packet e), [], { c with writeBuffer := [] }⟩ := by
  simp only [send, Packet.appendTo_of_encode_error h]

/-- All others are written as they are, whatever was left in the buffer. -/
theorem send_of_encode {p : Packet} {bytes : Bytes} (h : p.encode = .ok bytes) :
    c.send p
      = match c.stream.writeAll bytes with
        | (.error fault, stream) =>
          ⟨.error (.stream fault), [], { c with writeBuffer := bytes, stream }⟩
        | (.ok (), stream) =>
          ⟨.ok (), [sentRecord p bytes.length],
            { c with writeBuffer := bytes, stream := stream.flush }⟩ := by
  rcases hwrite : c.stream.writeAll bytes with ⟨fault | done, stream⟩
  · simp [send, Packet.appendTo_of_encode h, hwrite]
  · simp [send, Packet.appendTo_of_encode h, hwrite]

/-- **Sending leaves the reading side as it is.** -/
theorem send_frame (c : Connection) (p : Packet) :
    ∃ pieces written flushes writeBuffer,
      (c.send p).after
        = { c with stream := { c.stream with pieces, written, flushes }, writeBuffer } := by
  cases h : p.encode with
  | error e =>
      rw [send_of_encode_error h]
      exact ⟨_, _, _, _, rfl⟩
  | ok bytes =>
      obtain ⟨pieces, written, hstream⟩ := c.stream.writeAll_frame bytes
      rw [send_of_encode h]
      split
      · next fault stream hwrite =>
        obtain rfl : stream = _ := (congrArg Prod.snd hwrite).symm.trans hstream
        exact ⟨_, _, _, _, rfl⟩
      · next stream hwrite =>
        obtain rfl : stream = _ := (congrArg Prod.snd hwrite).symm.trans hstream
        exact ⟨_, _, _, _, rfl⟩

/-! ### Rows of calls -/

/-- What a connection may be asked for. -/
inductive Call where
  /-- The next event. -/
  | next
  /-- To send a packet. -/
  | send (packet : Packet)
  /-- To close. -/
  | close
  deriving DecidableEq

/-- What a call gives. -/
inductive Answer where
  | next (value : Except String (Option Event))
  | send (value : Except SendError Unit)
  | close

/-- Does what is asked, and gives what comes of it. -/
def call (c : Connection) : Call → Answer × Connection
  | .next => (.next c.next.value, c.next.after)
  | .send p => (.send (c.send p).value, (c.send p).after)
  | .close => (.close, c.close)

/-- Does what is asked, one call after the other. -/
def callAll (c : Connection) : List Call → List Answer × Connection
  | [] => ([], c)
  | call :: calls =>
    let first := c.call call
    let others := first.2.callAll calls
    (first.1 :: others.1, others.2)

/-- What was answered to the calls for the next event. -/
def nexts (answers : List Answer) : List (Except String (Option Event)) :=
  answers.filterMap fun
    | .next value => some value
    | _ => none

@[simp] theorem nexts_cons_next (value : Except String (Option Event)) (answers : List Answer) :
    nexts (.next value :: answers) = value :: nexts answers :=
  rfl

@[simp] theorem nexts_cons_send (value : Except SendError Unit) (answers : List Answer) :
    nexts (.send value :: answers) = nexts answers :=
  rfl

@[simp] theorem nexts_cons_close (answers : List Answer) :
    nexts (.close :: answers) = nexts answers :=
  rfl

theorem length_callAll (c : Connection) (calls : List Call) :
    (c.callAll calls).1.length = calls.length := by
  induction calls generalizing c with
  | nil => rfl
  | cons call calls ih => rw [callAll, List.length_cons, ih, List.length_cons]

/-- A row of calls may be made in two parts. -/
theorem callAll_append (c : Connection) (before after : List Call) :
    c.callAll (before ++ after)
      = ((c.callAll before).1 ++ ((c.callAll before).2.callAll after).1,
          ((c.callAll before).2.callAll after).2) := by
  induction before generalizing c with
  | nil => rfl
  | cons call before ih => simp only [List.cons_append, callAll, ih]

/-- **What each call keeps, a row of calls keeps.** -/
theorem callAll_keeps {P : Connection → Prop} {calls : List Call}
    (call : ∀ {c : Connection} {call : Call}, call ∈ calls → P c → P (c.call call).2)
    {c : Connection} (h : P c) : P (c.callAll calls).2 := by
  induction calls generalizing c with
  | nil => exact h
  | cons first calls ih =>
      exact ih (fun hmem => call (List.mem_cons_of_mem _ hmem)) (call (List.mem_cons_self ..) h)

end Mqtt.Connection

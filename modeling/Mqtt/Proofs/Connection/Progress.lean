import Mqtt.Proofs.Connection.Calls
import Mqtt.Proofs.Session.Ordering

/-!
# How far a connection has come

At every moment a connection has read some bytes of what its stream delivers. The session is where
those bytes lead to, and what it told of them is the events that were handed out and, behind them,
the events that wait in the queue. Nothing is lost when a failure clears the queue, since a failure
is the last thing that a session tells.
-/
namespace Mqtt

/-- The bytes of a row of deliveries, one behind the other. -/
def Delivery.content : List Delivery → Bytes
  | [] => []
  | .bytes b :: rest => b ++ content rest
  | .fault _ :: rest => content rest

/-- Taking bytes from a delivery leaves the others. -/
theorem Delivery.content_afterTaking_append (room : Nat) (b : Bytes) (rest : List Delivery) :
    content (afterTaking room b ++ rest) = b.drop room ++ content rest := by
  rw [afterTaking]
  split
  · next h => rw [List.drop_eq_nil_of_le h, List.nil_append, List.nil_append]
  · rfl

namespace Connection

/-- The event that an answer hands out. -/
def eventOf? : Except String (Option Event) → Option Event
  | .ok event => event
  | .error _ => none

/-- The events that were handed out. -/
def handed (answers : List Answer) : List Event :=
  (nexts answers).filterMap eventOf?

/-- How far a connection has come on what its stream delivers, when some events were handed out. -/
structure Progress (role : Role) (limit : Nat) (incoming : List Delivery) (told : List Event)
    (c : Connection) : Prop where
  readBuffer : c.readBuffer = []
  /-- What was read, and what came of it. -/
  taken : ∃ bytes, Delivery.content incoming = bytes ++ Delivery.content c.stream.incoming
    ∧ c.session = (((Session.start role).withLimit limit).receive bytes).2
    ∧ told ++ c.queue
        = Session.events (((Session.start role).withLimit limit).receive bytes).1
  /-- Nothing is read behind a failure. -/
  finished : c.queue = [] → c.session.phase = .violated → c.finished = true

variable {c : Connection} {role : Role} {limit : Nat} {incoming : List Delivery}
  {told : List Event}

theorem progress_start (role : Role) (limit : Nat) (stream : ByteStream) :
    (start stream ((Session.start role).withLimit limit)).Progress role limit stream.incoming []
    where
  readBuffer := rfl
  taken := by
    refine ⟨[], rfl, ?_⟩
    rw [((Session.settled_start role).withLimit limit).receive_nil]
    exact ⟨rfl, rfl⟩
  finished := nofun

/-- What the session told so far is what its state says. -/
theorem Progress.chronicle (h : c.Progress role limit incoming told) :
    c.session.Chronicle (told ++ c.queue) := by
  obtain ⟨bytes, -, session, events⟩ := h.taken
  rw [session, events]
  exact Session.chronicle_receive role limit bytes

/-- Behind a failure no event waits, and the session is given up. -/
theorem Progress.queue_of_failure {failure : Failure} {queue : List Event}
    (h : c.Progress role limit incoming told) (queued : c.queue = .failure failure :: queue) :
    queue = [] ∧ c.session.phase = .violated := by
  have chronicle := h.chronicle
  rw [queued] at chronicle
  exact chronicle.failure_last

/-- While a connection reads on, its session is not given up. -/
theorem Progress.live (h : c.Progress role limit incoming told) (empty : c.queue = [])
    (unfinished : c.finished = false) : c.session.phase ≠ .violated := by
  intro violated
  rw [h.finished empty violated] at unfinished
  cases unfinished

/-- What came of the bytes read so far, and of some more. -/
theorem Progress.taken_refill {b : Bytes} {rest : List Delivery}
    (h : c.Progress role limit incoming told) (empty : c.queue = [])
    (next : c.stream.incoming = .bytes b :: rest) (room : Nat) :
    let after := c.refill (c.stream.afterRead (Delivery.afterTaking room b ++ rest)) (b.take room)
    ∃ bytes, Delivery.content incoming = bytes ++ Delivery.content after.stream.incoming
      ∧ after.session = (((Session.start role).withLimit limit).receive bytes).2
      ∧ told ++ after.queue
          = Session.events (((Session.start role).withLimit limit).receive bytes).1 := by
  intro after
  obtain ⟨bytes, content, session, events⟩ := h.taken
  rw [next, Delivery.content] at content
  rw [empty, List.append_nil] at events
  have received : c.session.receive (c.readBuffer ++ b.take room)
      = (((Session.start role).withLimit limit).receive bytes).2.receive (b.take room) := by
    rw [h.readBuffer, List.nil_append, session]
  refine ⟨bytes ++ b.take room, ?_, ?_, ?_⟩
  · have left : Delivery.content after.stream.incoming = b.drop room ++ Delivery.content rest :=
      Delivery.content_afterTaking_append room b rest
    rw [content, left, List.append_assoc, ← List.append_assoc (b.take room),
      List.take_append_drop]
  · rw [Session.receive_append, ← received]
    rfl
  · rw [Session.receive_append, Session.events_append, ← received, ← events]
    rfl

/-- Reading some bytes keeps the progress. A failure that was told before them would have ended the
reading, so if there is one now, it waits in the queue. -/
theorem Progress.refill {b : Bytes} {rest : List Delivery}
    (h : c.Progress role limit incoming told) (empty : c.queue = [])
    (unfinished : c.finished = false) (next : c.stream.incoming = .bytes b :: rest) (room : Nat) :
    (c.refill (c.stream.afterRead (Delivery.afterTaking room b ++ rest))
      (b.take room)).Progress role limit incoming told := by
  refine ⟨rfl, h.taken_refill empty next room, fun nothing violated => ?_⟩
  obtain ⟨bytes, -, session, events⟩ := h.taken_refill empty next room
  have chronicle := Session.chronicle_receive role limit bytes
  rw [← session, ← events, nothing] at chronicle
  obtain ⟨packets, failure, failed⟩ := chronicle.exists_failure violated
  have earlier := h.chronicle
  rw [empty, failed] at earlier
  exact absurd earlier.failure_last.2 (h.live empty unfinished)

/-- **The call for the next event keeps the progress**, with the event that it hands out. -/
theorem Progress.next {answer : Except String (Option Event)} {after : Connection}
    (h : c.Progress role limit incoming told) (rule : c.Next answer after) :
    after.Progress role limit incoming (told ++ (eventOf? answer).toList) := by
  induction rule with
  | @packet c p queue queued =>
      obtain ⟨bytes, content, session, events⟩ := h.taken
      rw [queued, List.append_cons] at events
      refine ⟨h.readBuffer, ⟨bytes, content, session, events⟩, fun nothing violated => ?_⟩
      -- The last thing told is a packet, so the session is not given up.
      have chronicle := h.chronicle
      rw [queued, show queue = [] from nothing] at chronicle
      obtain ⟨packets, failure, failed⟩ := chronicle.exists_failure violated
      cases (List.append_inj' failed rfl).2
  | @failure c f queue queued =>
      obtain ⟨bytes, content, session, events⟩ := h.taken
      rw [queued, (h.queue_of_failure queued).1] at events
      refine ⟨h.readBuffer, ⟨bytes, content, session, ?_⟩, fun _ _ => rfl⟩
      rwa [List.append_nil]
  | ended => rwa [eventOf?, Option.toList_none, List.append_nil]
  | @fault c text rest empty unfinished next =>
      obtain ⟨bytes, content, session, events⟩ := h.taken
      rw [next, Delivery.content] at content
      rw [eventOf?, Option.toList_none, List.append_nil]
      exact ⟨h.readBuffer, ⟨bytes, content, session, events⟩, h.finished⟩
  | @closed c rest empty unfinished next =>
      obtain ⟨bytes, content, session, events⟩ := h.taken
      have content' : Delivery.content c.stream.incoming = Delivery.content rest := by
        rcases next with ⟨next, rfl⟩ | next
        · rw [next]
        · rw [next, Delivery.content, List.nil_append]
      rw [content'] at content
      rw [eventOf?, Option.toList_none, List.append_nil]
      exact ⟨h.readBuffer, ⟨bytes, content, session, events⟩, fun _ _ => rfl⟩
  | bytes empty unfinished next _ _ ih => exact ih (h.refill empty unfinished next readSize)

theorem Progress.send (h : c.Progress role limit incoming told) (p : Packet) :
    (c.send p).after.Progress role limit incoming told := by
  obtain ⟨pieces, written, flushes, writeBuffer, frame⟩ := c.send_frame p
  rw [frame]
  exact ⟨h.readBuffer, h.taken, h.finished⟩

theorem Progress.close (h : c.Progress role limit incoming told) :
    c.close.Progress role limit incoming told :=
  ⟨h.readBuffer, h.taken, fun _ _ => rfl⟩

theorem handed_cons_next (value : Except String (Option Event)) (answers : List Answer) :
    handed (.next value :: answers) = (eventOf? value).toList ++ handed answers := by
  rw [handed, nexts_cons_next, List.filterMap_cons]
  cases eventOf? value <;> rfl

/-- Progress is kept by a row of calls. -/
theorem Progress.callAll (h : c.Progress role limit incoming told) (calls : List Call) :
    (c.callAll calls).2.Progress role limit incoming (told ++ handed (c.callAll calls).1) := by
  induction calls generalizing c told with
  | nil => rwa [Connection.callAll, handed, nexts, List.filterMap_nil, List.filterMap_nil,
      List.append_nil]
  | cons call calls ih =>
      cases call with
      | next =>
          rw [Connection.callAll, call, handed_cons_next, ← List.append_assoc]
          exact ih (h.next c.next_rule)
      | send p => exact ih (h.send p)
      | close => exact ih h.close

/-- **How far a new connection has come behind a row of calls.** -/
theorem progress_callAll (role : Role) (limit : Nat) (stream : ByteStream) (calls : List Call) :
    let run := (start stream ((Session.start role).withLimit limit)).callAll calls
    run.2.Progress role limit stream.incoming (handed run.1) :=
  (progress_start role limit stream).callAll calls

end Connection
end Mqtt

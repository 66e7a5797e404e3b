import Mqtt.Proofs.Connection.Progress

/-!
# The end of a connection

Three things end a connection: the peer closes, a failure is handed out, or the connection is closed
from this side. Only in the last case events may still wait; they are handed out, and then nothing
is. In no case the stream is read again or the session receives anything.
-/
namespace Mqtt.Connection

/-- The answers that end a connection: there is no other event, or there was a failure. -/
def Final : Except String (Option Event) → Prop
  | .ok none => True
  | .ok (some event) => event.isFailure = true
  | .error _ => False

/-- Between two moments nothing was read, and the session received nothing. -/
structure Untouched (before after : Connection) : Prop where
  session : after.session = before.session
  incoming : after.stream.incoming = before.stream.incoming
  reads : after.stream.reads = before.stream.reads

/-- What is answered to so many calls for the next event, when some events are left. -/
def remaining (queue : List Event) (count : Nat) : List (Except String (Option Event)) :=
  (queue.take count).map (fun event => .ok (some event))
    ++ List.replicate (count - queue.length) (.ok none)

/-- No event waits behind a failure. -/
def FailureLast (queue : List Event) : Prop :=
  ∀ front failure back, queue = front ++ .failure failure :: back → back = []

variable {c : Connection}

theorem FailureLast.nil : FailureLast [] :=
  fun _ _ _ split => absurd split (by simp)

theorem FailureLast.tail {event : Event} {queue : List Event} (h : FailureLast (event :: queue)) :
    FailureLast queue :=
  fun front failure back split =>
    h (event :: front) failure back (by rw [split, List.cons_append])

theorem Progress.failureLast {role : Role} {limit : Nat} {incoming : List Delivery}
    {told : List Event} (h : c.Progress role limit incoming told) : FailureLast c.queue := by
  intro front failure back split
  have chronicle := h.chronicle
  rw [split, ← List.append_assoc] at chronicle
  exact chronicle.failure_last.1

theorem Untouched.trans {first second third : Connection} (h : first.Untouched second)
    (h' : second.Untouched third) : first.Untouched third :=
  ⟨h'.session.trans h.session, h'.incoming.trans h.incoming, h'.reads.trans h.reads⟩

theorem untouched_send (c : Connection) (p : Packet) : c.Untouched (c.send p).after := by
  obtain ⟨pieces, written, flushes, writeBuffer, frame⟩ := c.send_frame p
  rw [frame]
  exact ⟨rfl, rfl, rfl⟩

theorem untouched_close (c : Connection) : c.Untouched c.close :=
  ⟨rfl, rfl, rfl⟩

theorem finished_send (c : Connection) (p : Packet) :
    (c.send p).after.finished = c.finished ∧ (c.send p).after.queue = c.queue := by
  obtain ⟨pieces, written, flushes, writeBuffer, frame⟩ := c.send_frame p
  rw [frame]
  exact ⟨rfl, rfl⟩

/-! ### Finished connections -/

/-- **What a finished connection still answers**: the events that wait, and then that there is no
other. A failure among them must be the last, since it clears the queue. -/
theorem callAll_of_finished (finished : c.finished = true) (last : FailureLast c.queue)
    (calls : List Call) :
    nexts (c.callAll calls).1 = remaining c.queue (calls.count .next)
      ∧ c.Untouched (c.callAll calls).2 := by
  induction calls generalizing c with
  | nil => exact ⟨by simp [callAll, nexts, remaining], rfl, rfl, rfl⟩
  | cons first calls ih =>
      cases first with
      | next =>
          rw [callAll, call, nexts_cons_next, List.count_cons_self]
          cases hqueue : c.queue with
          | nil =>
              rw [next_of_finished hqueue finished]
              obtain ⟨answers, untouched⟩ := ih finished last
              refine ⟨?_, untouched⟩
              rw [answers, hqueue]
              simp [remaining, List.replicate_succ]
          | cons event queue =>
              have popped : c.next.after = { c with queue } := by
                rw [next_of_queue hqueue]
                cases event with
                | packet p => rfl
                | failure f =>
                    obtain rfl := last [] f queue hqueue
                    exact congrArg (fun finished => { c with finished, queue := [] }) finished.symm
              have same : c.Untouched { c with queue } := ⟨rfl, rfl, rfl⟩
              rw [hqueue] at last
              obtain ⟨answers, untouched⟩ := ih (c := { c with queue }) finished last.tail
              rw [popped, next_of_queue hqueue]
              refine ⟨?_, same.trans untouched⟩
              rw [answers]
              simp [remaining]
      | send p =>
          obtain ⟨sameFinished, sameQueue⟩ := c.finished_send p
          obtain ⟨answers, untouched⟩ :=
            ih (sameFinished.trans finished) (by rwa [sameQueue])
          rw [callAll, call, nexts_cons_send, List.count_cons_of_ne (by simp), ← sameQueue]
          exact ⟨answers, (c.untouched_send p).trans untouched⟩
      | close =>
          obtain ⟨answers, untouched⟩ := ih (c := c.close) rfl last
          rw [callAll, call, nexts_cons_close, List.count_cons_of_ne (by simp)]
          exact ⟨answers, c.untouched_close.trans untouched⟩

/-- A connection that will answer nothing but that there is no other event. -/
def Spent (c : Connection) : Prop :=
  c.finished = true ∧ c.queue = []

/-- An answer that ends a connection leaves it spent. -/
theorem Next.spent {answer : Except String (Option Event)} {after : Connection}
    (h : c.Next answer after) (final : Final answer) : after.Spent := by
  induction h with
  | packet => cases final
  | failure => exact ⟨rfl, rfl⟩
  | ended empty finished => exact ⟨finished, empty⟩
  | fault => cases final
  | closed empty => exact ⟨rfl, empty⟩
  | bytes _ _ _ _ _ ih => exact ih final

theorem Spent.call (h : c.Spent) (call : Call) : (c.call call).2.Spent := by
  cases call with
  | next =>
      rw [Connection.call, next_of_finished h.2 h.1]
      exact h
  | send p =>
      obtain ⟨sameFinished, sameQueue⟩ := c.finished_send p
      exact ⟨sameFinished.trans h.1, sameQueue.trans h.2⟩
  | close => exact ⟨rfl, h.2⟩

theorem Spent.callAll (h : c.Spent) (calls : List Call) : (c.callAll calls).2.Spent :=
  callAll_keeps (fun _ h => h.call _) h

/-- A connection is spent behind a row of calls if one of the answers ended it. -/
theorem spent_callAll {calls : List Call}
    (final : ∃ value ∈ nexts (c.callAll calls).1, Final value) : (c.callAll calls).2.Spent := by
  induction calls generalizing c with
  | nil =>
      obtain ⟨value, absent, -⟩ := final
      cases absent
  | cons first calls ih =>
      cases first with
      | next =>
          obtain ⟨value, among, final⟩ := final
          rw [callAll, call, nexts_cons_next] at among
          rcases List.mem_cons.mp among with rfl | later
          · exact (c.next_rule.spent final).callAll calls
          · exact ih ⟨value, later, final⟩
      | send p => exact ih final
      | close => exact ih final

/-- **Nothing brings a connection back.** Behind any calls of a new connection on any stream: if one
of the answers was that there is no other event, or was a failure, then all later calls for the next
event are answered that there is none. And if the connection is closed, they are answered with the
events that waited at that moment, in order, and then that there is none. In both cases nothing more
is read from the stream, whatever it would deliver, and the session stays as it is. -/
theorem callAll_absorbing (role : Role) (limit : Nat) (stream : ByteStream)
    (calls later : List Call) :
    let run := (start stream ((Session.start role).withLimit limit)).callAll calls
    let count := later.count .next
    ((∃ value ∈ nexts run.1, Final value) →
        nexts (run.2.callAll later).1 = List.replicate count (.ok none)
          ∧ run.2.Untouched (run.2.callAll later).2)
      ∧ nexts (run.2.close.callAll later).1
          = (run.2.queue.take count).map (fun event => .ok (some event))
            ++ List.replicate (count - run.2.queue.length) (.ok none)
      ∧ run.2.Untouched (run.2.close.callAll later).2 := by
  intro run count
  constructor
  · intro final
    obtain ⟨finished, empty⟩ := spent_callAll final
    have last : FailureLast run.2.queue := empty ▸ FailureLast.nil
    obtain ⟨answers, untouched⟩ := callAll_of_finished finished last later
    refine ⟨?_, untouched⟩
    rw [answers, empty, remaining, List.take_nil, List.map_nil, List.nil_append, List.length_nil,
      Nat.sub_zero]
  · have last := (progress_callAll role limit stream calls).close.failureLast
    obtain ⟨answers, untouched⟩ := callAll_of_finished (c := run.2.close) rfl last later
    exact ⟨answers, run.2.untouched_close.trans untouched⟩

end Mqtt.Connection

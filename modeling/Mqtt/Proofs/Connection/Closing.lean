import Mqtt.Proofs.Connection.Delivering
import Mqtt.Proofs.Connection.Ending
import Mqtt.Proofs.Session.Cut

/-!
# What is logged when the peer closes

Among all that a connection logs, a record tells that the peer closed inside a packet. It is logged
in the one call that finds the end of the stream, and only if the session still holds bytes then. A
connection that has finished does not look for the end any more.
-/
namespace Mqtt.Connection

/-- What a call logs. -/
def callRecords (c : Connection) : Call → List Log.Record
  | .next => c.next.records
  | .send p => (c.send p).records
  | .close => []

/-- What a row of calls logs. -/
def log (c : Connection) : List Call → List Log.Record
  | [] => []
  | call :: calls => c.callRecords call ++ (c.call call).2.log calls

/-- Whether a record tells that the peer closed inside a packet. -/
def tellsOfCut (r : Log.Record) : Bool :=
  r.message == "peer closed mid-packet"

/-- What is logged of the end of the stream with an answer. -/
def endRecords (s : Session) : Except String (Option Event) → List Log.Record
  | .ok none => closedRecords s
  | _ => []

theorem endRecords_of_ne (s : Session) {answer : Except String (Option Event)}
    (h : answer ≠ .ok none) : endRecords s answer = [] := by
  rw [endRecords]
  exact h

variable {c : Connection} {answer : Except String (Option Event)} {after : Connection}
  {role : Role} {limit : Nat} {incoming : List Delivery} {told : List Event}

/-! ### Other records -/

theorem filter_closedRecords (s : Session) :
    (closedRecords s).filter tellsOfCut = closedRecords s := by
  rw [closedRecords]
  split <;> rfl

theorem closedRecords_ne_nil_iff {s : Session} : closedRecords s ≠ [] ↔ s.buffer ≠ [] := by
  rw [closedRecords]
  cases s.buffer with
  | nil => exact iff_of_false (absurd rfl) (absurd rfl)
  | cons b bytes => exact iff_of_true nofun nofun

theorem any_tellsOfCut_iff {records : List Log.Record} :
    records.any tellsOfCut = true ↔ records.filter tellsOfCut ≠ [] := by
  rw [List.any_eq_true, ne_eq, List.filter_eq_nil_iff]
  simp

theorem filter_paddingNotice (kind : Kind) (c : Cursor) :
    (Packet.paddingNotice kind c).filter tellsOfCut = [] := by
  rw [Packet.paddingNotice]
  split
  · refine List.filter_eq_nil_iff.mpr fun r hr => ?_
    rw [List.mem_singleton.mp hr, tellsOfCut, beq_iff_eq]
    intro same
    have first := congrArg (·.toList.head?) same
    simp at first
  · rfl

/-- **A session logs nothing of the end of its stream.** -/
theorem filter_records_receive (s : Session) (bytes : Bytes) :
    (Session.records (s.receive bytes).1).filter tellsOfCut = [] := by
  have step (told : List Report) (report : Report)
      (before : (Session.records told).filter tellsOfCut = [])
      (now : report.records.filter tellsOfCut = []) :
      (Session.records (told ++ [report])).filter tellsOfCut = [] := by
    rw [Session.records] at before ⊢
    rw [List.flatMap_append, List.flatMap_singleton, List.filter_append, before, now,
      List.append_nil]
  rw [Session.receive_eq_drain_offer, ← List.nil_append (Session.drain _).1]
  refine Session.drain_keeps
    (P := fun told _ => (Session.records told).filter tellsOfCut = []) ?_ rfl
  intro told s m rule before
  cases rule with
  | dropped | shortHeader | shortBody => trivial
  | frame => exact before
  | overlong | overLimit | refuse => exact step told _ before rfl
  | accept =>
      refine step told _ before ?_
      rw [Session.decoded, List.filter_append, filter_paddingNotice]
      rfl

theorem filter_records_send (c : Connection) (p : Packet) :
    (c.send p).records.filter tellsOfCut = [] := by
  cases h : p.encode with
  | error e =>
      rw [send_of_encode_error h]
      rfl
  | ok bytes =>
      rw [send_of_encode h]
      split <;> rfl

/-! ### One call -/

/-- **What the call for the next event logs of the end**, if the connection has not finished: what
belongs to its answer, whatever it reads before. -/
theorem Next.filter_records (rule : c.Next answer after) (unfinished : c.finished = false) :
    c.next.records.filter tellsOfCut = endRecords after.session answer := by
  induction rule with
  | packet queued | failure queued =>
      rw [next_of_queue queued]
      rfl
  | ended _ finished => exact absurd (unfinished.symm.trans finished) nofun
  | fault empty unfinished incoming =>
      rw [next_of_read_error empty (ne_true_of_eq_false unfinished)
        (ByteStream.read_of_fault incoming readSize)]
      rfl
  | closed empty unfinished incoming =>
      rw [next_of_read_nil empty (ne_true_of_eq_false unfinished)
        (ByteStream.read_of_end incoming readSize)]
      exact filter_closedRecords _
  | bytes empty unfinished incoming taken _ ih =>
      rw [next_of_read empty (ne_true_of_eq_false unfinished)
        (ByteStream.read_of_bytes incoming readSize) taken, List.filter_append, ih unfinished,
        List.filter_cons, filter_records_receive]
      rfl

/-- Behind a call that hands out no end and no failure, the connection goes on. -/
theorem Next.unfinished (rule : c.Next answer after) (unfinished : c.finished = false)
    (more : ¬ Final answer) : after.finished = false := by
  induction rule with
  | packet => exact unfinished
  | failure => exact absurd rfl more
  | ended | closed => exact absurd trivial more
  | fault => exact unfinished
  | bytes _ _ _ _ _ ih => exact ih unfinished more

/-- The end of the stream is found when all of it is read. -/
theorem Next.incoming_of_end (rule : c.Next answer after) (h : c.Open)
    (unfinished : c.finished = false) (ends : answer = .ok none) : after.stream.incoming = [] := by
  induction rule with
  | packet | failure | fault => cases ends
  | ended _ finished => exact absurd (unfinished.symm.trans finished) nofun
  | @closed c rest _ _ incoming =>
      rcases incoming with ⟨-, rfl⟩ | incoming
      · rfl
      · exact absurd rfl (h.nonempty _ (by rw [incoming]; exact List.mem_cons_self))
  | bytes _ unfinished incoming _ _ ih =>
      exact ih (h.refill unfinished incoming readSize) unfinished ends

/-- What was handed out is told of the whole stream. -/
theorem Progress.prefix_events (h : c.Progress role limit incoming told) :
    told <+: Session.events
      (((Session.start role).withLimit limit).receive (Delivery.content incoming)).1 := by
  obtain ⟨bytes, content, -, events⟩ := h.taken
  rw [content, Session.receive_append, Session.events_append, ← events, List.append_assoc]
  exact List.prefix_append ..

/-- The answer that ends a connection has what is logged of the end with it: behind a failure the
session holds nothing, and else it has received the whole stream. -/
theorem Next.endRecords_of_final (rule : c.Next answer after)
    (progress : c.Progress role limit incoming told) (h : c.Open) (unfinished : c.finished = false)
    (final : Final answer) :
    endRecords after.session answer
      = closedRecords
          (((Session.start role).withLimit limit).receive (Delivery.content incoming)).2 := by
  have later := progress.next rule
  cases answer with
  | error text => exact absurd final id
  | ok event =>
      cases event with
      | none =>
          obtain ⟨bytes, content, session, -⟩ := later.taken
          rw [rule.incoming_of_end h unfinished rfl, Delivery.content, List.append_nil] at content
          rw [endRecords, session, content]
      | some event =>
          cases event with
          | packet p => cases final
          | failure f =>
              have among : Event.failure f ∈ told ++ (eventOf? (.ok (some (.failure f)))).toList :=
                List.mem_append_right _ List.mem_cons_self
              have nothing := Session.buffer_of_failure (later.prefix_events.subset among)
              rw [closedRecords, nothing]
              rfl

/-! ### Rows of calls -/

/-- A finished connection stays so. -/
theorem Next.finished (rule : c.Next answer after) (finished : c.finished = true) :
    after.finished = true := by
  cases rule with
  | packet => exact finished
  | failure => rfl
  | ended => exact finished
  | fault _ unfinished | closed _ unfinished | bytes _ unfinished =>
      exact absurd (unfinished.symm.trans finished) nofun

theorem finished_call (finished : c.finished = true) (call : Call) :
    (c.call call).2.finished = true := by
  cases call with
  | next => exact c.next_rule.finished finished
  | send p => exact (c.finished_send p).1.trans finished
  | close => rfl

theorem records_of_finished (finished : c.finished = true) : c.next.records = [] := by
  cases queued : c.queue with
  | nil => rw [next_of_finished queued finished]
  | cons event queue => rw [next_of_queue queued]

/-- **A finished connection logs nothing of the end.** -/
theorem filter_log_of_finished (finished : c.finished = true) (calls : List Call) :
    (c.log calls).filter tellsOfCut = [] := by
  induction calls generalizing c with
  | nil => rfl
  | cons call calls ih =>
      have first : (c.callRecords call).filter tellsOfCut = [] := by
        cases call with
        | next => rw [callRecords, records_of_finished finished, List.filter_nil]
        | send p => exact c.filter_records_send p
        | close => rfl
      rw [log, List.filter_append, first, ih (finished_call finished call), List.append_nil]

/-- **What a row of calls logs of the end** of a stream that delivers bytes and faults in any order:
if one of the calls before the connection is closed finds that there is no other event, what the
session holds of the whole stream, and else nothing. The induction is on the calls; the first answer
that ends the connection is the one that has the record. -/
theorem filter_log (progress : c.Progress role limit incoming told) (h : c.Open)
    (unfinished : c.finished = false) (calls : List Call) :
    let answers := nexts (c.callAll (calls.takeWhile (· ≠ .close))).1
    let last := (((Session.start role).withLimit limit).receive (Delivery.content incoming)).2
    (.ok none ∈ answers → (c.log calls).filter tellsOfCut = closedRecords last)
      ∧ (.ok none ∉ answers → (c.log calls).filter tellsOfCut = []) := by
  induction calls generalizing c told with
  | nil => exact ⟨nofun, fun _ => rfl⟩
  | cons first calls ih =>
      cases first with
      | close => exact ⟨nofun, fun _ => filter_log_of_finished (c := c.close) rfl calls⟩
      | send p =>
          have unfinished' := (c.finished_send p).1.trans unfinished
          have later := ih (progress.send p) (h.send p).1 unfinished'
          rw [log, List.filter_append, callRecords, filter_records_send, List.nil_append]
          exact later
      | next =>
          have rule := c.next_rule
          rw [log, List.filter_append, callRecords, rule.filter_records unfinished]
          -- This call is no close, so the row of those before the first close goes on with it.
          change (.ok none ∈ c.next.value :: nexts (c.next.after.callAll _).1 → _)
            ∧ (.ok none ∉ c.next.value :: nexts (c.next.after.callAll _).1 → _)
          by_cases final : Final c.next.value
          · have nothing := filter_log_of_finished (rule.spent final).1 calls
            rw [call, nothing, List.append_nil]
            refine ⟨fun _ => rule.endRecords_of_final progress h unfinished final, fun absent => ?_⟩
            exact endRecords_of_ne _ (List.ne_of_not_mem_cons absent).symm
          · have more : c.next.value ≠ .ok none := fun ends => final (by rw [ends]; trivial)
            obtain ⟨found, none⟩ := ih (progress.next rule) (rule.takes progress h).2.2
              (rule.unfinished unfinished final)
            rw [call, endRecords_of_ne _ more, List.nil_append]
            refine ⟨fun among => found ?_, fun absent => none ?_⟩
            · exact List.mem_of_ne_of_mem more.symm among
            · exact List.not_mem_of_not_mem_cons absent

end Mqtt.Connection

import Mqtt.Proofs.Connection.Progress

/-!
# What a connection delivers

The calls for the next event are answered with what the session tells of the whole stream, one event
a call, and with each fault of the stream in its place: behind all events of the bytes before it,
and without any effect on those behind it. What is still to be answered is a function of the queue,
the session and the stream, and each call takes the first of it.
-/
namespace Mqtt

/-! ### The answers of a stream -/

namespace Session

/-- The events of some deliveries and the faults among them, up to the end of the session. -/
def answers (s : Session) : List Delivery → List (Except String Event)
  | [] => []
  | .fault text :: rest =>
    if s.phase = .violated then [] else .error text :: s.answers rest
  | .bytes b :: rest =>
    (events (s.receive b).1).map .ok ++ (s.receive b).2.answers rest

variable {s : Session}

theorem answers_of_violated (h : s.phase = .violated) (deliveries : List Delivery) :
    s.answers deliveries = [] := by
  induction deliveries with
  | nil => rfl
  | cons delivery rest ih =>
      cases delivery with
      | bytes b =>
          rw [answers, receive_of_violated h]
          exact ih
      | fault text => rw [answers, if_pos h]

/-- Bytes may be delivered in two parts. -/
theorem answers_take_drop (s : Session) (room : Nat) (b : Bytes) (rest : List Delivery) :
    s.answers (.bytes b :: rest)
      = (events (s.receive (b.take room)).1).map .ok
        ++ (s.receive (b.take room)).2.answers (Delivery.afterTaking room b ++ rest) := by
  rw [Delivery.afterTaking]
  split
  · next whole => rw [List.take_of_length_le whole, answers, List.nil_append]
  · conv_lhs => rw [answers, ← List.take_append_drop room b, receive_append]
    rw [List.singleton_append, answers, events_append, List.map_append, List.append_assoc]

/-- **Faults apart, the events are those of the bytes taken together.** -/
theorem answers_events (settled : s.Settled) (deliveries : List Delivery) :
    (s.answers deliveries).filterMap Except.toOption
      = events (s.receive (Delivery.content deliveries)).1 := by
  induction deliveries generalizing s with
  | nil =>
      rw [answers, Delivery.content, settled.receive_nil]
      rfl
  | cons delivery rest ih =>
      cases delivery with
      | bytes b =>
          rw [answers, List.filterMap_append, ih (settled_receive s b), Delivery.content,
            receive_append, events_append]
          congr 1
          exact List.filterMap_map .. |>.trans (List.filterMap_some ..)
      | fault text =>
          rw [answers, Delivery.content]
          split
          · next violated =>
            rw [receive_of_violated violated]
            rfl
          · exact ih settled

theorem answers_append (settled : s.Settled) (front back : List Delivery) :
    s.answers (front ++ back)
      = s.answers front ++ (s.receive (Delivery.content front)).2.answers back := by
  induction front generalizing s with
  | nil => rw [Delivery.content, settled.receive_nil, answers, List.nil_append, List.nil_append]
  | cons delivery front ih =>
      cases delivery with
      | bytes b =>
          rw [List.cons_append, answers, answers, ih (settled_receive s b), Delivery.content,
            receive_append, List.append_assoc]
      | fault text =>
          rw [List.cons_append, answers, answers, Delivery.content]
          split
          · next violated =>
            rw [receive_of_violated violated, answers_of_violated violated, List.append_nil]
          · rw [ih settled, List.cons_append]

/-- A fault behind some events is not one of them. -/
theorem split_behind_events {told : List Event} {others before after : List (Except String Event)}
    {text : String} (h : told.map .ok ++ others = before ++ .error text :: after) :
    ∃ more, before = told.map .ok ++ more ∧ others = more ++ .error text :: after := by
  induction told generalizing before with
  | nil => exact ⟨before, rfl, h⟩
  | cons event told ih =>
      cases before with
      | nil => cases h
      | cons first before =>
          obtain ⟨rfl, later⟩ := List.cons.inj h
          obtain ⟨more, rfl, rest⟩ := ih later
          exact ⟨more, rfl, rest⟩

/-- Each fault among the answers comes of one among the deliveries. -/
theorem exists_fault_of_answers (settled : s.Settled) {deliveries : List Delivery} {text : String}
    {before after : List (Except String Event)}
    (h : s.answers deliveries = before ++ .error text :: after) :
    ∃ front back, deliveries = front ++ .fault text :: back
      ∧ (s.receive (Delivery.content front)).2.phase ≠ .violated
      ∧ before = s.answers front
      ∧ after = (s.receive (Delivery.content front)).2.answers back := by
  induction deliveries generalizing s before with
  | nil => simp [answers] at h
  | cons delivery rest ih =>
      cases delivery with
      | bytes b =>
          rw [answers] at h
          obtain ⟨more, rfl, later⟩ := split_behind_events h
          obtain ⟨front, back, rfl, live, rfl, rfl⟩ := ih (settled_receive s b) later
          refine ⟨.bytes b :: front, back, rfl, ?_⟩
          rw [Delivery.content, receive_append, answers]
          exact ⟨live, rfl, rfl⟩
      | fault other =>
          rw [answers] at h
          split at h
          · cases before <;> cases h
          · next live =>
            cases before with
            | nil =>
                cases h
                refine ⟨[], rest, rfl, ?_⟩
                rw [Delivery.content, settled.receive_nil]
                exact ⟨live, rfl, rfl⟩
            | cons first before =>
                rw [List.cons_append, List.cons.injEq] at h
                obtain ⟨rfl, h⟩ := h
                obtain ⟨front, back, rfl, live', rfl, rfl⟩ := ih settled h
                refine ⟨.fault other :: front, back, rfl, live', ?_, rfl⟩
                rw [answers, if_neg live]

/-- **Where a fault stands**: every fault that the session lives to see has its place, behind the
answers of the deliveries before it, and those behind it are answered as if it were not there. -/
theorem answers_fault_iff (settled : s.Settled) {deliveries : List Delivery} {text : String}
    {before after : List (Except String Event)} :
    s.answers deliveries = before ++ .error text :: after
      ↔ ∃ front back, deliveries = front ++ .fault text :: back
        ∧ (s.receive (Delivery.content front)).2.phase ≠ .violated
        ∧ before = s.answers front
        ∧ after = (s.receive (Delivery.content front)).2.answers back := by
  constructor
  · exact exists_fault_of_answers settled
  · rintro ⟨front, back, rfl, live, rfl, rfl⟩
    rw [answers_append settled, answers, if_neg live]

end Session

namespace Connection

/-! ### The answers of a connection -/

/-- What a connection has still to answer: the events that wait, and then the stream. -/
def awaited (c : Connection) : List (Except String Event) :=
  c.queue.map .ok ++ c.session.answers c.stream.incoming

/-- The answer to a call for the next event, when something or nothing is awaited. -/
def reply : List (Except String Event) → Except String (Option Event)
  | [] => .ok none
  | first :: _ => first.map some

/-- A connection that was not closed, on a stream that delivers bytes to its end. -/
structure Open (c : Connection) : Prop where
  nonempty : ∀ delivery ∈ c.stream.incoming, delivery ≠ .bytes []
  finished : c.finished = true → c.awaited = []

variable {c : Connection} {role : Role} {limit : Nat} {incoming : List Delivery}
  {told : List Event}

/-- Reading some bytes changes nothing in what is awaited. -/
theorem awaited_refill {b : Bytes} {rest : List Delivery} (readBuffer : c.readBuffer = [])
    (empty : c.queue = []) (next : c.stream.incoming = .bytes b :: rest) (room : Nat) :
    (c.refill (c.stream.afterRead (Delivery.afterTaking room b ++ rest)) (b.take room)).awaited
      = c.awaited := by
  rw [awaited, awaited, empty, next, Session.answers_take_drop c.session room, refill, readBuffer]
  rfl

theorem Open.refill {b : Bytes} {rest : List Delivery} (h : c.Open)
    (unfinished : c.finished = false) (next : c.stream.incoming = .bytes b :: rest) (room : Nat) :
    (c.refill (c.stream.afterRead (Delivery.afterTaking room b ++ rest)) (b.take room)).Open := by
  refine ⟨?_, fun finished => absurd (unfinished.symm.trans finished) (by nofun)⟩
  intro delivery among
  have nonempty := h.nonempty
  rw [next] at nonempty
  rcases List.mem_append.mp among with left | later
  · rw [Delivery.afterTaking] at left
    split at left
    · cases left
    · next more =>
      cases List.mem_singleton.mp left
      simpa using more
  · exact nonempty delivery (List.mem_cons_of_mem _ later)

/-- **A call takes the first of what is awaited.** -/
theorem Next.takes {answer : Except String (Option Event)} {after : Connection}
    (rule : c.Next answer after) (progress : c.Progress role limit incoming told) (h : c.Open) :
    answer = reply c.awaited ∧ after.awaited = c.awaited.tail ∧ after.Open := by
  induction rule with
  | @packet c p queue queued =>
      have awaited : c.awaited = .ok (.packet p) :: { c with queue }.awaited := by
        rw [Connection.awaited, queued]
        rfl
      rw [awaited]
      refine ⟨rfl, rfl, h.nonempty, fun finished => ?_⟩
      rw [h.finished finished] at awaited
      cases awaited
  | @failure c f queue queued =>
      obtain ⟨rfl, violated⟩ := progress.queue_of_failure queued
      have nothing : { c with finished := true, queue := [] }.awaited = [] := by
        rw [awaited, Session.answers_of_violated violated]
        rfl
      rw [awaited, queued, Session.answers_of_violated violated]
      exact ⟨rfl, nothing, h.nonempty, fun _ => nothing⟩
  | @ended c empty finished =>
      rw [h.finished finished]
      exact ⟨rfl, rfl, h⟩
  | @fault c text rest empty unfinished next =>
      have live := progress.live empty unfinished
      have nonempty := h.nonempty
      rw [next] at nonempty
      have awaited : c.awaited = .error text :: c.session.answers rest := by
        rw [Connection.awaited, empty, next, Session.answers, if_neg live]
        rfl
      rw [awaited]
      refine ⟨rfl, ?_, fun d among => nonempty d (List.mem_cons_of_mem _ among), fun finished => ?_⟩
      · rw [Connection.awaited, empty]
        rfl
      · exact absurd (unfinished.symm.trans finished) (by nofun)
  | @closed c rest empty unfinished next =>
      rcases next with ⟨next, rfl⟩ | next
      · have nothing : c.awaited = [] := by
          rw [awaited, empty, next]
          rfl
        have nothing' :
            { c with stream := c.stream.afterRead [], finished := true }.awaited = [] := by
          rw [awaited, empty]
          rfl
        rw [nothing]
        exact ⟨rfl, nothing', by nofun, fun _ => nothing'⟩
      · exact absurd rfl (h.nonempty _ (by rw [next]; exact List.mem_cons_self))
  | bytes empty unfinished next _ _ ih =>
      have same := awaited_refill progress.readBuffer empty next readSize
      rw [← same]
      exact ih (progress.refill empty unfinished next readSize) (h.refill unfinished next readSize)

theorem Open.send (h : c.Open) (p : Packet) :
    (c.send p).after.Open ∧ (c.send p).after.awaited = c.awaited := by
  obtain ⟨pieces, written, flushes, writeBuffer, frame⟩ := c.send_frame p
  rw [frame]
  exact ⟨⟨h.nonempty, h.finished⟩, rfl⟩

/-- What is answered to a row of calls without a close is what is awaited. -/
theorem nexts_callAll {calls : List Call} (progress : c.Progress role limit incoming told)
    (h : c.Open) (unclosed : .close ∉ calls) :
    nexts (c.callAll calls).1
      = (c.awaited.take (calls.count .next)).map (Except.map some)
        ++ List.replicate (calls.count .next - c.awaited.length) (.ok none) := by
  induction calls generalizing c told with
  | nil => simp [callAll, nexts]
  | cons first calls ih =>
      have unclosed' : .close ∉ calls := fun later => unclosed (List.mem_cons_of_mem _ later)
      cases first with
      | next =>
          obtain ⟨answer, awaited, h'⟩ := c.next_rule.takes progress h
          rw [callAll, call, nexts_cons_next, List.count_cons_self,
            ih (progress.next c.next_rule) h' unclosed', answer, awaited]
          cases c.awaited with
          | nil => simp [reply, List.replicate_succ]
          | cons first others => simp [reply]
      | send p =>
          obtain ⟨h', awaited⟩ := h.send p
          rw [callAll, call, nexts_cons_send, List.count_cons_of_ne (by simp), ← awaited]
          exact ih (progress.send p) h' unclosed'
      | close => exact absurd List.mem_cons_self unclosed

/-- While an event waits, the stream is left alone. -/
theorem Next.stream_of_queue {answer : Except String (Option Event)} {after : Connection}
    (rule : c.Next answer after) (waits : c.queue ≠ []) : after.stream = c.stream := by
  cases rule with
  | packet | failure => rfl
  | ended empty | fault empty | closed empty | bytes empty => exact absurd empty waits

/-- **What is answered to a row of calls** of a new connection that is not closed among them, on a
stream that delivers bytes and faults in any order: the events and faults of the stream, one a call,
and then that there is no other event. The events are those that a session tells of all bytes
together; a fault stands behind the events of exactly the bytes before it, and those behind it are
told as if there were none. Behind every row of calls, the events handed out and those that wait are
together what a session tells of the bytes read so far. No connection reads while an event waits. -/
theorem callAll_delivers (role : Role) (limit : Nat) {stream : ByteStream} {calls : List Call}
    (nonempty : ∀ delivery ∈ stream.incoming, delivery ≠ .bytes [])
    (unclosed : .close ∉ calls) :
    let session := (Session.start role).withLimit limit
    let answers := session.answers stream.incoming
    let count := calls.count .next
    let run := (start stream session).callAll calls
    nexts run.1
        = (answers.take count).map (Except.map some)
          ++ List.replicate (count - answers.length) (.ok none)
      ∧ (∀ deliveries, (session.answers deliveries).filterMap Except.toOption
          = Session.events (session.receive (Delivery.content deliveries)).1)
      ∧ (∀ before text after, answers = before ++ .error text :: after
          ↔ ∃ front back, stream.incoming = front ++ .fault text :: back
            ∧ (session.receive (Delivery.content front)).2.phase ≠ .violated
            ∧ before = session.answers front
            ∧ after = (session.receive (Delivery.content front)).2.answers back)
      ∧ (∃ bytes, Delivery.content stream.incoming
            = bytes ++ Delivery.content run.2.stream.incoming
          ∧ run.2.session = (session.receive bytes).2
          ∧ handed run.1 ++ run.2.queue = Session.events (session.receive bytes).1)
      ∧ ∀ c : Connection, c.queue ≠ [] → c.next.after.stream = c.stream := by
  intro session answers count run
  have settled : session.Settled := (Session.settled_start role).withLimit limit
  have new : (start stream session).Open := ⟨nonempty, nofun⟩
  refine ⟨?_, Session.answers_events settled, ?_, ?_, ?_⟩
  · exact nexts_callAll (progress_start role limit stream) new unclosed
  · exact fun _ _ _ => Session.answers_fault_iff settled
  · exact (progress_callAll role limit stream calls).taken
  · exact fun c => c.next_rule.stream_of_queue

/-- A connect packet cut by a fault, a ping behind it in the same delivery, and the first byte of a
packet that does not come; with a packet sent between the calls. -/
theorem callAll_cut_connect :
    let stream : ByteStream :=
      { incoming :=
          [.bytes [0x10, 13, 0, 4, 0x4d, 0x51], .fault "timed out",
            .bytes [0x54, 0x54, 4, 2, 0, 60, 0, 1, 0x61, 0xc0, 0, 0xe0], .fault "reset"]
        maxWrite := some 1 }
    let calls : List Call := [.next, .next, .send (.signal .pingResp), .next, .next, .next]
    (∀ delivery ∈ stream.incoming, delivery ≠ .bytes []) ∧ .close ∉ calls ∧
      nexts ((start stream ((Session.start .server).withLimit 1000)).callAll calls).1
        = [.error "timed out", .ok (some (.packet (.connect { clientId := "a", keepAlive := 60 }))),
            .ok (some (.packet (.signal .pingReq))), .error "reset", .ok none] := by
  intro stream calls
  have nonempty : ∀ delivery ∈ stream.incoming, delivery ≠ .bytes [] := by decide
  have unclosed : .close ∉ calls := by decide
  refine ⟨nonempty, unclosed, (callAll_delivers .server 1000 nonempty unclosed).1.trans ?_⟩
  decide +kernel

end Connection
end Mqtt

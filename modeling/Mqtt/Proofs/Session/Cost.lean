import Mqtt.Proofs.Packet.Body
import Mqtt.Proofs.Packet.Length
import Mqtt.Proofs.Session.Calls
import Mqtt.Proofs.Wire.Rounds

/-!
# What the bytes of a stream pay for

No peer can keep a session busy for free. A call makes no more moves than the bytes in the buffer
allow, every event is paid for with two bytes of the stream at least, and in a body each item of a
list is paid for with its own bytes. Two measures carry this: the work, from which every move takes,
and the credit, which is what the bytes of the session still pay for.
-/
namespace Mqtt

open Decoder

/-! ### Items of a body -/

/-- A topic takes the two bytes of its length. -/
theorem Decoder.takes_text : text.Takes 2 := by
  refine Unsubscribe.reads_topic.takes fun {topic b left} written => ?_
  rw [Step.length_of_writes written]
  simp [Unsubscribe.topicSteps, Step.length, Field.length]

/-- A request takes the two bytes of its length and the one of its options. -/
theorem TopicRequest.takes_decode : TopicRequest.decode.Takes 3 := by
  refine TopicRequest.reads_decode.takes fun {request b left} written => ?_
  rw [Step.length_of_writes written]
  simp [TopicRequest.steps, Step.length, Field.length]

theorem Decoder.read_word_of_short {body : Bytes} (h : body.length < 2) :
    word.read (.start body) = (.error (.outOfData 2 body.length), .start body) := by
  match body, h with
  | [], _ | [_], _ => rfl

theorem Decoder.exists_read_word {body : Bytes} (h : 2 ≤ body.length) :
    ∃ w, word.read (.start body) = (.ok w, ⟨2, body.drop 2⟩) := by
  match body, h with
  | high :: low :: _, _ => exact ⟨Bytes.word high low, rfl⟩

/-- **The rounds of a subscribe packet** are the requests behind its identifier, the first of which
is read before the end of the body is looked for. -/
theorem Subscribe.exists_loops {body : Bytes} (h : 2 ≤ body.length) :
    ∃ packetId requests r c', Loops TopicRequest.decode ⟨2, body.drop 2⟩ requests r c'
      ∧ Subscribe.decode.read (.start body) = (r.map (Subscribe.mk packetId), c') := by
  obtain ⟨packetId, hword⟩ := exists_read_word h
  cases hfirst : TopicRequest.decode.read ⟨2, body.drop 2⟩ with
  | mk result m =>
      cases result with
      | error e =>
          refine ⟨packetId, [], .error e, m, .failed (.none _) hfirst, ?_⟩
          rw [Subscribe.decode, read_bind_of_ok hword, read_bind_of_error hfirst, Except.map]
      | ok first =>
          obtain ⟨others, r, c', loops, hothers⟩ :=
            exists_loops_untilEnd TopicRequest.consumes_decode m
          refine ⟨packetId, first :: others, _, c', loops.cons hfirst, ?_⟩
          rw [Subscribe.decode, read_bind_of_ok hword, read_bind_of_ok hfirst]
          cases r with
          | error e => rw [read_bind_of_error hothers, Except.map, Except.map]
          | ok others => exact read_bind_of_ok hothers

/-- What becomes of the topics of an unsubscribe packet: there must be one. -/
def Unsubscribe.ofTopics (packetId : UInt16) (topics : List String) :
    Except DecodeError Unsubscribe :=
  if topics.isEmpty then .error (.malformed .unsubscribe .noTopics) else .ok { packetId, topics }

/-- **The rounds of an unsubscribe packet** are the topics behind its identifier. -/
theorem Unsubscribe.exists_loops {body : Bytes} (h : 2 ≤ body.length) :
    ∃ packetId topics r c', Loops text ⟨2, body.drop 2⟩ topics r c'
      ∧ Unsubscribe.decode.read (.start body) = (r.bind (ofTopics packetId), c') := by
  obtain ⟨packetId, hword⟩ := exists_read_word h
  obtain ⟨topics, r, c', loops, htopics⟩ := exists_loops_untilEnd consumes_text ⟨2, body.drop 2⟩
  refine ⟨packetId, topics, r, c', loops, ?_⟩
  rw [Unsubscribe.decode, read_bind_of_ok hword]
  cases r with
  | error e => rw [read_bind_of_error htopics, Except.bind]
  | ok topics =>
      rw [read_bind_of_ok htopics, Except.bind]
      cases topics <;> rfl

namespace Session

variable {s t : Session} {n : Nat} {run : List Report}

/-! ### Moves of a call -/

/-- Moves made one after the other: their number, what is told, and the session behind them. -/
inductive Moves : Session → Nat → List Report → Session → Prop
  | none (s : Session) : Moves s 0 [] s
  | frame {s next t : Session} {n : Nat} {run : List Report} (first : s.step = .frame next)
      (others : Moves next n run t) : Moves s (n + 1) run t
  | tell {s next t : Session} {n : Nat} {report : Report} {run : List Report}
      (first : s.step = .tell report next) (others : Moves next n run t) :
      Moves s (n + 1) (report :: run) t

/-- **Every move takes from the work**, so there are no more moves than work. -/
theorem Moves.work_add_le (h : s.Moves n run t) : t.work + n ≤ s.work := by
  induction h with
  | none => exact Nat.le_refl _
  | frame first _ ih =>
      have := work_of_step_frame first
      omega
  | tell first _ ih =>
      have := work_of_step_tell first
      omega

/-- What a session does with its buffer are moves made one after the other. -/
theorem exists_moves_drain (s : Session) : ∃ n, s.Moves n s.drain.1 s.drain.2 := by
  induction s using drain.induct with
  | case1 s wait =>
      rw [drain_of_wait wait]
      exact ⟨0, .none s⟩
  | case2 s next frame ih =>
      obtain ⟨n, moves⟩ := ih
      rw [drain_of_frame frame]
      exact ⟨n + 1, .frame frame moves⟩
  | case3 s report next tell ih =>
      obtain ⟨n, moves⟩ := ih
      rw [drain_of_tell tell]
      exact ⟨n + 1, .tell tell moves⟩

theorem work_le (s : Session) : s.work ≤ 2 * s.buffer.length + 1 := by
  unfold work
  split <;> omega

theorem length_buffer_offer_le (s : Session) (bytes : Bytes) :
    (s.offer bytes).buffer.length ≤ s.buffer.length + bytes.length := by
  unfold offer
  split <;> simp

/-- Moves that bytes lead to are bounded by their number and by what the buffer held. -/
theorem Moves.le_of_offer {bytes : Bytes} (h : (s.offer bytes).Moves n run t) :
    n ≤ 2 * (s.buffer.length + bytes.length) + 1 := by
  have := h.work_add_le
  have := (s.offer bytes).work_le
  have := s.length_buffer_offer_le bytes
  omega

/-! ### Events of a stream -/

/-- The bytes that still count for the events to come: those in the buffer, and two for a header
that is taken off them while its body is collected. -/
def credit (s : Session) : Nat :=
  s.buffer.length
    + match s.phase with
      | .collectingBody _ => 2
      | _ => 0

/-- Of so many bytes of a stream, two are gone for each event that was told. -/
def Paid (length : Nat) (told : List Report) (s : Session) : Prop :=
  2 * (events told).length + s.credit ≤ length

@[simp] theorem length_events_append_singleton (told : List Report) (report : Report) :
    (events (told ++ [report])).length = (events told).length + 1 := by
  simp [events]

theorem credit_of_awaiting (phase : s.phase = .awaitingHeader) : s.credit = s.buffer.length := by
  simp [credit, phase]

theorem credit_of_collecting {header : FixedHeader} (phase : s.phase = .collectingBody header) :
    s.credit = s.buffer.length + 2 := by
  simp [credit, phase]

theorem credit_offer_le (s : Session) (bytes : Bytes) :
    (s.offer bytes).credit ≤ s.credit + bytes.length := by
  by_cases phase : s.phase = .violated
  · rw [offer_of_violated phase]
    omega
  · rw [offer_of_ne_violated phase]
    simp only [credit, List.length_append]
    omega

/-- The last event of a session is paid for like the others. -/
theorem Paid.giveUp {length : Nat} {told : List Report} (h : Paid length told s)
    (room : 2 ≤ s.credit) (report : Report) : Paid length (told ++ [report]) s.giveUp := by
  have nothing : s.giveUp.credit = 0 := rfl
  rw [Paid] at h ⊢
  rw [length_events_append_singleton, nothing]
  omega

/-- **Every move keeps what is paid.** The header that is framed has two bytes at least; they pay
for the event that its body leads to. -/
theorem Rule.paid {length : Nat} {told : List Report} {m : Move} (rule : s.Rule m)
    (h : Paid length told s) : m.Keeps (Paid length) told := by
  cases rule with
  | dropped | shortHeader | shortBody => trivial
  | overlong phase scan =>
      have long := (FixedHeader.decode_eq_overlong_iff.mp scan).1
      exact h.giveUp (by rw [credit_of_awaiting phase]; omega) _
  | overLimit phase scan =>
      have two := FixedHeader.size_pos_of_decode scan
      have within := FixedHeader.size_le_of_decode scan
      exact h.giveUp (by rw [credit_of_awaiting phase]; omega) _
  | @frame header size phase scan =>
      have two := FixedHeader.size_pos_of_decode scan
      have within := FixedHeader.size_le_of_decode scan
      have next : (s.framed header size).credit = s.buffer.length - size + 2 := by
        simp [credit, framed]
      rw [Paid, credit_of_awaiting phase] at h
      rw [Move.Keeps, Paid, next]
      omega
  | refuse phase => exact h.giveUp (by rw [credit_of_collecting phase]; omega) _
  | @accept header packet c phase =>
      have next : (s.behind header).credit = s.buffer.length - header.remaining := by
        simp [credit, behind]
      rw [Paid, credit_of_collecting phase] at h
      rw [Move.Keeps, Paid, length_events_append_singleton, next]
      omega

theorem Paid.offer {length : Nat} {told : List Report} (h : Paid length told s) (bytes : Bytes) :
    Paid (length + bytes.length) told (s.offer bytes) := by
  have := s.credit_offer_le bytes
  rw [Paid] at h ⊢
  omega

/-- **Every event is paid for with two bytes** of the stream, whatever the calls. -/
theorem two_mul_length_events_le (role : Role) (calls : List Call) :
    2 * (events ((start role).callAll calls).1).length
      ≤ (calls.flatMap Call.bytes).length := by
  have new : Paid ([] : Bytes).length [] (start role) := Nat.le_refl 0
  have paid := @callAll_keeps_stream (fun stream => Paid stream.length) calls Rule.paid
    (fun {stream told s} bytes h => by
      rw [List.length_append]
      exact h.offer bytes)
    (fun _ h => h) [] [] (start role) new
  rw [List.nil_append, List.nil_append, Paid] at paid
  omega

/-- **All loops end, and how soon.** A call makes moves one after the other until the session waits,
at most two for each byte that is there and one more, and there is no longer row of moves. Over all
calls of a new session there are at most half as many events as bytes. Behind its identifier a
subscribe packet is read in rounds that take three bytes at least, and an unsubscribe packet in
rounds that take two, also where the packet is refused in the end. -/
theorem loops_end_within_bytes :
    (∀ (s : Session) (bytes : Bytes),
        let most := 2 * (s.buffer.length + bytes.length) + 1
        (∃ n ≤ most, (s.offer bytes).Moves n (s.receive bytes).1 (s.receive bytes).2)
          ∧ (s.receive bytes).2.step = .wait
          ∧ ∀ n run t, (s.offer bytes).Moves n run t → n ≤ most)
      ∧ (∀ (role : Role) (calls : List Call),
          (events ((start role).callAll calls).1).length
            ≤ (calls.flatMap Call.bytes).length / 2)
      ∧ (∀ body : Bytes, TopicRequest.decode.Takes 3
          ∧ (body.length < 2 → Subscribe.decode.read (.start body)
              = (.error (.outOfData 2 body.length), .start body))
          ∧ (2 ≤ body.length → ∃ packetId requests r c',
              Loops TopicRequest.decode ⟨2, body.drop 2⟩ requests r c'
                ∧ requests.length ≤ (body.length - 2) / 3
                ∧ Subscribe.decode.read (.start body) = (r.map (Subscribe.mk packetId), c')))
      ∧ (∀ body : Bytes, text.Takes 2
          ∧ (body.length < 2 → Unsubscribe.decode.read (.start body)
              = (.error (.outOfData 2 body.length), .start body))
          ∧ (2 ≤ body.length → ∃ packetId topics r c',
              Loops text ⟨2, body.drop 2⟩ topics r c'
                ∧ topics.length ≤ (body.length - 2) / 2
                ∧ Unsubscribe.decode.read (.start body)
                  = (r.bind (Unsubscribe.ofTopics packetId), c'))) := by
  have room (body : Bytes) : (Cursor.mk 2 (body.drop 2)).remaining = body.length - 2 :=
    List.length_drop
  refine ⟨?_, ?_, ?_, ?_⟩
  · intro s bytes most
    obtain ⟨n, moves⟩ := (s.offer bytes).exists_moves_drain
    rw [← receive_eq_drain_offer] at moves
    exact ⟨⟨n, moves.le_of_offer, moves⟩, settled_receive s bytes,
      fun _ _ _ moves => moves.le_of_offer⟩
  · intro role calls
    have := two_mul_length_events_le role calls
    omega
  · intro body
    refine ⟨TopicRequest.takes_decode, fun short => ?_, fun long => ?_⟩
    · exact read_bind_of_error (read_word_of_short short)
    · obtain ⟨packetId, requests, r, c', loops, hread⟩ := Subscribe.exists_loops long
      have few := loops.length_le TopicRequest.takes_decode (by decide)
      rw [room] at few
      exact ⟨packetId, requests, r, c', loops, few, hread⟩
  · intro body
    refine ⟨takes_text, fun short => ?_, fun long => ?_⟩
    · exact read_bind_of_error (read_word_of_short short)
    · obtain ⟨packetId, topics, r, c', loops, hread⟩ := Unsubscribe.exists_loops long
      have few := loops.length_le takes_text (by decide)
      rw [room] at few
      exact ⟨packetId, topics, r, c', loops, few, hread⟩

end Session
end Mqtt

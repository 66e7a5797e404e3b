import Mqtt.Proofs.Session.Calls
import Mqtt.Proofs.Session.Reading

/-!
# What a session holds back

Between calls a session holds no more than it must: at most a part of a header, or less than the
body that it collects, which is within a limit that the session has had. So a peer cannot make it
hold more than that limit, whatever the peer sends, and a call without bytes does nothing.
-/
namespace Mqtt.Session

variable {s : Session} {bound : Nat}

/-- The largest limit that a session has while it does what is asked. -/
def peak (s : Session) : List Call → Nat
  | [] => s.limit
  | c :: calls => max s.limit ((s.call c).2.peak calls)

/-- A session that collects no body longer than a bound, and has dropped its bytes if it is given
up. -/
structure Bounded (bound : Nat) (s : Session) : Prop where
  limit_le : s.limit ≤ bound
  pending : ∀ header, s.phase = .collectingBody header →
    header.remaining ≤ bound ∧ header.code < 16 ∧ header.flags < 16
  dropped : s.phase = .violated → s.buffer = []

/-- Where a session stands in a stream: behind as many frames as it counts packets, with the rest
still unread, unless it is given up. -/
def StandsIn (stream : Bytes) (s : Session) : Prop :=
  ∃ (frames : List Frame) (unread : Bytes),
    stream = frames.flatMap Frame.bytes ++ unread ∧ frames.length = s.packets
      ∧ (s.phase ≠ .violated → s.Unread unread)

/-! ### Limits -/

theorem limit_drain (s : Session) : s.drain.2.limit = s.limit :=
  @drain_keeps (fun _ t => t.limit = s.limit) (fun rule same => rule.keeps_limit same _) [] s rfl

theorem limit_offer (s : Session) (bytes : Bytes) : (s.offer bytes).limit = s.limit := by
  rw [offer]
  split <;> rfl

/-- Only a call for another limit changes it. -/
theorem limit_call (s : Session) (c : Call) :
    (s.call c).2.limit
      = match c with
        | .receive _ => s.limit
        | .withLimit limit => min limit Varint.maximum := by
  cases c with
  | receive bytes => rw [call, receive_eq_drain_offer, limit_drain, limit_offer]
  | withLimit limit => rfl

theorem limit_le_peak (s : Session) (calls : List Call) : s.limit ≤ s.peak calls := by
  cases calls with
  | nil => exact Nat.le_refl _
  | cons c calls => exact Nat.le_max_left ..

/-- A limit that is asked for is one of those that the session has. -/
theorem le_peak_of_mem {calls : List Call} {limit : Nat} (h : .withLimit limit ∈ calls) :
    min limit Varint.maximum ≤ s.peak calls := by
  induction calls generalizing s with
  | nil => cases h
  | cons c calls ih =>
      rw [peak]
      rcases List.mem_cons.mp h with rfl | hmem
      · have hnext := limit_le_peak (s.call (.withLimit limit)).2 calls
        rw [limit_call] at hnext
        exact Nat.le_trans hnext (Nat.le_max_right ..)
      · exact Nat.le_trans (ih hmem) (Nat.le_max_right ..)

theorem peak_le_maximum (h : s.limit ≤ Varint.maximum) (calls : List Call) :
    s.peak calls ≤ Varint.maximum := by
  induction calls generalizing s with
  | nil => exact h
  | cons c calls ih =>
      refine Nat.max_le.mpr ⟨h, ih ?_⟩
      rw [limit_call]
      cases c with
      | receive bytes => exact h
      | withLimit limit => exact Nat.min_le_right ..

/-! ### The bound -/

theorem bounded_start (role : Role) (limit : Nat) :
    ((start role).withLimit limit).Bounded (min limit Varint.maximum) :=
  ⟨Nat.le_refl _, nofun, nofun⟩

theorem Bounded.mono {larger : Nat} (h : s.Bounded bound) (hle : bound ≤ larger) :
    s.Bounded larger where
  limit_le := Nat.le_trans h.limit_le hle
  pending header phase :=
    have hpending := h.pending header phase
    ⟨Nat.le_trans hpending.1 hle, hpending.2⟩
  dropped := h.dropped

theorem Bounded.giveUp (h : s.Bounded bound) : s.giveUp.Bounded bound :=
  ⟨h.limit_le, nofun, fun _ => rfl⟩

/-- **Every move keeps the bound**: a header is framed only within the limit. -/
theorem Rule.bounded {told : List Report} {m : Move} (rule : s.Rule m) (h : s.Bounded bound) :
    m.Keeps (fun _ t => t.Bounded bound) told := by
  cases rule with
  | dropped | shortHeader | shortBody => trivial
  | overlong | overLimit | refuse => exact h.giveUp
  | frame phase scan limit =>
      refine ⟨h.limit_le, ?_, nofun⟩
      intro header framed
      cases framed
      exact ⟨Nat.le_trans limit h.limit_le, FixedHeader.halves_lt_of_decode scan⟩
  | accept => exact ⟨h.limit_le, nofun, nofun⟩

theorem Bounded.offer (h : s.Bounded bound) (bytes : Bytes) : (s.offer bytes).Bounded bound := by
  by_cases phase : s.phase = .violated
  · rwa [offer_of_violated phase]
  · rw [offer_of_ne_violated phase]
    exact ⟨h.limit_le, h.pending, fun violated => absurd violated phase⟩

/-- No body is collected that is longer than the largest limit. -/
theorem bounded_callAll (h : s.Bounded s.limit) (calls : List Call) :
    (s.callAll calls).2.Bounded (s.peak calls) := by
  have start : s.Bounded (s.peak calls) := h.mono (limit_le_peak s calls)
  refine @callAll_keeps (fun _ t => t.Bounded (s.peak calls)) calls Rule.bounded ?_ ?_ [] s start
  · intro told t bytes ht
    exact ht.offer bytes
  · intro told t limit hmem ht
    exact ⟨le_peak_of_mem hmem, ht.pending, ht.dropped⟩

/-! ### The stream -/

/-- A session that waits keeps its place in the stream when a header is framed. -/
theorem StandsIn.framed {stream : Bytes} {header : FixedHeader} {size : Nat}
    (h : s.StandsIn stream) (phase : s.phase = .awaitingHeader)
    (scan : FixedHeader.decode s.buffer = .complete header size) :
    (s.framed header size).StandsIn stream := by
  obtain ⟨frames, unread, stream_eq, count, hunread⟩ := h
  obtain rfl := (hunread (ne_violated_of_awaiting phase)).eq_buffer phase
  exact ⟨frames, s.buffer, stream_eq, count, fun _ => unread_framed scan⟩

/-- A session that accepts a frame has that frame behind it too. -/
theorem StandsIn.behind {stream : Bytes} {header : FixedHeader} (h : s.StandsIn stream)
    (phase : s.phase = .collectingBody header) (room : header.remaining ≤ s.buffer.length) :
    (s.behind header).StandsIn stream := by
  obtain ⟨frames, unread, stream_eq, count, hunread⟩ := h
  obtain ⟨head, rfl, scan⟩ := (hunread (ne_violated_of_collecting phase)).exists_head phase
  let f := Frame.ofParts scan (List.length_take_of_le room)
  refine ⟨frames ++ [f], s.buffer.drop header.remaining, ?_, ?_, fun _ => .waiting rfl⟩
  · rw [stream_eq, List.flatMap_append, List.flatMap_singleton, List.append_assoc]
    simp only [f, Frame.ofParts, List.append_assoc, List.take_append_drop]
  · rw [List.length_append, count]
    rfl

theorem StandsIn.giveUp {stream : Bytes} (h : s.StandsIn stream) :
    s.giveUp.StandsIn stream := by
  obtain ⟨frames, unread, stream_eq, count, -⟩ := h
  exact ⟨frames, unread, stream_eq, count, fun live => absurd rfl live⟩

/-- **Every move keeps the place in the stream.** -/
theorem Rule.standsIn {stream : Bytes} {told : List Report} {m : Move} (rule : s.Rule m)
    (h : s.StandsIn stream) : m.Keeps (fun _ t => t.StandsIn stream) told := by
  cases rule with
  | dropped | shortHeader | shortBody => trivial
  | overlong | overLimit | refuse => exact h.giveUp
  | frame phase scan => exact h.framed phase scan
  | accept phase room => exact h.behind phase room

theorem StandsIn.offer {stream : Bytes} (h : s.StandsIn stream) (bytes : Bytes) :
    (s.offer bytes).StandsIn (stream ++ bytes) := by
  obtain ⟨frames, unread, stream_eq, count, hunread⟩ := h
  have longer : stream ++ bytes = frames.flatMap Frame.bytes ++ (unread ++ bytes) := by
    rw [stream_eq, List.append_assoc]
  by_cases phase : s.phase = .violated
  · rw [offer_of_violated phase]
    exact ⟨frames, unread ++ bytes, longer, count, fun live => absurd phase live⟩
  · have hoffer := (hunread phase).offer bytes
    rw [offer_of_ne_violated phase] at hoffer ⊢
    exact ⟨frames, unread ++ bytes, longer, count, fun _ => hoffer⟩

theorem StandsIn.withLimit {stream : Bytes} (h : s.StandsIn stream) (limit : Nat) :
    (s.withLimit limit).StandsIn stream := by
  obtain ⟨frames, unread, stream_eq, count, hunread⟩ := h
  exact ⟨frames, unread, stream_eq, count, fun live => (hunread live).withLimit limit⟩

/-- A row of calls moves a session on in its stream by the bytes that it brings. -/
theorem standsIn_callAll {stream : Bytes} (h : s.StandsIn stream) (calls : List Call) :
    (s.callAll calls).2.StandsIn (stream ++ calls.flatMap Call.bytes) := by
  refine @callAll_keeps_stream (fun stream _ t => t.StandsIn stream) calls Rule.standsIn ?_ ?_
    stream [] s h
  · intro stream told t bytes ht
    exact ht.offer bytes
  · intro stream told t limit _ ht
    exact ht.withLimit limit

/-- **What a session holds after a row of calls**, with `most` the largest limit that it has had:
at most four bytes that are no header yet, or less than the body that it collects, of which `most`
is a bound, or nothing if it is given up. So a call without bytes tells nothing and changes nothing,
a live session has told all whole frames of its stream, and the buffer is bounded whatever is
received. -/
theorem callAll_quiescent (role : Role) (limit : Nat) (calls : List Call) :
    let new := (start role).withLimit limit
    let s := (new.callAll calls).2
    let most := new.peak calls
    most ≤ 268435455
      ∧ (s.phase = .awaitingHeader →
          s.buffer.length ≤ 4 ∧ FixedHeader.decode s.buffer = .incomplete)
      ∧ (∀ header, s.phase = .collectingBody header →
          s.buffer.length < header.remaining ∧ header.remaining ≤ most
            ∧ header.code < 16 ∧ header.flags < 16)
      ∧ (s.phase = .violated → s.buffer = [])
      ∧ s.receive [] = ([], s)
      ∧ (s.phase ≠ .violated → ∃ (frames : List Frame) (unread : Bytes),
          calls.flatMap Call.bytes = frames.flatMap Frame.bytes ++ unread
            ∧ frames.length = s.packets ∧ s.Unread unread
            ∧ ∀ (f : Frame) (rest : Bytes), unread ≠ f.bytes ++ rest)
      ∧ s.buffer.length ≤ max 4 (most - 1) := by
  intro new s most
  have bounded : s.Bounded most := bounded_callAll (bounded_start role limit) calls
  have settled : s.Settled := settled_callAll ((settled_start role).withLimit limit) calls
  have place : s.StandsIn (calls.flatMap Call.bytes) :=
    standsIn_callAll ⟨[], [], rfl, rfl, fun _ => .waiting rfl⟩ calls
  have awaiting (phase : s.phase = .awaitingHeader) :
      s.buffer.length ≤ 4 ∧ FixedHeader.decode s.buffer = .incomplete :=
    have scan := settled.decode_buffer phase
    ⟨FixedHeader.length_le_of_decode_incomplete scan, scan⟩
  have collecting (header : FixedHeader) (phase : s.phase = .collectingBody header) :
      s.buffer.length < header.remaining ∧ header.remaining ≤ most
        ∧ header.code < 16 ∧ header.flags < 16 :=
    ⟨settled.length_buffer_lt phase, bounded.pending header phase⟩
  refine ⟨peak_le_maximum (Nat.min_le_right ..) calls, awaiting, collecting, bounded.dropped, ?_,
    ?_, ?_⟩
  · rw [receive_eq_drain_offer, offer_nil]
    exact drain_of_wait settled
  · intro live
    obtain ⟨frames, unread, stream, count, hunread⟩ := place
    exact ⟨frames, unread, stream, count, hunread live, (hunread live).ne_frame settled⟩
  · cases phase : s.phase with
    | awaitingHeader =>
        have := (awaiting phase).1
        omega
    | collectingBody header =>
        have := collecting header phase
        omega
    | violated =>
        rw [bounded.dropped phase]
        exact Nat.zero_le _

/-- A session of which the limit is never set is one of those above. -/
example (role : Role) : (start role).withLimit defaultLimit = start role := rfl

end Mqtt.Session

import Mqtt.Proofs.Session.Chunking
import Mqtt.Proofs.Session.Frames

/-!
# Frames in the buffer

What a session does with the frames in its buffer, each taken as a whole: a good frame is told and
left behind, an offence is told and ends the session, and the part of a frame is kept. So a session
that waits for a header tells the good frames of its buffer and then what its rest demands.
-/
namespace Mqtt

namespace Failure

@[simp] theorem reason_aboutCode (cause : FailureCause) (code : Nat) :
    (aboutCode ⟨cause, none⟩ code).reason = cause.reason := by
  unfold aboutCode
  split <;> rfl

@[simp] theorem kind_aboutCode (cause : FailureCause) (code : Nat) :
    (aboutCode ⟨cause, none⟩ code).kind = Kind.ofCode? code := by
  unfold aboutCode
  split <;> simp_all [about]

end Failure

namespace Session

variable {s : Session}

/-- The bytes of the stream that no frame told so far takes: those in the buffer, behind those of
the header whose body is collected. -/
inductive Unread (s : Session) : Bytes → Prop
  | waiting (phase : s.phase = .awaitingHeader) : Unread s s.buffer
  | collecting {header : FixedHeader} {head : Bytes} (phase : s.phase = .collectingBody header)
      (scan : FixedHeader.decode head = .complete header head.length) :
      Unread s (head ++ s.buffer)

/-! ### Judged frames -/

theorem judge_of_accepted {f : Frame} {limit : Nat} {p : Packet}
    (h : f.Accepted s.role limit s.packets p) : ∃ c, s.judge f.header f.body = .ok (p, c) := by
  obtain ⟨code, c, hread⟩ := h.holds
  exact ⟨c, judge_eq_ok_iff.mpr ⟨p.kind, code, h.permits, hread⟩⟩

/-- **What is wrong with a frame is found** by the check that comes first. -/
theorem judge_of_objection {f : Frame} {reason : String}
    (h : f.Objection s.role s.packets reason) :
    ∃ cause, s.judge f.header f.body = .error cause ∧ cause.reason = reason := by
  cases h with
  | notFirst start other =>
      refine ⟨.notFirst s.role.first, ?_, rfl⟩
      rw [judge, if_pos ⟨start, other⟩]
  | repeated later same =>
      refine ⟨.repeated s.role.first, ?_, rfl⟩
      rw [judge, if_neg (fun h => h.2 same), if_pos ⟨later, same⟩]
  | unaccepted turn foreign =>
      refine ⟨.unaccepted f.header.code, ?_, rfl⟩
      have hnone : s.role.reader? f.header.code = none := by
        refine Option.eq_none_iff_forall_ne_some.mpr fun decode hdecode => ?_
        obtain ⟨kind, code, accepts, -⟩ := Role.reader?_eq_some_iff.mp hdecode
        rw [foreign kind code] at accepts
        cases accepts
      rw [judge, if_neg (fun h => h.2 (turn.mpr h.1)),
        if_neg (fun h => Nat.ne_of_gt h.1 (turn.mp h.2)), hnone]
  | @undecodable kind error c turn code accepts body =>
      refine ⟨.undecodable error, ?_, rfl⟩
      have hdecode := Role.reader?_eq_some_iff.mpr ⟨kind, code, accepts, rfl⟩
      rw [judge, if_neg (fun h => h.2 (turn.mpr h.1)),
        if_neg (fun h => Nat.ne_of_gt h.1 (turn.mp h.2)), hdecode]
      simp only [body]

/-! ### The front of the buffer -/

/-- The session behind the header of the frame at the front of its buffer. -/
def collecting (s : Session) (f : Frame) (rest : Bytes) : Session :=
  { s with phase := .collectingBody f.header, buffer := f.body ++ rest }

/-- The header of the frame at the front of the buffer is found. -/
theorem step_of_frame {f : Frame} {rest : Bytes} (phase : s.phase = .awaitingHeader)
    (buffer : s.buffer = f.bytes ++ rest) (within : f.header.remaining ≤ s.limit) :
    s.step = .frame (s.collecting f rest) := by
  have scan : FixedHeader.decode s.buffer = .complete f.header f.size := by
    rw [buffer, f.decode_append]
  rw [(Rule.frame phase scan within).step_eq, framed, buffer, f.drop_append, collecting]

/-- The whole body of a frame lies in the buffer, at its front. -/
theorem body_collecting (s : Session) (f : Frame) (rest : Bytes) :
    f.header.remaining ≤ (s.collecting f rest).buffer.length
      ∧ (s.collecting f rest).buffer.take f.header.remaining = f.body := by
  refine ⟨?_, List.take_left' f.length_body⟩
  rw [collecting, List.length_append, f.length_body]
  exact Nat.le_add_right ..

/-- A body that is judged good is told and left behind. -/
theorem step_collecting_of_ok {f : Frame} {p : Packet} {c : Cursor}
    (phase : s.phase = .awaitingHeader) (verdict : s.judge f.header f.body = .ok (p, c))
    (rest : Bytes) :
    (s.collecting f rest).step
      = .tell (decoded p c) { s with buffer := rest, packets := s.packets + 1 } := by
  obtain ⟨room, body⟩ := body_collecting s f rest
  rw [← body] at verdict
  rw [(Rule.accept (s := s.collecting f rest) rfl room verdict).step_eq, behind, collecting,
    List.drop_left' f.length_body, phase]

/-- A body that is judged bad is refused. -/
theorem step_collecting_of_error {f : Frame} {cause : FailureCause}
    (verdict : s.judge f.header f.body = .error cause) (rest : Bytes) :
    (s.collecting f rest).step = (s.collecting f rest).refusal f.header cause := by
  obtain ⟨room, body⟩ := body_collecting s f rest
  rw [← body] at verdict
  exact (Rule.refuse (s := s.collecting f rest) rfl room verdict).step_eq

/-- A frame that is judged good is told and left behind. -/
theorem drain_of_verdict {f : Frame} {rest : Bytes} {p : Packet} {c : Cursor}
    (phase : s.phase = .awaitingHeader) (buffer : s.buffer = f.bytes ++ rest)
    (within : f.header.remaining ≤ s.limit) (verdict : s.judge f.header f.body = .ok (p, c)) :
    let next := { s with buffer := rest, packets := s.packets + 1 }
    s.drain = (decoded p c :: next.drain.1, next.drain.2) := by
  rw [drain_of_frame (step_of_frame phase buffer within),
    drain_of_tell (step_collecting_of_ok phase verdict rest)]

/-- **Good frames are told**, each as its packet, and left behind. The induction is on the frames,
for any number of packets before them. -/
theorem drain_of_accepts {limit received : Nat} {frames : List Frame} {packets : List Packet}
    (h : s.role.Accepts limit received frames packets) {rest : Bytes}
    (phase : s.phase = .awaitingHeader)
    (buffer : s.buffer = frames.flatMap Frame.bytes ++ rest) (hlimit : s.limit = limit)
    (count : s.packets = received) :
    let last := { s with buffer := rest, packets := received + packets.length }
    events s.drain.1 = packets.map .packet ++ events last.drain.1
      ∧ s.drain.2 = last.drain.2 := by
  intro last
  generalize hrole : s.role = role at h
  induction h generalizing s with
  | nil =>
      have : last = s := by
        rw [List.flatMap_nil, List.nil_append] at buffer
        simp only [last, ← buffer, ← count, List.length_nil, Nat.add_zero]
      rw [this]
      exact ⟨rfl, rfl⟩
  | @cons received f p frames packets accepted _ ih =>
      rw [List.flatMap_cons, List.append_assoc] at buffer
      subst hrole hlimit count
      obtain ⟨c, verdict⟩ := judge_of_accepted accepted
      have hdrain := drain_of_verdict phase buffer accepted.within verdict
      have hlast : last = { s with
          buffer := rest, packets := s.packets + 1 + packets.length } := by
        simp only [last, List.length_cons, Nat.add_assoc, Nat.add_comm 1]
      obtain ⟨hevents, hsession⟩ := ih
        (s := { s with buffer := frames.flatMap Frame.bytes ++ rest, packets := s.packets + 1 })
        phase rfl rfl rfl rfl
      rw [hdrain, hlast, events_cons, hevents, hsession]
      exact ⟨rfl, rfl⟩

theorem drain_giveUp (s : Session) : s.giveUp.drain = ([], s.giveUp) :=
  drain_of_wait (Rule.dropped rfl).step_eq

/-- A session that is given up at the packet of a header tells that, and nothing behind it. -/
theorem drain_of_refusal {header : FixedHeader} {cause : FailureCause}
    (h : s.step = s.refusal header cause) :
    ∃ failure, events s.drain.1 = [.failure failure] ∧ failure.reason = cause.reason
      ∧ failure.kind = Kind.ofCode? header.code ∧ s.drain.2 = s.giveUp := by
  refine ⟨Failure.aboutCode ⟨cause, none⟩ header.code, ?_, Failure.reason_aboutCode .., ?_, ?_⟩
  · rw [drain_of_tell h, drain_giveUp]
    rfl
  · exact Failure.kind_aboutCode ..
  · rw [drain_of_tell h, drain_giveUp]

/-- **An offence is told**, in its words, and nothing behind it. -/
theorem drain_of_offence {reason : String} {kind : Option Kind}
    (phase : s.phase = .awaitingHeader)
    (h : Offence s.role s.limit s.packets s.buffer reason kind) :
    ∃ failure, events s.drain.1 = [.failure failure] ∧ failure.reason = reason
      ∧ failure.kind = kind ∧ s.drain.2 = s.giveUp := by
  cases h with
  | overlong long tops =>
      have scan := FixedHeader.decode_eq_overlong_iff.mpr ⟨long, tops⟩
      have told := (Rule.overlong phase scan).step_eq
      refine ⟨⟨.undecodable .lengthOverlong, none⟩, ?_, rfl, rfl, ?_⟩
      · rw [drain_of_tell told, drain_giveUp]
        rfl
      · rw [drain_of_tell told, drain_giveUp]
  | overLimit scan exceeds =>
      exact drain_of_refusal (Rule.overLimit phase scan exceeds).step_eq
  | @frame f rest reason opens within objection =>
      obtain ⟨cause, verdict, rfl⟩ := judge_of_objection objection
      rw [drain_of_frame (step_of_frame phase opens within)]
      exact drain_of_refusal (step_collecting_of_error verdict rest)

/-- The header that is framed is still unread, and so is all behind it. -/
theorem unread_framed {header : FixedHeader} {size : Nat}
    (scan : FixedHeader.decode s.buffer = .complete header size) :
    (s.framed header size).Unread s.buffer := by
  have unread : (s.framed header size).Unread (s.buffer.take size ++ s.buffer.drop size) :=
    .collecting rfl (FixedHeader.decode_take_length scan)
  rwa [List.take_append_drop] at unread

/-- **A part of a frame is kept**: a part of a header as it is, and else the header and the part of
its body. -/
theorem drain_of_unfinished (phase : s.phase = .awaitingHeader)
    (h : Unfinished s.limit s.buffer) :
    s.drain.1 = [] ∧ s.drain.2.Unread s.buffer
      ∧ (s.drain.2 = s
        ∨ ∃ header size, s.drain.2 = s.framed header size ∧ header.remaining ≤ s.limit) := by
  cases h with
  | header scan =>
      rw [drain_of_wait (Rule.shortHeader phase scan).step_eq]
      exact ⟨rfl, .waiting phase, .inl rfl⟩
  | @body header size scan within short =>
      have hsize := FixedHeader.size_le_of_decode scan
      have wait : (s.framed header size).step = .wait := by
        refine (Rule.shortBody rfl ?_).step_eq
        simp only [framed, List.length_drop]
        omega
      rw [drain_of_frame (Rule.frame phase scan within).step_eq, drain_of_wait wait]
      exact ⟨rfl, unread_framed scan, .inr ⟨header, size, rfl, within⟩⟩

/-- **What is told about a buffer**: the packets of its good frames, and then the offence that they
lead to, if they lead to one and not to a part of a frame. -/
theorem exists_frames_drain (phase : s.phase = .awaitingHeader) :
    ∃ (frames : List Frame) (packets : List Packet) (rest : Bytes),
      s.buffer = frames.flatMap Frame.bytes ++ rest
        ∧ s.role.Accepts s.limit s.packets frames packets
        ∧ let last := { s with buffer := rest, packets := s.packets + packets.length }
          (∃ failure, events s.drain.1 = packets.map .packet ++ [.failure failure]
              ∧ s.drain.2 = last.giveUp
              ∧ Offence s.role s.limit last.packets rest failure.reason failure.kind)
            ∨ (events s.drain.1 = packets.map .packet ∧ s.drain.2.Unread rest
              ∧ (s.drain.2 = last
                ∨ ∃ header size, s.drain.2 = last.framed header size
                  ∧ header.remaining ≤ s.limit)) := by
  obtain ⟨frames, packets, rest, buffer, accepts, ending⟩ :=
    Role.exists_accepts s.role s.limit s.packets s.buffer
  refine ⟨frames, packets, rest, buffer, accepts, ?_⟩
  intro last
  obtain ⟨hevents, hsession⟩ := drain_of_accepts accepts phase buffer rfl rfl
  rw [hevents, hsession]
  rcases ending with ⟨reason, kind, offence⟩ | unfinished
  · obtain ⟨failure, told, rfl, rfl, given⟩ := drain_of_offence (s := last) phase offence
    exact .inl ⟨failure, congrArg _ told, given, offence⟩
  · obtain ⟨told, unread, kept⟩ := drain_of_unfinished (s := last) phase unfinished
    refine .inr ⟨?_, unread, kept⟩
    rw [told]
    exact List.append_nil _

/-! ### Unread bytes -/

theorem Unread.ne_violated {unread : Bytes} (h : s.Unread unread) : s.phase ≠ .violated := by
  cases h with
  | waiting phase => exact ne_violated_of_awaiting phase
  | collecting phase => exact ne_violated_of_collecting phase

theorem Unread.eq_buffer {unread : Bytes} (h : s.Unread unread)
    (phase : s.phase = .awaitingHeader) : unread = s.buffer := by
  cases h with
  | waiting => rfl
  | collecting other => simp [phase] at other

theorem Unread.exists_head {unread : Bytes} {header : FixedHeader} (h : s.Unread unread)
    (phase : s.phase = .collectingBody header) :
    ∃ head, unread = head ++ s.buffer
      ∧ FixedHeader.decode head = .complete header head.length := by
  cases h with
  | waiting other => simp [phase] at other
  | @collecting same head other scan =>
      obtain rfl : header = same := Phase.collectingBody.inj (phase.symm.trans other)
      exact ⟨head, rfl, scan⟩

theorem Unread.offer {unread : Bytes} (h : s.Unread unread) (bytes : Bytes) :
    (s.offer bytes).Unread (unread ++ bytes) := by
  cases h with
  | waiting phase =>
      rw [offer_of_awaiting phase]
      exact .waiting phase
  | collecting phase scan =>
      rw [offer_of_collecting phase, List.append_assoc]
      exact .collecting phase scan

theorem Unread.withLimit {unread : Bytes} (h : s.Unread unread) (limit : Nat) :
    (s.withLimit limit).Unread unread := by
  cases h with
  | waiting phase => exact .waiting phase
  | collecting phase scan => exact .collecting phase scan

/-- **No whole frame is held back**: a session that waits has too little for one. -/
theorem Unread.ne_frame {unread : Bytes} (h : s.Unread unread) (settled : s.Settled) (f : Frame)
    (rest : Bytes) : unread ≠ f.bytes ++ rest := by
  intro opens
  have scan := f.decode_append rest
  rw [← opens] at scan
  cases h with
  | waiting phase =>
      rw [settled.decode_buffer phase] at scan
      cases scan
  | @collecting header head phase hhead =>
      have short := settled.length_buffer_lt phase
      rw [FixedHeader.decode_append_of_complete hhead] at scan
      obtain ⟨hheader, hsize⟩ := Scan.complete.inj scan
      have hlength := congrArg List.length opens
      rw [List.length_append, List.length_append, f.length_bytes, ← hheader, ← hsize] at hlength
      omega

end Session
end Mqtt

import Mqtt.Proofs.Session.Ordering
import Mqtt.Proofs.Session.Reading

/-!
# Streams cut inside a frame

What a session holds when its stream ends inside a frame: a part of a header as it is, but of a part
of a body only that, since the header is taken off the buffer when it is complete. So a stream that
ends between a header and its body leaves nothing in the buffer.
-/
namespace Mqtt

/-- A part of a frame does not open with a whole one. -/
theorem Frame.ne_append_of_part {f g : Frame} {rest : Bytes} (part : rest <+: f.bytes)
    (proper : rest ≠ f.bytes) (more : Bytes) : rest ≠ g.bytes ++ more := by
  intro opens
  obtain ⟨others, whole⟩ := part
  have both : f.bytes ++ [] = g.bytes ++ (more ++ others) := by
    rw [List.append_nil, ← whole, opens, List.append_assoc]
  have nothing := (Frame.append_inj both).2
  rw [(List.append_eq_nil_iff.mp nothing.symm).2, List.append_nil] at whole
  exact proper whole

/-- A part of a frame tells the header as soon as it has all of it. -/
theorem Frame.decode_of_part {f : Frame} {rest : Bytes} (part : rest <+: f.bytes)
    (whole : f.size ≤ rest.length) : FixedHeader.decode rest = .complete f.header f.size := by
  have head := FixedHeader.decode_take_length f.decode_bytes
  obtain ⟨others, bytes⟩ := part
  rw [← bytes, List.take_append_of_le_length whole] at head
  have scan := FixedHeader.decode_append_of_complete head (rest.drop f.size)
  rwa [List.take_append_drop, List.length_take_of_le whole] at scan

namespace Session

/-- A stream that ends inside a frame: good frames, and behind them a part of one more, which may be
empty. The session finds nothing wrong in it. -/
structure Cut (s : Session) (stream rest : Bytes) (f : Frame) : Prop where
  frames : ∃ frames packets, stream = frames.flatMap Frame.bytes ++ rest
    ∧ s.role.Accepts s.limit 0 frames packets
  part : rest <+: f.bytes
  proper : rest ≠ f.bytes
  quiet : ∀ failure, .failure failure ∉ events (s.receive stream).1

variable {role : Role} {limit : Nat} {stream rest : Bytes} {f : Frame}

/-- The part of the frame is what no packet told so far takes. -/
theorem Cut.unread (h : ((start role).withLimit limit).Cut stream rest f) :
    (((start role).withLimit limit).receive stream).2.Unread rest := by
  obtain ⟨frames, packets, stream_eq, accepts⟩ := h.frames
  have quiet := h.quiet
  rw [receive_eq_drain_offer] at quiet ⊢
  obtain ⟨told, same⟩ := drain_of_accepts
    (s := ((start role).withLimit limit).offer stream) accepts rfl stream_eq rfl rfl
  rw [told] at quiet
  rw [same]
  obtain ⟨others, further, last, buffer, -, ending⟩ := exists_frames_drain
    (s := { ((start role).withLimit limit).offer stream with
      buffer := rest, packets := 0 + packets.length }) rfl
  -- No frame is whole in the part of one, so the rest behind the others is all of it.
  cases others with
  | cons g others =>
      rw [List.flatMap_cons, List.append_assoc] at buffer
      exact absurd buffer (Frame.ne_append_of_part h.part h.proper _)
  | nil =>
      obtain rfl : rest = last := buffer
      rcases ending with ⟨failure, failed, -⟩ | ⟨-, unread, -⟩
      · rw [failed] at quiet
        exact absurd (by simp) (quiet failure)
      · exact unread

/-- **What a session holds of a frame that is cut**: the part of the header, or behind the header
the part of the body. -/
theorem Cut.buffer_eq (h : ((start role).withLimit limit).Cut stream rest f) :
    (((start role).withLimit limit).receive stream).2.buffer
      = if rest.length < f.size then rest else rest.drop f.size := by
  have unread := h.unread
  have settled := settled_receive ((start role).withLimit limit) stream
  generalize (((start role).withLimit limit).receive stream).2 = s at unread settled
  cases unread with
  | waiting phase =>
      have short : s.buffer.length < f.size := by
        refine Nat.lt_of_not_le fun whole => ?_
        have scan := Frame.decode_of_part h.part whole
        rw [settled.decode_buffer phase] at scan
        cases scan
      rw [if_pos short]
  | @collecting header head phase scan =>
      obtain ⟨others, bytes⟩ := h.part
      have same := f.decode_bytes
      rw [← bytes, List.append_assoc, FixedHeader.decode_append_of_complete scan] at same
      have size : head.length = f.size := (Scan.complete.inj same).2
      have whole : ¬ (head ++ s.buffer).length < f.size := by
        rw [List.length_append]
        omega
      rw [if_neg whole, List.drop_left' size]

/-- **Where a stream must end for the session to hold nothing**: between two frames, or between a
header and its body. -/
theorem Cut.buffer_eq_nil_iff (h : ((start role).withLimit limit).Cut stream rest f) :
    (((start role).withLimit limit).receive stream).2.buffer = []
      ↔ rest = [] ∨ rest.length = f.size := by
  rw [h.buffer_eq]
  by_cases short : rest.length < f.size
  · rw [if_pos short]
    constructor
    · exact Or.inl
    · intro ends
      exact ends.resolve_right (Nat.ne_of_lt short)
  · have size := FixedHeader.size_pos_of_decode f.decode_bytes
    rw [if_neg short, List.drop_eq_nil_iff]
    constructor
    · intro whole
      exact .inr (Nat.le_antisymm whole (Nat.not_lt.mp short))
    · intro ends
      rcases ends with rfl | ends
      · exact Nat.zero_le _
      · exact Nat.le_of_eq ends

/-- **A session whose stream ends with a frame holds nothing.** -/
theorem buffer_of_accepts {frames : List Frame} {packets : List Packet}
    (accepts : role.Accepts (min limit Varint.maximum) 0 frames packets)
    (stream_eq : stream = frames.flatMap Frame.bytes) :
    (((start role).withLimit limit).receive stream).2.buffer = [] := by
  rw [← List.append_nil (frames.flatMap _)] at stream_eq
  obtain ⟨-, same⟩ := drain_of_accepts (s := ((start role).withLimit limit).offer stream) accepts
    rfl stream_eq rfl rfl
  rw [receive_eq_drain_offer, same, drain_of_wait (Rule.shortHeader rfl rfl).step_eq]

/-- **A session that told a failure holds nothing.** -/
theorem buffer_of_failure {failure : Failure}
    (h : .failure failure ∈ events (((start role).withLimit limit).receive stream).1) :
    (((start role).withLimit limit).receive stream).2.buffer = [] := by
  have chronicle := chronicle_receive role limit stream
  generalize events (((start role).withLimit limit).receive stream).1 = told at h chronicle
  cases chronicle with
  | live packets => simp at h
  | ended packets other phase buffer => exact buffer

end Session
end Mqtt

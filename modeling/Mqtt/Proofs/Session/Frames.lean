import Mathlib.Data.List.Forall2
import Mqtt.Proofs.Packet.RoundTrip
import Mqtt.Proofs.Session.Rules

/-!
# Frames of a stream

A stream is a row of frames: a header, in whichever form its length is written, and a body of that
length. Which frames are good and what is wrong with a bad one is said here of the bytes alone,
without a session. Every stream is a row of good frames with a rest that opens with an offence or
that more bytes must complete.

## Main definitions

* `Frame`: the bytes of one packet, whatever they hold.
* `Frame.Accepted`, `Role.Accepts`: frames that pass all checks, and their packets.
* `Frame.Objection`, `Offence`: the first check that fails, with the words for it.
* `Unfinished`: a stream that opens with a part of a frame.

## Main statements

* `Frame.append_inj`: a stream has one first frame.
* `frame_or_offence_or_unfinished`: how a stream can open.
* `Role.exists_accepts`: good frames up to the first that is not.
-/
namespace Mqtt

/-- A header and the body that it announces. -/
structure Frame where
  bytes : Bytes
  header : FixedHeader
  /-- The number of bytes that the header takes. -/
  size : Nat
  decode_bytes : FixedHeader.decode bytes = .complete header size
  length_bytes : bytes.length = size + header.remaining

namespace Frame

/-- The frame of a header and a body. -/
def ofParts {head body : Bytes} {header : FixedHeader}
    (scan : FixedHeader.decode head = .complete header head.length)
    (length : body.length = header.remaining) : Frame where
  bytes := head ++ body
  header := header
  size := head.length
  decode_bytes := FixedHeader.decode_append_of_complete scan body
  length_bytes := by rw [List.length_append, length]

/-- The bytes behind the header. -/
def body (f : Frame) : Bytes := f.bytes.drop f.size

/-- The type code names the kind of the packet, and the body is read as the packet. -/
def Holds (f : Frame) (p : Packet) : Prop :=
  f.header.code = p.kind.code
    ∧ ∃ c, (Packet.decode p.kind f.header.flags).read (.start f.body) = (.ok p, c)

/-- A frame that passes all checks behind a number of packets. -/
structure Accepted (f : Frame) (role : Role) (limit received : Nat) (p : Packet) : Prop where
  within : f.header.remaining ≤ limit
  permits : role.Permits received p.kind
  holds : f.Holds p

/-- What is wrong with a frame behind a number of packets, in words. What comes first is checked
first, then whether the other side may send the kind, then the flags and the body. -/
inductive Objection (f : Frame) (role : Role) (received : Nat) : String → Prop
  | notFirst (start : received = 0) (other : f.header.code ≠ role.first.code) :
      Objection f role received (role.first.name ++ " packet was not first")
  | repeated (later : 0 < received) (same : f.header.code = role.first.code) :
      Objection f role received ("Multiple " ++ role.first.name ++ " packets")
  | unaccepted (turn : f.header.code = role.first.code ↔ received = 0)
      (foreign : ∀ kind : Kind, f.header.code = kind.code → role.accepts kind = false) :
      Objection f role received ("Unimplemented packet type " ++ toString f.header.code)
  | undecodable {kind : Kind} {error : DecodeError} {c : Cursor}
      (turn : f.header.code = role.first.code ↔ received = 0) (code : f.header.code = kind.code)
      (accepts : role.accepts kind = true)
      (body : (Packet.decode kind f.header.flags).read (.start f.body) = (.error error, c)) :
      Objection f role received (FailureCause.undecodable error).reason

end Frame

/-- What is wrong with the front of a stream behind a number of packets: the words for it, and the
kind of packet if a header names one. A length is judged when the header is complete, and all else
when the frame is. -/
inductive Offence (role : Role) (limit received : Nat) (stream : Bytes) :
    String → Option Kind → Prop
  | overlong (long : 5 ≤ stream.length) (tops : ∀ b ∈ (stream.drop 1).take 4, 128 ≤ b.toNat) :
      Offence role limit received stream "Too big packet size" none
  | overLimit {header : FixedHeader} {size : Nat}
      (scan : FixedHeader.decode stream = .complete header size)
      (exceeds : limit < header.remaining) :
      Offence role limit received stream
        ("Packet too large: remaining length " ++ toString header.remaining
          ++ " exceeds limit of " ++ toString limit)
        (Kind.ofCode? header.code)
  | frame {f : Frame} {rest : Bytes} {reason : String} (opens : stream = f.bytes ++ rest)
      (within : f.header.remaining ≤ limit) (objection : f.Objection role received reason) :
      Offence role limit received stream reason (Kind.ofCode? f.header.code)

/-- A stream of which more must come: a part of a header, or a header within the limit and a part of
its body. -/
inductive Unfinished (limit : Nat) (stream : Bytes) : Prop
  | header (scan : FixedHeader.decode stream = .incomplete)
  | body {header : FixedHeader} {size : Nat}
      (scan : FixedHeader.decode stream = .complete header size)
      (within : header.remaining ≤ limit) (short : stream.length < size + header.remaining)

/-- Frames that pass all checks one after the other, from a number of packets on, and the packets
that they hold. -/
inductive Role.Accepts (role : Role) (limit : Nat) : Nat → List Frame → List Packet → Prop
  | nil {received : Nat} : role.Accepts limit received [] []
  | cons {received : Nat} {f : Frame} {p : Packet} {frames : List Frame} {packets : List Packet}
      (accepted : f.Accepted role limit received p)
      (others : role.Accepts limit (received + 1) frames packets) :
      role.Accepts limit received (f :: frames) (p :: packets)

namespace Frame

/-! ### One frame -/

theorem decode_append (f : Frame) (rest : Bytes) :
    FixedHeader.decode (f.bytes ++ rest) = .complete f.header f.size :=
  FixedHeader.decode_append_of_complete f.decode_bytes rest

theorem length_body (f : Frame) : f.body.length = f.header.remaining := by
  rw [body, List.length_drop, f.length_bytes, Nat.add_sub_cancel_left]

theorem two_le_length (f : Frame) : 2 ≤ f.bytes.length := by
  have hsize := FixedHeader.size_pos_of_decode f.decode_bytes
  rw [f.length_bytes]
  omega

/-- The body lies at the front of what is behind the header. -/
theorem drop_append (f : Frame) (rest : Bytes) :
    (f.bytes ++ rest).drop f.size = f.body ++ rest := by
  have hsize := FixedHeader.size_le_of_decode f.decode_bytes
  rw [List.drop_append_of_le_length hsize, body]

/-- **A stream has one first frame**: its header tells where it ends. -/
theorem append_inj {f g : Frame} {a b : Bytes} (h : f.bytes ++ a = g.bytes ++ b) :
    f.bytes = g.bytes ∧ a = b := by
  have hscan := f.decode_append a
  rw [h, g.decode_append b] at hscan
  have hlength : f.bytes.length = g.bytes.length := by
    obtain ⟨hheader, hsize⟩ := Scan.complete.inj hscan
    rw [f.length_bytes, g.length_bytes, hheader, hsize]
  exact List.append_inj h hlength

@[simp] theorem body_ofParts {head body : Bytes} {header : FixedHeader}
    (scan : FixedHeader.decode head = .complete header head.length)
    (length : body.length = header.remaining) : (ofParts scan length).body = body :=
  List.drop_left

/-- The first frame of a stream that holds a header and its body. -/
theorem exists_eq_append {stream : Bytes} {header : FixedHeader} {size : Nat}
    (scan : FixedHeader.decode stream = .complete header size)
    (whole : size + header.remaining ≤ stream.length) :
    ∃ (f : Frame) (rest : Bytes), stream = f.bytes ++ rest ∧ f.header = header := by
  have head := FixedHeader.decode_take_length scan
  have length : ((stream.drop size).take header.remaining).length = header.remaining := by
    rw [List.length_take, List.length_drop]
    omega
  refine ⟨ofParts head length, (stream.drop size).drop header.remaining, ?_, rfl⟩
  rw [ofParts, List.append_assoc, List.take_append_drop, List.take_append_drop]

/-- A frame within the limit passes all checks unless there is an objection. -/
theorem accepted_or_objection (f : Frame) (role : Role) {limit : Nat} (received : Nat)
    (within : f.header.remaining ≤ limit) :
    (∃ p, f.Accepted role limit received p) ∨ ∃ reason, f.Objection role received reason := by
  by_cases turn : f.header.code = role.first.code ↔ received = 0
  · by_cases known : ∃ kind : Kind, f.header.code = kind.code ∧ role.accepts kind = true
    · obtain ⟨kind, code, accepts⟩ := known
      cases hread : (Packet.decode kind f.header.flags).read (.start f.body) with
      | mk result c =>
          cases result with
          | error error => exact .inr ⟨_, .undecodable turn code accepts hread⟩
          | ok p =>
              obtain rfl := Packet.kind_of_decode hread
              have first : p.kind = role.first ↔ received = 0 := by
                rw [← turn, code]
                exact ⟨congrArg Kind.code, Kind.code_injective⟩
              exact .inl ⟨p, within, ⟨accepts, first⟩, code, c, hread⟩
    · have foreign (kind : Kind) (code : f.header.code = kind.code) : role.accepts kind = false :=
        Bool.eq_false_iff.mpr fun accepts => known ⟨kind, code, accepts⟩
      exact .inr ⟨_, .unaccepted turn foreign⟩
  · by_cases start : received = 0
    · have other : f.header.code ≠ role.first.code := fun same => turn (iff_of_true same start)
      exact .inr ⟨_, .notFirst start other⟩
    · have same : f.header.code = role.first.code :=
        Classical.byContradiction fun other => turn (iff_of_false other start)
      exact .inr ⟨_, .repeated (Nat.pos_of_ne_zero start) same⟩

end Frame

/-! ### Streams -/

/-- **How a stream can open**: with a good frame, with an offence, or with a part of a frame. -/
theorem frame_or_offence_or_unfinished (role : Role) (limit received : Nat) (stream : Bytes) :
    (∃ (f : Frame) (p : Packet) (rest : Bytes),
        stream = f.bytes ++ rest ∧ f.Accepted role limit received p)
      ∨ (∃ reason kind, Offence role limit received stream reason kind)
      ∨ Unfinished limit stream := by
  cases scan : FixedHeader.decode stream with
  | incomplete => exact .inr (.inr (.header scan))
  | overlong =>
      obtain ⟨long, tops⟩ := FixedHeader.decode_eq_overlong_iff.mp scan
      exact .inr (.inl ⟨_, _, .overlong long tops⟩)
  | complete header size =>
      by_cases exceeds : limit < header.remaining
      · exact .inr (.inl ⟨_, _, .overLimit scan exceeds⟩)
      · have within : header.remaining ≤ limit := Nat.not_lt.mp exceeds
        by_cases short : stream.length < size + header.remaining
        · exact .inr (.inr (.body scan within short))
        · obtain ⟨f, rest, opens, rfl⟩ := Frame.exists_eq_append scan (Nat.not_lt.mp short)
          rcases f.accepted_or_objection role received within
            with ⟨p, accepted⟩ | ⟨reason, objection⟩
          · exact .inl ⟨f, p, rest, opens, accepted⟩
          · exact .inr (.inl ⟨_, _, .frame opens within objection⟩)

namespace Role

variable {role : Role} {limit received : Nat} {frames : List Frame} {packets : List Packet}

theorem Accepts.length_eq (h : role.Accepts limit received frames packets) :
    frames.length = packets.length := by
  induction h with
  | nil => rfl
  | cons _ _ ih => rw [List.length_cons, List.length_cons, ih]

theorem Accepts.within (h : role.Accepts limit received frames packets) :
    ∀ f ∈ frames, f.header.remaining ≤ limit := by
  induction h with
  | nil => simp
  | cons accepted _ ih => exact List.forall_mem_cons.mpr ⟨accepted.within, ih⟩

theorem Accepts.holds (h : role.Accepts limit received frames packets) :
    List.Forall₂ Frame.Holds frames packets := by
  induction h with
  | nil => exact .nil
  | cons accepted _ ih => exact .cons accepted.holds ih

/-- **Every stream is a row of good frames** up to an offence or to a part of a frame. The induction
is on the length of the stream, from which each frame takes two bytes at least. -/
theorem exists_accepts (role : Role) (limit received : Nat) (stream : Bytes) :
    ∃ (frames : List Frame) (packets : List Packet) (rest : Bytes),
      stream = frames.flatMap Frame.bytes ++ rest
        ∧ role.Accepts limit received frames packets
        ∧ ((∃ reason kind, Offence role limit (received + packets.length) rest reason kind)
          ∨ Unfinished limit rest) := by
  induction hlength : stream.length using Nat.strongRecOn generalizing stream received with
  | _ n ih =>
      rcases frame_or_offence_or_unfinished role limit received stream with
        ⟨f, p, rest, opens, accepted⟩ | ending
      · have hshort : rest.length < n := by
          have htwo := f.two_le_length
          rw [← hlength, opens, List.length_append]
          omega
        obtain ⟨frames, packets, last, hrest, others, ending⟩ := ih _ hshort (received + 1) rest rfl
        refine ⟨f :: frames, p :: packets, last, ?_, .cons accepted others, ?_⟩
        · rw [opens, hrest, List.flatMap_cons, List.append_assoc]
        · rwa [List.length_cons, Nat.add_comm packets.length 1, ← Nat.add_assoc]
      · exact ⟨[], [], stream, rfl, .nil, ending⟩

end Role
end Mqtt

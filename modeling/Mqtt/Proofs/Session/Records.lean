import Mqtt.Proofs.Session.Quiescence

/-!
# What a session logs

The log of a session goes with what it tells. Behind each other stand the records of the packets,
each with the numbers of its own frame, and at the end perhaps the record of the failure. Nothing
else is logged, and how the stream is cut makes no difference.
-/
namespace Mqtt

namespace Session

/-- What is logged of a packet from a frame of some remaining length. Only a connect packet and its
answer may use fewer bytes than they have, and that is worth a warning. -/
def packetLog (remaining : Nat) (p : Packet) : List Log.Record :=
  let used := p.encodeBody.1.length
  let warning : Log.Record :=
    { level := .warn
      message := "Quirky " ++ p.kind.name ++ " -- packet length was " ++ toString remaining
        ++ " bytes but only had " ++ toString used ++ " bytes of useful data" }
  let packet : Log.Record :=
    { level := .trace
      message := "decoded packet"
      values :=
        [ { name := "packet_type", text := p.kind.name },
          { name := "remaining_length", text := toString remaining } ] }
  if (p.kind = .connect ∨ p.kind = .connAck) ∧ used < remaining then [warning, packet]
  else [packet]

/-- What is logged of a failure behind a number of packets. -/
def failureLog (role : Role) (received : Nat) (f : Failure) : Log.Record :=
  { level := .debug
    message := "protocol violation"
    values :=
      [ { name := "role", text := role.name },
        { name := "packets", text := toString received },
        { name := "packet_type", text := Shown.option Kind.name f.kind },
        { name := "reason", text := f.reason, quoted := true } ] }

/-- What is logged of packets and their frames. -/
def framesLog (frames : List Frame) (packets : List Packet) : List Log.Record :=
  (List.zipWith (fun f p => packetLog f.header.remaining p) frames packets).flatten

theorem framesLog_append_singleton {frames : List Frame} {packets : List Packet}
    (length : frames.length = packets.length) (f : Frame) (p : Packet) :
    framesLog (frames ++ [f]) (packets ++ [p])
      = framesLog frames packets ++ packetLog f.header.remaining p := by
  simp [framesLog, List.zipWith_append length]

theorem records_append_singleton (told : List Report) (report : Report) :
    records (told ++ [report]) = records told ++ report.records := by
  simp [records]

end Session

namespace Frame

variable {f : Frame} {p : Packet}

/-- The flags of a frame are four bits. -/
theorem flags_lt (f : Frame) : f.header.flags < 16 :=
  (FixedHeader.halves_lt_of_decode f.decode_bytes).2

/-- Where a packet ends in its frame: it is written again as the bytes that were consumed, and all
others are still ahead. -/
theorem cursor_of_decode {kind : Kind} {c : Cursor}
    (h : (Packet.decode kind f.header.flags).read (.start f.body) = (.ok p, c)) :
    p.encodeBody.1.length = c.position ∧ c.length = f.header.remaining := by
  obtain ⟨b, ⟨ahead, position⟩, -, -, writes, -⟩ :=
    (Packet.reads_decode kind f.flags_lt _ _ _).mp h
  change f.body = b ++ c.ahead at ahead
  rw [Cursor.start, Nat.zero_add] at position
  rw [Step.Writes] at writes
  constructor
  · rw [Packet.encodeBody, writes, position]
  · rw [Cursor.length, Cursor.remaining, position, ← f.length_body, ahead, List.length_append]

/-- The packet of a frame is written again. -/
theorem Holds.fault_encodeBody (h : f.Holds p) : p.encodeBody.2 = none := by
  obtain ⟨-, c, hread⟩ := h
  obtain ⟨b, -, -, -, writes, -⟩ := (Packet.reads_decode p.kind f.flags_lt _ _ _).mp hread
  rw [Step.Writes] at writes
  rw [Packet.encodeBody, writes]

theorem faults_encodeBody {frames : List Frame} {packets : List Packet}
    (holds : List.Forall₂ Holds frames packets) : ∀ p ∈ packets, p.encodeBody.2 = none := by
  induction holds with
  | nil => simp
  | cons held _ ih => exact List.forall_mem_cons.mpr ⟨held.fault_encodeBody, ih⟩

/-- **The numbers that are logged are those of the frame**, and of the packet written again. -/
theorem log_decoded {kind : Kind} {c : Cursor}
    (h : (Packet.decode kind f.header.flags).read (.start f.body) = (.ok p, c)) :
    (Session.decoded p c).records = Session.packetLog f.header.remaining p := by
  obtain ⟨used, length⟩ := cursor_of_decode h
  have padded : c.atEnd = false ↔ c.position < f.header.remaining := by
    rw [← length, Cursor.length, Cursor.remaining, Cursor.atEnd]
    cases c.ahead <;> simp
  rw [Session.decoded, Session.packetLog, Packet.paddingNotice, used, length]
  by_cases tolerates : p.kind = .connect ∨ p.kind = .connAck
  · by_cases short : c.position < f.header.remaining
    · simp [tolerates, short, Packet.toleratesPadding_iff.mpr tolerates, padded.mpr short,
        Session.packetRecord]
    · have whole : c.atEnd = true := by simpa [short] using padded
      simp [short, whole, Session.packetRecord]
  · have strict : Packet.toleratesPadding p.kind = false :=
      Bool.eq_false_iff.mpr fun h => tolerates (Packet.toleratesPadding_iff.mp h)
    simp [tolerates, strict, Session.packetRecord]

end Frame

namespace Session

/-- How the log of a run goes with its stream and with what was told: the frames of the packets are
the front of the stream, and each packet is logged with its own frame. -/
inductive Mirrored (role : Role) (stream : Bytes) (told : List Report) (s : Session) : Prop
  | live (frames : List Frame) (packets : List Packet) (rest : Bytes) (same : s.role = role)
      (stream_eq : stream = frames.flatMap Frame.bytes ++ rest) (unread : s.Unread rest)
      (holds : List.Forall₂ Frame.Holds frames packets) (count : s.packets = packets.length)
      (told_eq : events told = packets.map .packet)
      (logged : records told = framesLog frames packets)
  | ended (frames : List Frame) (packets : List Packet) (rest : Bytes) (failure : Failure)
      (stream_eq : stream = frames.flatMap Frame.bytes ++ rest)
      (holds : List.Forall₂ Frame.Holds frames packets) (phase : s.phase = .violated)
      (told_eq : events told = packets.map .packet ++ [.failure failure])
      (logged : records told
        = framesLog frames packets ++ [failureLog role packets.length failure])

variable {role : Role} {stream : Bytes} {told : List Report} {s : Session}

/-- A session that gives up logs its failure, with the number of packets told before. -/
theorem Mirrored.giveUp (h : Mirrored role stream told s) (live : s.phase ≠ .violated)
    (failure : Failure) :
    Mirrored role stream (told ++ [s.violation failure]) s.giveUp := by
  cases h with
  | ended _ _ _ _ _ _ phase => exact absurd phase live
  | live frames packets rest same stream_eq unread holds count told_eq logged =>
      refine .ended frames packets rest failure stream_eq holds rfl ?_ ?_
      · rw [events_append, told_eq]
        rfl
      · rw [records_append_singleton, logged, ← same, ← count]
        rfl

/-- A header that is framed is not logged. -/
theorem Mirrored.framed {header : FixedHeader} {size : Nat} (h : Mirrored role stream told s)
    (phase : s.phase = .awaitingHeader)
    (scan : FixedHeader.decode s.buffer = .complete header size) :
    Mirrored role stream told (s.framed header size) := by
  cases h with
  | ended _ _ _ _ _ _ violated => exact absurd violated (ne_violated_of_awaiting phase)
  | live frames packets rest same stream_eq unread holds count told_eq logged =>
      obtain rfl := unread.eq_buffer phase
      exact .live frames packets s.buffer same stream_eq (unread_framed scan) holds count told_eq
        logged

/-- A packet is logged with the frame that it comes from. -/
theorem Mirrored.behind {header : FixedHeader} {p : Packet} {c : Cursor}
    (h : Mirrored role stream told s) (phase : s.phase = .collectingBody header)
    (room : header.remaining ≤ s.buffer.length)
    (verdict : s.judge header (s.buffer.take header.remaining) = .ok (p, c)) :
    Mirrored role stream (told ++ [decoded p c]) (s.behind header) := by
  cases h with
  | ended _ _ _ _ _ _ violated => exact absurd violated (ne_violated_of_collecting phase)
  | live frames packets rest same stream_eq unread holds count told_eq logged =>
      obtain ⟨head, rfl, scan⟩ := unread.exists_head phase
      let f := Frame.ofParts scan (List.length_take_of_le room)
      obtain ⟨kind, code, -, hread⟩ := judge_eq_ok_iff.mp verdict
      obtain rfl := Packet.kind_of_decode hread
      have body : f.body = s.buffer.take header.remaining := Frame.body_ofParts ..
      have decoded_f : (Packet.decode p.kind f.header.flags).read (.start f.body) = (.ok p, c) := by
        rw [body]
        exact hread
      have held : f.Holds p := ⟨code, c, decoded_f⟩
      refine .live (frames ++ [f]) (packets ++ [p]) (s.buffer.drop header.remaining) same ?_
        (.waiting rfl) (List.rel_append holds (.cons held .nil)) ?_ ?_ ?_
      · rw [stream_eq]
        simp [f, Frame.ofParts]
      · rw [List.length_append, ← count]
        rfl
      · rw [events_append, told_eq, List.map_append]
        rfl
      · rw [records_append_singleton, logged, Frame.log_decoded decoded_f,
          framesLog_append_singleton holds.length_eq]

/-- **Every move keeps the log in step.** A frame that is accepted logs its packet, one that is
refused logs the failure, and all other moves log nothing. -/
theorem Rule.mirrored {m : Move} (rule : s.Rule m) (h : Mirrored role stream told s) :
    m.Keeps (Mirrored role stream) told := by
  cases rule with
  | dropped | shortHeader | shortBody => trivial
  | overlong phase | overLimit phase => exact h.giveUp (ne_violated_of_awaiting phase) _
  | refuse phase => exact h.giveUp (ne_violated_of_collecting phase) _
  | frame phase scan => exact h.framed phase scan
  | accept phase room verdict => exact h.behind phase room verdict

theorem Mirrored.offer (h : Mirrored role stream told s) (bytes : Bytes) :
    Mirrored role (stream ++ bytes) told (s.offer bytes) := by
  cases h with
  | live frames packets rest same stream_eq unread holds count told_eq logged =>
      have hoffer := unread.offer bytes
      rw [offer_of_ne_violated unread.ne_violated] at hoffer ⊢
      refine .live frames packets (rest ++ bytes) same ?_ hoffer holds count told_eq logged
      rw [stream_eq, List.append_assoc]
  | ended frames packets rest failure stream_eq holds phase told_eq logged =>
      rw [offer_of_violated phase]
      refine .ended frames packets (rest ++ bytes) failure ?_ holds phase told_eq logged
      rw [stream_eq, List.append_assoc]

theorem Mirrored.withLimit (h : Mirrored role stream told s) (limit : Nat) :
    Mirrored role stream told (s.withLimit limit) := by
  cases h with
  | live frames packets rest same stream_eq unread holds count told_eq logged =>
      exact .live frames packets rest same stream_eq (unread.withLimit limit) holds count told_eq
        logged
  | ended frames packets rest failure stream_eq holds phase told_eq logged =>
      exact .ended frames packets rest failure stream_eq holds phase told_eq logged

/-- After a row of calls, the log of a new session goes with its stream. -/
theorem mirrored_callAll (role : Role) (limit : Nat) (calls : List Call) :
    let run := ((start role).withLimit limit).callAll calls
    Mirrored role (calls.flatMap Call.bytes) run.1 run.2 := by
  intro run
  have new : Mirrored role [] [] ((start role).withLimit limit) :=
    .live [] [] [] rfl rfl (.waiting rfl) .nil rfl rfl rfl
  refine callAll_keeps_stream (P := Mirrored role) Rule.mirrored ?_ ?_ new
  · intro stream told s bytes h
    exact h.offer bytes
  · intro stream told s limit _ h
    exact h.withLimit limit

/-- **The log of a session mirrors what it tells**, whatever it receives, however that is cut and
however the limit changes on the way. The stream opens with the frames of the packets that were
told, each packet is written again without a fault, and the log is that of the packets, each with
the remaining length of its frame, and behind it the record of the failure if one was told. -/
theorem callAll_log (role : Role) (limit : Nat) (calls : List Call) :
    let run := ((start role).withLimit limit).callAll calls
    ∃ (frames : List Frame) (packets : List Packet) (rest : Bytes) (failure : Option Failure),
      calls.flatMap Call.bytes = frames.flatMap Frame.bytes ++ rest
        ∧ List.Forall₂ Frame.Holds frames packets
        ∧ (∀ p ∈ packets, p.encodeBody.2 = none)
        ∧ events run.1 = packets.map .packet ++ failure.toList.map .failure
        ∧ records run.1
            = framesLog frames packets ++ failure.toList.map (failureLog role packets.length) := by
  intro run
  cases mirrored_callAll role limit calls with
  | live frames packets rest _ stream_eq _ holds _ told_eq logged =>
      refine ⟨frames, packets, rest, none, stream_eq, holds, Frame.faults_encodeBody holds, ?_, ?_⟩
      · rw [told_eq]
        exact (List.append_nil _).symm
      · rw [logged]
        exact (List.append_nil _).symm
  | ended frames packets rest failure stream_eq holds _ told_eq logged =>
      exact ⟨frames, packets, rest, some failure, stream_eq, holds, Frame.faults_encodeBody holds,
        told_eq, logged⟩

end Session
end Mqtt

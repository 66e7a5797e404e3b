import Mqtt.Proofs.Session.Reading

/-!
# What is told of a stream

No byte of a stream is lost, used twice or moved: the stream is the frames of the packets that were
told, in their order, and behind them the bytes that the session holds or the offence that ended it.
Since pieces are received like the whole, it is enough to look at all moves that one buffer allows.
-/
namespace Mqtt.Session

/-- How a session that told some events accounts for a stream: the frames of the packets that it
told, and a rest that it has not read yet or that opens with the offence it told last. -/
inductive Accounts (s : Session) (stream : Bytes) (told : List Event) : Prop
  | waiting (frames : List Frame) (packets : List Packet) (rest : Bytes)
      (stream_eq : stream = frames.flatMap Frame.bytes ++ rest)
      (accepts : s.role.Accepts s.limit 0 frames packets) (count : s.packets = packets.length)
      (told_eq : told = packets.map .packet) (unread : s.Unread rest) (settled : s.Settled)
      (within : ∀ header, s.phase = .collectingBody header → header.remaining ≤ s.limit)
  | ended (frames : List Frame) (packets : List Packet) (rest : Bytes) (failure : Failure)
      (stream_eq : stream = frames.flatMap Frame.bytes ++ rest)
      (accepts : s.role.Accepts s.limit 0 frames packets) (count : s.packets = packets.length)
      (told_eq : told = packets.map .packet ++ [.failure failure]) (phase : s.phase = .violated)
      (offence : Offence s.role s.limit packets.length rest failure.reason failure.kind)

/-- A session that waits for a header and has told nothing yet accounts for its buffer. -/
theorem accounts_drain {s : Session} (phase : s.phase = .awaitingHeader) (count : s.packets = 0) :
    s.drain.2.role = s.role ∧ s.drain.2.limit = s.limit
      ∧ s.drain.2.Accounts s.buffer (events s.drain.1) := by
  obtain ⟨frames, packets, rest, stream, accepts, ending⟩ := exists_frames_drain phase
  have settled := settled_drain s
  rw [count] at accepts ending
  rcases ending with ⟨failure, told, given, offence⟩ | ⟨told, unread, kept⟩
  · rw [Nat.zero_add] at given offence
    rw [given]
    exact ⟨rfl, rfl, .ended frames packets rest failure stream accepts rfl told rfl offence⟩
  · rw [Nat.zero_add] at kept
    rcases kept with same | ⟨header, size, framed, within⟩
    · rw [same] at unread settled ⊢
      refine ⟨rfl, rfl, .waiting frames packets rest stream accepts rfl told unread settled ?_⟩
      intro header collecting
      simp [phase] at collecting
    · rw [framed] at unread settled ⊢
      refine ⟨rfl, rfl, .waiting frames packets rest stream accepts rfl told unread settled ?_⟩
      intro other collecting
      cases collecting
      exact within

/-- **Every run accounts for its stream**, however the stream is cut. -/
theorem accounts_receiveAll (role : Role) (limit : Nat) (pieces : List Bytes) :
    let s := (start role).withLimit limit
    let run := s.receiveAll pieces
    run.2.role = s.role ∧ run.2.limit = s.limit
      ∧ run.2.Accounts pieces.flatten (events run.1) := by
  intro s run
  have run_eq : run = (s.offer pieces.flatten).drain := by
    rw [← receive_eq_drain_offer]
    exact ((settled_start role).withLimit limit).receiveAll pieces
  rw [run_eq]
  exact accounts_drain (s := s.offer pieces.flatten) rfl rfl

/-- **No byte of a stream is lost, used twice or moved.** The stream is the whole frames of the
packets that were told, in their order, and a rest. A session that waits for a header holds the
rest in its buffer, and that is no whole header; one that collects a body holds the rest but for
the bytes of the header; one that is given up found the offence it told last at the front of the
rest. -/
theorem receiveAll_frames (role : Role) (limit : Nat) (pieces : List Bytes) :
    let s := (start role).withLimit limit
    let run := s.receiveAll pieces
    ∃ (frames : List Frame) (packets : List Packet) (rest : Bytes),
      pieces.flatten = frames.flatMap Frame.bytes ++ rest
        ∧ frames.length = run.2.packets
        ∧ (∀ f ∈ frames, f.header.remaining ≤ min limit Varint.maximum)
        ∧ List.Forall₂ Frame.Holds frames packets
        ∧ ((run.2.phase = .awaitingHeader ∧ events run.1 = packets.map .packet
              ∧ rest = run.2.buffer ∧ FixedHeader.decode rest = .incomplete)
          ∨ (∃ header head, run.2.phase = .collectingBody header
              ∧ events run.1 = packets.map .packet ∧ rest = head ++ run.2.buffer
              ∧ FixedHeader.decode head = .complete header head.length)
          ∨ (∃ failure, run.2.phase = .violated
              ∧ events run.1 = packets.map .packet ++ [.failure failure]
              ∧ Offence role (min limit Varint.maximum) frames.length rest
                  failure.reason failure.kind)) := by
  intro s run
  obtain ⟨hrole, hlimit, accounts⟩ := accounts_receiveAll role limit pieces
  change run.2.role = role at hrole
  change run.2.limit = min limit Varint.maximum at hlimit
  cases accounts with
  | waiting frames packets rest stream accepts count told unread settled _ =>
      rw [hrole, hlimit] at accepts
      refine ⟨frames, packets, rest, stream, accepts.length_eq.trans count.symm, accepts.within,
        accepts.holds, ?_⟩
      cases unread with
      | waiting phase =>
          exact .inl ⟨phase, told, rfl, settled.decode_buffer phase⟩
      | @collecting header head phase scan =>
          exact .inr (.inl ⟨header, head, phase, told, rfl, scan⟩)
  | ended frames packets rest failure stream accepts count told phase offence =>
      rw [hrole, hlimit] at accepts offence
      rw [← accepts.length_eq] at offence
      exact ⟨frames, packets, rest, stream, accepts.length_eq.trans count.symm, accepts.within,
        accepts.holds, .inr (.inr ⟨failure, phase, told, offence⟩)⟩

end Mqtt.Session

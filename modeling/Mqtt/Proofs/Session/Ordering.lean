import Mqtt.Proofs.Session.Calls
import Mqtt.Proofs.Session.Completeness

/-!
# The order of what is told

Whatever bytes a session receives and however its limit changes on the way, it tells packets in an
order that its role permits, and at most one failure, which is the last thing that it ever tells.
The chronicle of a session is what it may have told, given its state; every move keeps it, and so do
the bytes and the limits that come between the moves.
-/
namespace Mqtt.Session

/-- What a session may have told: as many packets as it counts, in an order that its role permits,
and behind them a failure if it is given up. -/
inductive Chronicle (s : Session) : List Event → Prop
  | live (packets : List Packet) (phase : s.phase ≠ .violated)
      (count : s.packets = packets.length) (order : s.role.Orderly 0 packets) :
      Chronicle s (packets.map .packet)
  | ended (packets : List Packet) (failure : Failure) (phase : s.phase = .violated)
      (buffer : s.buffer = []) (count : s.packets = packets.length)
      (order : s.role.Orderly 0 packets) :
      Chronicle s (packets.map .packet ++ [.failure failure])

variable {s : Session} {told : List Event}

/-- The packet of an accepted frame is of a kind that may come. -/
theorem permits_of_judge {header : FixedHeader} {body : Bytes} {p : Packet} {c : Cursor}
    (h : s.judge header body = .ok (p, c)) : s.role.Permits s.packets p.kind := by
  obtain ⟨kind, -, permits, hread⟩ := judge_eq_ok_iff.mp h
  rwa [Packet.kind_of_decode hread]

/-- A session that gives up has told packets, and tells a failure behind them. -/
theorem Chronicle.giveUp (h : s.Chronicle told) (live : s.phase ≠ .violated) (failure : Failure) :
    s.giveUp.Chronicle (told ++ [.failure failure]) := by
  cases h with
  | live packets _ count order => exact .ended packets failure rfl rfl count order
  | ended _ _ phase => exact absurd phase live

/-- A session that goes on in another phase has told the same. -/
theorem Chronicle.congr {next : Session} (h : s.Chronicle told) (live : s.phase ≠ .violated)
    (phase : next.phase ≠ .violated) (role : next.role = s.role)
    (packets : next.packets = s.packets) : next.Chronicle told := by
  cases h with
  | live told _ count order =>
      rw [← packets] at count
      rw [← role] at order
      exact .live told phase count order
  | ended _ _ other => exact absurd other live

/-- A session that accepts a frame tells one more packet. -/
theorem Chronicle.accept {header : FixedHeader} {p : Packet} (h : s.Chronicle told)
    (live : s.phase ≠ .violated) (permits : s.role.Permits s.packets p.kind) :
    (s.behind header).Chronicle (told ++ [.packet p]) := by
  cases h with
  | live packets _ count order =>
      rw [count, ← Nat.zero_add packets.length] at permits
      have order' : s.role.Orderly 0 (packets ++ [p]) :=
        Role.orderly_append_singleton.mpr ⟨order, permits⟩
      have count' : s.packets + 1 = (packets ++ [p]).length := by
        rw [count, List.length_append, List.length_singleton]
      have chronicle : (s.behind header).Chronicle ((packets ++ [p]).map .packet) :=
        .live (packets ++ [p]) nofun count' order'
      rwa [List.map_append] at chronicle
  | ended _ _ phase => exact absurd phase live

/-- The chronicle of a session of some role. -/
def Chronicled (role : Role) (told : List Report) (s : Session) : Prop :=
  s.role = role ∧ s.Chronicle (events told)

/-- **Every move keeps the chronicle.** A frame that is accepted adds a packet, one that is refused
adds the failure and drops the buffer, and all other moves add nothing. -/
theorem Rule.chronicle {role : Role} {reports : List Report} {m : Move} (rule : s.Rule m)
    (h : Chronicled role reports s) : m.Keeps (Chronicled role) reports := by
  obtain ⟨hrole, hchronicle⟩ := h
  cases rule with
  | dropped | shortHeader | shortBody => trivial
  | overlong phase | overLimit phase =>
      refine ⟨hrole, ?_⟩
      rw [events_append]
      exact hchronicle.giveUp (ne_violated_of_awaiting phase) _
  | refuse phase =>
      refine ⟨hrole, ?_⟩
      rw [events_append]
      exact hchronicle.giveUp (ne_violated_of_collecting phase) _
  | frame phase =>
      exact ⟨hrole, hchronicle.congr (ne_violated_of_awaiting phase) nofun rfl rfl⟩
  | accept phase _ verdict =>
      refine ⟨hrole, ?_⟩
      rw [events_append]
      exact hchronicle.accept (ne_violated_of_collecting phase) (permits_of_judge verdict)

theorem Chronicle.offer (h : s.Chronicle told) (bytes : Bytes) :
    (s.offer bytes).Chronicle told := by
  by_cases phase : s.phase = .violated
  · rwa [offer_of_violated phase]
  · rw [offer_of_ne_violated phase]
    exact h.congr phase phase rfl rfl

theorem Chronicle.withLimit (h : s.Chronicle told) (limit : Nat) :
    (s.withLimit limit).Chronicle told := by
  cases h with
  | live packets phase count order => exact .live packets phase count order
  | ended packets failure phase buffer count order =>
      exact .ended packets failure phase buffer count order

theorem role_offer (s : Session) (bytes : Bytes) : (s.offer bytes).role = s.role := by
  rw [offer]
  split <;> rfl

/-- After a row of calls, a new session has told what its state says. -/
theorem chronicle_callAll (role : Role) (calls : List Call) :
    Chronicled role ((start role).callAll calls).1 ((start role).callAll calls).2 := by
  have new : Chronicled role [] (start role) := ⟨rfl, .live [] nofun rfl trivial⟩
  refine callAll_keeps Rule.chronicle ?_ ?_ new
  · intro reports s bytes h
    exact ⟨(role_offer s bytes).trans h.1, h.2.offer bytes⟩
  · intro reports s limit _ h
    exact ⟨h.1, h.2.withLimit limit⟩

/-- A new session tells of some bytes what its state says. -/
theorem chronicle_receive (role : Role) (limit : Nat) (bytes : Bytes) :
    (((start role).withLimit limit).receive bytes).2.Chronicle
      (events (((start role).withLimit limit).receive bytes).1) := by
  have chronicle := (chronicle_callAll role [.withLimit limit, .receive bytes]).2
  rwa [callAll, callAll, callAll, call, call, List.nil_append, List.append_nil] at chronicle

/-- A failure is the last thing that is told. -/
theorem Chronicle.failure_last {front back : List Event} {failure : Failure}
    (h : s.Chronicle (front ++ .failure failure :: back)) : back = [] ∧ s.phase = .violated := by
  generalize htold : front ++ Event.failure failure :: back = told at h
  cases h with
  | live packets =>
      have packet : Event.failure failure ∈ packets.map Event.packet := by
        rw [← htold]
        exact List.mem_append_cons_self
      simp at packet
  | ended packets other phase =>
      refine ⟨?_, phase⟩
      rcases List.eq_nil_or_concat' back with rfl | ⟨more, last, rfl⟩
      · rfl
      · rw [← List.cons_append, ← List.append_assoc] at htold
        have packet : Event.failure failure ∈ packets.map Event.packet := by
          rw [← (List.append_inj' htold rfl).1]
          exact List.mem_append_cons_self
        simp at packet

/-- A session that is given up has told a failure. -/
theorem Chronicle.exists_failure (h : s.Chronicle told) (phase : s.phase = .violated) :
    ∃ (packets : List Packet) (failure : Failure),
      told = packets.map .packet ++ [.failure failure] := by
  cases h with
  | live _ other => exact absurd phase other
  | ended packets failure => exact ⟨packets, failure, rfl⟩

/-- Packets in order open with the first kind, which does not come again, and all are of kinds that
the other side may send. -/
theorem forall_kind_of_orderly {role : Role} {packets : List Packet}
    (h : role.Orderly 0 packets) :
    (∀ p ∈ packets.head?, p.kind = role.first) ∧ (∀ p ∈ packets.tail, p.kind ≠ role.first)
      ∧ ∀ p ∈ packets, role.accepts p.kind = true := by
  cases packets with
  | nil => simp
  | cons first others =>
      obtain ⟨hfirst, hothers⟩ := Role.orderly_cons_iff.mp h
      refine ⟨?_, fun p hp => (hothers p hp).1, List.forall_mem_cons.mpr ⟨?_, ?_⟩⟩
      · intro p hp
        rwa [← Option.mem_some.mp hp]
      · rw [hfirst]
        exact role.accepts_first
      · exact fun p hp => (hothers p hp).2

/-- **What a new session tells after a row of calls**: packets, of which the first is of the kind
that must come first and no other is, all of kinds that the other side may send; and behind them at
most one failure. There is one exactly if the session is given up, and then nothing more is ever
told: the buffer is empty, every call leaves the session as it is but for its limit, and more bytes
change nothing. -/
theorem callAll_orderly (role : Role) (calls : List Call) :
    let run := (start role).callAll calls
    ∃ (packets : List Packet) (failure : Option Failure),
      events run.1 = packets.map .packet ++ failure.toList.map .failure
        ∧ run.2.packets = packets.length
        ∧ (∀ p ∈ packets.head?, p.kind = role.first)
        ∧ (∀ p ∈ packets.tail, p.kind ≠ role.first)
        ∧ (∀ p ∈ packets, role.accepts p.kind = true)
        ∧ (run.2.phase = .violated ↔ failure.isSome)
        ∧ (run.2.phase = .violated → run.2.buffer = [] ∧ ∀ later : List Call,
            let after := run.2.callAll later
            after.1 = [] ∧ after.2 = { run.2 with limit := after.2.limit }
              ∧ ∀ bytes, after.2.receive bytes = ([], after.2)) := by
  intro run
  obtain ⟨hrole, hchronicle⟩ := chronicle_callAll role calls
  change run.2.role = role at hrole
  change run.2.Chronicle (events run.1) at hchronicle
  generalize events run.1 = told at hchronicle
  cases hchronicle with
  | live packets phase count order =>
      rw [hrole] at order
      obtain ⟨hhead, htail, haccepts⟩ := forall_kind_of_orderly order
      refine ⟨packets, none, (List.append_nil _).symm, count, hhead, htail, haccepts, ?_, ?_⟩
      · exact iff_of_false phase nofun
      · exact fun violated => absurd violated phase
  | ended packets failure phase buffer count order =>
      rw [hrole] at order
      obtain ⟨hhead, htail, haccepts⟩ := forall_kind_of_orderly order
      refine ⟨packets, some failure, rfl, count, hhead, htail, haccepts, iff_of_true phase rfl, ?_⟩
      refine fun _ => ⟨buffer, fun later => ?_⟩
      obtain ⟨hnothing, hsame⟩ := callAll_of_violated phase later
      have violated : (run.2.callAll later).2.phase = .violated := by
        rw [hsame]
        exact phase
      exact ⟨hnothing, hsame, receive_of_violated violated⟩

end Mqtt.Session

import Mqtt.Proofs.Session.Calls
import Mqtt.Proofs.Session.Refusal

/-!
# Two limits on one stream

The limit on the remaining length is looked at in one place only, when a fixed header is complete. A
session with a greater limit therefore makes the same moves as one with a smaller limit, until a
header tells a length that is above the smaller one. There the one session gives up; whatever the
other makes of the rest, it has told the same packets before.
-/
namespace Mqtt.Session

/-- The session under another limit. -/
def under (s : Session) (limit : Nat) : Session :=
  { s with limit }

/-- The failure of a header that is over a limit. -/
def tooLarge (limit : Nat) (header : FixedHeader) : Failure :=
  Failure.aboutCode ⟨.undecodable (.lengthOverLimit header.remaining limit), none⟩ header.code

variable {s : Session} {limit : Nat}

/-- **A move is made under a greater limit too**, unless it is over the limit. -/
theorem Rule.under {m : Move} (h : s.Rule m) (more : s.limit ≤ limit) :
    (s.under limit).Rule (m.map (·.under limit))
      ∨ ∃ header, s.limit < header.remaining
          ∧ m = .tell (s.violation (tooLarge s.limit header)) s.giveUp := by
  cases h with
  | dropped phase => exact .inl (.dropped phase)
  | shortHeader phase scan => exact .inl (.shortHeader phase scan)
  | overlong phase scan => exact .inl (.overlong phase scan)
  | overLimit phase scan exceeds => exact .inr ⟨_, exceeds, rfl⟩
  | frame phase scan within => exact .inl (.frame phase scan (Nat.le_trans within more))
  | shortBody phase body => exact .inl (.shortBody phase body)
  | refuse phase body verdict => exact .inl (.refuse phase body verdict)
  | accept phase body verdict => exact .inl (.accept phase body verdict)

/-- **All moves are made under a greater limit too**, up to the first that is over the limit. The
induction is on the moves under the smaller limit. -/
theorem drain_under (more : s.limit ≤ limit) :
    (s.under limit).drain = (s.drain.1, s.drain.2.under limit)
      ∨ ∃ before last header, s.drain.1 = before ++ [last]
          ∧ last.event = .failure (tooLarge s.limit header) ∧ s.limit < header.remaining
          ∧ before <+: (s.under limit).drain.1 := by
  induction s using drain.induct with
  | case1 s wait =>
      rcases (rule_iff.mpr wait).under more with rule | ⟨header, -, other⟩
      · rw [drain_of_wait wait, drain_of_wait rule.step_eq]
        exact .inl rfl
      · cases other
  | case2 s next frame ih =>
      have same : next.limit = s.limit := (rule_iff.mpr frame).keeps_limit rfl []
      rcases (rule_iff.mpr frame).under more with rule | ⟨header, -, other⟩
      · rw [drain_of_frame frame, drain_of_frame rule.step_eq, ← same]
        exact ih (same ▸ more)
      · cases other
  | case3 s report next tell ih =>
      have same : next.limit = s.limit := (rule_iff.mpr tell).keeps_limit rfl []
      rcases (rule_iff.mpr tell).under more with rule | ⟨header, exceeds, last⟩
      · rw [drain_of_tell tell, drain_of_tell rule.step_eq, ← same]
        rcases ih (same ▸ more) with equal | ⟨before, last, header, told, event, exceeds, front⟩
        · rw [equal]
          exact .inl rfl
        · refine .inr ⟨report :: before, last, header, ?_, event, exceeds, ?_⟩
          · rw [told, List.cons_append]
          · exact List.cons_prefix_cons.mpr ⟨rfl, front⟩
      · cases last
        have ended : s.giveUp.drain = ([], s.giveUp) := drain_of_wait (Rule.dropped rfl).step_eq
        rw [drain_of_tell tell, ended]
        exact .inr ⟨[], _, header, rfl, rfl, exceeds, List.nil_prefix⟩

/-- **Two limits on one stream**, cut in one way or the other. Either the sessions tell and log the
same and differ in nothing but the limit; or the one with the smaller limit tells packets and gives
up at a length above its limit, and the other one tells the same packets first. -/
theorem receiveAll_limits (role : Role) {lower upper : Nat} (h : lower ≤ upper)
    {pieces others : List Bytes} (same : pieces.flatten = others.flatten) :
    let low := ((start role).withLimit lower).receiveAll pieces
    let high := ((start role).withLimit upper).receiveAll others
    (low.1 = high.1 ∧ high.2 = low.2.under (min upper Varint.maximum))
      ∨ ∃ (packets : List Packet) (failure : Failure) (length : Nat),
          events low.1 = packets.map .packet ++ [.failure failure]
            ∧ failure.reason = "Packet too large: remaining length " ++ toString length
                ++ " exceeds limit of " ++ toString (min lower Varint.maximum)
            ∧ min lower Varint.maximum < length
            ∧ packets.map .packet <+: events high.1 := by
  intro low high
  let s := ((start role).withLimit lower).offer pieces.flatten
  have low_eq : low = s.drain := by
    rw [← receive_eq_drain_offer]
    exact ((settled_start role).withLimit lower).receiveAll pieces
  have high_eq : high = (s.under (min upper Varint.maximum)).drain := by
    have run := ((settled_start role).withLimit upper).receiveAll others
    rwa [← same, receive_eq_drain_offer] at run
  have more : s.limit ≤ min upper Varint.maximum := by
    change min lower Varint.maximum ≤ min upper Varint.maximum
    omega
  rw [low_eq, high_eq]
  rcases drain_under more with equal | ⟨before, last, header, told, event, exceeds, front⟩
  · rw [equal]
    exact .inl ⟨rfl, rfl⟩
  · have ending : events s.drain.1 = events before ++ [.failure (tooLarge s.limit header)] := by
      rw [told, events_append, ← event]
      rfl
    obtain ⟨packets, failure, told_packets⟩ := exists_events_drain (s := s) rfl
    rw [ending] at told_packets
    cases failure with
    | none =>
        have other := List.mem_append_right (events before)
          (List.mem_singleton_self (Event.failure (tooLarge s.limit header)))
        rw [told_packets] at other
        simp at other
    | some failure =>
        obtain ⟨packets_eq, -⟩ := List.append_inj' told_packets rfl
        refine .inr ⟨packets, tooLarge s.limit header, header.remaining, ?_, ?_, exceeds, ?_⟩
        · rw [ending, packets_eq]
        · exact Failure.reason_aboutCode _ _
        · rw [← packets_eq]
          exact front.map Report.event

/-- A connect packet, and behind it the header of a publish packet that only the smaller limit
forbids. -/
theorem receiveAll_between_limits :
    let pieces := [connectFrame.bytes ++ [0x30], [14]]
    let others := [connectFrame.bytes, [0x30, 14]]
    13 ≤ 14 ∧ pieces.flatten = others.flatten
      ∧ ∃ (packets : List Packet) (failure : Failure) (length : Nat),
          events (((start .server).withLimit 13).receiveAll pieces).1
              = packets.map .packet ++ [.failure failure]
            ∧ failure.reason = "Packet too large: remaining length " ++ toString length
                ++ " exceeds limit of " ++ toString (min 13 Varint.maximum)
            ∧ min 13 Varint.maximum < length
            ∧ packets.map .packet
                <+: events (((start .server).withLimit 14).receiveAll others).1 := by
  intro pieces others
  have same : pieces.flatten = others.flatten := rfl
  have apart : (((start .server).withLimit 14).receiveAll others).2.phase
      ≠ (((start .server).withLimit 13).receiveAll pieces).2.phase := by decide +kernel
  refine ⟨by decide, same, (receiveAll_limits .server (by decide) same).resolve_left ?_⟩
  intro h
  have same_phase := congrArg phase h.2
  exact apart same_phase

end Mqtt.Session

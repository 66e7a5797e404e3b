import Mqtt.Session.Receive

/-!
# The rules of a session

What a session does next, said as rules: each has the condition under which it applies and the move
that it makes. The rules and the step function say the same, so a fact about every step is proved
rule by rule and no proof has to open the function again.
-/
namespace Mqtt

/-- Whether a kind may come when a number of packets have been received. -/
structure Role.Permits (role : Role) (received : Nat) (kind : Kind) : Prop where
  accepts : role.accepts kind = true
  first : kind = role.first ↔ received = 0

namespace Session

/-- The session with a header whose body it collects. -/
def framed (s : Session) (header : FixedHeader) (size : Nat) : Session :=
  { s with phase := .collectingBody header, buffer := s.buffer.drop size }

/-- The session behind a packet whose body had a header. -/
def behind (s : Session) (header : FixedHeader) : Session :=
  { s with
    phase := .awaitingHeader
    buffer := s.buffer.drop header.remaining
    packets := s.packets + 1 }

/-- The move that gives a session up at the packet of a header. -/
def refusal (s : Session) (header : FixedHeader) (cause : FailureCause) : Move :=
  .tell (s.violation (Failure.aboutCode ⟨cause, none⟩ header.code)) s.giveUp

/-- The moves that a session can make, one rule a constructor. -/
inductive Rule (s : Session) : Move → Prop
  | dropped (phase : s.phase = .violated) : Rule s .wait
  | shortHeader (phase : s.phase = .awaitingHeader)
      (scan : FixedHeader.decode s.buffer = .incomplete) : Rule s .wait
  | overlong (phase : s.phase = .awaitingHeader)
      (scan : FixedHeader.decode s.buffer = .overlong) :
      Rule s (.tell (s.violation ⟨.undecodable .lengthOverlong, none⟩) s.giveUp)
  | overLimit {header : FixedHeader} {size : Nat} (phase : s.phase = .awaitingHeader)
      (scan : FixedHeader.decode s.buffer = .complete header size)
      (limit : s.limit < header.remaining) :
      Rule s (s.refusal header (.undecodable (.lengthOverLimit header.remaining s.limit)))
  | frame {header : FixedHeader} {size : Nat} (phase : s.phase = .awaitingHeader)
      (scan : FixedHeader.decode s.buffer = .complete header size)
      (limit : header.remaining ≤ s.limit) : Rule s (.frame (s.framed header size))
  | shortBody {header : FixedHeader} (phase : s.phase = .collectingBody header)
      (body : s.buffer.length < header.remaining) : Rule s .wait
  | refuse {header : FixedHeader} {cause : FailureCause}
      (phase : s.phase = .collectingBody header) (body : header.remaining ≤ s.buffer.length)
      (verdict : s.judge header (s.buffer.take header.remaining) = .error cause) :
      Rule s (s.refusal header cause)
  | accept {header : FixedHeader} {packet : Packet} {c : Cursor}
      (phase : s.phase = .collectingBody header) (body : header.remaining ≤ s.buffer.length)
      (verdict : s.judge header (s.buffer.take header.remaining) = .ok (packet, c)) :
      Rule s (.tell (decoded packet c) (s.behind header))

/-- Some rule allows the move that a session makes. -/
theorem rule_step (s : Session) : s.Rule s.step := by
  rw [step]
  split
  · next phase => exact .dropped phase
  · next phase =>
    split
    · next scan => exact .shortHeader phase scan
    · next scan => exact .overlong phase scan
    · next header size scan =>
      split
      · next limit => exact .overLimit phase scan limit
      · next limit => exact .frame phase scan (Nat.not_lt.mp limit)
  · next header phase =>
    simp only [List.length_take]
    split
    · next body => exact .shortBody phase (by omega)
    · next body =>
      have hbody : header.remaining ≤ s.buffer.length := by omega
      split
      · next cause verdict => exact .refuse phase hbody verdict
      · next packet c verdict => exact .accept phase hbody verdict

/-- The rules leave no choice. -/
theorem Rule.step_eq {s : Session} {m : Move} (h : s.Rule m) : s.step = m := by
  cases h with
  | dropped phase => rw [step, phase]
  | shortHeader phase scan | overlong phase scan => rw [step, phase]; simp only [scan]
  | overLimit phase scan limit => rw [step, phase]; simp only [scan, if_pos limit, refusal]
  | frame phase scan limit =>
      rw [step, phase]
      simp only [scan, if_neg (Nat.not_lt.mpr limit), framed]
  | shortBody phase body =>
      rw [step, phase]
      exact if_pos (by rw [List.length_take]; omega)
  | refuse phase body verdict =>
      rw [step, phase]
      simp only [verdict]
      exact if_neg (by rw [List.length_take]; omega)
  | accept phase body verdict =>
      rw [step, phase]
      simp only [verdict]
      exact if_neg (by rw [List.length_take]; omega)

/-- **The rules allow exactly the move that the session makes.** -/
theorem rule_iff {s : Session} {m : Move} : s.Rule m ↔ s.step = m := by
  constructor
  · exact Rule.step_eq
  · rintro rfl
    exact s.rule_step

/-! ### Accepted frames -/

/-- **A frame is accepted** exactly if it has the code of a kind that may come, and a body of that
kind. -/
theorem judge_eq_ok_iff {s : Session} {header : FixedHeader} {body : Bytes} {packet : Packet}
    {c : Cursor} :
    s.judge header body = .ok (packet, c)
      ↔ ∃ kind, header.code = kind.code ∧ s.role.Permits s.packets kind
          ∧ (Packet.decode kind header.flags).read (.start body) = (.ok packet, c) := by
  rw [judge]
  constructor
  · intro h
    split at h
    · cases h
    · next hnotFirst =>
      split at h
      · cases h
      · next hrepeated =>
        split at h
        · cases h
        · next decode hdecode =>
          obtain ⟨kind, hcode, haccepts, rfl⟩ := Role.reader?_eq_some_iff.mp hdecode
          split at h
          · cases h
          · next hread =>
            cases h
            rw [hcode] at hnotFirst hrepeated
            refine ⟨kind, hcode, ⟨haccepts, ?_⟩, hread⟩
            constructor
            · rintro rfl
              exact Nat.eq_zero_of_not_pos fun hpos => hrepeated ⟨hpos, rfl⟩
            · intro hzero
              refine Classical.byContradiction fun hne => hnotFirst ⟨hzero, fun hsame => ?_⟩
              exact hne (Kind.code_injective hsame)
  · rintro ⟨kind, hcode, permits, hread⟩
    have hdecode := Role.reader?_eq_some_iff.mpr ⟨kind, hcode, permits.accepts, rfl⟩
    rw [if_neg, if_neg, hdecode]
    · simp only [hread]
    · rintro ⟨hpos, hsame⟩
      have hzero := permits.first.mp (Kind.code_injective (hcode.symm.trans hsame))
      omega
    · rintro ⟨hzero, hother⟩
      rw [permits.first.mpr hzero] at hcode
      exact hother hcode

/-! ### All moves from the first one on -/

theorem events_cons (report : Report) (run : List Report) :
    events (report :: run) = report.event :: events run :=
  rfl

theorem events_append (first second : List Report) :
    events (first ++ second) = events first ++ events second :=
  List.map_append

theorem drain_of_wait {s : Session} (h : s.step = .wait) : s.drain = ([], s) := by
  rw [drain]
  split <;> simp_all

theorem drain_of_frame {s next : Session} (h : s.step = .frame next) : s.drain = next.drain := by
  rw [drain]
  split <;> simp_all

theorem drain_of_tell {s next : Session} {r : Report} (h : s.step = .tell r next) :
    s.drain = (r :: next.drain.1, next.drain.2) := by
  rw [drain]
  split <;> simp_all

end Session
end Mqtt

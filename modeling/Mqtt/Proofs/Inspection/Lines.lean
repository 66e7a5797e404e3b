import Mqtt.Program
import Mqtt.Proofs.Session.Ordering

/-!
# What is printed of a capture

A capture is printed the same, however it is fed to the session: one line for each event that the
session tells of the whole, and a line for the bytes that it still holds. A failure is always the
last line, since a session that is given up holds nothing.
-/
namespace Mqtt

/-- **Pieces make up the whole**, whatever their size. -/
theorem Bytes.flatten_chunks (n : Nat) (b : Bytes) : (b.chunks n).flatten = b := by
  induction b using Bytes.chunks.induct n with
  | case1 b h =>
      rw [chunks, if_pos h, List.isEmpty_iff.mp h, List.flatten_nil]
  | case2 b h zero =>
      rw [chunks, if_neg h, if_pos zero, List.flatten_singleton]
  | case3 b h nonzero ih =>
      rw [chunks, if_neg h, if_neg nonzero, List.flatten_cons, ih, List.take_append_drop]

namespace Inspection

/-- Whether a line opens with some words. -/
def opensWith (words line : String) : Bool :=
  words.toList.isPrefixOf line.toList

/-- What is found in a capture that is fed as a single piece. -/
def whole (s : Session) (capture : Bytes) : Inspection :=
  { lines := (Session.events (s.receive capture).1).map Event.line
      ++ leftover (s.receive capture).2
    failed := (Session.events (s.receive capture).1).any Event.isFailure
    records := Session.records (s.receive capture).1 }

/-- **The size of the pieces makes no difference.** -/
theorem run_eq_whole {s : Session} (h : s.Settled) (chunk : Nat) (capture : Bytes) :
    run s chunk capture = whole s capture := by
  simp only [run, h.receiveAll, Bytes.flatten_chunks, whole]

/-! ### Lines and their first words -/

theorem opensWith_append {words front : String} (h : opensWith words front = true)
    (rest : String) : opensWith words (front ++ rest) = true := by
  rw [opensWith, List.isPrefixOf_iff_prefix] at h ⊢
  rw [String.toList_append]
  exact h.trans (List.prefix_append ..)

/-- A line with another first letter does not open with the words. -/
theorem opensWith_of_head?_ne {words line : String} (nonempty : words ≠ "")
    (h : line.toList.head? ≠ words.toList.head?) : opensWith words line = false := by
  rw [opensWith, Bool.eq_false_iff, ne_eq, List.isPrefixOf_iff_prefix]
  intro front
  obtain ⟨rest, hline⟩ := front
  rw [← hline] at h
  cases hwords : words.toList with
  | nil => exact nonempty (String.toList_eq_nil_iff.mp hwords)
  | cons c cs => simp [hwords] at h

/-- The line of a packet opens with the name of its kind. -/
theorem head?_describe (p : Packet) :
    p.describe.toList.head? = p.kind.name.toList.head? := by
  simp only [Packet.describe, Shown.named, String.toList_append, List.head?_append]
  cases p.kind <;> rfl

theorem head?_name_ne (kind : Kind) :
    kind.name.toList.head? ≠ some 'F' ∧ kind.name.toList.head? ≠ some 'I' := by
  cases kind <;> decide

/-- **Failures are told from their lines.** -/
theorem opensWith_failure (e : Event) : opensWith "Failure" e.line = e.isFailure := by
  cases e with
  | packet p =>
      refine opensWith_of_head?_ne (by decide) ?_
      rw [Event.line, head?_describe]
      exact (head?_name_ne p.kind).1
  | failure f =>
      rw [Event.line]
      split
      · simp only [String.append_assoc]
        exact opensWith_append (by decide) _
      · exact opensWith_append (by decide) _

theorem opensWith_incomplete (e : Event) : opensWith "Incomplete" e.line = false := by
  refine opensWith_of_head?_ne (by decide) ?_
  cases e with
  | packet p =>
      rw [Event.line, head?_describe]
      exact (head?_name_ne p.kind).2
  | failure f =>
      rw [Event.line]
      split <;> simp

/-- The line for the bytes left over opens with a word of its own. -/
theorem opensWith_leftover {s : Session} {line : String} (h : line ∈ leftover s) :
    opensWith "Incomplete" line = true ∧ opensWith "Failure" line = false := by
  rw [leftover] at h
  split at h
  · cases h
  · obtain rfl := List.mem_singleton.mp h
    simp only [String.append_assoc]
    exact ⟨opensWith_append (by decide) _, opensWith_of_head?_ne (by decide) (by simp)⟩

theorem leftover_eq (s : Session) :
    leftover s = if s.buffer.length = 0 then []
      else ["Incomplete: " ++ toString s.buffer.length ++ " bytes left over"] := by
  simp [leftover]

/-- The lines of failures are as many as the failures. -/
theorem countP_failure_lines (s : Session) (capture : Bytes) :
    (whole s capture).lines.countP (opensWith "Failure")
      = (Session.events (s.receive capture).1).countP Event.isFailure := by
  have events : opensWith "Failure" ∘ Event.line = Event.isFailure := funext opensWith_failure
  have others : (leftover (s.receive capture).2).countP (opensWith "Failure") = 0 := by
    rw [List.countP_eq_zero]
    intro line h
    simp [(opensWith_leftover h).2]
  rw [whole, List.countP_append, others, List.countP_map, events, Nat.add_zero]

/-- The lines of a capture have one for bytes left over exactly if the session holds some. -/
theorem any_incomplete_iff (s : Session) (capture : Bytes) :
    (whole s capture).lines.any (opensWith "Incomplete") = true
      ↔ (s.receive capture).2.buffer ≠ [] := by
  have events : ((Session.events (s.receive capture).1).map Event.line).any
      (opensWith "Incomplete") = false := by
    simp [opensWith_incomplete]
  rw [whole, List.any_append, events, Bool.false_or]
  by_cases held : (s.receive capture).2.buffer = []
  · simp [leftover, held]
  · have line : leftover (s.receive capture).2 ≠ [] := by simp [leftover, held]
    refine iff_of_true (List.any_eq_true.mpr ?_) held
    obtain ⟨words, among⟩ := List.exists_mem_of_ne_nil _ line
    exact ⟨words, among, (opensWith_leftover among).1⟩

/-- What a new session tells ends with its failure, if there is one, and then the session holds
nothing. -/
theorem whole_of_start (role : Role) (limit : Nat) (capture : Bytes) :
    let found := whole ((Session.start role).withLimit limit) capture
    (found.failed = false ∧ found.lines.countP (opensWith "Failure") = 0)
      ∨ found.failed = true ∧ found.lines.countP (opensWith "Failure") = 1
        ∧ ∃ line, found.lines.getLast? = some line ∧ opensWith "Failure" line = true := by
  intro found
  have chronicle := Session.chronicle_receive role limit capture
  have lines := countP_failure_lines ((Session.start role).withLimit limit) capture
  generalize htold : Session.events
    (((Session.start role).withLimit limit).receive capture).1 = told at chronicle lines
  cases chronicle with
  | live packets =>
      refine .inl ⟨?_, ?_⟩
      · simp only [found, whole, htold]
        simp [Event.isFailure]
      · rw [lines, List.countP_eq_zero]
        simp [Event.isFailure]
  | ended packets failure phase buffer =>
      refine .inr ⟨?_, ?_, (Event.failure failure).line, ?_, opensWith_failure _⟩
      · simp only [found, whole, htold]
        simp [Event.isFailure]
      · rw [lines]
        simp [List.countP_append, List.countP_map, Function.comp_def, Event.isFailure]
      · simp only [found, whole, htold, leftover, buffer]
        simp

end Inspection

namespace Program

/-- A run that reads a capture inspects it. -/
theorem run_decode {around : Surroundings} {i : Invocation} {request : Inspection.Request}
    {s : Settings} {bytes : Bytes} (command : i.command = .decode request)
    (configured : settings around i.config = .ok s)
    (captured : capture around request.source = .ok bytes) :
    run around i
      = .ofInspection (Inspection.run (s.session request.role) request.chunk bytes)
          (i.logLevel.getD (s.level?.getD .info)) (i.config.toList.map settingsRecord) := by
  simp only [run, configured, command, captured]

/-- **What a run prints does not depend on the size of the pieces**, nor does what it logs, nor how
it ends. It prints one line for each event that a session tells of the whole capture, and then, if
the session still holds bytes, a line with their number. It ends with a failure exactly if one line
tells of one, and that line is the last. -/
theorem run_any_chunk {around : Surroundings} {i : Invocation} {request : Inspection.Request}
    {s : Settings} {bytes : Bytes} (configured : settings around i.config = .ok s)
    (captured : capture around request.source = .ok bytes) :
    let new := (Session.start request.role).withLimit s.maxRemainingLength
    let held := (new.receive bytes).2.buffer.length
    let outcome (chunk : Nat) := run around { i with command := .decode { request with chunk } }
    (∀ chunk other, outcome chunk = outcome other)
      ∧ ∀ chunk,
        (outcome chunk).lines
            = (Session.events (new.receive bytes).1).map Event.line
              ++ (if held = 0 then []
                else ["Incomplete: " ++ toString held ++ " bytes left over"])
          ∧ (outcome chunk).exit
            = (if (outcome chunk).lines.countP (Inspection.opensWith "Failure") = 1 then 1 else 0)
          ∧ ((outcome chunk).exit ≠ 0 → ∃ line, (outcome chunk).lines.getLast? = some line
              ∧ Inspection.opensWith "Failure" line = true) := by
  intro new held outcome
  have settled : new.Settled := (Session.settled_start request.role).withLimit _
  have outcome_eq (chunk : Nat) : outcome chunk
      = .ofInspection (Inspection.whole new bytes) (i.logLevel.getD (s.level?.getD .info))
          (i.config.toList.map settingsRecord) := by
    rw [← Inspection.run_eq_whole settled chunk bytes]
    exact run_decode (i := { i with command := .decode { request with chunk } }) rfl configured
      captured
  refine ⟨fun chunk other => (outcome_eq chunk).trans (outcome_eq other).symm, fun chunk => ?_⟩
  rw [outcome_eq]
  have lines := Inspection.leftover_eq (new.receive bytes).2
  rcases Inspection.whole_of_start request.role s.maxRemainingLength bytes with
    ⟨failed, none⟩ | ⟨failed, one, last⟩
  · refine ⟨congrArg _ lines, ?_, ?_⟩
    · simp [Outcome.ofInspection, new, failed, none]
    · simp [Outcome.ofInspection, new, failed]
  · refine ⟨congrArg _ lines, ?_, fun _ => last⟩
    simp [Outcome.ofInspection, new, failed, one]

/-- With a limit of 20 bytes from the environment, a connect packet and the header of a publish
packet that is one byte too long. -/
theorem run_over_limit :
    let around : Surroundings :=
      { env := [("MQTT_WIRE__PARSER__MAX_REMAINING_LENGTH", "20")], file := fun _ => .absent }
    let source := Capture.Source.hex "10:0d:00:04:4d:51:54:54:04:02:00:3c:00:01:61:30:15"
    let bytes : Bytes := [0x10, 13, 0, 4, 77, 81, 84, 84, 4, 2, 0, 60, 0, 1, 97, 0x30, 21]
    settings around none = .ok { maxRemainingLength := 20 } ∧ capture around source = .ok bytes
      ∧ ∀ chunk,
        let outcome := run around { command := .decode { chunk, source } }
        outcome.lines.drop 1
            = ["Failure (Publish): Packet too large: remaining length 21 exceeds limit of 20"]
          ∧ outcome.exit = 1 := by
  intro around source bytes
  have configured : settings around none = .ok { maxRemainingLength := 20 } := by decide +kernel
  have captured : capture around ({ source } : Inspection.Request).source = .ok bytes := by
    decide +kernel
  have law := run_any_chunk (i := { command := .listen none }) configured captured
  refine ⟨configured, captured, fun chunk => ?_⟩
  intro outcome
  have same : outcome = run around { command := .decode { chunk := 0, source } } := law.1 chunk 0
  rw [same]
  decide +kernel

end Program
end Mqtt

import Mqtt.Proofs.Session.Chunking

/-!
# Calls of a session

A session takes pieces of its stream and changes of its limit, in any order. What one call does is
made of moves, so a property of the session and of what it told holds after every row of calls if it
holds at the start and no move, no offered byte and no new limit breaks it.
-/
namespace Mqtt.Session

/-- What a session may be asked for. -/
inductive Call where
  /-- To take the next piece of the stream. -/
  | receive (bytes : Bytes)
  /-- To accept another remaining length from now on. -/
  | withLimit (limit : Nat)

/-- The bytes that a call brings. -/
def Call.bytes : Call → Bytes
  | .receive bytes => bytes
  | .withLimit _ => []

/-- Does what is asked, and tells what comes of it. -/
def call (s : Session) : Call → List Report × Session
  | .receive bytes => s.receive bytes
  | .withLimit limit => ([], s.withLimit limit)

/-- Does what is asked, one call after the other. -/
def callAll (s : Session) : List Call → List Report × Session
  | [] => ([], s)
  | c :: calls =>
    let first := s.call c
    let others := first.2.callAll calls
    (first.1 ++ others.1, others.2)

/-- The property holds behind a move, of what was told before and with it. -/
def Move.Keeps (P : List Report → Session → Prop) (told : List Report) : Move → Prop
  | .wait => True
  | .frame next => P told next
  | .tell report next => P (told ++ [report]) next

/-- **What each move keeps, all moves keep.** -/
theorem drain_keeps {P : List Report → Session → Prop}
    (move : ∀ {told : List Report} {s : Session} {m : Move}, s.Rule m → P told s → m.Keeps P told)
    {told : List Report} {s : Session} (h : P told s) : P (told ++ s.drain.1) s.drain.2 := by
  induction s using drain.induct generalizing told with
  | case1 s wait =>
      rw [drain_of_wait wait, List.append_nil]
      exact h
  | case2 s next frame ih =>
      have hnext : P told next := move (rule_iff.mpr frame) h
      rw [drain_of_frame frame]
      exact ih hnext
  | case3 s report next tell ih =>
      have hnext : P (told ++ [report]) next := move (rule_iff.mpr tell) h
      rw [drain_of_tell tell, List.append_cons]
      exact ih hnext

/-- **What moves, bytes and limits keep, a row of calls keeps**, also if it speaks of the bytes that
were brought. Of the limits only those count that are asked for. -/
theorem callAll_keeps_stream {P : Bytes → List Report → Session → Prop} {calls : List Call}
    (move : ∀ {stream : Bytes} {told : List Report} {s : Session} {m : Move}, s.Rule m →
      P stream told s → m.Keeps (P stream) told)
    (offer : ∀ {stream : Bytes} {told : List Report} {s : Session} (bytes : Bytes),
      P stream told s → P (stream ++ bytes) told (s.offer bytes))
    (withLimit : ∀ {stream : Bytes} {told : List Report} {s : Session} {limit : Nat},
      .withLimit limit ∈ calls → P stream told s → P stream told (s.withLimit limit))
    {stream : Bytes} {told : List Report} {s : Session} (h : P stream told s) :
    P (stream ++ calls.flatMap Call.bytes) (told ++ (s.callAll calls).1) (s.callAll calls).2 := by
  induction calls generalizing stream told s with
  | nil =>
      rw [callAll, List.flatMap_nil, List.append_nil, List.append_nil]
      exact h
  | cons c calls ih =>
      have first : P (stream ++ c.bytes) (told ++ (s.call c).1) (s.call c).2 := by
        cases c with
        | receive bytes =>
            rw [call, receive_eq_drain_offer]
            exact drain_keeps move (offer bytes h)
        | withLimit limit =>
            rw [call, Call.bytes, List.append_nil, List.append_nil]
            exact withLimit (List.mem_cons_self ..) h
      rw [callAll, List.flatMap_cons, ← List.append_assoc, ← List.append_assoc]
      exact ih (fun hmem => withLimit (List.mem_cons_of_mem _ hmem)) first

/-- What moves, bytes and limits keep, a row of calls keeps. -/
theorem callAll_keeps {P : List Report → Session → Prop} {calls : List Call}
    (move : ∀ {told : List Report} {s : Session} {m : Move}, s.Rule m → P told s → m.Keeps P told)
    (offer : ∀ {told : List Report} {s : Session} (bytes : Bytes), P told s →
      P told (s.offer bytes))
    (withLimit : ∀ {told : List Report} {s : Session} {limit : Nat}, .withLimit limit ∈ calls →
      P told s → P told (s.withLimit limit))
    {told : List Report} {s : Session} (h : P told s) :
    P (told ++ (s.callAll calls).1) (s.callAll calls).2 :=
  @callAll_keeps_stream (fun _ => P) calls move offer withLimit [] told s h

/-- No move changes the limit. -/
theorem Rule.keeps_limit {s : Session} {m : Move} {limit : Nat} (h : s.Rule m)
    (same : s.limit = limit) (told : List Report) :
    m.Keeps (fun _ t => t.limit = limit) told := by
  cases h with
  | dropped | shortHeader | shortBody => trivial
  | overlong | overLimit | frame | refuse | accept => exact same

/-! ### Sessions that are given up -/

theorem receive_of_violated {s : Session} (h : s.phase = .violated) (bytes : Bytes) :
    s.receive bytes = ([], s) := by
  rw [receive, h]

/-- **A session that is given up tells nothing more**, and changes in nothing but its limit. -/
theorem callAll_of_violated {s : Session} (h : s.phase = .violated) (calls : List Call) :
    (s.callAll calls).1 = []
      ∧ (s.callAll calls).2 = { s with limit := (s.callAll calls).2.limit } := by
  induction calls generalizing s with
  | nil => exact ⟨rfl, rfl⟩
  | cons c calls ih =>
      cases c with
      | receive bytes =>
          rw [callAll, call, receive_of_violated h, List.nil_append]
          exact ih h
      | withLimit limit =>
          rw [callAll, call, List.nil_append]
          exact ih (s := s.withLimit limit) h

/-! ### Sessions after calls -/

theorem settled_callAll {s : Session} (h : s.Settled) (calls : List Call) :
    (s.callAll calls).2.Settled := by
  induction calls generalizing s with
  | nil => exact h
  | cons c calls ih =>
      cases c with
      | receive bytes => exact ih (settled_receive s bytes)
      | withLimit limit => exact ih (h.withLimit limit)

end Mqtt.Session

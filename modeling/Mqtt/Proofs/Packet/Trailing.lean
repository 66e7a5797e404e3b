import Mqtt.Proofs.Packet.RoundTrip

/-!
# Bytes behind a body

What a decoder makes of bytes behind the body of a packet depends on how the body ends: with a field
of fixed length, with a field that takes all that is left, or with a list of items. A list goes on
in the bytes behind it, so they have to be a list of the same kind.
-/
namespace Mqtt

open Decoder

namespace Step

/-! ### Fields that take all that is left -/

/-- A field that takes all that is left takes the bytes behind it too. -/
theorem Writes.append_rest {steps : List Step} {value b : Bytes}
    (h : Writes (steps ++ [.write (.rest value)]) b) (more : Bytes) :
    Writes (steps ++ [.write (.rest (value ++ more))]) (b ++ more) := by
  obtain ⟨front, back, rfl, hfront, hback⟩ := writes_append.mp h
  obtain rfl : value = back := Except.ok.inj (writes_write.mp hback)
  exact writes_append.mpr ⟨front, _, List.append_assoc .., hfront, writes_write.mpr rfl⟩

/-! ### Lists of items -/

/-- An identifier and items behind it, of which there must be one. -/
def listed {α : Type} (fault : EncodeFault) (steps : α → List Step) (id : UInt16)
    (items : List α) : List Step :=
  [.require (!items.isEmpty) fault, .write (.word id)] ++ items.flatMap steps

section Items

variable {α : Type} {steps : α → List Step} {item : Decoder α}
  (reads : item.Reads fun a b _ => Writes (steps a) b) (consumes : item.Consumes)
  {fault : EncodeFault} {id id' : UInt16} {items all : List α} {b more : Bytes}

theorem writes_listed :
    Writes (listed fault steps id items) b
      ↔ items ≠ [] ∧ ∃ back, b = Bytes.ofWord id ++ back ∧ Writes (items.flatMap steps) back := by
  have condition : (!items.isEmpty) = true ↔ items ≠ [] := by simp
  rw [listed, List.cons_append, List.singleton_append, writes_require_cons, writes_write_cons,
    condition]
  constructor
  · rintro ⟨some_item, _, back, rfl, ⟨⟩, hback⟩
    exact ⟨some_item, back, rfl, hback⟩
  · rintro ⟨some_item, back, rfl, hback⟩
    exact ⟨some_item, _, back, rfl, rfl, hback⟩

include reads consumes

/-- Behind items that were written there is room for more items and for nothing else. The induction
is on those that were written: each is the first one of all. -/
theorem writes_flatMap_append (h : Writes (items.flatMap steps) b) :
    Writes (all.flatMap steps) (b ++ more)
      ↔ ∃ others, all = items ++ others ∧ Writes (others.flatMap steps) more := by
  constructor
  · intro hall
    induction items generalizing all b with
    | nil =>
        obtain rfl := writes_nil.mp h
        exact ⟨all, rfl, hall⟩
    | cons a items ih =>
        rw [List.flatMap_cons] at h
        obtain ⟨front, back, rfl, hfront, hback⟩ := writes_append.mp h
        cases all with
        | nil =>
            have nothing := writes_nil.mp hall
            rw [List.append_assoc, List.append_eq_nil_iff] at nothing
            have something := @Reads.ne_nil_of_consumes _ _ item reads consumes a front [] hfront
            exact absurd nothing.1 something
        | cons a' all =>
            rw [List.flatMap_cons] at hall
            obtain ⟨front', back', same, hfront', hback'⟩ := writes_append.mp hall
            rw [List.append_assoc] at same
            obtain ⟨rfl, rfl, rfl⟩ := reads.form_inj hfront hfront' same
            obtain ⟨others, rfl, hothers⟩ := ih hback hback'
            exact ⟨others, rfl, hothers⟩
  · rintro ⟨others, rfl, hothers⟩
    rw [List.flatMap_append]
    exact writes_append.mpr ⟨b, more, rfl, h, hothers⟩

/-- **Bytes behind a list are more items**: those that stand behind the identifier alone. -/
theorem writes_listed_append (h : Writes (listed fault steps id items) b) (hmore : more ≠ []) :
    Writes (listed fault steps id' all) (b ++ more)
      ↔ id' = id ∧ ∃ first others, all = items ++ others
        ∧ Writes (listed fault steps first others) (Bytes.ofWord id ++ more) := by
  obtain ⟨some_item, back, rfl, hitems⟩ := writes_listed.mp h
  constructor
  · intro hall
    obtain ⟨-, back', same, hback'⟩ := writes_listed.mp hall
    rw [List.append_assoc] at same
    obtain ⟨rfl, -, rfl⟩ := reads_word.form_inj rfl rfl same
    obtain ⟨others, rfl, hothers⟩ := (writes_flatMap_append reads consumes hitems).mp hback'
    refine ⟨rfl, _, others, rfl, writes_listed.mpr ⟨?_, more, rfl, hothers⟩⟩
    rintro rfl
    exact hmore (writes_nil.mp hothers)
  · rintro ⟨rfl, first, others, rfl, hothers⟩
    obtain ⟨-, back', same, hback'⟩ := writes_listed.mp hothers
    obtain ⟨-, -, rfl⟩ := reads_word.form_inj rfl rfl same
    refine writes_listed.mpr ⟨?_, back ++ more, List.append_assoc .., ?_⟩
    · simp [some_item]
    · exact (writes_flatMap_append reads consumes hitems).mpr ⟨others, rfl, hback'⟩

end Items
end Step

/-- The payload takes the bytes behind it. -/
theorem Publish.writes_append {m : Publish} {b : Bytes} (h : Step.Writes m.steps b)
    (more : Bytes) : Step.Writes { m with payload := m.payload ++ more }.steps (b ++ more) :=
  Step.Writes.append_rest h more

/-- The return codes take the bytes behind them. -/
theorem SubAck.writes_append {a : SubAck} {b : Bytes} (h : Step.Writes a.steps b) (more : Bytes) :
    Step.Writes { a with returnCodes := a.returnCodes ++ more }.steps (b ++ more) := by
  change Step.Writes ([.write (.word a.packetId)] ++ [.write (.rest a.returnCodes)]) b at h
  exact Step.Writes.append_rest h more

theorem Subscribe.ne_nil_of_writes {s : Subscribe} {b : Bytes} (h : Step.Writes s.steps b) :
    s.requests ≠ [] :=
  (Step.writes_listed.mp h).1

/-- Bytes behind a subscribe packet are the requests of another one. -/
theorem Subscribe.writes_append {s t : Subscribe} {b more : Bytes} (h : Step.Writes s.steps b)
    (hmore : more ≠ []) :
    Step.Writes t.steps (b ++ more)
      ↔ ∃ u : Subscribe, t = { s with requests := s.requests ++ u.requests }
        ∧ Step.Writes u.steps (Bytes.ofWord s.packetId ++ more) := by
  refine (Step.writes_listed_append TopicRequest.reads_decode TopicRequest.consumes_decode h
    hmore).trans ?_
  cases t
  simp only [mk.injEq]
  constructor
  · rintro ⟨rfl, first, others, rfl, hothers⟩
    exact ⟨⟨first, others⟩, ⟨rfl, rfl⟩, hothers⟩
  · rintro ⟨u, ⟨rfl, rfl⟩, hothers⟩
    exact ⟨rfl, u.packetId, u.requests, rfl, hothers⟩

theorem Unsubscribe.steps_eq (u : Unsubscribe) :
    u.steps = Step.listed .noTopics topicSteps u.packetId u.topics := by
  rw [steps, Step.listed, List.map_eq_flatMap]
  rfl

theorem Unsubscribe.ne_nil_of_writes {u : Unsubscribe} {b : Bytes} (h : Step.Writes u.steps b) :
    u.topics ≠ [] := by
  rw [steps_eq] at h
  exact (Step.writes_listed.mp h).1

/-- Bytes behind an unsubscribe packet are the topics of another one. -/
theorem Unsubscribe.writes_append {s t : Unsubscribe} {b more : Bytes} (h : Step.Writes s.steps b)
    (hmore : more ≠ []) :
    Step.Writes t.steps (b ++ more)
      ↔ ∃ u : Unsubscribe, t = { s with topics := s.topics ++ u.topics }
        ∧ Step.Writes u.steps (Bytes.ofWord s.packetId ++ more) := by
  simp only [steps_eq] at h ⊢
  refine (Step.writes_listed_append reads_topic consumes_text h hmore).trans ?_
  cases t
  simp only [mk.injEq]
  constructor
  · rintro ⟨rfl, first, others, rfl, hothers⟩
    exact ⟨⟨first, others⟩, ⟨rfl, rfl⟩, hothers⟩
  · rintro ⟨u, ⟨rfl, rfl⟩, hothers⟩
    exact ⟨rfl, u.packetId, u.topics, rfl, hothers⟩

namespace Packet

open Step

theorem decode_publish_eq_ok_iff {flags : Nat} (h : flags < 16) {body : Bytes} {q : Packet} :
    ((decode .publish flags).read (.start body)).1 = .ok q
      ↔ ∃ m, q = publish m ∧ (publish m).headerFlags = flags ∧ Writes m.steps body :=
  ((Publish.reads_decode h).congr fun _ _ _ => and_assoc.symm).read_whole_map publish

theorem decode_subAck_eq_ok_iff {body : Bytes} {q : Packet} :
    ((decode .subAck 0).read (.start body)).1 = .ok q
      ↔ ∃ a, q = subAck a ∧ Writes a.steps body :=
  SubAck.reads_decode.read_whole_map subAck

theorem decode_subscribe_eq_ok_iff {body : Bytes} {q : Packet} :
    ((decode .subscribe 2).read (.start body)).1 = .ok q
      ↔ ∃ s, q = subscribe s ∧ Writes s.steps body :=
  Subscribe.reads_decode.read_whole_map subscribe

theorem decode_unsubscribe_eq_ok_iff {body : Bytes} {q : Packet} :
    ((decode .unsubscribe 2).read (.start body)).1 = .ok q
      ↔ ∃ u, q = unsubscribe u ∧ Writes u.steps body :=
  Unsubscribe.reads_decode.read_whole_map unsubscribe

end Packet
end Mqtt

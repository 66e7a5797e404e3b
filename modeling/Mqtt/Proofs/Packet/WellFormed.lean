import Mqtt.Packet.Encode
import Mqtt.Proofs.Wire.Field
import Mqtt.Proofs.Wire.Writing

/-!
# Well-formed packets

Which packet values have a body, said without the steps that write one: optional fields agree with
the flags that announce them, lists that must not be empty are not, and every text and every binary
field fits its length prefix.
-/
namespace Mqtt

/-- A text that a field can hold: without U+0000, and not too long for its length prefix. -/
structure Writable (s : String) : Prop where
  noNull : '\x00' ∉ s.toList
  length_le : (Bytes.ofText s).length ≤ 65535

/-- The optional fields of a connect packet are there exactly if its flags announce them, and the
flags of a will belong to a will. -/
structure Connect.WellFormed (c : Connect) : Prop where
  willTopic : c.willTopic.isSome = c.flags.will
  willMessage : c.willMessage.isSome = c.flags.will
  willBits : c.flags.will = false →
    c.flags.willRetain = false ∧ c.flags.willQoS = .atMostOnce
  username : c.username.isSome = c.flags.username
  password : c.password.isSome = c.flags.password
  texts : ∀ s, s = c.clientId ∨ s ∈ c.willTopic ∨ s ∈ c.username ∨ s ∈ c.password → Writable s
  message : ∀ m ∈ c.willMessage, m.length ≤ 65535

/-- A publish packet has an identifier exactly if its guarantee is above at most once. -/
structure Publish.WellFormed (p : Publish) : Prop where
  topicName : Writable p.topicName
  packetId : p.packetId.isSome = (p.qos != .atMostOnce)

/-- A packet that has a body. -/
def Packet.WellFormed : Packet → Prop
  | connect c => c.WellFormed
  | publish p => p.WellFormed
  | subscribe s => s.requests ≠ [] ∧ ∀ r ∈ s.requests, Writable r.topicFilter
  | unsubscribe u => u.topics ≠ [] ∧ ∀ topic ∈ u.topics, Writable topic
  | connAck _ | receipt _ _ | subAck _ | signal _ => True

namespace Field

theorem exists_encode_data_iff {value : Bytes} :
    (∃ b, (data value).encode = .ok b) ↔ value.length ≤ 65535 := by
  simp only [encode, encodeData_eq_ok_iff, exists_and_left, exists_eq, and_true]
  omega

theorem exists_encode_text_iff {value : String} :
    (∃ b, (text value).encode = .ok b) ↔ Writable value := by
  simp only [encode, encodeText_eq_ok_iff, encodeData_eq_ok_iff, exists_and_left, exists_eq,
    and_true]
  constructor
  · rintro ⟨hnull, hlength⟩
    exact ⟨hnull, by omega⟩
  · rintro ⟨hnull, hlength⟩
    exact ⟨hnull, by omega⟩

end Field

namespace Step

/-- A step that does not fail. -/
def Succeeds (step : Step) : Prop :=
  ∃ b, step.run = .ok b

theorem exists_writes_iff {steps : List Step} :
    (∃ b, Writes steps b) ↔ ∀ step ∈ steps, step.Succeeds := by
  induction steps with
  | nil => simp
  | cons step steps ih =>
      rw [List.forall_mem_cons, ← ih]
      constructor
      · rintro ⟨_, h⟩
        obtain ⟨front, back, -, hstep, hsteps⟩ := writes_cons.mp h
        exact ⟨⟨front, hstep⟩, back, hsteps⟩
      · rintro ⟨⟨front, hstep⟩, back, hsteps⟩
        exact ⟨front ++ back, writes_cons.mpr ⟨front, back, rfl, hstep, hsteps⟩⟩

@[simp] theorem succeeds_require {condition : Bool} {fault : EncodeFault} :
    (require condition fault).Succeeds ↔ condition = true := by
  cases condition <;> simp [Succeeds, run]

@[simp] theorem succeeds_byte {value : UInt8} : (write (.byte value)).Succeeds := ⟨_, rfl⟩

@[simp] theorem succeeds_word {value : UInt16} : (write (.word value)).Succeeds := ⟨_, rfl⟩

@[simp] theorem succeeds_rest {value : Bytes} : (write (.rest value)).Succeeds := ⟨_, rfl⟩

@[simp] theorem succeeds_text {value : String} :
    (write (.text value)).Succeeds ↔ Writable value :=
  Field.exists_encode_text_iff

@[simp] theorem succeeds_data {value : Bytes} :
    (write (.data value)).Succeeds ↔ value.length ≤ 65535 :=
  Field.exists_encode_data_iff

@[simp] theorem forall_mem_optional {α : Type} {field : α → Field} {a : Option α} :
    (∀ step ∈ optional field a, step.Succeeds)
      ↔ ∀ value ∈ a, (write (field value)).Succeeds := by
  cases a <;> simp [optional]

end Step

/-- Will topic and will message are optional fields, once they are both there or both absent. -/
theorem Connect.willSteps_eq (c : Connect)
    (h : (c.flags.will == c.willTopic.isSome && c.flags.will == c.willMessage.isSome) = true) :
    c.willSteps = Step.optional .text c.willTopic ++ Step.optional .data c.willMessage := by
  rw [Connect.willSteps, Connect.will?]
  revert h
  cases c.willTopic <;> cases c.willMessage <;> cases c.flags.will <;> simp [Step.optional]

/-- The will bits are allowed if there is a will, and otherwise if they are clear. -/
theorem ConnectFlags.willBitsAllowed_iff {flags : ConnectFlags} :
    flags.willBitsAllowed = true
      ↔ (flags.will = false → flags.willRetain = false ∧ flags.willQoS = .atMostOnce) := by
  rw [ConnectFlags.willBitsAllowed]
  cases flags.will <;> simp

theorem writable_protocolName : Writable protocolName :=
  ⟨by decide, by decide⟩

theorem Connect.succeeds_iff {c : Connect} :
    (∀ step ∈ c.steps, step.Succeeds) ↔ c.WellFormed := by
  simp only [Connect.steps, List.forall_mem_append, List.forall_mem_cons, Step.succeeds_text,
    Step.succeeds_require, Step.succeeds_byte, Step.succeeds_word, Step.forall_mem_optional,
    true_and, ConnectFlags.willBitsAllowed_iff]
  constructor
  · rintro ⟨⟨⟨⟨hwill, hbits, husername, hpassword, -, hclient, -⟩, hsteps⟩, huser⟩, hpass⟩
    rw [willSteps_eq c hwill] at hsteps
    simp only [List.forall_mem_append, Step.forall_mem_optional, Step.succeeds_text,
      Step.succeeds_data] at hsteps
    obtain ⟨htopic, hmessage⟩ := hsteps
    obtain ⟨hwillTopic, hwillMessage⟩ := Bool.and_eq_true_iff.mp hwill
    refine ⟨(eq_of_beq hwillTopic).symm, (eq_of_beq hwillMessage).symm, hbits,
      (eq_of_beq husername).symm, (eq_of_beq hpassword).symm, ?_, hmessage⟩
    rintro s (rfl | hs | hs | hs)
    · exact hclient
    · exact htopic s hs
    · exact huser s hs
    · exact hpass s hs
  · rintro ⟨hwillTopic, hwillMessage, hbits, husername, hpassword, htexts, hmessage⟩
    have hwill : (c.flags.will == c.willTopic.isSome && c.flags.will == c.willMessage.isSome)
        = true := by
      rw [hwillTopic, hwillMessage, beq_self_eq_true, Bool.and_self]
    rw [willSteps_eq c hwill]
    simp only [List.forall_mem_append, Step.forall_mem_optional, Step.succeeds_text,
      Step.succeeds_data]
    refine ⟨⟨⟨⟨hwill, hbits, ?_, ?_, writable_protocolName, htexts _ (.inl rfl), nofun⟩, ?_,
      hmessage⟩, ?_⟩, ?_⟩
    · rw [husername, beq_self_eq_true]
    · rw [hpassword, beq_self_eq_true]
    · exact fun s hs => htexts s (.inr (.inl hs))
    · exact fun s hs => htexts s (.inr (.inr (.inl hs)))
    · exact fun s hs => htexts s (.inr (.inr (.inr hs)))

/-- The two checks of a packet identifier say that it is there exactly if it is called for. -/
theorem Publish.identifier_iff {qos : QoS} {packetId : Option UInt16} :
    (qos != .atMostOnce || packetId.isNone) = true
        ∧ (qos == .atMostOnce || packetId.isSome) = true
      ↔ packetId.isSome = (qos != .atMostOnce) := by
  cases packetId <;> cases qos <;> simp

theorem Publish.succeeds_iff {p : Publish} :
    (∀ step ∈ p.steps, step.Succeeds) ↔ p.WellFormed := by
  simp only [Publish.steps, List.forall_mem_append, List.forall_mem_cons, Step.succeeds_text,
    Step.succeeds_require, Step.succeeds_rest, Step.succeeds_word, Step.forall_mem_optional]
  constructor
  · rintro ⟨⟨⟨htopic, hunwanted, hmissing, -⟩, -⟩, -⟩
    exact ⟨htopic, identifier_iff.mp ⟨hunwanted, hmissing⟩⟩
  · rintro ⟨htopic, hpacketId⟩
    obtain ⟨hunwanted, hmissing⟩ := identifier_iff.mpr hpacketId
    exact ⟨⟨⟨htopic, hunwanted, hmissing, nofun⟩, fun _ _ => trivial⟩, trivial, nofun⟩

theorem TopicRequest.succeeds_iff {r : TopicRequest} :
    (∀ step ∈ r.steps, step.Succeeds) ↔ Writable r.topicFilter := by
  simp [TopicRequest.steps]

namespace Packet

/-- **The well-formed packets are those that have a body.** -/
theorem exists_writes_iff_wellFormed {p : Packet} :
    (∃ b, Step.Writes p.steps b) ↔ p.WellFormed := by
  rw [Step.exists_writes_iff]
  cases p with
  | connect c => exact Connect.succeeds_iff
  | connAck a => simp [steps, ConnAck.steps, WellFormed]
  | publish p => exact Publish.succeeds_iff
  | receipt r packetId => simp [steps, WellFormed]
  | subscribe s =>
      simp only [steps, Subscribe.steps, WellFormed, List.forall_mem_append, List.forall_mem_cons,
        List.forall_mem_flatMap, TopicRequest.succeeds_iff, Step.succeeds_require,
        Step.succeeds_word]
      simp
  | subAck s => simp [steps, SubAck.steps, WellFormed]
  | unsubscribe u => simp [steps, Unsubscribe.steps, WellFormed]
  | signal s => simp [steps, WellFormed]

end Packet
end Mqtt

import Mathlib.Algebra.GroupWithZero.Nat
import Mqtt.Proofs.Packet.WellFormed

/-!
# How long a body is

The length of a body is told by the layout of its packet: words, bytes, and texts in UTF-8 with
their length prefix. It does not depend on whether the packet can be written, so a packet can be
told to be too long without its bytes.
-/
namespace Mqtt

/-- The number of bytes that a field takes. -/
def Field.length : Field → Nat
  | byte _ => 1
  | word _ => 2
  | text value => 2 + (Bytes.ofText value).length
  | data value => 2 + value.length
  | rest value => value.length

/-- The number of bytes of a field that may be absent. -/
def Field.optionalLength {α : Type} (field : α → Field) (a : Option α) : Nat :=
  a.elim 0 fun value => (field value).length

/-- Ten bytes stand before the fields of a connect packet: protocol name and level, flags and keep
alive. -/
def Connect.bodyLength (c : Connect) : Nat :=
  10 + (Field.text c.clientId).length
    + Field.optionalLength .text c.willTopic + Field.optionalLength .data c.willMessage
    + Field.optionalLength .text c.username + Field.optionalLength .text c.password

/-- The number of bytes of a body. -/
def Packet.bodyLength : Packet → Nat
  | connect c => c.bodyLength
  | connAck _ => 2
  | publish p =>
    (Field.text p.topicName).length + Field.optionalLength .word p.packetId + p.payload.length
  | receipt _ _ => 2
  | subscribe s => 2 + (s.requests.map fun r => (Field.text r.topicFilter).length + 1).sum
  | subAck s => 2 + s.returnCodes.length
  | unsubscribe u => 2 + (u.topics.map fun topic => (Field.text topic).length).sum
  | signal _ => 0

namespace Step

/-- The number of bytes that a step writes. -/
def length : Step → Nat
  | require _ _ => 0
  | write field => field.length

/-- The number of bytes that steps write. -/
def lengthAll (steps : List Step) : Nat := (steps.map length).sum

@[simp] theorem lengthAll_nil : lengthAll [] = 0 := rfl

@[simp] theorem lengthAll_cons (step : Step) (steps : List Step) :
    lengthAll (step :: steps) = step.length + lengthAll steps := by
  simp [lengthAll]

@[simp] theorem lengthAll_append (steps more : List Step) :
    lengthAll (steps ++ more) = lengthAll steps + lengthAll more := by
  simp [lengthAll]

@[simp] theorem lengthAll_optional {α : Type} (field : α → Field) (a : Option α) :
    lengthAll (optional field a) = Field.optionalLength field a := by
  cases a <;> simp [optional, Field.optionalLength, length]

@[simp] theorem lengthAll_flatMap {α : Type} (steps : α → List Step) (items : List α) :
    lengthAll (items.flatMap steps) = (items.map fun a => lengthAll (steps a)).sum := by
  induction items with
  | nil => rfl
  | cons a items ih => simp [ih]

theorem length_of_run {step : Step} {b : Bytes} (h : step.run = .ok b) :
    b.length = step.length := by
  cases step with
  | require condition fault =>
      cases condition
      · cases h
      · cases h
        rfl
  | write field =>
      cases field with
      | byte | word | rest =>
          cases h
          rfl
      | text value =>
          obtain ⟨-, hdata⟩ := Field.encodeText_eq_ok_iff.mp h
          obtain ⟨-, rfl⟩ := Field.encodeData_eq_ok_iff.mp hdata
          simp [length, Field.length]
      | data value =>
          obtain ⟨-, rfl⟩ := Field.encodeData_eq_ok_iff.mp h
          simp [length, Field.length]

/-- What steps write has their length. -/
theorem length_of_writes {steps : List Step} {b : Bytes} (h : Writes steps b) :
    b.length = lengthAll steps := by
  induction steps generalizing b with
  | nil => simp [writes_nil.mp h]
  | cons step steps ih =>
      obtain ⟨front, back, rfl, first, others⟩ := writes_cons.mp h
      rw [List.length_append, length_of_run first, ih others, lengthAll_cons]

end Step

/-- A will is two optional fields, once both are there or both absent. -/
theorem Connect.lengthAll_steps {c : Connect} (h : c.WellFormed) :
    Step.lengthAll c.steps = c.bodyLength := by
  have will : (c.flags.will == c.willTopic.isSome && c.flags.will == c.willMessage.isSome)
      = true := by
    simp [h.willTopic, h.willMessage]
  have name : (Bytes.ofText protocolName).length = 4 := rfl
  simp [Connect.steps, Connect.bodyLength, willSteps_eq c will, Step.length, Field.length, name]
  omega

/-- **A body has the length of its layout.** -/
theorem Packet.length_of_writes {p : Packet} {b : Bytes} (h : Step.Writes p.steps b) :
    b.length = p.bodyLength := by
  rw [Step.length_of_writes h]
  cases p with
  | connect c => exact Connect.lengthAll_steps (exists_writes_iff_wellFormed.mp ⟨b, h⟩)
  | connAck | receipt | signal => rfl
  | publish p =>
      simp [steps, Publish.steps, bodyLength, Step.length, Field.length, Nat.add_assoc]
  | subscribe s =>
      simp [steps, Subscribe.steps, TopicRequest.steps, bodyLength, Step.length, Field.length]
  | subAck s => rfl
  | unsubscribe u =>
      simp [steps, Unsubscribe.steps, List.map_eq_flatMap, bodyLength, Step.length, Field.length]

end Mqtt

import Mqtt.Proofs.Packet.Length
import Mqtt.Proofs.Packet.RoundTrip

/-!
# Why a packet cannot be written

What the wire asks of a packet is a row of demands, in the order in which the packet is written.
A packet that meets them all is written; any other is refused for the first one that it does not
meet. The demands are said here of the packet alone, without the steps that write it.
-/
namespace Mqtt

/-- A condition on a packet, and what is wrong if it does not hold. -/
structure Demand where
  met : Bool
  fault : EncodeFault

namespace Demand

/-- What is wrong at the first demand that is not met. -/
def firstFault (demands : List Demand) : Option EncodeFault :=
  (demands.find? (!·.met)).map fault

/-- A text holds no U+0000, and then it fits its length prefix. -/
def text (s : String) : List Demand :=
  [⟨'\x00' ∉ s.toList, .containsNull⟩, ⟨(Bytes.ofText s).length ≤ 65535, .fieldTooLong⟩]

/-- Binary data fits its length prefix. -/
def data (b : Bytes) : List Demand :=
  [⟨b.length ≤ 65535, .fieldTooLong⟩]

/-- What is asked of a value that may be absent. -/
def optional {α : Type} (demands : α → List Demand) (a : Option α) : List Demand :=
  a.toList.flatMap demands

end Demand

/-! ### What the wire asks of a packet -/

/-- Flags and optional fields agree, and then all fields can be written. -/
def Connect.demands (c : Connect) : List Demand :=
  [ ⟨c.flags.will = c.willTopic.isSome ∧ c.flags.will = c.willMessage.isSome, .willMismatch⟩,
    ⟨c.flags.will = false → c.flags.willRetain = false ∧ c.flags.willQoS = .atMostOnce,
      .willBitsWithoutWill⟩,
    ⟨c.flags.username = c.username.isSome, .usernameMismatch⟩,
    ⟨c.flags.password = c.password.isSome, .passwordMismatch⟩ ]
  ++ Demand.text c.clientId
  ++ Demand.optional Demand.text c.willTopic
  ++ Demand.optional Demand.data c.willMessage
  ++ Demand.optional Demand.text c.username
  ++ Demand.optional Demand.text c.password

/-- The topic can be written, and then the identifier is there exactly if it is called for. -/
def Publish.demands (p : Publish) : List Demand :=
  Demand.text p.topicName
  ++ [ ⟨p.qos = .atMostOnce → p.packetId = none, .identifierUnwanted⟩,
       ⟨p.qos ≠ .atMostOnce → p.packetId ≠ none, .identifierMissing⟩ ]

/-- There is a request, and then all topic filters can be written. -/
def Subscribe.demands (s : Subscribe) : List Demand :=
  ⟨s.requests ≠ [], .noRequests⟩ :: s.requests.flatMap (Demand.text ·.topicFilter)

/-- There is a topic, and then all topics can be written. -/
def Unsubscribe.demands (u : Unsubscribe) : List Demand :=
  ⟨u.topics ≠ [], .noTopics⟩ :: u.topics.flatMap Demand.text

namespace Packet

/-- What is asked of the body of a packet. -/
def bodyDemands : Packet → List Demand
  | connect c => c.demands
  | publish p => p.demands
  | subscribe s => s.demands
  | unsubscribe u => u.demands
  | connAck _ | receipt _ _ | subAck _ | signal _ => []

/-- What the wire asks of a packet: all that is asked of its body, and then that a header can tell
its length. -/
def demands (p : Packet) : List Demand :=
  p.bodyDemands ++ [⟨p.bodyLength ≤ Varint.maximum, .packetTooLarge⟩]

end Packet

/-! ### The first fault -/

namespace Demand

variable {demands more : List Demand} {d : Demand} {fault : EncodeFault}

@[simp] theorem firstFault_nil : firstFault [] = none := rfl

theorem firstFault_cons :
    firstFault (d :: demands) = if d.met then firstFault demands else some d.fault := by
  cases h : d.met <;> simp [firstFault, h]

theorem firstFault_append :
    firstFault (demands ++ more) = (firstFault demands).or (firstFault more) := by
  rw [firstFault, firstFault, List.find?_append]
  cases demands.find? (!·.met) <;> rfl

/-- The first fault splits the demands: all before it are met. -/
theorem firstFault_eq_some_iff :
    firstFault demands = some fault
      ↔ ∃ before d after, demands = before ++ d :: after
          ∧ (∀ earlier ∈ before, earlier.met = true) ∧ d.met = false ∧ fault = d.fault := by
  simp only [firstFault, Option.map_eq_some_iff, List.find?_eq_some_iff_append]
  constructor
  · intro h
    obtain ⟨d, ⟨unmet, before, after, split, earlier⟩, rfl⟩ := h
    exact ⟨before, d, after, split, by simpa using earlier, by simpa using unmet, rfl⟩
  · intro h
    obtain ⟨before, d, after, split, earlier, unmet, rfl⟩ := h
    exact ⟨d, ⟨by simpa using unmet, before, after, split, by simpa using earlier⟩, rfl⟩

end Demand

theorem Field.encodeData_eq_error_iff {value : Bytes} {fault : EncodeFault} :
    encodeData value = .error fault ↔ Demand.firstFault (Demand.data value) = some fault := by
  by_cases fits : value.length ≤ 65535
  · simp [encodeData, Demand.data, Demand.firstFault_cons, fits, Nat.lt_succ_of_le fits]
  · have long : ¬ value.length < 65536 := by omega
    simp [encodeData, Demand.data, Demand.firstFault_cons, fits, long]

theorem Field.encodeText_eq_error_iff {value : String} {fault : EncodeFault} :
    encodeText value = .error fault ↔ Demand.firstFault (Demand.text value) = some fault := by
  have text_eq : Demand.text value
      = ⟨'\x00' ∉ value.toList, .containsNull⟩ :: Demand.data (Bytes.ofText value) := rfl
  rw [text_eq, Demand.firstFault_cons, encodeText]
  by_cases null : '\x00' ∈ value.toList
  · simp [null]
  · simp [null, encodeData_eq_error_iff]

namespace Step

/-- What a step asks for. -/
def demands : Step → List Demand
  | require condition fault => [⟨condition, fault⟩]
  | write (.text value) => Demand.text value
  | write (.data value) => Demand.data value
  | write (.byte _) | write (.word _) | write (.rest _) => []

theorem run_eq_error_iff {step : Step} {fault : EncodeFault} :
    step.run = .error fault ↔ Demand.firstFault step.demands = some fault := by
  cases step with
  | require condition fault => cases condition <;> simp [run, demands, Demand.firstFault_cons]
  | write field =>
      cases field with
      | byte | word | rest => simp [run, Field.encode, demands]
      | text value => exact Field.encodeText_eq_error_iff
      | data value => exact Field.encodeData_eq_error_iff

/-- **Steps stop at the first demand that is not met.** -/
theorem fault_writeAll (steps : List Step) :
    (writeAll steps).2 = Demand.firstFault (steps.flatMap demands) := by
  induction steps with
  | nil => rfl
  | cons step steps ih =>
      rw [List.flatMap_cons, Demand.firstFault_append, ← ih, writeAll]
      cases h : step.run with
      | error fault => rw [run_eq_error_iff.mp h]; rfl
      | ok bytes =>
          cases unmet : Demand.firstFault step.demands with
          | none => rfl
          | some fault =>
              rw [run_eq_error_iff.mpr unmet] at h
              cases h

/-- A field that may be absent asks for something only if it is there. -/
theorem flatMap_demands_optional {α : Type} (field : α → Field) (a : Option α) :
    (optional field a).flatMap demands
      = Demand.optional (fun v => (write (field v)).demands) a := by
  cases a <;> simp [optional, Demand.optional]

end Step

/-! ### Steps and demands -/

open Demand (firstFault firstFault_cons firstFault_append)

/-- The protocol name can always be written, and a will is two optional fields unless the first
demand is not met. -/
theorem Connect.firstFault_steps (c : Connect) :
    firstFault (c.steps.flatMap Step.demands) = firstFault c.demands := by
  have name (more : List Demand) :
      firstFault (Demand.text protocolName ++ more) = firstFault more := by
    rw [firstFault_append]
    rfl
  have bits : c.flags.willBitsAllowed
      = decide (c.flags.will = false →
          c.flags.willRetain = false ∧ c.flags.willQoS = .atMostOnce) := by
    rw [Bool.eq_iff_iff, ConnectFlags.willBitsAllowed_iff, decide_eq_true_iff]
  by_cases will : c.flags.will = c.willTopic.isSome ∧ c.flags.will = c.willMessage.isSome
  · have steps := willSteps_eq c (by simpa using will)
    simp only [Connect.steps, Connect.demands, steps, List.flatMap_append, List.flatMap_cons,
      Step.demands, Step.flatMap_demands_optional, bits, List.append_assoc, List.cons_append,
      List.nil_append, firstFault_cons, name]
    simp [will.1]
  · simp [Connect.steps, Connect.demands, firstFault_cons, will, Step.demands]

theorem Publish.demands_steps (p : Publish) : p.steps.flatMap Step.demands = p.demands := by
  simp only [Publish.steps, Publish.demands, List.flatMap_append, List.flatMap_cons, Step.demands,
    Step.flatMap_demands_optional]
  cases p.packetId <;> simp [Demand.optional, bne] <;> rfl

/-- The check for an item, as the demand says it. -/
theorem Demand.isEmpty_eq_decide {α : Type} (items : List α) :
    items.isEmpty = decide (items = []) := by
  cases items <;> simp

theorem Subscribe.demands_steps (s : Subscribe) : s.steps.flatMap Step.demands = s.demands := by
  simp [Subscribe.steps, Subscribe.demands, Step.demands, Demand.isEmpty_eq_decide,
    List.flatMap_assoc, TopicRequest.steps]

theorem Unsubscribe.demands_steps (u : Unsubscribe) : u.steps.flatMap Step.demands = u.demands := by
  simp [Unsubscribe.steps, Unsubscribe.demands, Step.demands,
    Demand.isEmpty_eq_decide, List.flatMap_map]

namespace Packet

theorem firstFault_steps (p : Packet) :
    firstFault (p.steps.flatMap Step.demands) = firstFault p.bodyDemands := by
  cases p with
  | connect c => exact Connect.firstFault_steps c
  | publish p => exact congrArg _ p.demands_steps
  | subscribe s => exact congrArg _ s.demands_steps
  | unsubscribe u => exact congrArg _ u.demands_steps
  | connAck | receipt | subAck | signal => rfl

theorem fault_encodeBody (p : Packet) : p.encodeBody.2 = firstFault p.bodyDemands := by
  rw [encodeBody, Step.fault_writeAll, firstFault_steps]

/-- A packet has a body exactly if there is no fault in what is asked of it. -/
theorem wellFormed_iff {p : Packet} : p.WellFormed ↔ firstFault p.bodyDemands = none := by
  rw [← exists_writes_iff_wellFormed, ← fault_encodeBody]
  constructor
  · intro h
    obtain ⟨b, h⟩ := h
    exact congrArg Prod.snd h
  · intro h
    exact ⟨p.encodeBody.1, Prod.ext rfl h⟩

/-- A packet has no fault if it is well formed and a header can tell its length. -/
theorem firstFault_demands_eq_none_iff {p : Packet} :
    firstFault p.demands = none ↔ p.WellFormed ∧ p.bodyLength ≤ Varint.maximum := by
  rw [demands, firstFault_append, Option.or_eq_none_iff, wellFormed_iff, firstFault_cons]
  simp

/-- **A packet is written unless there is a fault**: a header, and the body behind it. -/
theorem encode_eq (p : Packet) :
    p.encode = match firstFault p.demands with
      | some fault => .error ⟨p.kind, fault⟩
      | none =>
        .ok (FixedHeader.firstByte p.kind p.headerFlags :: Varint.encode p.bodyLength
          ++ p.encodeBody.1) := by
  rw [demands, firstFault_append, ← fault_encodeBody, encode, firstFault_cons]
  cases h : p.encodeBody with
  | mk body fault =>
      cases fault with
      | some fault => rfl
      | none =>
          have length : body.length = p.bodyLength := length_of_writes h
          simp only [length, FixedHeader.encode, Varint.encode?]
          by_cases fits : p.bodyLength ≤ Varint.maximum
          · simp only [fits, if_true, decide_true, Option.none_or]
            rfl
          · simp only [fits, if_false, decide_false, Option.none_or]
            rfl

/-- **A packet is refused for its first fault**, under its own kind. -/
theorem encode_eq_error_iff {p : Packet} {e : EncodeError} :
    p.encode = .error e ↔ e.kind = p.kind ∧ firstFault p.demands = some e.fault := by
  rw [encode_eq]
  cases e with
  | mk kind fault => cases firstFault p.demands <;> simp [eq_comm]

theorem exists_encode_eq_ok_iff {p : Packet} :
    (∃ w, p.encode = .ok w) ↔ p.WellFormed ∧ p.bodyLength ≤ Varint.maximum := by
  rw [← firstFault_demands_eq_none_iff, encode_eq]
  cases firstFault p.demands <;> simp

/-- **Which packets are written, and why the others are not.** A packet is written exactly if it is
well formed and its body is not too long; packets that consist of a few bytes always are. A packet
that is not written is refused under its own kind, for the first demand that it does not meet in
the order in which it is written: all demands before that one are met. -/
theorem encode_wellFormed_or_first_fault (p : Packet) :
    ((∃ w, p.encode = .ok w) ↔ p.WellFormed ∧ p.bodyLength ≤ Varint.maximum)
      ∧ (p.kind ∉ [.connect, .publish, .subscribe, .subAck, .unsubscribe] →
          ∃ w, p.encode = .ok w)
      ∧ ∀ e, p.encode = .error e
          ↔ e.kind = p.kind ∧ ∃ before d after, p.demands = before ++ d :: after
              ∧ (∀ earlier ∈ before, earlier.met = true) ∧ d.met = false ∧ e.fault = d.fault := by
  refine ⟨exists_encode_eq_ok_iff, fun small => ?_, fun e => ?_⟩
  · rw [exists_encode_eq_ok_iff]
    cases p with
    | connAck | receipt | signal => exact ⟨trivial, by simp [bodyLength, Varint.maximum]⟩
    | connect | publish | subscribe | subAck | unsubscribe => simp [kind] at small
  · rw [encode_eq_error_iff, Demand.firstFault_eq_some_iff]

/-- The topic is looked at before the identifier, which is missing too. -/
example : (Packet.publish { qos := .atLeastOnce, topicName := "\x00" }).encode
    = .error ⟨.publish, .containsNull⟩ := by
  cbv

end Packet
end Mqtt

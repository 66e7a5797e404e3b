import Mqtt.Proofs.Packet.RoundTrip

/-!
# Packets behind one another

A buffer takes packets one behind the other. A packet that the wire can carry adds the bytes that it
is written as on its own. One that it cannot carry adds nothing, wherever its writing stopped: at a
condition, in a field, or at the length of the whole.
-/
namespace Mqtt

namespace Packet

/-- The bytes of a packet, none if the wire cannot carry it. -/
def wire (p : Packet) : Bytes :=
  match p.encode with
  | .ok bytes => bytes
  | .error _ => []

theorem wire_of_encode {p : Packet} {bytes : Bytes} (h : p.encode = .ok bytes) :
    p.wire = bytes := by
  rw [wire, h]

theorem wire_of_encode_error {p : Packet} {e : EncodeError} (h : p.encode = .error e) :
    p.wire = [] := by
  rw [wire, h]

/-- **A packet is written behind a buffer as on its own, or not at all.** -/
theorem appendTo_eq (buffer : Bytes) (p : Packet) :
    p.appendTo buffer = buffer.extend p.encode := by
  rw [appendTo, encode]
  rcases p.encodeBody with ⟨body, _ | fault⟩
  · simp only [FixedHeader.appendTo_eq]
    cases FixedHeader.encode p.kind p.headerFlags body.length with
    | error e => rfl
    | ok header => simp [Bytes.extend, Functor.map, Except.map]
  · rfl

theorem appendTo_of_encode {p : Packet} {bytes : Bytes} (h : p.encode = .ok bytes)
    (buffer : Bytes) : p.appendTo buffer = (buffer ++ bytes, none) := by
  rw [appendTo_eq, h, Bytes.extend]

theorem appendTo_of_encode_error {p : Packet} {e : EncodeError} (h : p.encode = .error e)
    (buffer : Bytes) : p.appendTo buffer = (buffer, some e) := by
  rw [appendTo_eq, h, Bytes.extend]

/-- The packets of a row that were written. -/
def carried (packets : List Packet) (outcomes : List (Bytes × Option EncodeError)) :
    List Packet :=
  ((packets.zip outcomes).filter (·.2.2.isNone)).map Prod.fst

/-- What the buffer holds behind a row of packets. -/
def lastBuffer (buffer : Bytes) (outcomes : List (Bytes × Option EncodeError)) : Bytes :=
  (outcomes.getLast?.map Prod.fst).getD buffer

@[simp] theorem lastBuffer_cons (buffer : Bytes) (outcome : Bytes × Option EncodeError)
    (outcomes : List (Bytes × Option EncodeError)) :
    lastBuffer buffer (outcome :: outcomes) = lastBuffer outcome.1 outcomes := by
  rw [lastBuffer, lastBuffer, List.getLast?_cons, Option.map_some, Option.getD_some]
  cases outcomes.getLast? <;> rfl

theorem length_appendAllTo (buffer : Bytes) (packets : List Packet) :
    (appendAllTo buffer packets).length = packets.length := by
  induction packets generalizing buffer with
  | nil => rfl
  | cons p packets ih => rw [appendAllTo, List.length_cons, ih, List.length_cons]

/-- **Behind a row of packets** a buffer holds what it held before, and the bytes of the packets
that were written, in order. The induction is on the packets, for any content before them. -/
theorem lastBuffer_appendAllTo (buffer : Bytes) (packets : List Packet) :
    let outcomes := appendAllTo buffer packets
    lastBuffer buffer outcomes = buffer ++ (carried packets outcomes).flatMap wire
      ∧ ∀ p ∈ carried packets outcomes, p.encode = .ok p.wire := by
  induction packets generalizing buffer with
  | nil => simp [appendAllTo, carried, lastBuffer]
  | cons p packets ih =>
      intro outcomes
      have outcomes_eq :
          outcomes = p.appendTo buffer :: appendAllTo (p.appendTo buffer).1 packets := rfl
      rw [outcomes_eq, lastBuffer_cons, carried, List.zip_cons_cons]
      cases h : p.encode with
      | error e =>
          rw [appendTo_of_encode_error h, List.filter_cons]
          exact ih buffer
      | ok bytes =>
          obtain ⟨last, written⟩ := ih (buffer ++ bytes)
          rw [appendTo_of_encode h, List.filter_cons_of_pos rfl, List.map_cons, List.flatMap_cons,
            last, wire_of_encode h, List.append_assoc]
          refine ⟨rfl, List.forall_mem_cons.mpr ⟨?_, written⟩⟩
          rw [h, wire_of_encode h]

/-- **Packets are written as a whole or not at all.** When a row of packets is written to one
buffer, whatever it holds, there is an outcome for each; in the end the buffer holds what it held
before, and behind it the bytes of exactly the packets that were written, in order. Behind any
content, a packet is written exactly if the wire can carry it, and refused for the same reason
otherwise; and a packet that is refused leaves the buffer as it is. -/
theorem appendAllTo_atomic (buffer : Bytes) (packets : List Packet) :
    let outcomes := appendAllTo buffer packets
    let written := carried packets outcomes
    outcomes.length = packets.length
      ∧ lastBuffer buffer outcomes = buffer ++ written.flatMap wire
      ∧ (∀ p ∈ written, p.encode = .ok p.wire)
      ∧ ∀ (held : Bytes) (p : Packet),
          ((p.appendTo held).2 = none ↔ ∃ bytes, p.encode = .ok bytes)
            ∧ (∀ e, (p.appendTo held).2 = some e ↔ p.encode = .error e)
            ∧ ((p.appendTo held).2 ≠ none → (p.appendTo held).1 = held) := by
  intro outcomes written
  obtain ⟨last, wires⟩ := lastBuffer_appendAllTo buffer packets
  refine ⟨length_appendAllTo buffer packets, last, wires, fun held p => ?_⟩
  cases h : p.encode with
  | error e => simp [appendTo_of_encode_error h]
  | ok bytes => simp [appendTo_of_encode h]

/-- The second topic cannot be written, when the first one is. -/
example :
    appendAllTo [7] [.signal .pingReq, .unsubscribe ⟨1, ["a", "\x00"]⟩, .signal .disconnect]
      = [([7, 0xc0, 0], none), ([7, 0xc0, 0], some ⟨.unsubscribe, .containsNull⟩),
          ([7, 0xc0, 0, 0xe0, 0], none)] := by
  cbv

end Packet
end Mqtt

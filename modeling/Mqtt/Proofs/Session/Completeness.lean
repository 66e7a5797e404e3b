import Mqtt.Proofs.Packet.RoundTrip
import Mqtt.Proofs.Session.Reading

/-!
# Streams of written packets

A stream of written packets, in an order that the role of the session permits and within its limit,
is read as these packets and leaves nothing behind. A written packet is a frame that is judged good.
The rest follows by induction on the packets.
-/
namespace Mqtt

/-- The packets may come in this order when a number of others have been received. -/
def Role.Orderly (role : Role) : Nat → List Packet → Prop
  | _, [] => True
  | received, p :: packets => role.Permits received p.kind ∧ role.Orderly (received + 1) packets

namespace Role

/-- Once there is a packet, all others are of other kinds than the first. -/
theorem orderly_of_pos {role : Role} {received : Nat} (h : 0 < received) {packets : List Packet} :
    role.Orderly received packets
      ↔ ∀ p ∈ packets, p.kind ≠ role.first ∧ role.accepts p.kind = true := by
  induction packets generalizing received with
  | nil => simp [Orderly]
  | cons p packets ih =>
      rw [Orderly, ih (Nat.succ_pos received), List.forall_mem_cons]
      have permits : role.Permits received p.kind
          ↔ p.kind ≠ role.first ∧ role.accepts p.kind = true := by
        constructor
        · rintro ⟨haccepts, hfirst⟩
          exact ⟨fun hkind => Nat.ne_of_gt h (hfirst.mp hkind), haccepts⟩
        · rintro ⟨hne, haccepts⟩
          exact ⟨haccepts, iff_of_false hne (Nat.ne_of_gt h)⟩
      rw [permits]

/-- One more packet may come if its kind may, behind all that came before. -/
theorem orderly_append_singleton {role : Role} {received : Nat} {packets : List Packet}
    {p : Packet} : role.Orderly received (packets ++ [p])
      ↔ role.Orderly received packets ∧ role.Permits (received + packets.length) p.kind := by
  induction packets generalizing received with
  | nil => simp [Orderly]
  | cons q packets ih =>
      rw [List.cons_append, Orderly, Orderly, ih, List.length_cons, and_assoc,
        Nat.add_right_comm, Nat.add_assoc]

/-- A stream opens with the first kind, and that does not come again. -/
theorem orderly_cons_iff {role : Role} {first : Packet} {others : List Packet} :
    role.Orderly 0 (first :: others)
      ↔ first.kind = role.first
        ∧ ∀ p ∈ others, p.kind ≠ role.first ∧ role.accepts p.kind = true := by
  rw [Orderly, orderly_of_pos Nat.one_pos]
  constructor
  · rintro ⟨permits, h⟩
    exact ⟨permits.first.mpr rfl, h⟩
  · rintro ⟨hfirst, h⟩
    exact ⟨⟨hfirst ▸ role.accepts_first, iff_of_true hfirst rfl⟩, h⟩

end Role

namespace Session

/-- What is told of a packet without padding. -/
def told (p : Packet) : Report :=
  decoded p ⟨p.encodeBody.1.length, []⟩

/-- **A written packet at the front of the buffer is told**: it is a frame, and judged good. -/
theorem drain_of_encode {s : Session} {p : Packet} {wire rest : Bytes}
    (phase : s.phase = .awaitingHeader) (buffer : s.buffer = wire ++ rest)
    (hwire : p.encode = .ok wire) (permits : s.role.Permits s.packets p.kind)
    (limit : p.encodeBody.1.length ≤ s.limit) :
    let next := { s with buffer := rest, packets := s.packets + 1 }
    s.drain = (told p :: next.drain.1, next.drain.2) := by
  obtain ⟨front, body, hfront, hbody, rfl⟩ := Packet.encode_eq_ok_iff.mp hwire
  have hlength : p.encodeBody.1.length = body.length := congrArg (·.1.length) hbody
  rw [hlength] at limit
  let header : FixedHeader := ⟨p.kind.code, p.headerFlags, body.length⟩
  have scan : FixedHeader.decode front = .complete header front.length := by
    have hscan := Packet.decode_header_append hfront []
    rwa [List.append_nil] at hscan
  let f : Frame := Frame.ofParts scan rfl
  have verdict : s.judge f.header f.body = .ok (p, ⟨body.length, []⟩) := by
    rw [Frame.body_ofParts]
    exact judge_eq_ok_iff.mpr ⟨p.kind, rfl, permits, Packet.decode_body hbody⟩
  have hdrain := drain_of_verdict phase buffer limit verdict
  rw [hdrain, told, hlength]

/-- Packets are written one after the other if each of them is. -/
theorem mapM_encode_cons {p : Packet} {packets : List Packet} {wires : List Bytes} :
    (p :: packets).mapM Packet.encode = .ok wires
      ↔ ∃ wire others, p.encode = .ok wire ∧ packets.mapM Packet.encode = .ok others
          ∧ wires = wire :: others := by
  rw [List.mapM_cons]
  constructor
  · intro h
    cases hwire : p.encode with
    | error e =>
        rw [hwire] at h
        cases h
    | ok wire =>
        cases hothers : packets.mapM Packet.encode with
        | error e =>
            rw [hwire, hothers] at h
            cases h
        | ok others =>
            rw [hwire, hothers] at h
            cases h
            exact ⟨wire, others, rfl, rfl, rfl⟩
  · rintro ⟨wire, others, hwire, hothers, rfl⟩
    rw [hwire, hothers]
    rfl

/-- **All written packets of a stream are told.** The induction is on the packets, for any number of
packets before them. -/
theorem drain_of_mapM_encode {packets : List Packet} {wires : List Bytes} {s : Session}
    (hwires : packets.mapM Packet.encode = .ok wires) (phase : s.phase = .awaitingHeader)
    (buffer : s.buffer = wires.flatten) (order : s.role.Orderly s.packets packets)
    (limit : ∀ p ∈ packets, p.encodeBody.1.length ≤ s.limit) :
    s.drain
      = (packets.map told, { s with buffer := [], packets := s.packets + packets.length }) := by
  induction packets generalizing wires s with
  | nil =>
      cases hwires
      change s.buffer = [] at buffer
      have wait := (Rule.shortHeader phase (by rw [buffer]; rfl)).step_eq
      rw [drain_of_wait wait, ← buffer]
      rfl
  | cons p packets ih =>
      obtain ⟨wire, others, hwire, hothers, rfl⟩ := mapM_encode_cons.mp hwires
      obtain ⟨permits, order⟩ := order
      obtain ⟨hp, limit⟩ := List.forall_mem_cons.mp limit
      rw [List.flatten_cons] at buffer
      rw [drain_of_encode phase buffer hwire permits hp,
        ih (s := { s with buffer := others.flatten, packets := s.packets + 1 }) hothers phase rfl
          order limit]
      rw [List.map_cons, List.length_cons, Nat.add_right_comm, Nat.add_assoc]

/-- **A new session reads the packets of a stream**, however the stream is cut, and is left as it
was but for their number. -/
theorem receiveAll_of_encode (role : Role) (limit : Nat) {first : Packet} {others : List Packet}
    (hfirst : first.kind = role.first)
    (hothers : ∀ p ∈ others, p.kind ≠ role.first ∧ role.accepts p.kind = true)
    (hlimit : ∀ p ∈ first :: others, p.encodeBody.1.length ≤ min limit Varint.maximum)
    {wires : List Bytes} (hwires : (first :: others).mapM Packet.encode = .ok wires)
    {pieces : List Bytes} (hpieces : pieces.flatten = wires.flatten) :
    let s := (start role).withLimit limit
    let run := s.receiveAll pieces
    events run.1 = (first :: others).map .packet
      ∧ run.2.phase = .awaitingHeader ∧ run.2.pendingHeader = none ∧ run.2.buffer = []
      ∧ run.2 = { s with packets := (first :: others).length } := by
  intro s run
  have order := Role.orderly_cons_iff.mpr ⟨hfirst, hothers⟩
  have run_eq : run = (s.offer wires.flatten).drain := by
    rw [← hpieces, ← receive_eq_drain_offer]
    exact ((settled_start role).withLimit limit).receiveAll pieces
  have drained := drain_of_mapM_encode (s := s.offer wires.flatten) hwires rfl rfl order hlimit
  rw [run_eq, drained]
  refine ⟨?_, rfl, rfl, rfl, ?_⟩
  · rw [events, List.map_map]
    rfl
  · change { s with packets := 0 + (first :: others).length } = _
    rw [Nat.zero_add]

/-- A connect packet of the largest body that the limit allows, a publish packet and a ping, of
which the first two are cut. -/
theorem receiveAll_connect_publish_ping :
    let first : Packet := .connect { clientId := "a" }
    let publish : Packet :=
      .publish { qos := .atLeastOnce, topicName := "t", payload := [7], packetId := some 9 }
    let others : List Packet := [publish, .signal .pingReq]
    let wires : List Bytes :=
      [[0x10, 13, 0, 4, 77, 81, 84, 84, 4, 2, 0, 60, 0, 1, 97], [0x32, 6, 0, 1, 116, 0, 9, 7],
        [0xc0, 0]]
    let pieces : List Bytes :=
      [[0x10], [13, 0, 4, 77, 81, 84, 84, 4, 2, 0, 60, 0, 1, 97, 0x32, 6, 0], [],
        [1, 116, 0, 9, 7, 0xc0, 0]]
    (first :: others).mapM Packet.encode = .ok wires ∧ pieces.flatten = wires.flatten ∧
      events (((start .server).withLimit 13).receiveAll pieces).1
        = (first :: others).map .packet := by
  intro first publish others wires pieces
  have hfirst : first.encode = .ok wires[0] :=
    Packet.encode_of_short first (wires[0].drop 2) (by rfl) (by decide)
  have hpublish : publish.encode = .ok wires[1] :=
    Packet.encode_of_short publish (wires[1].drop 2) (by rfl) (by decide)
  have hping : (Packet.signal .pingReq).encode = .ok wires[2] :=
    Packet.encode_of_short (.signal .pingReq) [] rfl (by decide)
  have hwires : (first :: others).mapM Packet.encode = .ok wires := by
    refine mapM_encode_cons.mpr ⟨_, _, hfirst, ?_, rfl⟩
    refine mapM_encode_cons.mpr ⟨_, _, hpublish, ?_, rfl⟩
    exact mapM_encode_cons.mpr ⟨_, _, hping, rfl, rfl⟩
  have hpieces : pieces.flatten = wires.flatten := by decide
  have hothers : ∀ p ∈ others, p.kind ≠ Role.server.first ∧ Role.server.accepts p.kind = true := by
    decide
  have hlimit : ∀ p ∈ first :: others, p.encodeBody.1.length ≤ min 13 Varint.maximum := by
    decide +kernel
  exact ⟨hwires, hpieces,
    (receiveAll_of_encode .server 13 rfl hothers hlimit hwires hpieces).1⟩

end Session
end Mqtt

import Mqtt.Proofs.Packet.Body
import Mqtt.Proofs.Wire.FixedHeader

/-!
# Whole packets, there and back

A written packet is a header and a body. Reading it gives the packet back, and writing a packet that
was read gives the bytes that it was read from, under the shortest header. The laws of bodies and of
headers are put together here; what is new is that the length in the header cuts out the body.
-/
namespace Mqtt.Packet

open Step

/-- The flags of a packet are four bits. -/
theorem headerFlags_lt (p : Packet) : p.headerFlags < 16 := by
  cases p with
  | publish p =>
      have h1 := p.duplicate.toNat_le
      have h2 := p.qos.level_lt
      have h3 := p.retain.toNat_le
      simp only [headerFlags]
      omega
  | receipt r packetId => cases r <;> simp [headerFlags, kind, Receipt.kind, Kind.requiredFlags]
  | signal s => cases s <;> simp [headerFlags, kind, Signal.kind, Kind.requiredFlags]
  | _ => simp [headerFlags, kind, Kind.requiredFlags]

/-- A packet is written exactly if its steps write a body and a header can tell the length. -/
theorem encode_eq_ok_iff {p : Packet} {w : Bytes} :
    p.encode = .ok w
      ↔ ∃ header body, FixedHeader.encode p.kind p.headerFlags body.length = .ok header
          ∧ Writes p.steps body ∧ w = header ++ body := by
  rw [encode, encodeBody]
  constructor
  · intro h
    split at h
    · cases h
    · next body hbody =>
      cases hheader : FixedHeader.encode p.kind p.headerFlags body.length with
      | error e =>
          rw [hheader] at h
          cases h
      | ok header =>
          rw [hheader] at h
          cases h
          exact ⟨header, body, hheader, hbody, rfl⟩
  · rintro ⟨header, body, hheader, hbody, rfl⟩
    rw [Writes] at hbody
    rw [hbody]
    simp only [hheader]
    rfl

/-- The header of a short packet takes two bytes. -/
theorem encode_of_short (p : Packet) (body : Bytes) (h : p.encodeBody = (body, none))
    (short : body.length < 128) :
    p.encode
      = .ok (FixedHeader.firstByte p.kind p.headerFlags :: UInt8.ofNat body.length :: body) := by
  have header : FixedHeader.encode p.kind p.headerFlags body.length
      = .ok [FixedHeader.firstByte p.kind p.headerFlags, UInt8.ofNat body.length] := by
    rw [FixedHeader.encode_eq_ok_iff, Varint.encode_of_lt short]
    exact ⟨Nat.le_trans (Nat.le_of_lt short) (by decide), rfl⟩
  exact encode_eq_ok_iff.mpr ⟨_, body, header, h, rfl⟩

/-- The header of a packet, in front of whatever follows. -/
theorem decode_header_append {p : Packet} {n : Nat} {header : Bytes}
    (h : FixedHeader.encode p.kind p.headerFlags n = .ok header) (more : Bytes) :
    FixedHeader.decode (header ++ more)
      = .complete ⟨p.kind.code, p.headerFlags, n⟩ header.length := by
  rw [FixedHeader.decode_encode_append h, FixedHeader.length_of_encode h,
    Nat.mod_eq_of_lt p.headerFlags_lt]

/-- The body of a packet is read back, and used up. -/
theorem decode_body {p : Packet} {body : Bytes} (h : Writes p.steps body) :
    (decode p.kind p.headerFlags).read (.start body) = (.ok p, ⟨body.length, []⟩) := by
  have hread := (reads_decode p.kind p.headerFlags_lt).read_append ⟨rfl, rfl, h, fun _ => rfl⟩ 0
  rwa [List.append_nil, Nat.zero_add] at hread

theorem toleratesPadding_iff {kind : Kind} :
    toleratesPadding kind = true ↔ kind = .connect ∨ kind = .connAck := by
  cases kind <;> decide

/-- Whatever the flags are, the body of a kind is read as a packet of that kind. -/
theorem kind_of_decode {kind : Kind} {flags : Nat} {c c' : Cursor} {p : Packet}
    (h : (decode kind flags).read c = (.ok p, c')) : p.kind = kind := by
  obtain ⟨_, _, -, h⟩ := Decoder.read_bind_eq_ok_iff.mp h
  cases kind with
  | connect | connAck | publish | subscribe | subAck | unsubscribe =>
      obtain ⟨_, rfl⟩ := Decoder.exists_eq_of_read_map h
      rfl
  | pubAck | pubRec | pubRel | pubComp | unsubAck =>
      obtain ⟨_, _, -, h⟩ := Decoder.read_bind_eq_ok_iff.mp h
      obtain ⟨_, _, -, h⟩ := Decoder.read_bind_eq_ok_iff.mp h
      cases h
      rfl
  | pingReq | pingResp | disconnect =>
      obtain ⟨_, _, -, h⟩ := Decoder.read_bind_eq_ok_iff.mp h
      cases h
      rfl

/-- What is known of a packet that was read: the bytes consumed are the ones it is written as. -/
theorem writes_of_decode {kind : Kind} {flags : Nat} (hflags : flags < 16) {body : Bytes}
    {p : Packet} {c : Cursor} (h : (decode kind flags).read (.start body) = (.ok p, c)) :
    p.kind = kind ∧ p.headerFlags = flags ∧ Writes p.steps (body.take c.position)
      ∧ c.position ≤ body.length ∧ (toleratesPadding kind = false → c.position = body.length) := by
  obtain ⟨b, ⟨ahead, position⟩, hkind, hheader, hb, hleft⟩ :=
    (reads_decode kind hflags _ _ _).mp h
  change body = b ++ c.ahead at ahead
  rw [Cursor.start, Nat.zero_add] at position
  refine ⟨hkind, hheader, ?_, ?_, ?_⟩
  · rwa [position, ahead, List.take_left]
  · rw [position, ahead, List.length_append]
    exact Nat.le_add_right ..
  · intro hkind
    rw [position, ahead, hleft hkind, List.append_nil]

/-- **Reading undoes writing.** A written packet opens with a header that tells its kind, its flags
and the length of the rest, and its body is read back as the packet, with nothing left. -/
theorem decode_of_encode {p : Packet} {w : Bytes} (h : p.encode = .ok w) :
    ∃ header size, FixedHeader.decode w = .complete header size
      ∧ header.code = p.kind.code
      ∧ size = 1 + Varint.size header.remaining
      ∧ w.length = size + header.remaining
      ∧ (decode p.kind header.flags).read (.start (w.drop size))
          = (.ok p, ⟨header.remaining, []⟩) := by
  obtain ⟨header, body, hheader, hbody, rfl⟩ := encode_eq_ok_iff.mp h
  refine ⟨_, _, decode_header_append hheader body, rfl, FixedHeader.length_of_encode hheader,
    List.length_append, ?_⟩
  rw [List.drop_left]
  exact decode_body hbody

/-- A connect packet with a will, a client identifier beyond ASCII and an empty password. -/
def lastWill : Packet :=
  .connect
    { clientId := "ü"
      flags :=
        { password := true, willRetain := true, willQoS := .exactlyOnce, will := true }
      keepAlive := 258
      willTopic := some "w"
      willMessage := some [0, 255]
      password := some "" }

/-- Its bytes. -/
def lastWillBytes : Bytes :=
  [0x10, 23, 0, 4, 77, 81, 84, 84, 4, 0x74, 1, 2, 0, 2, 0xc3, 0xbc, 0, 1, 119, 0, 2, 0, 255, 0, 0]

theorem decode_lastWill :
    lastWill.encode = .ok lastWillBytes ∧
      ∃ header size, FixedHeader.decode lastWillBytes = .complete header size
        ∧ header.code = lastWill.kind.code
        ∧ size = 1 + Varint.size header.remaining
        ∧ lastWillBytes.length = size + header.remaining
        ∧ (decode lastWill.kind header.flags).read (.start (lastWillBytes.drop size))
            = (.ok lastWill, ⟨header.remaining, []⟩) :=
  have body : lastWill.encodeBody = (lastWillBytes.drop 2, none) := by rfl
  have h : lastWill.encode = .ok lastWillBytes := encode_of_short lastWill _ body (by decide)
  ⟨h, decode_of_encode h⟩

/-- **Writing undoes reading.** A packet that was read has the kind and the flags it was read with
and is well formed; its body is the bytes that were consumed, and those are all of them unless the
kind tolerates padding. It is written under the shortest header, and read back from that. -/
theorem encode_of_decode {kind : Kind} {flags : Nat} (hflags : flags < 16) {body : Bytes}
    (hlength : body.length ≤ Varint.maximum) {p : Packet} {c : Cursor}
    (h : (decode kind flags).read (.start body) = (.ok p, c)) :
    p.kind = kind ∧ p.WellFormed ∧ p.headerFlags = flags
      ∧ p.encodeBody = (body.take c.position, none)
      ∧ (kind ≠ .connect → kind ≠ .connAck → c.position = body.length)
      ∧ ∃ header, FixedHeader.encode kind flags c.position = .ok header
          ∧ (∀ other size,
              FixedHeader.decode other = .complete ⟨kind.code, flags, c.position⟩ size →
                header.length ≤ size)
          ∧ p.encode = .ok (header ++ body.take c.position)
          ∧ FixedHeader.decode (header ++ body.take c.position)
              = .complete ⟨kind.code, flags, c.position⟩ header.length
          ∧ (decode kind flags).read (.start (body.take c.position))
              = (.ok p, ⟨c.position, []⟩) := by
  obtain ⟨rfl, rfl, hb, hle, hall⟩ := writes_of_decode hflags h
  have hposition : (body.take c.position).length = c.position := List.length_take_of_le hle
  refine ⟨rfl, exists_writes_iff_wellFormed.mp ⟨_, hb⟩, rfl, hb, ?_, ?_⟩
  · intro hconnect hconnAck
    refine hall (Bool.eq_false_iff.mpr fun htolerates => ?_)
    exact (toleratesPadding_iff.mp htolerates).elim hconnect hconnAck
  · obtain ⟨header, hheader⟩ :
        ∃ header, FixedHeader.encode p.kind p.headerFlags c.position = .ok header :=
      ⟨_, FixedHeader.encode_eq_ok_iff.mpr ⟨Nat.le_trans hle hlength, rfl⟩⟩
    have hread := decode_body hb
    rw [hposition] at hread
    refine ⟨header, hheader, ?_, ?_, decode_header_append hheader _, hread⟩
    · intro other size hother
      exact FixedHeader.length_le_of_decode hheader hother
    · exact encode_eq_ok_iff.mpr ⟨_, _, by rwa [hposition], hb, rfl⟩

/-- The body of a connect packet with two bytes of padding, which are not written again. -/
def paddedBody : Bytes :=
  [0, 4, 77, 81, 84, 84, 4, 2, 0, 60, 0, 1, 97, 9, 9]

theorem encode_padded :
    0 < 16 ∧ paddedBody.length ≤ Varint.maximum ∧
      (decode .connect 0).read (.start paddedBody)
        = (.ok (.connect { clientId := "a" }), ⟨13, [9, 9]⟩) ∧
      (Packet.connect { clientId := "a" }).WellFormed ∧
      ∃ header,
        (Packet.connect { clientId := "a" }).encode = .ok (header ++ paddedBody.take 13) := by
  have hread : (decode .connect 0).read (.start paddedBody)
      = (.ok (.connect { clientId := "a" }), ⟨13, [9, 9]⟩) := by rfl
  have hlength : paddedBody.length ≤ Varint.maximum := by decide
  obtain ⟨-, hformed, -, -, -, header, -, -, hencode, -⟩ :=
    encode_of_decode (by decide) hlength hread
  exact ⟨by decide, hlength, hread, hformed, header, hencode⟩

end Mqtt.Packet

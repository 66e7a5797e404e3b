import Mqtt.Proofs.Packet.ConnectFlags
import Mqtt.Proofs.Packet.WellFormed
import Mqtt.Proofs.Wire.Reading

/-!
# Bodies, there and back

The decoder of each packet reads the bytes that the steps of the packet write, and no others. Each
decoder is taken apart into its fields, each list of steps into its own, and the two agree field by
field: what the decoder checks on the way is what the steps require in front.
-/
namespace Mqtt

open Decoder Step

/-- A field that may be absent is written by a step that may be absent. -/
theorem Step.writes_optional {α : Type} {field : α → Field} {announced : Bool} {a : Option α}
    {b left : Bytes} :
    optionalForm announced (fun a b _ => (field a).encode = .ok b) a b left
      ↔ (announced == a.isSome) = true ∧ Writes (Step.optional field a) b := by
  cases a <;> simp [optionalForm, Step.optional]

/-- The flags are read before the optional fields and decide which of them are read, so what was
read agrees with its flags; a packet that is written has to agree with them. -/
theorem Connect.reads_decode : Connect.decode.Reads fun p b _ => Writes p.steps b := by
  refine (reads_text.bind fun name => Reads.require _ _ _ <|
    reads_byte.bind fun level => Reads.require _ _ _ <|
    reads_byte.bind fun byte => Reads.lift _ fun flags =>
    reads_word.bind fun keepAlive => reads_text.bind fun clientId =>
    (reads_text.optional _).bind fun willTopic => (reads_data.optional _).bind fun willMessage =>
    (reads_text.optional _).bind fun username =>
    (reads_text.optional _).bind_pure fun password => _).congr fun p b left => ?_
  simp only [Connect.steps, List.append_assoc, List.cons_append, List.nil_append,
    writes_write_cons, writes_require_cons, writes_append, writes_optional]
  constructor
  · rintro ⟨name, b1, _, rfl, h1, hname, level, b2, _, rfl, h2, hlevel, byte, b3, _, rfl, h3,
      flags, hflags, keepAlive, b4, _, rfl, h4, clientId, b5, _, rfl, h5, topic, b6, _, rfl,
      ⟨htopic, h6⟩, message, b7, _, rfl, ⟨hmessage, h7⟩, username, b8, b9, rfl, ⟨husername, h8⟩,
      password, rfl, hpassword, h9⟩
    obtain rfl := eq_of_beq hname
    obtain rfl := eq_of_beq hlevel
    obtain ⟨rfl, hallowed⟩ := ConnectFlags.ofByte_eq_ok_iff.mp hflags
    have hwill := Bool.and_eq_true_iff.mpr ⟨htopic, hmessage⟩
    have hsteps := writes_append.mpr ⟨b6, b7, rfl, h6, h7⟩
    refine ⟨hwill, hallowed, husername, hpassword, b1, _, rfl, h1, b2, _, rfl, h2, b3, _, rfl, h3,
      b4, _, rfl, h4, b5, _, rfl, h5, b6 ++ b7, _, (List.append_assoc ..).symm, ?_, b8, b9, rfl,
      h8, h9⟩
    rwa [willSteps_eq _ hwill]
  · rintro ⟨hwill, hallowed, husername, hpassword, b1, _, rfl, h1, b2, _, rfl, h2, b3, _, rfl, h3,
      b4, _, rfl, h4, b5, _, rfl, h5, _, _, rfl, hsteps, b8, b9, rfl, h8, h9⟩
    rw [willSteps_eq p hwill, writes_append] at hsteps
    obtain ⟨b6, b7, rfl, h6, h7⟩ := hsteps
    obtain ⟨htopic, hmessage⟩ := Bool.and_eq_true_iff.mp hwill
    have hflags := ConnectFlags.ofByte_eq_ok_iff.mpr ⟨rfl, hallowed⟩
    exact ⟨protocolName, b1, _, rfl, h1, beq_self_eq_true _, protocolLevel, b2, _, rfl, h2,
      beq_self_eq_true _, p.flags.byte, b3, _, rfl, h3, p.flags, hflags, p.keepAlive, b4, _, rfl,
      h4, p.clientId, b5, _, rfl, h5, p.willTopic, b6, _, List.append_assoc .., ⟨htopic, h6⟩,
      p.willMessage, b7, _, rfl, ⟨hmessage, h7⟩, p.username, b8, b9, rfl, ⟨husername, h8⟩,
      p.password, rfl, hpassword, h9⟩

/-- Of the acknowledge bytes only zero and one are read, which are the two that are written. -/
theorem ConnAck.reads_decode : ConnAck.decode.Reads fun a b _ => Writes a.steps b := by
  refine (reads_byte.bind fun acknowledge => Reads.require _ _ _ <|
    reads_byte.bind_pure fun returnCode => _).congr fun a b left => ?_
  simp only [ConnAck.steps, writes_write_cons, writes_nil]
  constructor
  · rintro ⟨acknowledge, front, _, rfl, hfront, hack, code, rfl, hcode⟩
    have hlt : acknowledge.toNat < 2 := of_decide_eq_true hack
    have hbyte : UInt8.ofNat (acknowledge.toNat % 2 == 1).toNat = acknowledge := by
      apply UInt8.toNat_inj.mp
      rcases (by omega : acknowledge.toNat = 0 ∨ acknowledge.toNat = 1) with h | h <;> simp [h]
    simp only [hbyte]
    exact ⟨front, _, rfl, hfront, _, [], (List.append_nil _).symm, hcode, rfl⟩
  · rintro ⟨front, _, rfl, hfront, code, _, rfl, hcode, rfl⟩
    rw [List.append_nil]
    rcases a with ⟨_ | _, returnCode⟩
    · exact ⟨0, front, code, rfl, hfront, rfl, returnCode, rfl, hcode⟩
    · exact ⟨1, front, code, rfl, hfront, rfl, returnCode, rfl, hcode⟩

/-- The four low bits of the header of a publish packet tell how its message is delivered. -/
theorem Publish.headerFlags_eq_iff {p : Publish} {flags : Nat} (h : flags < 16) :
    (Packet.publish p).headerFlags = flags
      ↔ p.duplicate = (flags / 8 % 2 == 1) ∧ flags / 2 % 4 = p.qos.level
        ∧ p.retain = (flags % 2 == 1) := by
  have hqos := p.qos.level_lt
  rw [Packet.headerFlags]
  cases p.duplicate <;> cases p.retain <;>
    simp only [Bool.toNat_false, Bool.toNat_true, eq_comm (a := false), eq_comm (a := true),
      beq_iff_eq, beq_eq_false_iff_ne] <;> omega

/-- The payload takes all that is left, and the packet keeps what its flags tell. -/
theorem Publish.reads_decode {flags : Nat} (h : flags < 16) :
    (Publish.decode flags).Reads fun p b left =>
      (Packet.publish p).headerFlags = flags ∧ Writes p.steps b ∧ left = [] := by
  refine (Reads.guarantee _ _ _ fun qos => reads_text.bind fun topicName =>
    (reads_word.optional _).bind fun packetId => reads_rest.bind_pure fun payload =>
      _).congr fun p b left => ?_
  simp only [Publish.steps, List.cons_append, List.nil_append, writes_write_cons, writes_nil,
    writes_require_cons, writes_append, writes_optional, headerFlags_eq_iff h]
  constructor
  · rintro ⟨qos, hqos, topicName, front, _, rfl, hfront, packetId, middle, payload, rfl,
      ⟨hannounced, hmiddle⟩, _, rfl, rfl, rfl⟩
    obtain ⟨hunwanted, hmissing⟩ := identifier_iff.mpr (eq_of_beq hannounced).symm
    exact ⟨⟨rfl, hqos, rfl⟩, ⟨front, _, rfl, hfront, hunwanted, hmissing, middle, _, rfl, hmiddle,
      payload, [], (List.append_nil _).symm, rfl, rfl⟩, rfl⟩
  · rintro ⟨⟨hduplicate, hqos, hretain⟩, ⟨front, _, rfl, hfront, hunwanted, hmissing, middle, _,
      rfl, hmiddle, payload, _, rfl, hpayload, rfl⟩, rfl⟩
    cases hpayload
    rw [List.append_nil]
    have hannounced := beq_iff_eq.mpr (identifier_iff.mp ⟨hunwanted, hmissing⟩).symm
    refine ⟨p.qos, hqos, p.topicName, front, _, rfl, hfront, p.packetId, middle, p.payload, rfl,
      ⟨hannounced, hmiddle⟩, p.payload, ?_, rfl, rfl⟩
    rw [← hduplicate, ← hretain]

/-- A guarantee is its level in a byte of which the other bits are clear. -/
theorem TopicRequest.reads_decode : TopicRequest.decode.Reads fun r b _ => Writes r.steps b := by
  refine (reads_text.bind fun topicFilter => reads_byte.bind fun options =>
    Reads.require _ _ _ <| Reads.guarantee _ _ _ fun maxQoS => reads_pure _).congr
      fun r b left => ?_
  simp only [TopicRequest.steps, writes_write_cons, writes_nil]
  constructor
  · rintro ⟨topicFilter, front, _, rfl, hfront, options, back, _, rfl, hback, -, q, hq, rfl, rfl⟩
    have hoptions : UInt8.ofNat q.level = options := by rw [← hq, UInt8.ofNat_toNat]
    simp only [hoptions]
    exact ⟨front, _, rfl, hfront, back, [], rfl, hback, rfl⟩
  · rintro ⟨front, _, rfl, hfront, back, _, rfl, hback, rfl⟩
    have hlevel : (UInt8.ofNat r.maxQoS.level).toNat = r.maxQoS.level := by
      cases r.maxQoS <;> rfl
    refine ⟨r.topicFilter, front, _, rfl, hfront, _, back, [], rfl, hback, ?_, r.maxQoS, hlevel,
      rfl, rfl⟩
    have hlt := r.maxQoS.level_lt
    rw [hlevel, decide_eq_true_eq]
    omega

/-- Items are written one behind the other, and nothing follows them. -/
theorem Decoder.listForm_iff {α : Type} {steps : α → List Step} {items : List α}
    {b left : Bytes} :
    listForm (fun a b _ => Writes (steps a) b) items b left
      ↔ Writes (items.flatMap steps) b ∧ left = [] := by
  induction items generalizing b with
  | nil => simp [listForm]
  | cons a items ih =>
      simp only [listForm, ih, List.flatMap_cons, writes_append]
      constructor
      · rintro ⟨front, back, rfl, hfront, hback, rfl⟩
        exact ⟨⟨front, back, rfl, hfront, hback⟩, rfl⟩
      · rintro ⟨⟨front, back, rfl, hfront, hback⟩, rfl⟩
        exact ⟨front, back, rfl, hfront, hback, rfl⟩

theorem Subscribe.reads_decode :
    Subscribe.decode.Reads fun s b left => Writes s.steps b ∧ left = [] := by
  refine (reads_word.bind fun packetId => TopicRequest.reads_decode.bind fun first =>
    (TopicRequest.reads_decode.untilEnd _).bind_pure fun others => _).congr fun s b left => ?_
  simp only [Subscribe.steps, List.cons_append, List.nil_append, writes_write_cons,
    writes_require_cons, listForm_iff]
  constructor
  · rintro ⟨packetId, front, _, rfl, hfront, first, middle, back, rfl, hmiddle, others, rfl, hback,
      rfl⟩
    exact ⟨⟨rfl, front, _, rfl, hfront, writes_append.mpr ⟨middle, back, rfl, hmiddle, hback⟩⟩, rfl⟩
  · rintro ⟨⟨hne, front, _, rfl, hfront, hrequests⟩, rfl⟩
    rcases s with ⟨packetId, _ | ⟨first, others⟩⟩
    · cases hne
    · obtain ⟨middle, back, rfl, hmiddle, hback⟩ := writes_append.mp hrequests
      exact ⟨packetId, front, _, rfl, hfront, first, middle, back, rfl, hmiddle, others, rfl,
        hback, rfl⟩

theorem SubAck.reads_decode :
    SubAck.decode.Reads fun s b left => Writes s.steps b ∧ left = [] := by
  refine (reads_word.bind fun packetId => reads_rest.bind_pure fun returnCodes => _).congr
    fun s b left => ?_
  simp only [SubAck.steps, writes_write_cons, writes_nil]
  constructor
  · rintro ⟨packetId, front, _, rfl, hfront, returnCodes, rfl, rfl, rfl⟩
    exact ⟨⟨front, _, rfl, hfront, _, [], (List.append_nil _).symm, rfl, rfl⟩, rfl⟩
  · rintro ⟨⟨front, _, rfl, hfront, back, _, rfl, hback, rfl⟩, rfl⟩
    cases hback
    rw [List.append_nil]
    exact ⟨s.packetId, front, _, rfl, hfront, s.returnCodes, rfl, rfl, rfl⟩

/-- The field of a topic. -/
def Unsubscribe.topicSteps (topic : String) : List Step :=
  [.write (.text topic)]

theorem Unsubscribe.reads_topic : text.Reads fun topic b _ => Writes (topicSteps topic) b := by
  refine reads_text.congr fun topic b left => ?_
  rw [topicSteps, writes_write]

theorem Unsubscribe.reads_decode :
    Unsubscribe.decode.Reads fun u b left => Writes u.steps b ∧ left = [] := by
  refine (reads_word.bind fun packetId => (reads_topic.untilEnd _).bind fun topics =>
    Reads.require (f := fun _ => pure _) _ _ _ (reads_pure _)).congr fun u b left => ?_
  simp only [listForm_iff, topicSteps, ← List.map_eq_flatMap]
  simp only [Unsubscribe.steps, List.cons_append, List.nil_append, writes_write_cons,
    writes_require_cons]
  constructor
  · rintro ⟨packetId, front, _, rfl, hfront, topics, back, _, rfl, ⟨hback, hleft⟩, hne, rfl, rfl⟩
    rw [List.append_nil]
    exact ⟨⟨hne, front, back, rfl, hfront, hback⟩, hleft⟩
  · rintro ⟨⟨hne, front, back, rfl, hfront, hback⟩, rfl⟩
    exact ⟨u.packetId, front, back, rfl, hfront, u.topics, back, [], (List.append_nil _).symm,
      ⟨hback, rfl⟩, hne, rfl, rfl⟩

namespace Packet

theorem reads_decodeReceipt (r : Receipt) :
    (decodeReceipt r).Reads fun p b left =>
      ∃ packetId, p = .receipt r packetId ∧ Writes p.steps b ∧ left = [] := by
  refine (reads_word.bind fun packetId => (reads_ended r.kind).bind_pure fun _ => _).congr
    fun p b left => ?_
  constructor
  · rintro ⟨packetId, front, _, rfl, hfront, -, rfl, rfl, rfl⟩
    rw [List.append_nil]
    exact ⟨packetId, rfl, writes_write.mpr hfront, rfl⟩
  · rintro ⟨packetId, rfl, hb, rfl⟩
    exact ⟨packetId, b, [], (List.append_nil b).symm, writes_write.mp hb, (), rfl, rfl, rfl⟩

theorem reads_decodeSignal (s : Signal) :
    (decodeSignal s).Reads fun p b left => p = .signal s ∧ Writes p.steps b ∧ left = [] := by
  refine ((reads_ended s.kind).bind_pure fun _ => _).congr fun p b left => ?_
  constructor
  · rintro ⟨-, rfl, rfl, rfl⟩
    exact ⟨rfl, writes_nil.mpr rfl, rfl⟩
  · rintro ⟨rfl, hb, rfl⟩
    exact ⟨(), rfl, writes_nil.mp hb, rfl⟩

/-- The form of a body: the steps of a packet of the kind write it, and behind it nothing is left
unless the kind tolerates padding. Only a publish packet looks at the flags. -/
def bodyForm (flags : Nat) (kind : Kind) : Form Packet := fun p b left =>
  p.kind = kind ∧ (kind = .publish → p.headerFlags = flags) ∧ Writes p.steps b
    ∧ (toleratesPadding kind = false → left = [])

/-- The soundness half goes by the kind that is read, the completeness half by the packet. -/
theorem reads_decodeBody (kind : Kind) {flags : Nat} (h : flags < 16) :
    (decodeBody flags kind).Reads (bodyForm flags kind) := by
  have receipt (r : Receipt) {c p c'} (hread : (decodeReceipt r).read c = (.ok p, c')) :
      ∃ b, c.Past b c' ∧ bodyForm flags r.kind p b c'.ahead := by
    obtain ⟨b, past, packetId, rfl, hb, hleft⟩ := (reads_decodeReceipt r c p c').mp hread
    exact ⟨b, past, rfl, by cases r <;> nofun, hb, fun _ => hleft⟩
  have signal (s : Signal) {c p c'} (hread : (decodeSignal s).read c = (.ok p, c')) :
      ∃ b, c.Past b c' ∧ bodyForm flags s.kind p b c'.ahead := by
    obtain ⟨b, past, rfl, hb, hleft⟩ := (reads_decodeSignal s c p c').mp hread
    exact ⟨b, past, rfl, by cases s <;> nofun, hb, fun _ => hleft⟩
  apply Reads.intro
  · intro c p c' hread
    cases kind with
    | connect =>
        obtain ⟨b, past, a, rfl, hb⟩ := (Connect.reads_decode.map _ c p c').mp hread
        exact ⟨b, past, rfl, nofun, hb, nofun⟩
    | connAck =>
        obtain ⟨b, past, a, rfl, hb⟩ := (ConnAck.reads_decode.map _ c p c').mp hread
        exact ⟨b, past, rfl, nofun, hb, nofun⟩
    | publish =>
        obtain ⟨b, past, a, rfl, hflags, hb, hleft⟩ :=
          ((Publish.reads_decode h).map _ c p c').mp hread
        exact ⟨b, past, rfl, fun _ => hflags, hb, fun _ => hleft⟩
    | subscribe =>
        obtain ⟨b, past, a, rfl, hb, hleft⟩ := (Subscribe.reads_decode.map _ c p c').mp hread
        exact ⟨b, past, rfl, nofun, hb, fun _ => hleft⟩
    | subAck =>
        obtain ⟨b, past, a, rfl, hb, hleft⟩ := (SubAck.reads_decode.map _ c p c').mp hread
        exact ⟨b, past, rfl, nofun, hb, fun _ => hleft⟩
    | unsubscribe =>
        obtain ⟨b, past, a, rfl, hb, hleft⟩ := (Unsubscribe.reads_decode.map _ c p c').mp hread
        exact ⟨b, past, rfl, nofun, hb, fun _ => hleft⟩
    | pubAck => exact receipt .pubAck hread
    | pubRec => exact receipt .pubRec hread
    | pubRel => exact receipt .pubRel hread
    | pubComp => exact receipt .pubComp hread
    | unsubAck => exact receipt .unsubAck hread
    | pingReq => exact signal .pingReq hread
    | pingResp => exact signal .pingResp hread
    | disconnect => exact signal .disconnect hread
  · rintro n p b left ⟨rfl, hflags, hb, hleft⟩
    cases p with
    | connect c => exact (Connect.reads_decode.map _).read_append ⟨c, rfl, hb⟩ n
    | connAck a => exact (ConnAck.reads_decode.map _).read_append ⟨a, rfl, hb⟩ n
    | publish p =>
        exact ((Publish.reads_decode h).map _).read_append ⟨p, rfl, hflags rfl, hb, hleft rfl⟩ n
    | subscribe s => exact (Subscribe.reads_decode.map _).read_append ⟨s, rfl, hb, hleft rfl⟩ n
    | subAck s => exact (SubAck.reads_decode.map _).read_append ⟨s, rfl, hb, hleft rfl⟩ n
    | unsubscribe u =>
        exact (Unsubscribe.reads_decode.map _).read_append ⟨u, rfl, hb, hleft rfl⟩ n
    | receipt r packetId =>
        have hread := (reads_decodeReceipt r).read_append
          ⟨packetId, rfl, hb, hleft (by cases r <;> rfl)⟩ n
        cases r <;> exact hread
    | signal s =>
        have hread := (reads_decodeSignal s).read_append
          ⟨rfl, hb, hleft (by cases s <;> rfl)⟩ n
        cases s <;> exact hread

/-- The flags of a header are the required ones, or those that a publish packet calls for. -/
theorem headerFlags_eq_iff {p : Packet} {flags : Nat} :
    p.headerFlags = flags
      ↔ p.kind.requiredFlags.all (· == flags) = true
        ∧ (p.kind = .publish → p.headerFlags = flags) := by
  cases p with
  | publish p => simp [kind, Kind.requiredFlags]
  | receipt r packetId => cases r <;> simp [headerFlags, kind, Receipt.kind, Kind.requiredFlags]
  | signal s => cases s <;> simp [headerFlags, kind, Signal.kind, Kind.requiredFlags]
  | _ => simp [headerFlags, kind, Kind.requiredFlags]

/-- **What a packet is read from is what it is written as**, with its own flags. Behind it nothing
may be left, unless its kind tolerates padding. -/
theorem reads_decode (kind : Kind) {flags : Nat} (h : flags < 16) :
    (decode kind flags).Reads fun p b left =>
      p.kind = kind ∧ p.headerFlags = flags ∧ Writes p.steps b
        ∧ (toleratesPadding kind = false → left = []) := by
  refine (Reads.require _ _ _ (reads_decodeBody kind h)).congr fun p b left => ?_
  constructor
  · rintro ⟨hrequired, rfl, hflags, hb, hleft⟩
    exact ⟨rfl, headerFlags_eq_iff.mpr ⟨hrequired, hflags⟩, hb, hleft⟩
  · rintro ⟨rfl, hflags, hb, hleft⟩
    obtain ⟨hrequired, hpublish⟩ := headerFlags_eq_iff.mp hflags
    exact ⟨hrequired, rfl, hpublish, hb, hleft⟩

end Packet
end Mqtt

import Mqtt.Proofs.Packet.Trailing
import Mqtt.Proofs.Wire.Cutting

/-!
# Bodies cut short

The front of the body of a packet is no packet in most cases, and then it is a field that is not all
there, never one of bad content. It is a packet again only if the cut is in the bytes at the end or
between the items of a list; what was cut off is then missing in the packet, and nothing else.
-/
namespace Mqtt

open Decoder

/-! ### The decoders of bodies -/

theorem Connect.steady_decode : Connect.decode.Steady :=
  steady_text.bind fun _ => (steady_require _ _ _).bind fun _ =>
    steady_byte.bind fun _ => (steady_require _ _ _).bind fun _ =>
    steady_byte.bind fun _ => (steady_lift _ _).bind fun _ =>
    steady_word.bind fun _ => steady_text.bind fun _ =>
    (steady_text.optional _).bind fun _ => (steady_data.optional _).bind fun _ =>
    (steady_text.optional _).bind fun _ => (steady_text.optional _).map _

theorem ConnAck.steady_decode : ConnAck.decode.Steady :=
  steady_byte.bind fun _ => (steady_require _ _ _).bind fun _ => steady_byte.map _

theorem TopicRequest.steady_decode : TopicRequest.decode.Steady :=
  steady_text.bind fun _ => steady_byte.bind fun _ => (steady_require _ _ _).bind fun _ =>
    (steady_guarantee _ _ _).map _

theorem Publish.cutSafe_decode (flags : Nat) : (Publish.decode flags).CutSafe :=
  (steady_guarantee _ _ _).bind_cutSafe fun _ => steady_text.bind_cutSafe fun _ =>
    (steady_word.optional _).bind_cutSafe fun _ => cutSafe_rest.map _

theorem Subscribe.cutSafe_decode : Subscribe.decode.CutSafe :=
  steady_word.bind_cutSafe fun _ => TopicRequest.steady_decode.bind_cutSafe fun _ =>
    (TopicRequest.steady_decode.untilEnd _).map _

theorem SubAck.cutSafe_decode : SubAck.decode.CutSafe :=
  steady_word.bind_cutSafe fun _ => cutSafe_rest.map _

/-- An identifier without a topic behind it takes two bytes. -/
theorem Unsubscribe.length_of_read {b : Bytes} {id : UInt16} {c c' : Cursor}
    (identifier : word.read (.start b) = (.ok id, c))
    (topics : (untilEnd text consumes_text).read c = (.ok [], c')) : b.length = 2 := by
  obtain ⟨front, ⟨ahead, -⟩, ⟨⟩⟩ := (reads_word _ _ _).mp identifier
  obtain ⟨back, ⟨behind, -⟩, rfl, nothing⟩ := (reads_text.untilEnd consumes_text _ _ _).mp topics
  rw [behind, nothing] at ahead
  exact congrArg List.length ahead

/-- That there is no topic is seen only at the end of the body, so here the front of a body that is
accepted may fail in a second way: if it ends right behind the packet identifier. -/
theorem Unsubscribe.offEnd_of_decode {u : Unsubscribe} {b missing : Bytes} {e : DecodeError}
    {m : Cursor} (h : Step.Writes u.steps (b ++ missing))
    (failed : Unsubscribe.decode.read (.start b) = (.error e, m)) (long : b.length ≠ 2) :
    e.OffEnd := by
  have accepted := Unsubscribe.reads_decode.read_append ⟨h, rfl⟩ 0
  rw [List.append_nil] at accepted
  change decode.read ((Cursor.start b).offer missing) = _ at accepted
  obtain ⟨id, n, whole_id, accepted⟩ := read_bind_eq_ok_iff.mp accepted
  obtain ⟨topics, n', whole_topics, -⟩ := read_bind_eq_ok_iff.mp accepted
  rcases read_bind_eq_error_iff.mp failed with early | ⟨id', k, front_id, failed⟩
  · exact steady_word.cutSafe.offEnd whole_id early
  · rw [steady_word.ok front_id missing] at whole_id
    cases whole_id
    rcases read_bind_eq_error_iff.mp failed with early | ⟨kept, k', front_topics, failed⟩
    · exact (steady_text.untilEnd consumes_text).offEnd whole_topics early
    · cases kept with
      | nil => exact absurd (length_of_read front_id front_topics) long
      | cons topic kept =>
          rcases read_bind_eq_error_iff.mp failed with early | ⟨_, _, -, late⟩
          · cases early
          · cases late

namespace Packet

open Step

/-- **A kind that may be padded** takes a cut like one of its fields. -/
theorem steady_decode {kind : Kind} (h : toleratesPadding kind = true) (flags : Nat) :
    (decode kind flags).Steady := by
  refine (steady_require _ _ _).bind fun _ => ?_
  rcases toleratesPadding_iff.mp h with rfl | rfl
  · exact Connect.steady_decode.map _
  · exact ConnAck.steady_decode.map _

/-- **A body cut short** runs off the end, unless it is read as a packet or has no topics. -/
theorem cutSafe_decode {kind : Kind} (h : kind ≠ .unsubscribe) (flags : Nat) :
    (decode kind flags).CutSafe := by
  refine (steady_require _ _ _).bind_cutSafe fun _ => ?_
  have receipt (r : Receipt) : (decodeReceipt r).CutSafe :=
    steady_word.bind_cutSafe fun _ => (cutSafe_ended _).map _
  have signal (s : Signal) : (decodeSignal s).CutSafe := (cutSafe_ended _).map _
  cases kind with
  | connect => exact Connect.steady_decode.cutSafe.map _
  | connAck => exact ConnAck.steady_decode.cutSafe.map _
  | publish => exact (Publish.cutSafe_decode flags).map _
  | subscribe => exact Subscribe.cutSafe_decode.map _
  | subAck => exact SubAck.cutSafe_decode.map _
  | unsubscribe => exact absurd rfl h
  | pubAck => exact receipt .pubAck
  | pubRec => exact receipt .pubRec
  | pubRel => exact receipt .pubRel
  | pubComp => exact receipt .pubComp
  | unsubAck => exact receipt .unsubAck
  | pingReq => exact signal .pingReq
  | pingResp => exact signal .pingResp
  | disconnect => exact signal .disconnect

/-! ### Fronts of a written body -/

/-- A body is that of one packet only, among those of the same kind and flags. -/
theorem eq_of_writes {p q : Packet} {b : Bytes} (hkind : p.kind = q.kind)
    (hflags : p.headerFlags = q.headerFlags) (hp : Writes p.steps b) (hq : Writes q.steps b) :
    p = q := by
  have hread := decode_body hp
  rw [hkind, hflags, decode_body hq] at hread
  cases hread
  rfl

section Front

variable {p : Packet} {b missing : Bytes}

theorem runsOff_or_ok_of_decode (h : Writes p.steps (b ++ missing))
    (hkind : p.kind ≠ .unsubscribe) :
    RunsOff ((decode p.kind p.headerFlags).read (.start b)).1
      ∨ ∃ q, ((decode p.kind p.headerFlags).read (.start b)).1 = .ok q := by
  have accepted : (decode p.kind p.headerFlags).read ((Cursor.start b).offer missing) = _ :=
    decode_body h
  exact runsOff_or_ok fun e m failed => (cutSafe_decode hkind _).offEnd accepted failed

theorem runsOff_or_ok_of_decode_unsubscribe {u : Unsubscribe} (h : Writes u.steps (b ++ missing))
    (long : b.length ≠ 2) :
    RunsOff ((decode .unsubscribe 2).read (.start b)).1
      ∨ ∃ q, ((decode .unsubscribe 2).read (.start b)).1 = .ok q := by
  refine runsOff_or_ok fun e m failed => ?_
  rcases read_bind_eq_error_iff.mp failed with early | ⟨_, _, ⟨⟩, failed⟩
  · cases early
  · rcases read_bind_eq_error_iff.mp failed with failed | ⟨_, _, -, late⟩
    · exact Unsubscribe.offEnd_of_decode h failed long
    · cases late

/-- What a padded kind reads in the front of a body it reads in the whole too, and leaves the rest;
but nothing was left. -/
theorem runsOff_of_decode_padded (h : Writes p.steps (b ++ missing)) (hmissing : missing ≠ [])
    (hkind : toleratesPadding p.kind = true) :
    RunsOff ((decode p.kind p.headerFlags).read (.start b)).1 := by
  have framed : p.kind ≠ .unsubscribe := by
    rcases toleratesPadding_iff.mp hkind with hk | hk <;> simp [hk]
  rcases runsOff_or_ok_of_decode h framed with off | ⟨q, found⟩
  · exact off
  · have front : (decode p.kind p.headerFlags).read (.start b)
        = (.ok q, ((decode p.kind p.headerFlags).read (.start b)).2) := Prod.ext found rfl
    have whole : (decode p.kind p.headerFlags).read ((Cursor.start b).offer missing) = _ :=
      decode_body h
    rw [(steady_decode hkind _).ok front missing] at whole
    have nothing : _ ++ missing = [] := congrArg (fun r => r.2.ahead) whole
    exact absurd (List.append_eq_nil_iff.mp nothing).2 hmissing

/-- Less than a packet identifier. -/
theorem runsOff_of_decode_receipt {r : Receipt} {packetId : UInt16}
    (h : Bytes.ofWord packetId = b ++ missing) (hmissing : missing ≠ []) :
    RunsOff ((decode r.kind (receipt r packetId).headerFlags).read (.start b)).1 := by
  match b, h with
  | [], _ => exact ⟨2, 0, by cases r <;> rfl⟩
  | [x], _ => exact ⟨2, 1, by cases r <;> rfl⟩
  | x :: y :: b, h =>
      obtain ⟨-, -, nothing⟩ : _ ∧ _ ∧ [] = b ++ missing := by simpa [Bytes.ofWord] using h
      exact absurd (List.append_eq_nil_iff.mp nothing.symm).2 hmissing

end Front

/-- An unsubscribe packet that ends behind its identifier. -/
theorem decode_unsubscribe_identifier (id : UInt16) :
    ((decode .unsubscribe 2).read (.start (Bytes.ofWord id))).1
      = .error (.malformed .unsubscribe .noTopics) := by
  have none : (untilEnd text consumes_text).read ⟨2, []⟩ = (.ok [], ⟨2, []⟩) :=
    untilEndFrom_of_atEnd rfl
  have body : Unsubscribe.decode.read (.start (Bytes.ofWord id))
      = (.error (.malformed .unsubscribe .noTopics), ⟨2, []⟩) :=
    read_bind_eq_error_iff.mpr (.inr ⟨_, ⟨2, []⟩, rfl,
      read_bind_eq_error_iff.mpr (.inr ⟨[], _, none, rfl⟩)⟩)
  exact congrArg Prod.fst (read_bind_eq_error_iff.mpr (.inl body))

/-- **The front of a body**, wherever it is cut. It runs off the end, unless the cut is in the bytes
at the end or between two items: then it is the body of the packet that lacks what was cut off. Only
an unsubscribe packet without topics is refused for that. A signal has no body to cut. -/
theorem decode_cut {p : Packet} {w : Bytes} (h : p.encode = .ok w) {b missing : Bytes}
    (cut : p.encodeBody.1 = b ++ missing) (hmissing : missing ≠ []) :
    let result := ((decode p.kind p.headerFlags).read (.start b)).1
    let keeps (q : Packet) := result = .ok q ∧ q.encodeBody = (b, none)
    match p with
    | connect _ | connAck _ | receipt _ _ => RunsOff result
    | publish m =>
      RunsOff result
        ∨ ∃ kept, m.payload = kept ++ missing ∧ keeps (publish { m with payload := kept })
    | subAck a =>
      RunsOff result
        ∨ ∃ kept, a.returnCodes = kept ++ missing ∧ keeps (subAck { a with returnCodes := kept })
    | subscribe s =>
      RunsOff result
        ∨ ∃ kept others, s.requests = kept ++ others ∧ kept ≠ [] ∧ others ≠ []
            ∧ keeps (subscribe { s with requests := kept })
    | unsubscribe u =>
      if b.length = 2 then result = .error (.malformed .unsubscribe .noTopics)
      else
        RunsOff result
          ∨ ∃ kept others, u.topics = kept ++ others ∧ kept ≠ [] ∧ others ≠ []
              ∧ keeps (unsubscribe { u with topics := kept })
    | signal _ => False := by
  obtain ⟨-, body, -, hb, -⟩ := encode_eq_ok_iff.mp h
  obtain rfl : b ++ missing = body := cut.symm.trans (congrArg Prod.fst hb)
  cases p with
  | connect c => exact runsOff_of_decode_padded hb hmissing rfl
  | connAck a => exact runsOff_of_decode_padded hb hmissing rfl
  | receipt r packetId =>
      exact runsOff_of_decode_receipt (Except.ok.inj (writes_write.mp hb)) hmissing
  | signal s => exact hmissing (List.append_eq_nil_iff.mp (writes_nil.mp hb)).2
  | publish m =>
      refine (runsOff_or_ok_of_decode hb (by simp [kind])).imp_right ?_
      rintro ⟨q, found⟩
      obtain ⟨kept, rfl, hflags, hkept⟩ := (decode_publish_eq_ok_iff (headerFlags_lt _)).mp found
      have whole : Writes (publish { kept with payload := kept.payload ++ missing }).steps
          (b ++ missing) :=
        Publish.writes_append hkept missing
      obtain rfl : m = { kept with payload := kept.payload ++ missing } :=
        publish.inj (eq_of_writes rfl hflags.symm hb whole)
      exact ⟨kept.payload, rfl, found, hkept⟩
  | subAck a =>
      refine (runsOff_or_ok_of_decode hb (by simp [kind])).imp_right ?_
      rintro ⟨q, found⟩
      obtain ⟨kept, rfl, hkept⟩ := decode_subAck_eq_ok_iff.mp found
      have whole : Writes (subAck { kept with returnCodes := kept.returnCodes ++ missing }).steps
          (b ++ missing) :=
        SubAck.writes_append hkept missing
      obtain rfl : a = { kept with returnCodes := kept.returnCodes ++ missing } :=
        subAck.inj (eq_of_writes rfl rfl hb whole)
      exact ⟨kept.returnCodes, rfl, found, hkept⟩
  | subscribe s =>
      refine (runsOff_or_ok_of_decode hb (by simp [kind])).imp_right ?_
      rintro ⟨q, found⟩
      obtain ⟨kept, rfl, hkept⟩ := decode_subscribe_eq_ok_iff.mp found
      obtain ⟨others, rfl, hothers⟩ := (kept.writes_append hkept hmissing).mp hb
      exact ⟨kept.requests, others.requests, rfl, Subscribe.ne_nil_of_writes hkept,
        Subscribe.ne_nil_of_writes hothers, found, hkept⟩
  | unsubscribe u =>
      by_cases short : b.length = 2
      · simp only [if_pos short]
        rw [steps, Unsubscribe.steps_eq, writes_listed] at hb
        obtain ⟨-, back, same, -⟩ := hb
        obtain ⟨rfl, -⟩ := List.append_inj same short
        exact decode_unsubscribe_identifier u.packetId
      · simp only [if_neg short]
        refine (runsOff_or_ok_of_decode_unsubscribe hb short).imp_right ?_
        rintro ⟨q, found⟩
        obtain ⟨kept, rfl, hkept⟩ := decode_unsubscribe_eq_ok_iff.mp found
        obtain ⟨others, rfl, hothers⟩ := (kept.writes_append hkept hmissing).mp hb
        exact ⟨kept.topics, others.topics, rfl, Unsubscribe.ne_nil_of_writes hkept,
          Unsubscribe.ne_nil_of_writes hothers, found, hkept⟩

/-- A connect packet that ends between the two bytes of a character. -/
theorem decode_cut_character :
    lastWill.encode = .ok lastWillBytes
      ∧ lastWill.encodeBody.1 = (lastWillBytes.drop 2).take 13 ++ lastWillBytes.drop 15
      ∧ lastWillBytes.drop 15 ≠ []
      ∧ RunsOff ((decode .connect 0).read (.start ((lastWillBytes.drop 2).take 13))).1 := by
  have body : lastWill.encodeBody = (lastWillBytes.drop 2, none) := by rfl
  have h : lastWill.encode = .ok lastWillBytes := encode_of_short lastWill _ body (by decide)
  have cut : lastWill.encodeBody.1 = (lastWillBytes.drop 2).take 13 ++ lastWillBytes.drop 15 := by
    rw [body]
    rfl
  have some_missing : lastWillBytes.drop 15 ≠ [] := by decide
  exact ⟨h, cut, some_missing, decode_cut h cut some_missing⟩

end Packet
end Mqtt

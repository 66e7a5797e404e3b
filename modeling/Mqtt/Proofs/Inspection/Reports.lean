import Mqtt.Proofs.Connection.Closing
import Mqtt.Proofs.Inspection.Lines
import Mqtt.Proofs.Session.Refusal

/-!
# Which ends of a stream are reported

The end of a stream is reported twice over: a run that inspects the stream prints a line for the
bytes left over, and a connection that reads it to its end logs that the peer closed. Both ask only
whether the session still holds bytes. So a stream that is cut inside a header or inside a body is
reported, and one that ends with a frame or that breaks a rule is not. But a stream that is cut
between a header and its body is not reported either, although a packet is unfinished.
-/
namespace Mqtt

/-- The end of a stream is reported exactly under a condition, in the lines of the runs that inspect
the stream, and in the log of the connections that read to its end before they are closed. -/
structure Reports (role : Role) (limit : Nat) (stream : Bytes) (condition : Prop) : Prop where
  printed : ∀ {around : Program.Surroundings} {i : Invocation} {request : Inspection.Request}
    {s : Settings}, i.command = .decode request → Program.settings around i.config = .ok s →
      Program.capture around request.source = .ok stream → request.role = role →
      s.maxRemainingLength = limit →
      ((Program.run around i).lines.any (Inspection.opensWith "Incomplete") = true ↔ condition)
  logged : ∀ {source : ByteStream} (calls : List Connection.Call),
    Delivery.content source.incoming = stream →
      (∀ delivery ∈ source.incoming, delivery ≠ .bytes []) →
      let c := Connection.start source ((Session.start role).withLimit limit)
      ((c.log calls).any Connection.tellsOfCut = true
        ↔ .ok none ∈ Connection.nexts (c.callAll (calls.takeWhile (· ≠ .close))).1 ∧ condition)

variable {role : Role} {limit : Nat} {stream : Bytes}

theorem Reports.congr {condition other : Prop} (h : Reports role limit stream condition)
    (same : condition ↔ other) : Reports role limit stream other := by
  rwa [← propext same]

/-- **The end is reported if the session holds bytes** of the stream. -/
theorem reports_of_held (role : Role) (limit : Nat) (stream : Bytes) :
    Reports role limit stream
      ((((Session.start role).withLimit limit).receive stream).2.buffer ≠ []) where
  printed := by
    intro around i request s command configured captured side most
    have settled := (Session.settled_start request.role).withLimit s.maxRemainingLength
    rw [← side, ← most, Program.run_decode command configured captured]
    change (Inspection.run _ request.chunk stream).lines.any _ = true ↔ _
    rw [Settings.session, Inspection.run_eq_whole settled]
    exact Inspection.any_incomplete_iff _ stream
  logged := by
    intro source calls content nonempty c
    have progress := Connection.progress_start role limit source
    have opened : c.Open := ⟨nonempty, nofun⟩
    obtain ⟨found, absent⟩ := Connection.filter_log progress opened rfl calls
    rw [content] at found
    rw [Connection.any_tellsOfCut_iff]
    by_cases ends : .ok none ∈ Connection.nexts (c.callAll (calls.takeWhile (· ≠ .close))).1
    · rw [found ends, Connection.closedRecords_ne_nil_iff]
      exact (and_iff_right ends).symm
    · rw [absent ends]
      exact iff_of_false (absurd rfl) fun h => ends h.1

/-- **Which ends are reported.** Let a stream be good frames and a part of one more, in which
nothing is wrong. The end of the stream is reported exactly if the part is not empty and is not just
the header of its frame. The end of a stream that is whole frames is not reported, nor is that of a
stream which breaks a rule. -/
theorem reports_of_cut (role : Role) (limit : Nat) (stream : Bytes) :
    let new := (Session.start role).withLimit limit
    (∀ rest f, new.Cut stream rest f →
        Reports role limit stream (rest ≠ [] ∧ rest.length ≠ f.size))
      ∧ (∀ frames packets, role.Accepts (min limit Varint.maximum) 0 frames packets →
        stream = frames.flatMap Frame.bytes → Reports role limit stream False)
      ∧ ∀ failure, .failure failure ∈ Session.events (new.receive stream).1 →
        Reports role limit stream False := by
  intro new
  have held := reports_of_held role limit stream
  refine ⟨fun rest f cut => held.congr ?_, fun frames packets accepts stream_eq => held.congr ?_,
    fun failure told => held.congr ?_⟩
  · rw [ne_eq, cut.buffer_eq_nil_iff, not_or]
  · exact iff_of_false (absurd (Session.buffer_of_accepts accepts stream_eq)) id
  · exact iff_of_false (absurd (Session.buffer_of_failure told)) id

/-- A publish packet on the topic `a`, with two bytes of payload. -/
def publishFrame : Frame where
  bytes := [0x30, 5, 0, 1, 97, 98, 99]
  header := ⟨3, 0, 5⟩
  size := 2
  decode_bytes := rfl
  length_bytes := rfl

/-- A connect packet, and behind it a part of the publish packet. -/
theorem cut_publish {k : Nat} (h : k < 7) :
    ((Session.start .server).withLimit defaultLimit).Cut
      (Session.connectFrame.bytes ++ publishFrame.bytes.take k) (publishFrame.bytes.take k)
      publishFrame := by
  let connect : Packet := .connect { clientId := "a" }
  have accepted : Session.connectFrame.Accepted .server defaultLimit 0 connect :=
    ⟨by decide, ⟨rfl, iff_of_true rfl rfl⟩, rfl, _, rfl⟩
  have told : ∀ k < 7, Session.events (((Session.start .server).withLimit defaultLimit).receive
      (Session.connectFrame.bytes ++ publishFrame.bytes.take k)).1 = [.packet connect] := by
    decide +kernel
  refine ⟨⟨[Session.connectFrame], [connect], rfl, .cons accepted .nil⟩, List.take_prefix ..,
    fun whole => ?_, fun failure among => ?_⟩
  · have length := congrArg List.length whole
    rw [List.length_take, show publishFrame.bytes.length = 7 from rfl] at length
    omega
  · rw [told k h] at among
    simp at among

/-- Of the publish packet only the first byte of the body has come. -/
theorem reports_of_short_body :
    let stream := Session.connectFrame.bytes ++ [0x30, 5, 0]
    ((Session.start .server).withLimit defaultLimit).Cut stream [0x30, 5, 0] publishFrame
      ∧ Reports .server defaultLimit stream True := by
  intro stream
  have cut := cut_publish (k := 3) (by decide)
  exact ⟨cut, ((reports_of_cut .server defaultLimit stream).1 _ _ cut).congr (by decide)⟩

/-- Of the publish packet the header has come and nothing of the body. No run and no connection
reports that the packet is unfinished; a run that inspects the stream prints the line of the connect
packet and ends well. -/
theorem unreported_header :
    let stream := Session.connectFrame.bytes ++ [0x30, 5]
    let around : Program.Surroundings := { env := [], file := fun _ => .absent }
    let source := Capture.Source.hex "10:0d:00:04:4d:51:54:54:04:02:00:3c:00:01:61:30:05"
    ((Session.start .server).withLimit defaultLimit).Cut stream [0x30, 5] publishFrame
      ∧ Reports .server defaultLimit stream False
      ∧ Program.capture around source = .ok stream
      ∧ (Program.run around { command := .decode { source } }).lines.length = 1
      ∧ (Program.run around { command := .decode { source } }).exit = 0 := by
  intro stream around source
  have cut := cut_publish (k := 2) (by decide)
  have nothing := cut.buffer_eq_nil_iff.mpr (.inr rfl)
  have unreported := reports_of_held .server defaultLimit stream
  refine ⟨cut, unreported.congr (iff_of_false (absurd nothing) id), ?_⟩
  decide +kernel

end Mqtt

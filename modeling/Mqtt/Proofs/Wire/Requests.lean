import Mathlib.Data.List.Chain
import Mqtt.Proofs.Wire.Text

/-!
# Requests on one cursor

Fields are asked for one after the other, each on the cursor that the one before it left, also where
that one failed. The cursor stays in the body and never turns back, and what a failure consumed is
the length prefix that it had read, if any, and a text that is refused for its content.
-/
namespace Mqtt

/-- What can be asked of a cursor. -/
inductive Request where
  | take (n : Nat)
  | byte
  | word
  | text
  | data
  | rest

namespace Request

/-- What is given for a request. -/
def Answer : Request → Type
  | take _ => Bytes
  | byte => UInt8
  | word => UInt16
  | text => String
  | data => Bytes
  | rest => Bytes

/-- What reads the answer. -/
def decoder : (r : Request) → Decoder r.Answer
  | take n => Decoder.take n
  | byte => Decoder.byte
  | word => Decoder.word
  | text => Decoder.text
  | data => Decoder.data
  | rest => Decoder.rest

/-- The bytes that an answer is read from. -/
def form : (r : Request) → Form r.Answer
  | take n => fun a b _ => b = a ∧ a.length = n
  | byte => fun a b _ => b = [a]
  | word => fun a b _ => b = Bytes.ofWord a
  | text => fun a b _ => '\x00' ∉ a.toList
      ∧ ∃ size : UInt16, size.toNat = (Bytes.ofText a).length
          ∧ b = Bytes.ofWord size ++ Bytes.ofText a
  | data => fun (a : Bytes) b _ =>
      ∃ size : UInt16, size.toNat = a.length ∧ b = Bytes.ofWord size ++ a
  | rest => fun a b left => b = a ∧ left = []

/-- The number of bytes that are asked for first. -/
def least : Request → Nat
  | take n => n
  | byte => 1
  | word => 2
  | text => 2
  | data => 2
  | rest => 0

/-- Whether the first bytes say how many there are behind them. -/
def Prefixed (r : Request) : Prop :=
  r = text ∨ r = data

/-- What comes of a request, and where it leaves the cursor. -/
inductive Yields (c : Cursor) : (r : Request) → Except DecodeError r.Answer → Cursor → Prop where
  /-- An answer is given, and the bytes that it is read from are consumed. -/
  | value {r : Request} {a : r.Answer} {b : Bytes} {c' : Cursor} (past : c.Past b c')
      (form : r.form a b c'.ahead) : Yields c r (.ok a) c'
  /-- The first bytes are not all there. Nothing is consumed. -/
  | short {r : Request} (few : c.remaining < r.least) :
      Yields c r (.error (.outOfData r.least c.remaining)) c
  /-- The length prefix reaches past the end. It is consumed, and nothing else. -/
  | pastEnd {r : Request} {size : UInt16} {c' : Cursor} (prefixed : r.Prefixed)
      (past : c.Past (Bytes.ofWord size) c') (few : c'.remaining < size.toNat) :
      Yields c r (.error (.outOfData size.toNat c'.remaining)) c'
  /-- A text is refused for its content. All of it is consumed. -/
  | refused {size : UInt16} {raw : Bytes} {c' : Cursor} {e : DecodeError}
      (past : c.Past (Bytes.ofWord size ++ raw) c') (all : size.toNat = raw.length)
      (bad : Decoder.textOf raw = .error e) : Yields c text (.error e) c'

variable {c c' : Cursor} {r : Request}

/-! ### One request -/

/-- An answer is given exactly where the bytes that it is read from are ahead. -/
theorem reads_decoder (r : Request) : r.decoder.Reads r.form := by
  cases r with
  | take n => exact Decoder.reads_take n
  | byte =>
      refine Decoder.reads_byte.congr fun a b left => ?_
      rw [Field.encode, Except.ok.injEq, eq_comm]
      rfl
  | word =>
      refine Decoder.reads_word.congr fun a b left => ?_
      rw [Field.encode, Except.ok.injEq, eq_comm]
      rfl
  | text =>
      refine Decoder.reads_text.congr fun a b left => ?_
      rw [Field.encode, Field.encodeText_eq_ok_iff, Field.encodeData_eq_ok_iff_exists, form]
  | data =>
      refine Decoder.reads_data.congr fun a b left => ?_
      rw [Field.encode, Field.encodeData_eq_ok_iff_exists, form]
  | rest => exact Decoder.reads_rest

/-- Data that fails, for a text as well. -/
theorem yields_of_read_data {e : DecodeError} (prefixed : r.Prefixed)
    (h : Decoder.data.read c = (.error e, c')) : r.Yields c (.error e) c' := by
  have two : r.least = 2 := by
    rcases prefixed with rfl | rfl <;> rfl
  rcases Decoder.read_data_eq_error_iff.mp h with ⟨few, rfl, rfl⟩ | ⟨size, past, few, rfl⟩
  · rw [← two] at few ⊢
    exact .short few
  · exact .pastEnd prefixed past few

/-- **What comes of each request.** -/
theorem yields_read (r : Request) (c : Cursor) :
    r.Yields c (r.decoder.read c).1 (r.decoder.read c).2 := by
  rcases hr : r.decoder.read c with ⟨e | a, c'⟩
  · cases r with
    | take n =>
        obtain ⟨few, rfl, rfl⟩ := Decoder.read_take_eq_error_iff.mp hr
        exact .short few
    | byte =>
        obtain ⟨few, rfl, rfl⟩ := Decoder.read_byte_eq_error_iff.mp hr
        exact .short few
    | word =>
        obtain ⟨few, rfl, rfl⟩ := Decoder.read_word_eq_error_iff.mp hr
        exact .short few
    | text =>
        rcases Decoder.read_text_eq_error_iff.mp hr with failed | ⟨raw, found, bad⟩
        · exact yields_of_read_data (.inl rfl) failed
        · obtain ⟨size, all, past⟩ := Decoder.read_data_eq_ok_iff.mp found
          exact .refused past all bad
    | data => exact yields_of_read_data (.inr rfl) hr
    | rest => cases hr
  · obtain ⟨b, past, form⟩ := (reads_decoder r c a c').mp hr
    exact .value past form

/-- The bytes that are consumed were ahead, also where the request fails. -/
theorem Yields.exists_past {o : Except DecodeError r.Answer} (h : r.Yields c o c') :
    ∃ b, c.Past b c' := by
  cases h with
  | value past _ => exact ⟨_, past⟩
  | short _ => exact ⟨[], Cursor.past_nil.mpr rfl⟩
  | pastEnd _ past _ => exact ⟨_, past⟩
  | refused past _ _ => exact ⟨_, past⟩

/-- Without a length in front, nothing is consumed by a failure. -/
theorem Yields.eq_of_not_prefixed {o : Except DecodeError r.Answer} (h : r.Yields c o c')
    {e : DecodeError} (ho : o = .error e) (single : ¬ r.Prefixed) : c' = c := by
  cases h with
  | value _ _ => cases ho
  | short _ => rfl
  | pastEnd prefixed _ _ => exact absurd prefixed single
  | refused _ _ _ => exact absurd (.inl rfl) single

/-- What is missing is missing where the cursor was left. -/
theorem Yields.outOfData {o : Except DecodeError r.Answer} (h : r.Yields c o c')
    {needed available : Nat} (ho : o = .error (.outOfData needed available)) :
    available < needed ∧ available = c'.remaining := by
  cases h with
  | value _ _ => cases ho
  | short few =>
      cases ho
      exact ⟨few, rfl⟩
  | pastEnd _ _ few =>
      cases ho
      exact ⟨few, rfl⟩
  | refused _ _ bad =>
      cases ho
      exact absurd bad (Decoder.textOf_ne_outOfData _ _ _)

end Request

/-! ### One request after the other -/

/-- A request that was made: where, what came of it, and where it left the cursor. -/
structure Reading where
  request : Request
  before : Cursor
  outcome : Except DecodeError request.Answer
  after : Cursor

namespace Cursor

/-- Makes a request. -/
def ask (c : Cursor) (r : Request) : Reading :=
  ⟨r, c, (r.decoder.read c).1, (r.decoder.read c).2⟩

/-- Makes requests, each on the cursor that the one before it left. -/
def readAll (c : Cursor) : List Request → List Reading
  | [] => []
  | r :: requests => c.ask r :: (c.ask r).after.readAll requests

/-- The cursor stands in the body. -/
def Within (c : Cursor) (body : Bytes) : Prop :=
  ∃ behind, (start body).Past behind c

variable {c c' : Cursor} {body : Bytes}

theorem within_start (body : Bytes) : (start body).Within body :=
  ⟨[], past_nil.mpr rfl⟩

theorem Within.past {b : Bytes} (h : c.Within body) (past : c.Past b c') : c'.Within body := by
  obtain ⟨behind, start⟩ := h
  exact ⟨behind ++ b, past_append.mpr ⟨c, start, past⟩⟩

/-- A cursor in a body is told by its position. -/
theorem Within.ahead_eq (h : c.Within body) : c.ahead = body.drop c.position := by
  obtain ⟨behind, ahead, position⟩ := h
  have split : body = behind ++ c.ahead := ahead
  have length : c.position = behind.length := by rw [position, start, Nat.zero_add]
  rw [length, split, List.drop_left]

theorem Within.position_add_remaining (h : c.Within body) :
    c.position + c.remaining = body.length := by
  obtain ⟨behind, ahead, position⟩ := h
  have split : body = behind ++ c.ahead := ahead
  rw [position, start, split, List.length_append, Nat.zero_add, remaining]

theorem Within.ask (h : c.Within body) (r : Request) : (c.ask r).after.Within body := by
  obtain ⟨b, past⟩ := (r.yields_read c).exists_past
  exact h.past past

/-- **What each request keeps is kept by all of them**: it holds wherever one of them is made. -/
theorem exists_eq_ask_of_mem_readAll {P : Cursor → Prop}
    (keeps : ∀ c r, P c → P (c.ask r).after) (requests : List Request) (h : P c) :
    ∀ x ∈ c.readAll requests, ∃ m r, P m ∧ x = m.ask r := by
  induction requests generalizing c with
  | nil => nofun
  | cons r requests ih =>
      rw [readAll, List.forall_mem_cons]
      exact ⟨⟨c, r, h, rfl⟩, ih (keeps c r h)⟩

theorem map_request_readAll (c : Cursor) (requests : List Request) :
    (c.readAll requests).map Reading.request = requests := by
  induction requests generalizing c with
  | nil => rfl
  | cons r requests ih => rw [readAll, List.map_cons, ih, ask]

/-- Each request is made where the one before it left the cursor, and the first one at the front. -/
theorem isChain_readAll (c : Cursor) (requests : List Request) :
    (∀ x ∈ (c.readAll requests).head?, x.before = c)
      ∧ (c.readAll requests).IsChain fun x y => y.before = x.after := by
  induction requests generalizing c with
  | nil => exact ⟨nofun, .nil⟩
  | cons r requests ih =>
      obtain ⟨first, others⟩ := ih (c.ask r).after
      refine ⟨?_, List.isChain_cons.mpr ⟨first, others⟩⟩
      intro x hx
      cases hx
      rfl

/-- **All requests on one cursor.** Each is made where the one before it left the cursor, also if
that one failed, and the first one at the start of the body. Wherever a request is made and wherever
it leaves the cursor, the bytes ahead are those of the body from that position on; the position
never turns back and never passes the end, and together with the number of bytes ahead it is always
the length of the body. What comes of a request is what is said of it: an answer, and the bytes
ahead that it is read from are consumed; or nothing is consumed, as the first bytes are missing; or
the length prefix alone, as it reaches past the end; or all of a text that is refused. Nothing but a
text or prefixed data consumes anything when it fails. Where bytes are missing, more were asked for
than there are ahead of the cursor as it is left. -/
theorem readAll_keeps_place (body : Bytes) (requests : List Request) :
    let row := (start body).readAll requests
    row.map Reading.request = requests
      ∧ (∀ x ∈ row.head?, x.before = start body)
      ∧ (row.IsChain fun x y => y.before = x.after)
      ∧ ∀ x ∈ row,
          x.before.ahead = body.drop x.before.position
            ∧ x.after.ahead = body.drop x.after.position
            ∧ x.before.position ≤ x.after.position
            ∧ x.after.position ≤ body.length
            ∧ x.after.position + x.after.remaining = body.length
            ∧ x.request.Yields x.before x.outcome x.after
            ∧ (∀ e, x.outcome = .error e → ¬ x.request.Prefixed → x.after = x.before)
            ∧ ∀ needed available, x.outcome = .error (.outOfData needed available) →
                available < needed ∧ available = body.length - x.after.position := by
  intro row
  obtain ⟨first, others⟩ := isChain_readAll (start body) requests
  refine ⟨map_request_readAll _ _, first, others, fun x hx => ?_⟩
  obtain ⟨m, r, within, rfl⟩ := exists_eq_ask_of_mem_readAll
    (fun c r (h : c.Within body) => h.ask r) requests (within_start body) x hx
  have yields : r.Yields m (m.ask r).outcome (m.ask r).after := r.yields_read m
  have left : (m.ask r).after.Within body := within.ask r
  have whole := left.position_add_remaining
  obtain ⟨b, past⟩ := yields.exists_past
  refine ⟨within.ahead_eq, left.ahead_eq, ?_, ?_, whole, yields,
    fun e ho single => yields.eq_of_not_prefixed ho single, fun needed available ho => ?_⟩
  · exact Nat.le.intro past.position.symm
  · exact Nat.le.intro whole
  · obtain ⟨few, found⟩ := yields.outOfData ho
    exact ⟨few, by omega⟩

/-- A text whose length reaches past the end, and what is read behind its length. -/
example : ((start [0, 5, 0x41, 0x42]).readAll [.text, .word, .byte]).map
    (fun x => (x.before.position, x.after.position)) = [(0, 2), (2, 4), (4, 4)] := by
  cbv

end Cursor
end Mqtt

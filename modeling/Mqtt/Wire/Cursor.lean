import Mqtt.Bytes
import Mqtt.Text.Utf8
import Mqtt.Wire.DecodeError

/-!
# Reading a body

A cursor stands in a body: it knows how many bytes lie behind it and which are still ahead. A
decoder reads from a cursor and leaves one, also when it fails, so that what it consumed before
the failure stays consumed.
-/
namespace Mqtt

/-- A place in a body. -/
structure Cursor where
  /-- The number of bytes consumed. -/
  position : Nat
  /-- The bytes ahead. -/
  ahead : Bytes
  deriving DecidableEq

namespace Cursor

/-- The start of a body. -/
def start (body : Bytes) : Cursor := ⟨0, body⟩

/-- The number of bytes ahead. -/
def remaining (c : Cursor) : Nat := c.ahead.length

/-- The length of the whole body. -/
def length (c : Cursor) : Nat := c.position + c.remaining

/-- Whether the body is used up. -/
def atEnd (c : Cursor) : Bool := c.ahead.isEmpty

end Cursor

/-- Reads a value at a cursor, and leaves the cursor behind what it consumed. -/
def Decoder (α : Type) : Type := Cursor → Except DecodeError α × Cursor

namespace Decoder

variable {α β : Type}

/-- Reads at a cursor. -/
def read (d : Decoder α) (c : Cursor) : Except DecodeError α × Cursor := d c

/-- Consumes nothing. -/
protected def pure (a : α) : Decoder α := fun c => (.ok a, c)

/-- Reads on from where the first decoder stopped; its failure is the failure of both. -/
protected def bind (d : Decoder α) (f : α → Decoder β) : Decoder β := fun c =>
  match d c with
  | (.ok a, c') => f a c'
  | (.error e, c') => (.error e, c')

instance : Monad Decoder where
  pure := Decoder.pure
  bind := Decoder.bind

/-- Fails and consumes nothing. -/
def fail (e : DecodeError) : Decoder α := fun c => (.error e, c)

/-- The next `n` bytes. If there are fewer, none is consumed. -/
def take (n : Nat) : Decoder Bytes := fun c =>
  let front := c.ahead.take n
  if front.length < n then (.error (.outOfData n c.remaining), c)
  else (.ok front, ⟨c.position + n, c.ahead.drop n⟩)

/-- The next byte. -/
def byte : Decoder UInt8 := fun c =>
  match c.ahead with
  | b :: ahead => (.ok b, ⟨c.position + 1, ahead⟩)
  | [] => (.error (.outOfData 1 0), c)

/-- The next word, high byte first. A lone byte is not consumed. -/
def word : Decoder UInt16 := fun c =>
  match c.ahead with
  | high :: low :: ahead => (.ok (Bytes.word high low), ⟨c.position + 2, ahead⟩)
  | short => (.error (.outOfData 2 short.length), c)

/-- Binary data with its length in front. -/
def data : Decoder Bytes := do
  let size ← word
  take size.toNat

/-- The text that bytes hold: UTF-8 without U+0000. -/
def textOf (raw : Bytes) : Except DecodeError String :=
  match Bytes.text? raw with
  | none => .error (if Utf8.hasSurrogate raw then .surrogates else .invalidUtf8)
  | some s => if '\x00' ∈ s.toList then .error .containsNull else .ok s

/-- A text with its length in front. -/
def text : Decoder String := do
  let raw ← data
  fun c => (textOf raw, c)

/-- All bytes ahead. -/
def rest : Decoder Bytes := fun c =>
  (.ok c.ahead, ⟨c.length, []⟩)

/-- Whether the body is used up. -/
def atEnd : Decoder Bool := fun c => (.ok c.atEnd, c)

/-- A decoder that consumes at least one byte whenever it succeeds. -/
def Consumes (d : Decoder α) : Prop :=
  ∀ c a c', d c = (.ok a, c') → c'.remaining < c.remaining

/-- Reads items up to the end of the body; `found` holds those before, last one first. -/
def untilEndFrom (item : Decoder α) (h : item.Consumes) (found : List α) (c : Cursor) :
    Except DecodeError (List α) × Cursor :=
  if c.atEnd then (.ok found.reverse, c)
  else
    match _hc : item c with
    | (.error e, c') => (.error e, c')
    | (.ok a, c') => untilEndFrom item h (a :: found) c'
termination_by c.remaining
decreasing_by exact h c a c' _hc

/-- Reads items up to the end of the body, none if nothing is ahead. -/
def untilEnd (item : Decoder α) (h : item.Consumes) : Decoder (List α) :=
  untilEndFrom item h []

/-! ### What a decoder consumes -/

/-- A decoder that never gives bytes back. -/
def Advances (d : Decoder α) : Prop :=
  ∀ c r c', d c = (r, c') → c'.remaining ≤ c.remaining

theorem advances_take (n : Nat) : (take n).Advances := by
  intro c r c' h
  simp only [take] at h
  split at h <;> cases h
  · exact Nat.le_refl _
  · simp [Cursor.remaining]

theorem consumes_word : word.Consumes := by
  intro c a c' h
  unfold word at h
  split at h <;> cases h
  next e => simp only [Cursor.remaining, e, List.length_cons]; omega

theorem advances_byte : byte.Advances := by
  intro c r c' h
  unfold byte at h
  split at h <;> cases h
  next e => simp [Cursor.remaining, e]
  next => exact Nat.le_refl _

/-- If the first decoder consumes something and none gives bytes back, both together consume
something. -/
theorem Consumes.bind {d : Decoder α} {f : α → Decoder β} (hd : d.Consumes)
    (hf : ∀ a, (f a).Advances) : Consumes (d >>= f) := by
  intro c b c' h
  change Decoder.bind d f c = (.ok b, c') at h
  unfold Decoder.bind at h
  split at h
  next a c₁ e => exact Nat.lt_of_le_of_lt (hf a c₁ _ c' h) (hd c a c₁ e)
  next => cases h

theorem Advances.bind {d : Decoder α} {f : α → Decoder β} (hd : d.Advances)
    (hf : ∀ a, (f a).Advances) : Advances (d >>= f) := by
  intro c r c' h
  change Decoder.bind d f c = (r, c') at h
  unfold Decoder.bind at h
  split at h
  next a c₁ e => exact Nat.le_trans (hf a c₁ _ c' h) (hd c _ c₁ e)
  next e c₁ he =>
    cases h
    exact hd c _ c' he

/-- A decoder that leaves the cursor where it is gives no bytes back. -/
theorem advances_stay (f : Cursor → Except DecodeError α) :
    Advances (fun c => (f c, c) : Decoder α) := by
  intro c r c' h
  cases h
  exact Nat.le_refl _

theorem advances_pure (a : α) : Advances (pure a : Decoder α) :=
  advances_stay fun _ => .ok a

theorem advances_fail (e : DecodeError) : Advances (fail e : Decoder α) :=
  advances_stay fun _ => .error e

theorem consumes_data : data.Consumes :=
  consumes_word.bind fun n => advances_take n.toNat

theorem consumes_text : text.Consumes :=
  consumes_data.bind fun raw => advances_stay fun _ => textOf raw

end Decoder
end Mqtt

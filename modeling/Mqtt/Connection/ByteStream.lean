import Mqtt.Bytes

/-!
# Byte streams

A byte stream in two directions, as far as a connection can tell: what the coming reads deliver,
and what writes accept. Reads and writes do not affect each other.
-/
namespace Mqtt

/-- What one read, or several, will deliver. -/
inductive Delivery where
  /-- Bytes that arrived together. No bytes mean that the peer has closed. -/
  | bytes (bytes : Bytes)
  /-- One read fails. -/
  | fault (text : String)
  deriving DecidableEq

/-- The end of what a stream accepts. -/
structure WriteLimit where
  /-- The number of bytes accepted in all. -/
  total : Nat
  /-- What is said of each write after them. -/
  fault : String
  deriving DecidableEq

/-- A byte stream in two directions. -/
structure ByteStream where
  /-- What is still to be delivered; the peer has closed behind the last delivery. -/
  incoming : List Delivery := []
  /-- The number of reads made. -/
  reads : Nat := 0
  /-- The most bytes that each of the next writes accepts. -/
  pieces : List Nat := []
  /-- The most bytes that each write after these accepts. -/
  maxWrite : Option Nat := none
  /-- The end of what all writes accept. -/
  limit : Option WriteLimit := none
  /-- All bytes written. -/
  written : Bytes := []
  flushes : Nat := 0
  shutdowns : Nat := 0
  deriving DecidableEq

/-- Why bytes could not be written. -/
inductive WriteFault where
  /-- A write failed. -/
  | refused (text : String)
  /-- A write accepted nothing. -/
  | stalled
  deriving DecidableEq

/-- The words for a fault. -/
def WriteFault.message : WriteFault → String
  | refused text => text
  | stalled => "write zero"

namespace Delivery

/-- The number of bytes still to be delivered. -/
def size : Delivery → Nat
  | bytes b => b.length
  | fault _ => 0

/-- The number of bytes that deliveries hold together. -/
def total : List Delivery → Nat
  | [] => 0
  | d :: deliveries => d.size + total deliveries

/-- What a delivery leaves when `room` bytes are taken from it. -/
def afterTaking (room : Nat) (b : Bytes) : List Delivery :=
  if b.length ≤ room then [] else [bytes (b.drop room)]

theorem total_append (front back : List Delivery) :
    total (front ++ back) = total front + total back := by
  induction front with
  | nil => simp [total]
  | cons d front ih => simp only [List.cons_append, total, ih, Nat.add_assoc]

end Delivery

namespace ByteStream

/-- The number of bytes still to be delivered. -/
def unread (s : ByteStream) : Nat :=
  Delivery.total s.incoming

/-- A read into a buffer with some room. No bytes mean that the peer has closed. -/
def read (room : Nat) (s : ByteStream) : Except String Bytes × ByteStream :=
  match s.incoming with
  | [] => (.ok [], { s with reads := s.reads + 1 })
  | .fault text :: incoming => (.error text, { s with incoming, reads := s.reads + 1 })
  | .bytes b :: incoming =>
    (.ok (b.take room),
      { s with
        incoming := Delivery.afterTaking room b ++ incoming
        reads := s.reads + 1 })

/-- The number of bytes that the next write of `n` bytes accepts, or what is said of it. -/
def accepts (s : ByteStream) (n : Nat) : Except String Nat :=
  let n := (s.pieces.head?.or s.maxWrite).elim n (min n)
  match s.limit with
  | none => .ok n
  | some limit =>
    if limit.total ≤ s.written.length then .error limit.fault
    else .ok (min n (limit.total - s.written.length))

/-- One write. What it does not accept has to be written again. -/
def write (b : Bytes) (s : ByteStream) : Except String Nat × ByteStream :=
  match s.accepts b.length with
  | .error text => (.error text, s)
  | .ok n => (.ok n, { s with pieces := s.pieces.tail, written := s.written ++ b.take n })

/-- Writes bytes, with as many writes as it takes. -/
def writeAll (b : Bytes) (s : ByteStream) : Except WriteFault Unit × ByteStream :=
  if b.isEmpty then (.ok (), s)
  else
    match s.write b with
    | (.error text, s) => (.error (.refused text), s)
    | (.ok 0, s) => (.error .stalled, s)
    | (.ok (n + 1), s) => writeAll (b.drop (n + 1)) s
termination_by b.length
decreasing_by
  have := List.length_pos_iff.mpr (by simpa using ‹¬b.isEmpty = true›)
  simp only [List.length_drop]
  omega

/-- Tells the peer that what was written is complete for now. -/
def flush (s : ByteStream) : ByteStream :=
  { s with flushes := s.flushes + 1 }

/-- Closes the direction of writing. -/
def shutdown (s : ByteStream) : ByteStream :=
  { s with shutdowns := s.shutdowns + 1 }

theorem size_afterTaking_lt {room : Nat} {b : Bytes} (h : b.take room ≠ []) :
    Delivery.total (Delivery.afterTaking room b) < b.length := by
  have hb : b ≠ [] := by rintro rfl; simp at h
  have hroom : room ≠ 0 := by rintro rfl; simp at h
  have := List.length_pos_iff.mpr hb
  unfold Delivery.afterTaking
  split
  · exact this
  · simp only [Delivery.total, Delivery.size, List.length_drop]
    omega

/-- A read that delivers bytes leaves fewer to be delivered. -/
theorem unread_of_read {room : Nat} {s t : ByteStream} {b : Bytes}
    (h : s.read room = (.ok b, t)) (hb : b ≠ []) : t.unread < s.unread := by
  unfold read at h
  split at h
  · cases h
    exact absurd rfl hb
  · cases h
  · next front incoming e =>
    cases h
    have := size_afterTaking_lt hb
    simp only [unread, e, Delivery.total_append, Delivery.total, Delivery.size]
    omega

end ByteStream
end Mqtt

import Mqtt.Bytes

/-!
# Ill-formed UTF-8

Bytes that are not well-formed UTF-8 are refused as a text, with a reason: UTF-8 has no form for the
code points U+D800 to U+DFFF, and the bytes are blamed on such a surrogate when the first two bytes
of its would-be form occur in them. The same bytes can still be shown: each well-formed sequence
stands for its character, and each piece that could only have begun one stands for U+FFFD.
-/
namespace Mqtt.Utf8

/-- Whether a byte can follow 0xED in the three-byte pattern of a surrogate. -/
def isSurrogateTail (b : UInt8) : Bool :=
  0xA0 ≤ b && b ≤ 0xBF

/-- Whether the first two bytes of an encoded surrogate occur. -/
def hasSurrogate : Bytes → Bool
  | lead :: next :: rest => (lead == 0xED && isSurrogateTail next) || hasSurrogate (next :: rest)
  | _ => false

/-! ### Text from bytes of any kind -/

/-- What the first byte of a sequence tells of the others. -/
structure Lead where
  /-- The bits of the code point that the first byte holds. -/
  bits : Nat
  /-- The number of the other bytes. -/
  others : Nat
  /-- The least second byte, and the largest one. -/
  low : UInt8 := 0x80
  high : UInt8 := 0xBF

/-- What a byte tells if it is the first one of a sequence. -/
def lead? (b : UInt8) : Option Lead :=
  let n := b.toNat
  if n < 0x80 then some { bits := n, others := 0 }
  else if n < 0xC2 then none
  else if n < 0xE0 then some { bits := n % 32, others := 1 }
  else if n = 0xE0 then some { bits := 0, others := 2, low := 0xA0 }
  else if n = 0xED then some { bits := 13, others := 2, high := 0x9F }
  else if n < 0xF0 then some { bits := n % 16, others := 2 }
  else if n = 0xF0 then some { bits := 0, others := 3, low := 0x90 }
  else if n < 0xF4 then some { bits := n % 8, others := 3 }
  else if n = 0xF4 then some { bits := 4, others := 3, high := 0x8F }
  else none

/-- The bytes at the front, at most `count`, that go on with a sequence. The first of them has
bounds of its own. -/
def continuation (low high : UInt8) : Nat → Bytes → Bytes
  | count + 1, b :: rest =>
    if low ≤ b && b ≤ high then b :: continuation 0x80 0xBF count rest else []
  | _, _ => []

/-- The code point of a sequence. -/
def Lead.codePoint (l : Lead) (others : Bytes) : Nat :=
  others.foldl (fun n b => 64 * n + b.toNat % 64) l.bits

/-- The character at the front, after its first byte, and the number of bytes that it takes. -/
def takeOthers (l : Lead) (rest : Bytes) : Char × Nat :=
  let others := continuation l.low l.high l.others rest
  if others.length = l.others then (Char.ofNat (l.codePoint others), others.length)
  else ('\uFFFD', others.length)

/-- Bytes as characters. -/
def lossyChars : Bytes → List Char
  | [] => []
  | b :: rest =>
    match lead? b with
    | none => '\uFFFD' :: lossyChars rest
    | some l =>
      let (c, size) := takeOthers l rest
      c :: lossyChars (rest.drop size)
termination_by b => b.length
decreasing_by
  · simp
  · simp only [List.length_drop, List.length_cons]
    omega

/-- Bytes as text. -/
def lossy (b : Bytes) : String :=
  String.ofList (lossyChars b)

end Mqtt.Utf8

/-!
# Byte strings

A byte string is a list of bytes, first byte first. A word of two bytes stands high byte first, and
text stands as its UTF-8 form; both are read back, text only where the bytes are well-formed. A byte
string can be cut into pieces of one size, of which only the last may be shorter.
-/
namespace Mqtt

/-- A byte string, first byte first. -/
abbrev Bytes := List UInt8

namespace Bytes

/-- The high byte of a word, then its low byte. -/
def ofWord (w : UInt16) : Bytes :=
  [UInt8.ofNat (w.toNat / 256), UInt8.ofNat (w.toNat % 256)]

/-- The word whose high and low byte are given. -/
def word (high low : UInt8) : UInt16 :=
  UInt16.ofNat (256 * high.toNat + low.toNat)

/-- The UTF-8 form of a text. -/
def ofText (s : String) : Bytes :=
  s.toUTF8.data.toList

/-- The text whose UTF-8 form the bytes are, if they are well-formed. -/
def text? (b : Bytes) : Option String :=
  String.fromUTF8? ⟨b.toArray⟩

/-- Cuts a byte string into pieces of `n` bytes, the last of which may be shorter. There is no
empty piece; for `n = 0` the whole is one piece. -/
def chunks (n : Nat) (b : Bytes) : List Bytes :=
  if b.isEmpty then []
  else if n = 0 then [b]
  else b.take n :: chunks n (b.drop n)
termination_by b.length
decreasing_by
  have := List.length_pos_iff.mpr (by simpa using ‹¬b.isEmpty = true›)
  simp only [List.length_drop]
  omega

@[simp] theorem length_ofWord (w : UInt16) : (ofWord w).length = 2 := rfl

@[simp] theorem word_ofWord (w : UInt16) :
    word (UInt8.ofNat (w.toNat / 256)) (UInt8.ofNat (w.toNat % 256)) = w := by
  have h : w.toNat < 65536 := w.toNat_lt
  apply UInt16.toNat_inj.mp
  simp only [word, UInt8.toNat_ofNat', UInt16.toNat_ofNat']
  omega

end Bytes
end Mqtt

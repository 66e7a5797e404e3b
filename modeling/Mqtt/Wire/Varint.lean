import Mqtt.Bytes

/-!
# Variable byte integers

A number below 128⁴ stands as its digits in base 128, least digit first, one to a byte; every byte
but the last has its top bit set. It is written in the shortest of these forms and read in all of
them, up to four bytes.
-/
namespace Mqtt

/-- What the front of a byte string that may still grow tells of a value. -/
inductive Scan (α : Type) where
  /-- A value, and the number of bytes it takes. -/
  | complete (value : α) (size : Nat)
  /-- More bytes are needed. -/
  | incomplete
  /-- No further bytes can make it a value. -/
  | overlong
  deriving DecidableEq

namespace Scan

variable {α β : Type}

/-- Changes the value and its size, if there is one. -/
def map (f : α → β) (grow : Nat → Nat) : Scan α → Scan β
  | complete a n => complete (f a) (grow n)
  | incomplete => incomplete
  | overlong => overlong

end Scan

namespace Varint

/-- The largest number that four bytes hold. -/
def maximum : Nat := 268435455

/-- The shortest form of a number. -/
def encode (n : Nat) : Bytes :=
  if n < 128 then [UInt8.ofNat n]
  else UInt8.ofNat (n % 128 + 128) :: encode (n / 128)
termination_by n
decreasing_by omega

/-- The shortest form of a number that four bytes hold. -/
def encode? (n : Nat) : Option Bytes :=
  if n ≤ maximum then some (encode n) else none

/-- Writes the digits of a number behind what a buffer holds, and counts them. -/
def writeDigits (buffer : Bytes) (count n : Nat) : Bytes × Nat :=
  if n < 128 then (buffer ++ [UInt8.ofNat n], count + 1)
  else writeDigits (buffer ++ [UInt8.ofNat (n % 128 + 128)]) (count + 1) (n / 128)
termination_by n
decreasing_by omega

/-- Writes the shortest form of a number behind what a buffer holds, and tells its length. A number
that four bytes do not hold is not written. -/
def appendTo (buffer : Bytes) (n : Nat) : Bytes × Option Nat :=
  if maximum < n then (buffer, none)
  else
    let (buffer, count) := writeDigits buffer 0 n
    (buffer, some count)

/-- The number of bytes in the shortest form of a number that four bytes hold. -/
def size (n : Nat) : Nat :=
  if n < 128 then 1
  else if n < 16384 then 2
  else if n < 2097152 then 3
  else 4

/-- Reads a number of at most `places` bytes. -/
def decodeWithin : Nat → Bytes → Scan Nat
  | 0, _ => .overlong
  | _ + 1, [] => .incomplete
  | places + 1, b :: rest =>
    if b.toNat < 128 then .complete b.toNat 1
    else (decodeWithin places rest).map (fun n => b.toNat % 128 + 128 * n) (· + 1)

/-- Reads a number from the front of a byte string. Four bytes with the top bit set are the front
of no number. -/
def decode (b : Bytes) : Scan Nat :=
  decodeWithin 4 b

end Varint
end Mqtt

import Mqtt.Text.Digits

/-!
# Socket addresses

An address of version 4 or 6 and the number of a service at it, in the text forms `1.2.3.4:5`
and `[2001:db8::1]:5`. The readers take any form of an address that is in use: zeros left out,
the last two words as four bytes, and a scope. In writing, the longest run of zeros is left out.
-/
namespace Mqtt

/-- A network address and the number of a service at it. -/
inductive SocketAddress where
  /-- Four bytes. -/
  | v4 (octets : Vector UInt8 4) (service : UInt16)
  /-- Eight words and the number of a scope. -/
  | v6 (groups : Vector UInt16 8) (scope : UInt32) (service : UInt16)
  deriving DecidableEq

namespace SocketAddress

/-! ### Reading

A reader takes its text off the front of the characters and returns the rest. -/

/-- Takes all digits, at least one and at most `most`; the number they write has to be below
`bound`. -/
def readNumber? (base most bound : Nat) (cs : List Char) : Option (Nat × List Char) :=
  let digits := cs.takeWhile (Digits.isDigitOf base)
  let n := Digits.toNat base digits
  if digits.isEmpty || most < digits.length || bound ≤ n then none
  else some (n, cs.drop digits.length)

/-- Takes the number of a service behind a colon. Leading zeros are allowed. -/
def readService? (cs : List Char) : Option (UInt16 × List Char) := do
  let cs ← Front.char? ':' cs
  let (n, cs) ← readNumber? 10 cs.length 65536 cs
  return (UInt16.ofNat n, cs)

/-- Takes a byte in decimal, without leading zeros. -/
def readOctet? (cs : List Char) : Option (UInt8 × List Char) := do
  let (n, rest) ← readNumber? 10 3 256 cs
  if cs.head? = some '0' ∧ rest.length + 1 < cs.length then none
  else return (UInt8.ofNat n, rest)

/-- Takes four bytes with points between them. -/
def readOctets? (cs : List Char) : Option (Vector UInt8 4 × List Char) := do
  let (a, cs) ← readOctet? cs
  let (b, cs) ← readOctet? (← Front.char? '.' cs)
  let (c, cs) ← readOctet? (← Front.char? '.' cs)
  let (d, cs) ← readOctet? (← Front.char? '.' cs)
  return (#v[a, b, c, d], cs)

/-- Takes at most `count` words with colons between them. The last two words may stand as four
bytes; the result tells whether they do. -/
def readGroups (count : Nat) (first : Bool) (cs : List Char) :
    List UInt16 × Bool × List Char :=
  match count with
  | 0 => ([], false, cs)
  | count + 1 =>
    match if first then some cs else Front.char? ':' cs with
    | none => ([], false, cs)
    | some group =>
      match if count = 0 then none else readOctets? group with
      | some (octets, rest) =>
        let word (i j : Fin 4) := UInt16.ofNat (256 * octets[i].toNat + octets[j].toNat)
        ([word 0 1, word 2 3], true, rest)
      | none =>
        match readNumber? 16 4 65536 group with
        | none => ([], false, cs)
        | some (n, rest) =>
          let (groups, dotted, rest) := readGroups count false rest
          (UInt16.ofNat n :: groups, dotted, rest)

/-- Takes eight words, or fewer with a double colon for the zeros left out. -/
def readAddress? (cs : List Char) : Option (Vector UInt16 8 × List Char) := do
  let (front, dotted, rest) := readGroups 8 true cs
  if h : front.length = 8 then return (⟨front.toArray, by simpa using h⟩, rest)
  else if dotted then none
  else
    let rest ← Front.char? ':' (← Front.char? ':' rest)
    let (back, _, rest) := readGroups (7 - front.length) true rest
    let groups := front ++ List.replicate (8 - front.length - back.length) 0 ++ back
    if h : groups.length = 8 then return (⟨groups.toArray, by simpa using h⟩, rest) else none

/-- Takes the number of a scope behind a percent sign. -/
def readScope? (cs : List Char) : Option (UInt32 × List Char) := do
  let cs ← Front.char? '%' cs
  let (n, cs) ← readNumber? 10 cs.length 4294967296 cs
  return (UInt32.ofNat n, cs)

/-- Takes an address of version 4 and a service. -/
def readV4? (cs : List Char) : Option (SocketAddress × List Char) := do
  let (octets, cs) ← readOctets? cs
  let (service, cs) ← readService? cs
  return (.v4 octets service, cs)

/-- Takes an address of version 6 in brackets and a service. A scope may be missing. -/
def readV6? (cs : List Char) : Option (SocketAddress × List Char) := do
  let (groups, cs) ← readAddress? (← Front.char? '[' cs)
  let (scope, cs) := (readScope? cs).getD (0, cs)
  let (service, cs) ← readService? (← Front.char? ']' cs)
  return (.v6 groups scope service, cs)

/-- The address that a text is, to its last character. -/
def read? (s : String) : Option SocketAddress :=
  match readV4? s.toList <|> readV6? s.toList with
  | some (address, []) => some address
  | _ => none

/-! ### Writing -/

/-- Four bytes with points between them. -/
def describeOctets (octets : List Nat) : String :=
  ".".intercalate (octets.map toString)

/-- Words in hexadecimal with colons between them. -/
def describeGroups (groups : List UInt16) : String :=
  ":".intercalate (groups.map fun g => String.ofList (Digits.hex g.toNat))

/-- The number of zeros in front of a list. -/
def leadingZeros (groups : List UInt16) : Nat :=
  (groups.takeWhile (· == 0)).length

/-- The place and the length of the longest run of zeros, the first of several. -/
def longestZeros : List UInt16 → Nat × Nat
  | [] => (0, 0)
  | g :: groups =>
    let here := leadingZeros (g :: groups)
    let (start, length) := longestZeros groups
    if length ≤ here then (0, here) else (start + 1, length)

/-- An address of version 6: a mapped address of version 4 stands in its own form, and else the
longest run of two or more zeros stands as a double colon. -/
def describeAddress (groups : List UInt16) : String :=
  match groups with
  | [0, 0, 0, 0, 0, 0xffff, a, b] =>
    "::ffff:" ++ describeOctets [a.toNat / 256, a.toNat % 256, b.toNat / 256, b.toNat % 256]
  | _ =>
    let (start, length) := longestZeros groups
    if length < 2 then describeGroups groups
    else
      describeGroups (groups.take start) ++ "::" ++ describeGroups (groups.drop (start + length))

/-- The text of an address. The scope is shown unless it is zero. -/
def describe : SocketAddress → String
  | v4 octets service =>
    describeOctets (octets.toList.map UInt8.toNat) ++ ":" ++ toString service.toNat
  | v6 groups scope service =>
    let scope := if scope = 0 then "" else "%" ++ toString scope.toNat
    "[" ++ describeAddress groups.toList ++ scope ++ "]:" ++ toString service.toNat

end SocketAddress
end Mqtt

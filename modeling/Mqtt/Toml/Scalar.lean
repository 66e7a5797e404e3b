import Mqtt.Text.Digits
import Mqtt.Toml.Dialect
import Mqtt.Toml.Value

/-!
# Numbers, truth values, dates and times

A value that is neither quoted nor bracketed is a word of letters, digits and a few marks. Its
form tells what it is: a truth value, a date or a time, an integer in one of four bases, or a float.
Underscores may stand between digits, and a blank between the date and the time of one value.
-/
namespace Mqtt.Toml

/-! ### Digits -/

/-- Digits with single underscores between them, without the underscores. -/
def joinDigits? (isDigit : Char → Bool) : List Char → Option (List Char)
  | [] => none
  | [c] => if isDigit c then some [c] else none
  | c :: '_' :: rest => if isDigit c then (c :: ·) <$> joinDigits? isDigit rest else none
  | c :: rest => if isDigit c then (c :: ·) <$> joinDigits? isDigit rest else none

/-- Digits of a decimal number: a zero in front stands alone. -/
def decimalDigits? (cs : List Char) : Option (List Char) :=
  (joinDigits? Char.isDigit cs).filter fun digits => digits.length = 1 || digits.head? != some '0'

/-! ### Integers and floats -/

/-- The number of digits with a base in front, or decimal with an optional sign. -/
def readUnbounded? : List Char → Option Int
  | '0' :: 'x' :: cs => inBase 16 cs
  | '0' :: 'o' :: cs => inBase 8 cs
  | '0' :: 'b' :: cs => inBase 2 cs
  | cs => do
    let (negative, unsigned) := Decimal.splitSign cs
    let n : Int := Digits.toNat 10 (← decimalDigits? unsigned)
    return if negative then -n else n
where
  inBase (base : Nat) (cs : List Char) : Option Int :=
    (joinDigits? (Digits.isDigitOf base) cs).map fun digits => (Digits.toNat base digits : Int)

/-- Whether 64 bits with a sign hold a number. -/
def inRange (n : Int) : Bool :=
  -9223372036854775808 ≤ n && n ≤ 9223372036854775807

/-- The integer that a word is. -/
def readInteger? (cs : List Char) : Option Int :=
  (readUnbounded? cs).filter inRange

/-- The digits of an exponent behind its letter. -/
def exponentDigits? (cs : List Char) : Option (List Char) := do
  let (negative, unsigned) := Decimal.splitSign cs
  let digits ← joinDigits? Char.isDigit unsigned
  return if negative then '-' :: digits else digits

/-- What follows the whole part of a float: a fraction, an exponent, or both. -/
def floatTail? : List Char → Option (List Char)
  | '.' :: cs => do
    let inFraction (c : Char) : Bool := c.isDigit || c = '_'
    let fraction ← joinDigits? Char.isDigit (cs.takeWhile inFraction)
    match cs.dropWhile inFraction with
    | [] => return '.' :: fraction
    | 'e' :: cs | 'E' :: cs => return '.' :: fraction ++ 'e' :: (← exponentDigits? cs)
    | _ => none
  | 'e' :: cs | 'E' :: cs => do return 'e' :: (← exponentDigits? cs)
  | _ => none

/-- The number that a word of digits, point and exponent is. Where a number that rounds to infinity
counts, it has to be negative. -/
def readNumber? (d : Dialect) (negative : Bool) (cs : List Char) : Option Binary64 := do
  let inWhole (c : Char) : Bool := c.isDigit || c = '_'
  let whole ← decimalDigits? (cs.takeWhile inWhole)
  let tail ← floatTail? (cs.dropWhile inWhole)
  let decimal ← Decimal.read? (whole ++ tail)
  match Binary64.ofDecimal { decimal with negative } with
  | .infinite below => if below && d.negativeOverflow then return .infinite below else none
  | x => return x

/-- The float that a word is. -/
def readFloat? (d : Dialect) (cs : List Char) : Option Binary64 :=
  let (negative, unsigned) := Decimal.splitSign cs
  match unsigned with
  | ['i', 'n', 'f'] => some (.infinite negative)
  | ['n', 'a', 'n'] => some .nan
  | _ => readNumber? d negative unsigned

/-! ### Dates and times -/

/-- Takes a number of exactly `width` digits that lies between two bounds. -/
def takeNumber? (width low high : Nat) (cs : List Char) : Option (Nat × List Char) :=
  let digits := cs.take width
  let n := Digits.toNat 10 digits
  if digits.length = width && digits.all Char.isDigit && low ≤ n && n ≤ high then
    some (n, cs.drop width)
  else none

/-- The number of days of a month. -/
def daysIn (year month : Nat) : Nat :=
  if month = 2 then
    if year % 4 = 0 ∧ (year % 100 ≠ 0 ∨ year % 400 = 0) then 29 else 28
  else if month = 4 ∨ month = 6 ∨ month = 9 ∨ month = 11 then 30
  else 31

/-- Takes a day. -/
def takeDate? (cs : List Char) : Option (Date × List Char) := do
  let (year, cs) ← takeNumber? 4 0 9999 cs
  let (month, cs) ← takeNumber? 2 1 12 (← Front.char? '-' cs)
  let (day, cs) ← takeNumber? 2 1 (daysIn year month) (← Front.char? '-' cs)
  return ({ year, month, day }, cs)

/-- Takes a second, which may be a leap second. -/
def takeSecond? (cs : List Char) : Option (Second × List Char) := do
  let (whole, cs) ← takeNumber? 2 0 60 cs
  match cs with
  | '.' :: more =>
    let fraction := more.takeWhile Char.isDigit
    if fraction.isEmpty then none
    else return ({ whole, fraction }, more.drop fraction.length)
  | _ => return ({ whole }, cs)

/-- Takes a time of day. -/
def takeTime? (d : Dialect) (cs : List Char) : Option (Time × List Char) := do
  let (hour, cs) ← takeNumber? 2 0 23 cs
  let (minute, cs) ← takeNumber? 2 0 59 (← Front.char? ':' cs)
  match cs with
  | ':' :: cs =>
    let (second, cs) ← takeSecond? cs
    return ({ hour, minute, second := some second }, cs)
  | _ => if d.shortTimes then some ({ hour, minute }, cs) else none

/-- Takes an offset. -/
def takeOffset? : List Char → Option (Offset × List Char)
  | 'Z' :: cs | 'z' :: cs => some (.universal, cs)
  | sign :: cs => do
    let (hours, cs) ← takeNumber? 2 0 23 cs
    let (minutes, cs) ← takeNumber? 2 0 59 (← Front.char? ':' cs)
    let n : Int := 60 * hours + minutes
    if sign = '+' then return (.ahead n, cs)
    else if sign = '-' then return (.ahead (-n), cs)
    else none
  | [] => none

/-- The date, the time or both that a word is. -/
def readDatetime? (d : Dialect) (cs : List Char) : Option Datetime :=
  match takeTime? d cs with
  | some (time, []) => some { time := some time }
  | _ => do
    let (date, cs) ← takeDate? cs
    match cs with
    | [] => return { date := some date }
    | between :: cs =>
      if between ≠ 'T' ∧ between ≠ 't' ∧ between ≠ ' ' then none
      else
        let (time, cs) ← takeTime? d cs
        if cs.isEmpty then return { date := some date, time := some time }
        else
          let (offset, cs) ← takeOffset? cs
          if cs.isEmpty then
            return { date := some date, time := some time, offset := some offset }
          else none

/-! ### Words -/

/-- Whether a character can be part of a word. -/
def isWordChar (c : Char) : Bool :=
  c.isAlphanum || c = '+' || c = '-' || c = '_' || c = '.' || c = ':'

/-- The value of a word. -/
def readWord? (d : Dialect) (cs : List Char) : Option Value :=
  match cs with
  | ['t', 'r', 'u', 'e'] => some (.boolean true)
  | ['f', 'a', 'l', 's', 'e'] => some (.boolean false)
  | _ =>
    (.datetime <$> readDatetime? d cs) <|> (.integer <$> readInteger? cs)
      <|> (.float <$> readFloat? d cs)

/-- Takes a word off the front. A space between a date and a time belongs to it. -/
def takeWord (cs : List Char) : List Char × List Char :=
  let word := cs.takeWhile isWordChar
  let rest := cs.drop word.length
  match takeDate? word, rest with
  | some (_, []), ' ' :: d :: more =>
    if d.isDigit then
      let time := (d :: more).takeWhile isWordChar
      (word ++ ' ' :: time, (d :: more).drop time.length)
    else (word, rest)
  | _, _ => (word, rest)

end Mqtt.Toml

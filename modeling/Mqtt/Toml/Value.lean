import Mqtt.Decimal.Binary64

/-!
# TOML values

The values that a TOML document can hold: scalars, dates and times, arrays and tables. The entries
of a table are kept in order of appearance, with different keys; a key that is given another value
keeps its place. Equality of values is decidable.
-/
namespace Mqtt.Toml

/-- A day. -/
structure Date where
  year : Nat
  month : Nat
  day : Nat
  deriving DecidableEq

/-- A second of a minute. -/
structure Second where
  whole : Nat
  /-- The digits behind the point, if there is one. -/
  fraction : List Char := []
  deriving DecidableEq

/-- A time of day. -/
structure Time where
  hour : Nat
  minute : Nat
  second : Option Second := none
  deriving DecidableEq

/-- How far a clock is ahead of universal time. -/
inductive Offset where
  /-- It shows universal time. -/
  | universal
  /-- It is ahead by some minutes, or behind. -/
  | ahead (minutes : Int)
  deriving DecidableEq

/-- A date, a time, or both; with both there may be an offset. -/
structure Datetime where
  date : Option Date := none
  time : Option Time := none
  offset : Option Offset := none
  deriving DecidableEq

/-- A number in decimal, filled up with zeros in front. -/
def padded (width n : Nat) : String :=
  let digits := Nat.toDigits 10 n
  String.ofList (List.replicate (width - digits.length) '0' ++ digits)

/-- A day as text. -/
def Date.describe (d : Date) : String :=
  padded 4 d.year ++ "-" ++ padded 2 d.month ++ "-" ++ padded 2 d.day

/-- The digits of a fraction that count: at most nine, without zeros at the end. -/
def significant (fraction : List Char) : List Char :=
  ((fraction.take 9).reverse.dropWhile (· == '0')).reverse

/-- A second as text. A fraction of zeros has one of them. -/
def Second.describe (s : Second) : String :=
  let fraction := significant s.fraction
  padded 2 s.whole
    ++ (if s.fraction.isEmpty then ""
      else if fraction.isEmpty then ".0"
      else "." ++ String.ofList fraction)

/-- A time of day as text. -/
def Time.describe (t : Time) : String :=
  let second := (t.second.map fun s => ":" ++ s.describe).getD ""
  padded 2 t.hour ++ ":" ++ padded 2 t.minute ++ second

/-- An offset as text. -/
def Offset.describe : Offset → String
  | universal => "Z"
  | ahead minutes =>
    (if minutes < 0 then "-" else "+")
      ++ padded 2 (minutes.natAbs / 60) ++ ":" ++ padded 2 (minutes.natAbs % 60)

/-- A date and a time as text, with a `T` between them. -/
def Datetime.describe (d : Datetime) : String :=
  let date := (d.date.map Date.describe).getD ""
  let time := (d.time.map Time.describe).getD ""
  let between := if d.date.isSome && d.time.isSome then "T" else ""
  date ++ between ++ time ++ (d.offset.map Offset.describe).getD ""

/-- A TOML value. -/
inductive Value where
  | text (text : String)
  | integer (n : Int)
  | float (x : Binary64)
  | boolean (b : Bool)
  | datetime (d : Datetime)
  | array (items : List Value)
  | table (entries : List (String × Value))

/-! ### Equality -/

mutual

/-- Whether two values are the same. -/
def Value.same : Value → Value → Bool
  | .text s, .text t => s == t
  | .integer m, .integer n => m == n
  | .float x, .float y => x == y
  | .boolean b, .boolean c => b == c
  | .datetime d, .datetime e => d == e
  | .array items, .array items' => sameItems items items'
  | .table entries, .table entries' => sameEntries entries entries'
  | _, _ => false

/-- Whether two rows of items are the same. -/
def sameItems : List Value → List Value → Bool
  | [], [] => true
  | v :: items, w :: items' => v.same w && sameItems items items'
  | _, _ => false

/-- Whether two rows of entries are the same. -/
def sameEntries : List (String × Value) → List (String × Value) → Bool
  | [], [] => true
  | (key, v) :: entries, (key', w) :: entries' =>
    key == key' && v.same w && sameEntries entries entries'
  | _, _ => false

end

mutual

theorem Value.same_iff : (v w : Value) → (v.same w = true ↔ v = w)
  | .text _, w | .integer _, w | .float _, w | .boolean _, w | .datetime _, w => by
    cases w <;> simp [Value.same]
  | .array items, w => by
    cases w <;> simp [Value.same, sameItems_iff]
  | .table entries, w => by
    cases w <;> simp [Value.same, sameEntries_iff]

theorem sameItems_iff : (items items' : List Value) →
    (sameItems items items' = true ↔ items = items')
  | [], items' => by
    cases items' <;> simp [sameItems]
  | v :: items, items' => by
    cases items' <;> simp [sameItems, Value.same_iff, sameItems_iff]

theorem sameEntries_iff : (entries entries' : List (String × Value)) →
    (sameEntries entries entries' = true ↔ entries = entries')
  | [], entries' => by
    cases entries' <;> simp [sameEntries]
  | (key, v) :: entries, entries' => by
    cases entries' <;> simp [sameEntries, Value.same_iff, sameEntries_iff, Prod.ext_iff]

end

instance : DecidableEq Value := fun v w => decidable_of_iff _ (Value.same_iff v w)

/-! ### Keys -/

variable {α : Type}

theorem lookup_cons_of_ne {key name : String} (h : key ≠ name) (a : α)
    (entries : List (String × α)) : ((name, a) :: entries).lookup key = entries.lookup key := by
  rw [List.lookup_cons, beq_false_of_ne h]

/-- Gives a key a value, at its place if there is one and else at the end. -/
def put (key : String) (a : α) : List (String × α) → List (String × α)
  | [] => [(key, a)]
  | (name, b) :: entries =>
    if key == name then (key, a) :: entries else (name, b) :: put key a entries

/-- A key that was given a value has it. -/
@[simp] theorem lookup_put_self (key : String) (a : α) (entries : List (String × α)) :
    (put key a entries).lookup key = some a := by
  induction entries with
  | nil => simp [put]
  | cons e entries ih =>
    obtain ⟨name, b⟩ := e
    by_cases h : key = name
    · simp [put, h]
    · simp [put, h, lookup_cons_of_ne h, ih]

/-- All other keys keep theirs. -/
theorem lookup_put_of_ne {key other : String} (h : other ≠ key) (a : α)
    (entries : List (String × α)) : (put key a entries).lookup other = entries.lookup other := by
  induction entries with
  | nil => exact lookup_cons_of_ne h a []
  | cons e entries ih =>
    obtain ⟨name, b⟩ := e
    by_cases he : key = name
    · subst he
      simp [put, lookup_cons_of_ne h]
    · simp [put, List.lookup_cons, he, ih]

end Mqtt.Toml

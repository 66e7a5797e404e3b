import Mqtt.Toml.Parser

/-!
# Paths into tables

A path leads from a table to a value in it, by keys and by places in arrays: `a.b[2]`. What is
missing on the way is made, so that every path can be given a value. A value that is laid over
another one replaces it, but two tables are joined key by key.
-/
namespace Mqtt.Toml

/-- One step of a path. -/
inductive Step where
  | key (name : String)
  /-- A place in an array; negative places count from its end. -/
  | place (i : Int)
  deriving DecidableEq

/-- A key of a table, and the steps from its value on. -/
structure Path where
  root : String
  steps : List Step := []
  deriving DecidableEq

/-! ### The text of a path -/

/-- The number between the brackets of a place, which may have blanks around it. -/
def readPlace? (cs : List Char) : Option Int :=
  let digits := ((cs.dropWhile isBlank).reverse.dropWhile isBlank).reverse
  if digits.head? = some '+' then none else (Decimal.readInt? digits).filter inRange

/-- Reads a step: a key behind a point, or a place in brackets. -/
def readStep? : List Char → Option (Step × List Char)
  | '.' :: rest =>
    let key := rest.takeWhile isBareKeyChar
    if key.isEmpty then none else some (.key (String.ofList key), rest.drop key.length)
  | '[' :: rest => do
    let inside := rest.takeWhile (· ≠ ']')
    return (.place (← readPlace? inside), ← Front.char? ']' (rest.drop inside.length))
  | _ => none

/-- Reads steps up to the end, as many as `bound` allows. -/
def readSteps? : Nat → List Char → Option (List Step)
  | _, [] => some []
  | 0, _ => none
  | bound + 1, cs => do
    let (step, rest) ← readStep? cs
    return step :: (← readSteps? bound rest)

/-- The path that a text writes. Each step takes a character, so the length bounds their number. -/
def Path.read? (s : String) : Option Path :=
  let root := s.toList.takeWhile isBareKeyChar
  if root.isEmpty then none
  else
    (readSteps? s.length (s.toList.drop root.length)).map fun steps =>
      { root := String.ofList root, steps }

/-- The path that a text writes; a text that writes none is one key. -/
def Path.ofText (s : String) : Path :=
  (Path.read? s).getD { root := s }

/-! ### Values at the end of a path -/

/-- What stands where nothing was given. -/
def nothing : Value := .table []

namespace Value

/-- The entries of a table. Other values have none. -/
def entries : Value → List (String × Value)
  | table entries => entries
  | _ => []

/-- The items of an array. Other values have none. -/
def items : Value → List Value
  | array items => items
  | _ => []

end Value

/-- The value of a key, if only nothing. -/
def get (key : String) (entries : List (String × Value)) : Value :=
  (entries.lookup key).getD nothing

mutual

/-- A value laid over another one. A table joins the entries below it; all else hides what is
below. -/
def Value.over (below : Value) : Value → Value
  | .table entries => .table (overAll below.entries entries)
  | value => value

/-- Entries laid over others, key by key. -/
def overAll (below : List (String × Value)) : List (String × Value) → List (String × Value)
  | [] => below
  | (key, value) :: entries => overAll (put key (Value.over (get key below) value) below) entries

end

/-- Changes an item of an array. An array that does not reach the place is filled up with nothing,
at the end that lies towards it. -/
def changeItem (f : Value → Value) (place : Int) (items : List Value) : List Value :=
  if 0 ≤ place then
    let i := place.toNat
    (items ++ List.replicate (i + 1 - items.length) nothing).modify i f
  else
    let i := place.natAbs
    (List.replicate (i - items.length) nothing ++ items).modify (items.length - i) f

/-- Changes what a step leads to. A value that the step does not fit gives way. -/
def Step.change (f : Value → Value) (value : Value) : Step → Value
  | key name => .table (put name (f (get name value.entries)) value.entries)
  | place i => .array (changeItem f i value.items)

/-- Changes what steps lead to. -/
def changeAt (f : Value → Value) : List Step → Value → Value
  | [], value => f value
  | step :: steps, value => step.change (changeAt f steps) value

/-- Lays a value over what stands at the end of a path. -/
def assign (entries : List (String × Value)) (path : Path) (value : Value) :
    List (String × Value) :=
  put path.root (changeAt (Value.over · value) path.steps (get path.root entries)) entries

end Mqtt.Toml

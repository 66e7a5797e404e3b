import Mqtt.Toml.Dialect
import Mqtt.Toml.Value

/-!
# Documents in the making

A TOML document is built statement by statement. A table remembers how it came to be, because
that decides whether later statements may add to it: a header may define a table only once, and
dotted keys may not add to a table that a header defined.
-/
namespace Mqtt.Toml

/-- How a table came to be. -/
inductive Origin where
  /-- A header names it. -/
  | header
  /-- A header names a table below it. -/
  | implied
  /-- A dotted key goes through it. -/
  | dotted
  deriving DecidableEq

/-- Whether a dotted key may give a table of some origin a value. -/
def Origin.isOpen (d : Dialect) : Origin → Bool
  | header => false
  | implied => d.extendsImplied
  | dotted => true

/-- A part of a document in the making. -/
inductive Draft where
  /-- A value that nothing may be added to. -/
  | closed (value : Value)
  /-- A table. -/
  | table (origin : Origin) (entries : List (String × Draft))
  /-- An array of tables: the entries of the last one, which is open, and those of the ones
  before it, last one first. -/
  | tables (latest : List (String × Draft)) (before : List (List (String × Draft)))

/-- The entries of a table in the making. -/
abbrev Entries := List (String × Draft)

/-- A key with the keys of the tables it goes through. -/
structure Key where
  through : List String
  last : String
  deriving DecidableEq

namespace Key

/-- All keys of a dotted key. -/
def path (k : Key) : List String := k.through ++ [k.last]

end Key

/-- A statement of a document. -/
inductive Statement where
  | header (key : Key)
  | element (key : Key)
  | assign (key : Key) (value : Value)

/-- Changes the entries of the table that the path of a header leads to. Tables on the way are
made if they are missing; the way through an array of tables is its open one. -/
def underHeader (f : Entries → Option Entries) : List String → Entries → Option Entries
  | [], entries => f entries
  | key :: path, entries =>
    match entries.lookup key with
    | none => do return put key (.table .implied (← underHeader f path [])) entries
    | some (.table origin inner) => do
      return put key (.table origin (← underHeader f path inner)) entries
    | some (.tables inner before) => do
      return put key (.tables (← underHeader f path inner) before) entries
    | some (.closed _) => none

/-- Adds an entry under a key that is still free. -/
def addNew (key : String) (part : Draft) (entries : Entries) : Option Entries :=
  match entries.lookup key with
  | none => some (put key part entries)
  | some _ => none

/-- Assigns a value to a dotted key. The table that takes the value has to be open to dotted keys;
those on the way to it must not be named by a header. -/
def assignDotted (d : Dialect) (last : String) (value : Value) :
    List String → Entries → Option Entries
  | [], entries => addNew last (.closed value) entries
  | [key], entries =>
    match entries.lookup key with
    | none => some (put key (.table .dotted [(last, .closed value)]) entries)
    | some (.table origin inner) =>
      if origin.isOpen d then do
        return put key (.table origin (← addNew last (.closed value) inner)) entries
      else none
    | some _ => none
  | key :: path, entries =>
    match entries.lookup key with
    | none => do return put key (.table .dotted (← assignDotted d last value path [])) entries
    | some (.table .header _) => none
    | some (.table origin inner) => do
      return put key (.table origin (← assignDotted d last value path inner)) entries
    | some (.tables inner before) => do
      return put key (.tables (← assignDotted d last value path inner) before) entries
    | some (.closed _) => none

/-- Opens the table of a header: a new one, or one that only a longer header implied. -/
def openTable (key : String) (entries : Entries) : Option Entries :=
  match entries.lookup key with
  | none => some (put key (.table .header []) entries)
  | some (.table .implied inner) => some (put key (.table .header inner) entries)
  | some _ => none

/-- Opens a new element of an array of tables. -/
def openElement (key : String) (entries : Entries) : Option Entries :=
  match entries.lookup key with
  | none => some (put key (.tables [] []) entries)
  | some (.tables inner before) => some (put key (.tables [] (inner :: before)) entries)
  | some _ => none

/-- A document in the making: its entries, and the path of the last header. -/
structure Progress where
  entries : Entries := []
  current : List String := []

/-- Adds a statement, if it is allowed. -/
def Progress.add (d : Dialect) (p : Progress) : Statement → Option Progress
  | .header key => do
    return { entries := ← underHeader (openTable key.last) key.through p.entries
             current := key.path }
  | .element key => do
    return { entries := ← underHeader (openElement key.last) key.through p.entries
             current := key.path }
  | .assign key value => do
    return { p with
      entries := ← underHeader (assignDotted d key.last value key.through) p.current p.entries }

mutual

/-- The value of a finished part. -/
def Draft.toValue : Draft → Value
  | .closed value => value
  | .table _ entries => .table (finish entries)
  | .tables latest before => .array (finishAll before [.table (finish latest)])

/-- The entries of a finished table. -/
def finish : List (String × Draft) → List (String × Value)
  | [] => []
  | (key, d) :: entries => (key, d.toValue) :: finish entries

/-- The elements of a finished array, given last one first, in front of others. -/
def finishAll : List (List (String × Draft)) → List Value → List Value
  | [], after => after
  | entries :: before, after => finishAll before (.table (finish entries) :: after)

end

/-- The entries that statements make, if all are allowed. -/
def build (d : Dialect) (statements : List Statement) : Option (List (String × Value)) := do
  let p ← statements.foldlM (Progress.add d) ({} : Progress)
  return finish p.entries

end Mqtt.Toml

import Mqtt.Toml.Draft
import Mqtt.Toml.Quoted
import Mqtt.Toml.Scalar

/-!
# Reading TOML documents

A document is read statement by statement, and the statements make its table. Values nest, so their
reader has fuel, of which the length of the text is enough, and counts the brackets that it is
inside of, since each dialect bounds them.
-/
namespace Mqtt.Toml

/-! ### Blanks, comments and line ends -/

/-- Skips blanks. -/
def skipBlanks (cs : List Char) : List Char :=
  cs.dropWhile isBlank

/-- Skips blanks, line ends and comments; `comment` tells whether a comment is open. -/
def skipFillerFrom? (comment : Bool) : List Char → Option (List Char)
  | [] => some []
  | '\n' :: rest => skipFillerFrom? false rest
  | '\r' :: '\n' :: rest => skipFillerFrom? false rest
  | c :: rest =>
    if comment then if isTextChar c then skipFillerFrom? true rest else none
    else if isBlank c then skipFillerFrom? false rest
    else if c = '#' then skipFillerFrom? true rest
    else some (c :: rest)

/-- Skips blanks, line ends and comments. -/
def skipFiller? (cs : List Char) : Option (List Char) :=
  skipFillerFrom? false cs

/-- Skips what may stand between the parts of an inline table. -/
def skipInTable? (d : Dialect) (cs : List Char) : Option (List Char) :=
  if d.wideTables then skipFiller? cs else some (skipBlanks cs)

/-- Skips the rest of a line, which may only hold blanks and a comment. -/
def skipLineFrom? (comment : Bool) : List Char → Option (List Char)
  | [] => some []
  | '\n' :: rest => some rest
  | '\r' :: '\n' :: rest => some rest
  | c :: rest =>
    if comment then if isTextChar c then skipLineFrom? true rest else none
    else if isBlank c then skipLineFrom? false rest
    else if c = '#' then skipLineFrom? true rest
    else none

/-! ### Keys -/

/-- Whether a character may stand in a key without quotes. -/
def isBareKeyChar (c : Char) : Bool :=
  c.isAlphanum || c = '-' || c = '_'

/-- Reads one key, quoted or bare. -/
def readSimpleKey? (d : Dialect) (cs : List Char) : Option (String × List Char) :=
  match cs with
  | '"' :: rest => (fun r => (String.ofList r.1, r.2)) <$> readBasic? d rest
  | '\'' :: rest => (fun r => (String.ofList r.1, r.2)) <$> readLiteral? rest
  | _ =>
    let key := cs.takeWhile isBareKeyChar
    if key.isEmpty then none else some (String.ofList key, cs.drop key.length)

/-- Reads keys with points between them, and the blanks behind. The number bounds the keys. -/
def readKeys? (d : Dialect) : Nat → List Char → Option (List String × List Char)
  | 0, _ => none
  | bound + 1, cs => do
    let (key, rest) ← readSimpleKey? d (skipBlanks cs)
    match skipBlanks rest with
    | '.' :: rest => do
      let (keys, rest) ← readKeys? d bound rest
      return (key :: keys, rest)
    | rest => return ([key], rest)

/-- Reads a dotted key. -/
def readKey? (d : Dialect) (cs : List Char) : Option (Key × List Char) := do
  let (keys, rest) ← readKeys? d d.maxDepth cs
  return (⟨keys.dropLast, ← keys.getLast?⟩, rest)


/-! ### Values

Each level of brackets, and each item in them, takes one of `fuel`; as it takes a character too,
the length of the text is fuel enough. -/

/-- Reads a quoted text. -/
def readText? (d : Dialect) : List Char → Option (String × List Char)
  | '"' :: '"' :: '"' :: rest =>
    (fun r => (String.ofList r.1, r.2)) <$> readBasicLines? d false (skipFirstLineEnd rest)
  | '"' :: rest => (fun r => (String.ofList r.1, r.2)) <$> readBasic? d rest
  | '\'' :: '\'' :: '\'' :: rest =>
    (fun r => (String.ofList r.1, r.2)) <$> readLiteralLines? d (skipFirstLineEnd rest)
  | '\'' :: rest => (fun r => (String.ofList r.1, r.2)) <$> readLiteral? rest
  | _ => none

mutual

/-- Reads a value inside `depth` levels of brackets. -/
def readValueWithin? (d : Dialect) (fuel depth : Nat) (cs : List Char) :
    Option (Value × List Char) :=
  match fuel with
  | 0 => none
  | fuel + 1 =>
    match cs with
    | '[' :: rest =>
      if d.maxDepth ≤ depth then none
      else do
        let (items, rest) ← readItems? d fuel (depth + 1) (← skipFiller? rest)
        return (.array items, rest)
    | '{' :: rest =>
      if d.maxDepth ≤ depth then none
      else do
        match ← skipInTable? d rest with
        | '}' :: rest => return (.table [], rest)
        | rest =>
          let (statements, rest) ← readAssignments? d fuel (depth + 1) rest
          return (.table (← build d statements), rest)
    | '"' :: _ | '\'' :: _ => do
      let (s, rest) ← readText? d cs
      return (.text s, rest)
    | _ => do
      let (word, rest) := takeWord cs
      return (← readWord? d word, rest)

/-- Reads the items of an array up to its closing bracket. A comma may follow the last one. -/
def readItems? (d : Dialect) (fuel depth : Nat) (cs : List Char) :
    Option (List Value × List Char) :=
  match fuel with
  | 0 => none
  | fuel + 1 =>
    match cs with
    | ']' :: rest => some ([], rest)
    | _ => do
      let (item, rest) ← readValueWithin? d fuel depth cs
      match ← skipFiller? rest with
      | ',' :: rest =>
        let (items, rest) ← readItems? d fuel depth (← skipFiller? rest)
        return (item :: items, rest)
      | ']' :: rest => return ([item], rest)
      | _ => none

/-- Reads the assignments of an inline table up to its closing brace. A comma may follow the last
one if the table may run over several lines. -/
def readAssignments? (d : Dialect) (fuel depth : Nat) (cs : List Char) :
    Option (List Statement × List Char) :=
  match fuel with
  | 0 => none
  | fuel + 1 => do
    let (key, rest) ← readKey? d cs
    let rest ← Front.char? '=' (← skipInTable? d rest)
    let (value, rest) ← readValueWithin? d fuel depth (← skipInTable? d rest)
    match ← skipInTable? d rest with
    | '}' :: rest => return ([.assign key value], rest)
    | ',' :: rest =>
      match ← skipInTable? d rest, d.wideTables with
      | '}' :: rest, true => return ([.assign key value], rest)
      | rest, _ =>
        let (statements, rest) ← readAssignments? d fuel depth rest
        return (.assign key value :: statements, rest)
    | _ => none

end

/-- Reads a value. -/
def readValue? (d : Dialect) (cs : List Char) : Option (Value × List Char) :=
  readValueWithin? d (cs.length + 1) 0 cs

/-! ### Documents -/

/-- Reads one statement, which ends with its line. -/
def readStatement? (d : Dialect) : List Char → Option (Statement × List Char)
  | '[' :: '[' :: rest => do
    let (key, rest) ← readKey? d rest
    let rest ← Front.char? ']' (← Front.char? ']' rest)
    return (.element key, ← skipLineFrom? false rest)
  | '[' :: rest => do
    let (key, rest) ← readKey? d rest
    let rest ← Front.char? ']' rest
    return (.header key, ← skipLineFrom? false rest)
  | cs => do
    let (key, rest) ← readKey? d cs
    let (value, rest) ← readValue? d (skipBlanks (← Front.char? '=' rest))
    return (.assign key value, ← skipLineFrom? false rest)

/-- Reads statements up to the end, as many as `bound` allows. -/
def readStatementsWithin? (d : Dialect) : Nat → List Char → Option (List Statement)
  | 0, _ => none
  | bound + 1, cs => do
    match ← skipFiller? cs with
    | [] => return []
    | cs =>
      let (statement, rest) ← readStatement? d cs
      return statement :: (← readStatementsWithin? d bound rest)

/-- Reads all statements of a document. Each takes a character at least, so the length of the
text bounds their number. -/
def readStatements? (d : Dialect) (cs : List Char) : Option (List Statement) :=
  readStatementsWithin? d (cs.length + 1) cs

/-- A byte order mark in front is no part of the document. -/
def skipMark : List Char → List Char
  | '\uFEFF' :: rest => rest
  | cs => cs

/-- The entries of a document, if the text is one. -/
def parse? (d : Dialect) (s : String) : Option (List (String × Value)) := do
  build d (← readStatements? d (skipMark s.toList))

end Mqtt.Toml

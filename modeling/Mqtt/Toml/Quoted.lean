import Mqtt.Text.Digits
import Mqtt.Toml.Dialect

/-!
# Quoted text in TOML

Text stands between one or three quotation marks, with escapes, or between one or three
apostrophes, as it is. Between three marks it may run over several lines. Each function here reads
behind the opening marks and returns the text and the characters behind the closing marks.
-/
namespace Mqtt.Toml

/-- Whether a character may stand in text as it is: no control character but the tab. -/
def isTextChar (c : Char) : Bool :=
  c = '\t' || (' ' ≤ c && c ≠ '\x7f')

/-- Whether a character is a blank. -/
def isBlank (c : Char) : Bool :=
  c = ' ' || c = '\t'

/-- The character that a letter behind a backslash stands for. -/
def escaped? (d : Dialect) : Char → Option Char
  | 'b' => some '\x08'
  | 'e' => if d.shortEscapes then some '\x1b' else none
  | 't' => some '\t'
  | 'n' => some '\n'
  | 'f' => some '\x0c'
  | 'r' => some '\r'
  | '"' => some '"'
  | '\\' => some '\\'
  | _ => none

/-- The character whose code point hexadecimal digits write. -/
def codePoint? (digits : List Char) : Option Char :=
  let n := Digits.toNat 16 digits
  if digits.all (Digits.isDigitOf 16) && n.isValidChar then some (Char.ofNat n) else none

/-- A character in front of a text. -/
def prepend (c : Char) (read : List Char × List Char) : List Char × List Char :=
  (c :: read.1, read.2)

/-- The character that two hexadecimal digits behind a backslash and an `x` stand for. -/
def shortCodePoint? (d : Dialect) (a b : Char) : Option Char :=
  if d.shortEscapes then codePoint? [a, b] else none

/-- Reads text up to a quotation mark, on one line. -/
def readBasic? (d : Dialect) : List Char → Option (List Char × List Char)
  | '"' :: rest => some ([], rest)
  | '\\' :: 'x' :: a :: b :: rest => do
    return prepend (← shortCodePoint? d a b) (← readBasic? d rest)
  | '\\' :: 'u' :: a :: b :: c :: e :: rest => do
    return prepend (← codePoint? [a, b, c, e]) (← readBasic? d rest)
  | '\\' :: 'U' :: a :: b :: c :: e :: f :: g :: h :: i :: rest => do
    return prepend (← codePoint? [a, b, c, e, f, g, h, i]) (← readBasic? d rest)
  | '\\' :: letter :: rest => do
    return prepend (← escaped? d letter) (← readBasic? d rest)
  | c :: rest => if isTextChar c && c ≠ '\\' then prepend c <$> readBasic? d rest else none
  | [] => none

/-- Reads text up to an apostrophe, on one line. -/
def readLiteral? : List Char → Option (List Char × List Char)
  | '\'' :: rest => some ([], rest)
  | c :: rest => if isTextChar c then prepend c <$> readLiteral? rest else none
  | [] => none

/-- Whether only blanks stand before the end of the line. -/
def endsLine (cs : List Char) : Bool :=
  match cs.dropWhile isBlank with
  | '\n' :: _ => true
  | '\r' :: '\n' :: _ => true
  | _ => false

/-- A line end of two characters in front of a text. -/
def prependLineEnd (d : Dialect) (read : List Char × List Char) : List Char × List Char :=
  if d.keepsLineEnds then prepend '\r' (prepend '\n' read) else prepend '\n' read

/-- Reads text up to three quotation marks; one or two more before them belong to the text. A
backslash at the end of a line skips all blanks and line ends up to the next character, which is
what `skipping` remembers. -/
def readBasicLines? (d : Dialect) (skipping : Bool) : List Char → Option (List Char × List Char)
  | '"' :: '"' :: '"' :: '"' :: '"' :: rest => some (['"', '"'], rest)
  | '"' :: '"' :: '"' :: '"' :: rest => some (['"'], rest)
  | '"' :: '"' :: '"' :: rest => some ([], rest)
  | '\\' :: 'x' :: a :: b :: rest => do
    return prepend (← shortCodePoint? d a b) (← readBasicLines? d false rest)
  | '\\' :: 'u' :: a :: b :: c :: e :: rest => do
    return prepend (← codePoint? [a, b, c, e]) (← readBasicLines? d false rest)
  | '\\' :: 'U' :: a :: b :: c :: e :: f :: g :: h :: i :: rest => do
    return prepend (← codePoint? [a, b, c, e, f, g, h, i]) (← readBasicLines? d false rest)
  | '\\' :: letter :: rest =>
    if endsLine (letter :: rest) then readBasicLines? d true (letter :: rest)
    else do return prepend (← escaped? d letter) (← readBasicLines? d false rest)
  | '\r' :: '\n' :: rest =>
    if skipping then readBasicLines? d true rest
    else prependLineEnd d <$> readBasicLines? d false rest
  | '\n' :: rest =>
    if skipping then readBasicLines? d true rest
    else prepend '\n' <$> readBasicLines? d false rest
  | c :: rest =>
    if skipping && isBlank c then readBasicLines? d true rest
    else if isTextChar c && c ≠ '\\' then prepend c <$> readBasicLines? d false rest
    else none
  | [] => none

/-- Reads text up to three apostrophes; one or two more before them belong to the text. -/
def readLiteralLines? (d : Dialect) : List Char → Option (List Char × List Char)
  | '\'' :: '\'' :: '\'' :: '\'' :: '\'' :: rest => some (['\'', '\''], rest)
  | '\'' :: '\'' :: '\'' :: '\'' :: rest => some (['\''], rest)
  | '\'' :: '\'' :: '\'' :: rest => some ([], rest)
  | '\r' :: '\n' :: rest => prependLineEnd d <$> readLiteralLines? d rest
  | '\n' :: rest => prepend '\n' <$> readLiteralLines? d rest
  | c :: rest => if isTextChar c then prepend c <$> readLiteralLines? d rest else none
  | [] => none

/-- Skips a line end right behind the opening marks. -/
def skipFirstLineEnd : List Char → List Char
  | '\r' :: '\n' :: rest => rest
  | '\n' :: rest => rest
  | rest => rest

end Mqtt.Toml

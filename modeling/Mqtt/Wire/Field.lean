import Mqtt.Bytes
import Mqtt.Wire.EncodeError

/-!
# Fields of a written body

A body is written field by field. Text and binary fields carry their length in front as a word.
What a packet writes is a list of steps: conditions that have to hold, and fields; writing stops
at the first step that fails, and keeps what it wrote before it.
-/
namespace Mqtt

/-- One field of a body. -/
inductive Field where
  /-- A single byte. -/
  | byte (value : UInt8)
  /-- A word, high byte first. -/
  | word (value : UInt16)
  /-- A text in UTF-8 with its length in front; U+0000 is not allowed in it. -/
  | text (value : String)
  /-- Binary data with its length in front. -/
  | data (value : Bytes)
  /-- Bytes whose end is the end of the body. -/
  | rest (value : Bytes)

namespace Field

/-- Binary data with its length in front, which a word has to hold. -/
def encodeData (value : Bytes) : Except EncodeFault Bytes :=
  if value.length < 65536 then .ok (Bytes.ofWord (UInt16.ofNat value.length) ++ value)
  else .error .fieldTooLong

/-- The bytes of a text with its length in front. A text that is too long and holds U+0000 is
refused for the latter. -/
def encodeText (value : String) : Except EncodeFault Bytes :=
  if '\x00' ∈ value.toList then .error .containsNull
  else encodeData (Bytes.ofText value)

/-- The bytes of a field, if it can be written. -/
def encode : Field → Except EncodeFault Bytes
  | byte value => .ok [value]
  | word value => .ok (Bytes.ofWord value)
  | text value => encodeText value
  | data value => encodeData value
  | rest value => .ok value

end Field

/-- One step of writing a body. -/
inductive Step where
  /-- Goes on only if the condition holds. -/
  | require (condition : Bool) (fault : EncodeFault)
  /-- Writes a field. -/
  | write (field : Field)

namespace Step

/-- The bytes a step adds, unless it fails. -/
def run : Step → Except EncodeFault Bytes
  | require condition fault => if condition then .ok [] else .error fault
  | write field => field.encode

/-- Writes a field if there is a value for it. -/
def optional {α : Type} (field : α → Field) : Option α → List Step
  | some value => [write (field value)]
  | none => []

/-- The bytes written up to the first step that fails, and its fault if there is one. -/
def writeAll : List Step → Bytes × Option EncodeFault
  | [] => ([], none)
  | step :: steps =>
    match step.run with
    | .error fault => ([], some fault)
    | .ok bytes => let (more, fault) := writeAll steps; (bytes ++ more, fault)

end Step
end Mqtt

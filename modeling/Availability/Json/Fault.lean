import Availability.Text.Utf8
import Availability.Text.Quoted
import Availability.Json.Value

/-!
# What can be wrong with a JSON text

`Fault` names each thing that can be wrong, be it with the grammar or with a value that does not
have the form asked for. A reader that stops hands back a `Stop`: the fault and how many bytes it
had not yet taken. `Failure` is the same as a user sees it, with a line and a column.
-/

namespace Availability.Json

/-- What was found where something else was asked for. -/
inductive Found where
  | null
  | bool (b : Bool)
  | int (i : Int)
  | real (x : Binary64)
  | text (s : String)
  | array
  | object
  deriving DecidableEq, Repr

/-- The text of a number that is no integer: no exponent from 10^-5 up to 10^16, and at least one
digit after the point. -/
def realChars (x : Binary64) : List Char :=
  let d := x.shortest
  let sign := if x.negative then ['-'] else []
  if x.isZero then sign ++ ['0', '.', '0']
  else if -5 ≤ d.magnitude ∧ d.magnitude ≤ 15 then
    sign ++ d.positional ++ (if 0 ≤ d.exponent then ['.', '0'] else [])
  else sign ++ d.scientific

/-- The wording of what was found. -/
def Found.message : Found → String
  | .null => "null"
  | .bool b => s!"boolean \x60{b}\x60"
  | .int i => s!"integer \x60{i}\x60"
  | .real x => "floating point \x60" ++ String.ofList (realChars x) ++ "\x60"
  | .text s => "string " ++ Text.quoted s
  | .array => "sequence"
  | .object => "map"

/-- What a value is, as far as a reader of another form cares. -/
def Value.found : Value → Found
  | .null => .null
  | .bool b => .bool b
  | .number (.int i) => .int i
  | .number (.real x) => .real x
  | .text s => .text s
  | .array _ => .array
  | .object _ => .object

/-- What can be wrong. -/
inductive Fault where
  /-- The text ends where a value should stand, or within one. -/
  | endInValue
  | endInText
  | endInArray
  | endInObject
  /-- No value starts with the next byte. -/
  | noValue
  /-- The letters are those of none of the three words. -/
  | noWord
  | noColon
  | noArrayNext
  | noObjectNext
  | nameNotText
  | trailingComma
  | trailingCharacters
  | badNumber
  | numberTooLarge
  | badEscape
  /-- The first half of a surrogate pair is not followed by an escape. -/
  | halfPair
  /-- The second half of a surrogate pair is missing, or stands alone. -/
  | lonePart
  | notUtf8
  | controlCharacter
  | tooDeep
  | missingField (name : String)
  | duplicateField (name : String)
  | wrongType (found : Found) (expected : String)
  | wrongValue (found : Found) (expected : String)
  | wrongLength (length : Nat) (expected : String)
  | unknownVariant (name : String) (expected : String)
  deriving DecidableEq, Repr

/-- The wording of a fault. -/
def Fault.message : Fault → String
  | .endInValue => "EOF while parsing a value"
  | .endInText => "EOF while parsing a string"
  | .endInArray => "EOF while parsing a list"
  | .endInObject => "EOF while parsing an object"
  | .noValue => "expected value"
  | .noWord => "expected ident"
  | .noColon => "expected \x60:\x60"
  | .noArrayNext => "expected \x60,\x60 or \x60]\x60"
  | .noObjectNext => "expected \x60,\x60 or \x60\x7d\x60"
  | .nameNotText => "key must be a string"
  | .trailingComma => "trailing comma"
  | .trailingCharacters => "trailing characters"
  | .badNumber => "invalid number"
  | .numberTooLarge => "number out of range"
  | .badEscape => "invalid escape"
  | .halfPair => "unexpected end of hex escape"
  | .lonePart => "lone leading surrogate in hex escape"
  | .notUtf8 => "invalid unicode code point"
  | .controlCharacter => "control character (\\u0000-\\u001F) found while parsing a string"
  | .tooDeep => "recursion limit exceeded"
  | .missingField name => s!"missing field \x60{name}\x60"
  | .duplicateField name => s!"duplicate field \x60{name}\x60"
  | .wrongType found expected => "invalid type: " ++ found.message ++ ", expected " ++ expected
  | .wrongValue found expected => "invalid value: " ++ found.message ++ ", expected " ++ expected
  | .wrongLength length expected => s!"invalid length {length}, expected {expected}"
  | .unknownVariant name expected => s!"unknown variant \x60{name}\x60, expected {expected}"

/-- Where a reader stopped: the fault, and the number of bytes not yet taken. -/
structure Stop where
  fault : Fault
  left : Nat
  deriving DecidableEq, Repr

namespace Stop

/-- Stops before `rest`. -/
def before {α : Type} (fault : Fault) (rest : Bytes) : Except Stop α := .error ⟨fault, rest.length⟩

/-- Stops with the first byte of `rest`, the one that was looked at. -/
def on {α : Type} (fault : Fault) (rest : Bytes) : Except Stop α :=
  .error ⟨fault, rest.length - 1⟩

end Stop

/-- What was wrong, and at which line, from one, and after how many bytes of it; a value that was
not read from a text has no such place. -/
structure Failure where
  fault : Fault
  place : Option (Nat × Nat)
  deriving DecidableEq, Repr

namespace Failure

/-- The line and the column after a list of bytes. -/
def placeAfter (taken : Bytes) : Nat × Nat :=
  (1 + taken.count 10, (taken.reverse.takeWhile (· != 10)).length)

/-- Where a reader of `input` stopped. -/
def ofStop (input : Bytes) (stop : Stop) : Failure :=
  ⟨stop.fault, some (placeAfter (input.take (input.length - stop.left)))⟩

/-- The wording of a failure. -/
def message (f : Failure) : String :=
  match f.place with
  | some (line, column) => f.fault.message ++ s!" at line {line} column {column}"
  | none => f.fault.message

end Failure

end Availability.Json

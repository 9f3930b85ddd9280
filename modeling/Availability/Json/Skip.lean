import Availability.Json.Text
import Availability.Json.Number

/-!
# Passing over a JSON value

`skipValue` finds the end of a value nobody asked for. It keeps to the grammar at any depth, but
does not ask whether texts are UTF-8 or numbers in range. What is left over is shorter than what
was given, so the length of the text bounds the number of steps; `fuel` is that bound.
-/

namespace Availability.Json

/-- White space between tokens. -/
def isSpace (b : UInt8) : Bool := b == 0x20 || b == 0x0A || b == 0x09 || b == 0x0D

/-- Passes over white space. -/
def skipSpace (s : Bytes) : Bytes := s.dropWhile isSpace

/-- Reads the letters of a word. -/
def readWord : (letters : Bytes) → Bytes → Except Stop Bytes
  | [], s => .ok s
  | _ :: _, [] => Stop.before .endInValue []
  | c :: cs, b :: r => if b = c then readWord cs r else Stop.before .noWord r

/-- The letters after the first of `null`, `true` and `false`. -/
def nullLetters : Bytes := [0x75, 0x6C, 0x6C]

/-- The letters after the first of `true`. -/
def trueLetters : Bytes := [0x72, 0x75, 0x65]

/-- The letters after the first of `false`. -/
def falseLetters : Bytes := [0x61, 0x6C, 0x73, 0x65]

/-- The byte that a value starts with. -/
inductive Start where
  | null
  | true
  | false
  | number
  | text
  | array
  | object
  | other
  deriving DecidableEq, Repr

/-- What kind of value a byte starts. -/
def Start.of (b : UInt8) : Start :=
  match b with
  | 0x6E => .null
  | 0x74 => .true
  | 0x66 => .false
  | 0x2D => .number
  | 0x22 => .text
  | 0x5B => .array
  | 0x7B => .object
  | b => if isDigit b then .number else .other

/-- Passes over the colon between a name and its value. -/
def readColon (s : Bytes) : Except Stop Bytes :=
  match skipSpace s with
  | 0x3A :: r => .ok r
  | [] => Stop.on .endInObject []
  | r => Stop.on .noColon r

mutual

/-- Passes over a value. -/
def skipValueFuel : Nat → Bytes → Except Stop Bytes
  | 0, s => Stop.on .endInValue s
  | fuel + 1, s =>
    match skipSpace s with
    | [] => Stop.on .endInValue []
    | b :: r =>
      match Start.of b with
      | .null => readWord nullLetters r
      | .true => readWord trueLetters r
      | .false => readWord falseLetters r
      | .number => skipNumber (b :: r)
      | .text => skipText r
      | .array =>
        match skipSpace r with
        | [] => Stop.on .endInArray []
        | 0x5D :: r => .ok r
        | r => skipItems fuel r
      | .object =>
        match skipSpace r with
        | [] => Stop.on .endInObject []
        | 0x7D :: r => .ok r
        | r => skipMembers fuel r
      | .other => Stop.on .noValue (b :: r)

/-- Passes over the items of an array, at least one, and its end. -/
def skipItems : Nat → Bytes → Except Stop Bytes
  | 0, s => Stop.on .endInArray s
  | fuel + 1, s => do
    let r ← skipValueFuel fuel s
    match skipSpace r with
    | [] => Stop.on .endInArray []
    | 0x2C :: r => skipItems fuel r
    | 0x5D :: r => .ok r
    | r => Stop.on .noArrayNext r

/-- Passes over the members of an object, at least one, and its end. -/
def skipMembers : Nat → Bytes → Except Stop Bytes
  | 0, s => Stop.on .endInObject s
  | fuel + 1, s =>
    match skipSpace s with
    | [] => Stop.on .endInObject []
    | 0x22 :: r => do
      let r ← skipText r
      let r ← readColon r
      let r ← skipValueFuel fuel r
      match skipSpace r with
      | [] => Stop.on .endInObject []
      | 0x2C :: r => skipMembers fuel r
      | 0x7D :: r => .ok r
      | r => Stop.on .noObjectNext r
    | r => Stop.on .nameNotText r

end

/-- Passes over a value. -/
def skipValue (s : Bytes) : Except Stop Bytes := skipValueFuel (2 * s.length + 2) s

end Availability.Json

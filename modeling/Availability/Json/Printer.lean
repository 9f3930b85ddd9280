import Availability.Json.Fault

/-!
# Writing a JSON value

`write` writes a value without any white space. Only the quote, the backslash and the controls
are escaped, the usual five of them by a letter. `writePretty` puts every item and member on a
line of its own, two spaces further in than the brackets around it.
-/

namespace Availability.Json

/-- A hexadecimal digit, in lower case. -/
def hexChar (n : Nat) : Char := Nat.digitChar n

/-- A character within a string. -/
def writeChar (c : Char) : List Char :=
  match c with
  | '"' => ['\\', '"']
  | '\\' => ['\\', '\\']
  | '\x08' => ['\\', 'b']
  | '\x0c' => ['\\', 'f']
  | '\n' => ['\\', 'n']
  | '\r' => ['\\', 'r']
  | '\t' => ['\\', 't']
  | c =>
    if c.toNat < 0x20 then
      ['\\', 'u', '0', '0', hexChar (c.toNat / 16), hexChar (c.toNat % 16)]
    else [c]

/-- A string, with its quotes. -/
def writeText (s : String) : List Char := '"' :: s.toList.flatMap writeChar ++ ['"']

/-- An integer. -/
def writeInt (i : Int) : List Char :=
  (if i < 0 then ['-'] else []) ++ Nat.toDigits 10 i.natAbs

/-- A number. -/
def writeNumber : Number → List Char
  | .int i => writeInt i
  | .real x => realChars x

mutual

/-- A value. -/
def writeValue : Value → List Char
  | .null => ['n', 'u', 'l', 'l']
  | .bool true => ['t', 'r', 'u', 'e']
  | .bool false => ['f', 'a', 'l', 's', 'e']
  | .number n => writeNumber n
  | .text s => writeText s
  | .array [] => ['[', ']']
  | .array (v :: vs) => '[' :: writeValue v ++ writeItems vs
  | .object [] => ['{', '}']
  | .object ((k, v) :: ms) => '{' :: writeText k ++ ':' :: writeValue v ++ writeMembers ms

/-- The items after the first, and the end. -/
def writeItems : List Value → List Char
  | [] => [']']
  | v :: vs => ',' :: writeValue v ++ writeItems vs

/-- The members after the first, and the end. -/
def writeMembers : List (String × Value) → List Char
  | [] => ['}']
  | (k, v) :: ms => ',' :: writeText k ++ ':' :: writeValue v ++ writeMembers ms

end

/-- The text of a value. -/
def write (v : Value) : String := String.ofList (writeValue v)

/-- The start of a line `depth` levels in. -/
def newLine (depth : Nat) : List Char := '\n' :: List.replicate (2 * depth) ' '

mutual

/-- A value at `depth`, laid out over lines. -/
def prettyValue (depth : Nat) : Value → List Char
  | .null => ['n', 'u', 'l', 'l']
  | .bool true => ['t', 'r', 'u', 'e']
  | .bool false => ['f', 'a', 'l', 's', 'e']
  | .number n => writeNumber n
  | .text s => writeText s
  | .array [] => ['[', ']']
  | .array (v :: vs) =>
    '[' :: newLine (depth + 1) ++ prettyValue (depth + 1) v ++ prettyItems depth vs
  | .object [] => ['{', '}']
  | .object ((k, v) :: ms) =>
    '{' :: newLine (depth + 1) ++ writeText k ++ ':' :: ' ' :: prettyValue (depth + 1) v
      ++ prettyMembers depth ms

/-- The items after the first of an array at `depth`, and the end. -/
def prettyItems (depth : Nat) : List Value → List Char
  | [] => newLine depth ++ [']']
  | v :: vs => ',' :: newLine (depth + 1) ++ prettyValue (depth + 1) v ++ prettyItems depth vs

/-- The members after the first of an object at `depth`, and the end. -/
def prettyMembers (depth : Nat) : List (String × Value) → List Char
  | [] => newLine depth ++ ['}']
  | (k, v) :: ms =>
    ',' :: newLine (depth + 1) ++ writeText k ++ ':' :: ' ' :: prettyValue (depth + 1) v
      ++ prettyMembers depth ms

end

/-- The text of a value, laid out over lines. -/
def writePretty (v : Value) : String := String.ofList (prettyValue 0 v)

end Availability.Json

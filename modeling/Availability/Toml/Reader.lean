import Availability.Toml.Moment
import Availability.Toml.Number
import Availability.Toml.Tree

/-!
# Reading TOML

`read` reads a document: lines with a key and its value, headers of tables, and lines with nothing
but a comment. The members of a document are in the order in which they first appear.
-/

namespace Availability.Toml

/-- The most brackets and braces that may stand around a value. -/
def depthMax : Nat := 79

/-- Reads a word. -/
def readWord (word : List Char) (v : Value) (s : List Char) : Reading Value :=
  if s.take word.length == word then some (v, s.drop word.length) else none

/-- Reads a value that begins like a date or a number. -/
def readNumeric (s : List Char) : Reading Value :=
  ((readMoment s).map fun p => (Value.moment p.1, p.2))
    <|> ((readReal s).map fun p => (Value.real p.1, p.2))
    <|> ((readInteger s).map fun p => (Value.integer p.1, p.2))

/-- Reads a value without brackets. -/
def readPlain (s : List Char) : Reading Value :=
  match s with
  | [] => none
  | c :: _ =>
    if c == '"' || c == '\x27' then (readString s).map fun p => (.text p.1, p.2)
    else if c.isDigit || c == '+' || c == '-' then readNumeric s
    else if c == 't' then readWord ['t', 'r', 'u', 'e'] (.bool true) s
    else if c == 'f' then readWord ['f', 'a', 'l', 's', 'e'] (.bool false) s
    else (readSpecial s).map fun p => (.real p.1, p.2)

mutual

/-- Reads a value with up to `depth` brackets around one another. -/
def readValue : (fuel depth : Nat) → List Char → Option (Value × List Char)
  | 0, _, _ => none
  | fuel + 1, depth, s =>
    match s with
    | '[' :: r =>
      match depth with
      | 0 => none
      | depth + 1 =>
        match r with
        | ']' :: r => some (.array [], r)
        | r => readItems fuel depth [] r
    | '{' :: r =>
      match depth with
      | 0 => none
      | depth + 1 =>
        match skipSpace r with
        | '}' :: r => some (.table [], r)
        | r => readPairs fuel depth [] r
    | s => readPlain s

/-- Reads the items of an array that has `done` so far, latest first. -/
def readItems : (fuel depth : Nat) → (done : List Value) → List Char → Option (Value × List Char)
  | 0, _, _, _ => none
  | fuel + 1, depth, done, s =>
    match skipBetween s.length s with
    | ']' :: r => some (.array done.reverse, r)
    | s => do
      let (v, r) ← readValue fuel depth s
      match skipBetween r.length r with
      | ',' :: r => readItems fuel depth (v :: done) r
      | ']' :: r => return (.array (v :: done).reverse, r)
      | _ => none

/-- Reads the members of a table in braces that has `ns` so far. -/
def readPairs : (fuel depth : Nat) → (ns : Nodes) → List Char → Option (Value × List Char)
  | 0, _, _, _ => none
  | fuel + 1, depth, ns, s => do
    let (key, r) ← readKey s
    let r ← readMark '=' r
    let (v, r) ← readValue fuel depth (skipSpace r)
    let ns ← ns.addKey key v
    match skipSpace r with
    | ',' :: r => readPairs fuel depth ns r
    | '}' :: r => return (.table (membersToValues ns), r)
    | _ => none

end

/-- Enough for the brackets and items of a text. -/
def fuelFor (s : List Char) : Nat := 2 * s.length + 2

/-- A document as far as it is read: its members, and the table that the next lines belong to. -/
structure Draft where
  members : Nodes
  header : List String

namespace Draft

/-- Gives a key in the current table its value. -/
def addKey (d : Draft) (key : List String) (v : Value) : Option Draft :=
  (d.members.descend false (fun _ => Nodes.addKey key v) d.header .own).map fun ms =>
    { d with members := ms }

/-- Goes on to another table. -/
def openHeader (d : Draft) (isItem : Bool) (key : List String) : Option Draft :=
  (d.members.openHeader isItem key).map fun ms => ⟨ms, key⟩

end Draft

/-- Reads a header, after its bracket or brackets. -/
def readHeader (isItem : Bool) (d : Draft) (s : List Char) : Option (Draft × List Char) := do
  let (key, r) ← readKey s
  let r ← readMark ']' r
  let r ← if isItem then readMark ']' r else some r
  let r ← endLine? r
  let d ← d.openHeader isItem key
  return (d, r)

/-- Reads a line with a key and its value. -/
def readPair (d : Draft) (s : List Char) : Option (Draft × List Char) := do
  let (key, r) ← readKey s
  let r ← readMark '=' r
  let (v, r) ← readValue (fuelFor r) depthMax (skipSpace r)
  let r ← endLine? r
  let d ← d.addKey key v
  return (d, r)

/-- Reads the lines of a document. -/
def readLines : (fuel : Nat) → Draft → List Char → Option Draft
  | 0, _, _ => none
  | fuel + 1, d, s =>
    match skipSpace s with
    | [] => some d
    | '[' :: '[' :: r => (readHeader true d r).bind fun p => readLines fuel p.1 p.2
    | '[' :: r => (readHeader false d r).bind fun p => readLines fuel p.1 p.2
    | c :: r =>
      if c == '#' || c == '\n' || c == '\r' then (endLine? (c :: r)).bind (readLines fuel d)
      else (readPair d (c :: r)).bind fun p => readLines fuel p.1 p.2

/-- What follows a byte order mark. -/
def dropMark : List Char → List Char
  | '\uFEFF' :: r => r
  | s => s

/-- Reads a document. -/
def read (s : String) : Option (List (String × Value)) :=
  let cs := dropMark s.toList
  (readLines (cs.length + 1) ⟨[], []⟩ cs).map fun d => membersToValues d.members

end Availability.Toml

import Availability.Json.Reader

/-!
# Records of texts

A record has named fields that hold texts. It is read from an object, whose other members are
passed over, or from an array of the fields in their order. `Record.read` reads a text that is one
record; `readPlainText` one that is a single string, `readByte` one that is a number from 0 to 255.

A fault of the record as a whole, such as a field that is missing, is placed where the reader
stands once it has looked for the end of the object or array.
-/

namespace Availability.Json

/-- What a record asks of a field. -/
inductive Need where
  /-- The field has to be there, with a text. -/
  | required
  /-- The field may be absent or null. -/
  | optional
  /-- The field may be absent, and then counts as empty. -/
  | defaulted
  deriving DecidableEq, Repr

/-- A field of a record. -/
structure Field where
  name : String
  need : Need
  deriving DecidableEq, Repr

/-- The form of a record. -/
structure Shape where
  name : String
  fields : List Field
  deriving DecidableEq, Repr

/-- The texts of a record by field; a field without text has none. -/
abbrev Record := List (String × Option String)

namespace Record

/-- The text of a field. -/
def text? (r : Record) (name : String) : Option String := (r.lookup name).join

/-- The text of a field, or the empty text. -/
def text (r : Record) (name : String) : String := (r.text? name).getD ""

end Record

/-- How a record stops: at a place, or for a fault that gets its place at the end of the record. -/
inductive Halt where
  | placed (stop : Stop)
  | whole (fault : Fault) (rest : Bytes)

/-- Lifts the result of a reader. -/
def placed {α : Type} (x : Except Stop α) : Except Halt α := x.mapError Halt.placed

/-- What is found at the front, as a fault of a reader that asks for something else. An array or
an object is not looked into. -/
def readFound (s : Bytes) : Except Stop (Found × Bytes) :=
  match s with
  | [] => Stop.on .endInValue []
  | b :: r =>
    match Start.of b with
    | .null => (readWord nullLetters r).map (.null, ·)
    | .true => (readWord trueLetters r).map (.bool true, ·)
    | .false => (readWord falseLetters r).map (.bool false, ·)
    | .number => (readNumber s).map fun p => ((Value.number p.1).found, p.2)
    | .text => (readText r).map fun p => (.text p.1, p.2)
    | .array => .ok (.array, s)
    | .object => .ok (.object, s)
    | .other => Stop.on .noValue s

/-- Refuses what is at the front, where `expected` should be. -/
def refuse {α : Type} (expected : String) (s : Bytes) : Except Stop α := do
  let (found, r) ← readFound s
  Stop.before (.wrongType found expected) r

/-- Reads a value that is a text. -/
def readTextValue (s : Bytes) : Except Stop (String × Bytes) :=
  match skipSpace s with
  | [] => Stop.on .endInValue []
  | 0x22 :: r => readText r
  | r => refuse "a string" r

/-- Reads a value that is a text, or null where the field allows it. -/
def readFieldValue (need : Need) (s : Bytes) : Except Stop (Option String × Bytes) :=
  match need, skipSpace s with
  | .optional, 0x6E :: r => (readWord nullLetters r).map (none, ·)
  | _, r => (readTextValue r).map fun p => (some p.1, p.2)

/-- What a record without the field has in its place, if it may lack it. -/
def Need.absent? : Need → Option (Option String)
  | .required => none
  | .optional => some none
  | .defaulted => some (some "")

/-- Fills in the fields that were not read, in the order of the form. -/
def fillAbsent (got : Record) : List Field → Except Fault Record
  | [] => .ok []
  | f :: fs => do
    let v ← match got.lookup f.name with
      | some v => pure v
      | none =>
        match f.need.absent? with
        | some v => pure v
        | none => throw (.missingField f.name)
    return (f.name, v) :: (← fillAbsent got fs)

/-- Reads the members of an object, from after the quote of a name, after the fields `got`. -/
def readFields (shape : Shape) : (fuel : Nat) → (got : Record) → Bytes →
    Except Halt (Record × Bytes)
  | 0, _, s => .error (.whole .endInObject s)
  | fuel + 1, got, s => do
    let (name, r) ← placed (readText s)
    let (got, r) ← match shape.fields.find? (·.name == name) with
      | some f =>
        if (got.lookup name).isSome then throw (.whole (.duplicateField name) r)
        else do
          let r ← placed (readColon r)
          let (v, r) ← placed (readFieldValue f.need r)
          pure (got ++ [(name, v)], r)
      | none => do
        let r ← placed (readColon r)
        let r ← placed (skipValue r)
        pure (got, r)
    match ← placed (afterMember r) with
    | .next r => readFields shape fuel got r
    | .close r => pure (got, r)

/-- Where the reader stands once it has looked for the end of an object. -/
def seekObjectEnd (s : Bytes) : Bytes :=
  match skipSpace s with
  | 0x7D :: r => r
  | r => r

/-- Where the reader stands once it has looked for the end of an array. -/
def seekArrayEnd (s : Bytes) : Bytes :=
  match skipSpace s with
  | 0x5D :: r => r
  | 0x2C :: r => skipSpace r
  | r => r

/-- Gives a fault of the whole record its place. -/
def settle {α : Type} (seek : Bytes → Bytes) : Except Halt α → Except Stop α
  | .ok x => .ok x
  | .error (.placed stop) => .error stop
  | .error (.whole fault rest) => Stop.before fault (seek rest)

/-- Reads a record from an object, after its bracket. -/
def readObjectRecord (shape : Shape) (s : Bytes) : Except Stop (Record × Bytes) :=
  match skipSpace s with
  | [] => Stop.on .endInObject []
  | 0x7D :: r =>
    match fillAbsent [] shape.fields with
    | .ok record => .ok (record, r)
    | .error fault => Stop.before fault r
  | 0x22 :: r => do
    let (got, r) ← settle seekObjectEnd (readFields shape (s.length + 1) [] r)
    match fillAbsent got shape.fields with
    | .ok record => return (record, r)
    | .error fault => Stop.before fault r
  | r => Stop.on .nameNotText r

/-- What an array of the fields is called. -/
def Shape.tupleName (shape : Shape) : String :=
  let n := shape.fields.length
  s!"struct {shape.name} with {n} element" ++ (if n = 1 then "" else "s")

/-- Moves to the next item of an array: none if the array ends here. -/
def nextItem (first : Bool) (s : Bytes) : Except Stop (Option Bytes) :=
  match skipSpace s with
  | [] => Stop.on .endInArray []
  | 0x5D :: _ => .ok none
  | r =>
    if first then .ok (some r)
    else do
      match ← afterItem r with
      | .next r => return some r
      | .close _ => return none

/-- Reads the fields of an array in their order, `index` being the place of the next one; those
that the array lacks at its end may be absent. -/
def readTuple (shape : Shape) : (index : Nat) → List Field → Bytes → Except Halt (Record × Bytes)
  | _, [], s => .ok ([], s)
  | index, f :: fs, s => do
    match ← placed (nextItem (index == 0) s) with
    | some r =>
      let (v, r) ← placed (readFieldValue f.need r)
      let (record, r) ← readTuple shape (index + 1) fs r
      return ((f.name, v) :: record, r)
    | none =>
      match f.need.absent? with
      | some v =>
        let (record, r) ← readTuple shape (index + 1) fs s
        return ((f.name, v) :: record, r)
      | none => throw (.whole (.wrongLength index shape.tupleName) s)

/-- Reads the end of an array whose fields are all read. -/
def readArrayEnd (s : Bytes) : Except Stop Bytes :=
  match skipSpace s with
  | [] => Stop.on .endInArray []
  | 0x5D :: r => .ok r
  | 0x2C :: r =>
    match skipSpace r with
    | 0x5D :: r => Stop.on .trailingComma (0x5D :: r)
    | r => Stop.on .trailingCharacters r
  | r => Stop.on .trailingCharacters r

/-- Reads a record from an array, after its bracket. -/
def readArrayRecord (shape : Shape) (s : Bytes) : Except Stop (Record × Bytes) := do
  let (record, r) ← settle seekArrayEnd (readTuple shape 0 shape.fields s)
  return (record, ← readArrayEnd r)

/-- Reads a record. -/
def readRecord (shape : Shape) (s : Bytes) : Except Stop (Record × Bytes) :=
  match skipSpace s with
  | [] => Stop.on .endInValue []
  | 0x5B :: r => readArrayRecord shape r
  | 0x7B :: r => readObjectRecord shape r
  | r => refuse s!"struct {shape.name}" r

/-- Reads a text that is one value of some form. -/
def readWhole {α : Type} (reader : Bytes → Except Stop (α × Bytes)) (s : Bytes) :
    Except Failure α :=
  Except.mapError (Failure.ofStop s) do
    let (x, r) ← reader s
    readEnd r
    return x

/-- Reads a text that is one record. -/
def Record.read (shape : Shape) (s : Bytes) : Except Failure Record :=
  readWhole (readRecord shape) s

/-- Reads a text that is one string. -/
def readPlainText (s : Bytes) : Except Failure String := readWhole readTextValue s

/-- Reads a value that is a number from 0 to 255. -/
def readByteValue (s : Bytes) : Except Stop (Nat × Bytes) :=
  match skipSpace s with
  | [] => Stop.on .endInValue []
  | b :: r =>
    if Start.of b = .number then do
      let (n, r) ← readNumber (b :: r)
      match n with
      | .int i =>
        if 0 ≤ i ∧ i ≤ 255 then return (i.toNat, r) else Stop.before (.wrongValue (.int i) "u8") r
      | .real x => Stop.before (.wrongType (.real x) "u8") r
    else refuse "u8" (b :: r)

/-- Reads a text that is one number from 0 to 255. -/
def readByte (s : Bytes) : Except Failure Nat := readWhole readByteValue s

end Availability.Json

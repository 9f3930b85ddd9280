import Availability.Json.Skip

/-!
# Reading a JSON value

`read` reads a text that is one value. Arrays and objects may stand at most 127 deep. A comma
before a closing bracket, or anything after the value, is refused.
-/

namespace Availability.Json

/-- How deep arrays and objects may stand. -/
def depthMax : Nat := 127

/-- What follows an item or a member: the next one, or the end. -/
inductive After where
  | next (rest : Bytes)
  | close (rest : Bytes)

/-- Reads the separator after an item of an array; no end may follow a comma. -/
def afterItem (s : Bytes) : Except Stop After :=
  match skipSpace s with
  | [] => Stop.on .endInArray []
  | 0x5D :: r => .ok (.close r)
  | 0x2C :: r =>
    match skipSpace r with
    | [] => Stop.on .endInValue []
    | 0x5D :: r => Stop.on .trailingComma (0x5D :: r)
    | r => .ok (.next r)
  | r => Stop.on .noArrayNext r

/-- Reads the separator after a member of an object, up to the quote of the next name. -/
def afterMember (s : Bytes) : Except Stop After :=
  match skipSpace s with
  | [] => Stop.on .endInObject []
  | 0x7D :: r => .ok (.close r)
  | 0x2C :: r =>
    match skipSpace r with
    | [] => Stop.on .endInValue []
    | 0x22 :: r => .ok (.next r)
    | 0x7D :: r => Stop.on .trailingComma (0x7D :: r)
    | r => Stop.on .nameNotText r
  | r => Stop.on .noObjectNext r

mutual

/-- Reads a value; `depth` more brackets may be open. -/
def readValueFuel : (fuel depth : Nat) → Bytes → Except Stop (Value × Bytes)
  | 0, _, s => Stop.on .endInValue s
  | fuel + 1, depth, s =>
    match skipSpace s with
    | [] => Stop.on .endInValue []
    | b :: r =>
      match Start.of b with
      | .null => (readWord nullLetters r).map (.null, ·)
      | .true => (readWord trueLetters r).map (.bool true, ·)
      | .false => (readWord falseLetters r).map (.bool false, ·)
      | .number => (readNumber (b :: r)).map fun p => (.number p.1, p.2)
      | .text => (readText r).map fun p => (.text p.1, p.2)
      | .array =>
        match depth with
        | 0 => Stop.on .tooDeep (b :: r)
        | depth + 1 =>
          match skipSpace r with
          | [] => Stop.on .endInArray []
          | 0x5D :: r => .ok (.array [], r)
          | r => readItems fuel depth [] r
      | .object =>
        match depth with
        | 0 => Stop.on .tooDeep (b :: r)
        | depth + 1 =>
          match skipSpace r with
          | [] => Stop.on .endInObject []
          | 0x7D :: r => .ok (.object [], r)
          | 0x22 :: r => readMembers fuel depth [] r
          | r => Stop.on .nameNotText r
      | .other => Stop.on .noValue (b :: r)

/-- Reads the items of an array, at least one, after the items `done`, latest first. -/
def readItems : (fuel depth : Nat) → (done : List Value) → Bytes → Except Stop (Value × Bytes)
  | 0, _, _, s => Stop.on .endInArray s
  | fuel + 1, depth, done, s => do
    let (v, r) ← readValueFuel fuel depth s
    match ← afterItem r with
    | .next r => readItems fuel depth (v :: done) r
    | .close r => .ok (.array (v :: done).reverse, r)

/-- Reads the members of an object, at least one, from after the quote of a name; `done` are the
members before it. -/
def readMembers : (fuel depth : Nat) → (done : Members) → Bytes → Except Stop (Value × Bytes)
  | 0, _, _, s => Stop.on .endInObject s
  | fuel + 1, depth, done, s => do
    let (name, r) ← readText s
    let r ← readColon r
    let (v, r) ← readValueFuel fuel depth r
    match ← afterMember r with
    | .next r => readMembers fuel depth (done.insert name v) r
    | .close r => .ok (.object (done.insert name v), r)

end

/-- Nothing but white space may follow. -/
def readEnd (s : Bytes) : Except Stop Unit :=
  match skipSpace s with
  | [] => .ok ()
  | r => Stop.on .trailingCharacters r

/-- Reads a text that is one value. -/
def read (s : Bytes) : Except Failure Value :=
  Except.mapError (Failure.ofStop s) do
    let (v, r) ← readValueFuel (2 * s.length + 2) depthMax s
    readEnd r
    return v

end Availability.Json

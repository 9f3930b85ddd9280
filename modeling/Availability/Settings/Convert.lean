import Availability.Settings.Config
import Availability.Settings.Environment

/-!
# From layers to settings

Once all layers are laid over one another each setting converts what it finds to what it takes,
and freely: numbers may be spelled in texts, anything has a text, and several words are as good as
true and false.
-/

namespace Availability.Settings

/-- What a scalar is called in a fault. -/
def Scalar.found : Scalar → Found
  | .nothing => .nothing
  | .bool b => .bool b
  | .int i => .signed i
  | .real x => .real x.toPointed
  | .text s => .text s

/-- What an item is called in a fault. -/
def Item.found : Item → Found
  | .scalar s _ => s.found
  | .list _ _ => .list
  | .table _ _ => .table

/-- An item that is not what was expected. -/
def Item.refuse {α : Type} (i : Item) (expected : String) : Except Fault α :=
  .error (.wrongType i.found expected none i.origin)

/-- Words that are as good as true. -/
def trueWords : List String := ["true", "on", "yes"]

/-- Words that are as good as false. -/
def falseWords : List String := ["false", "off", "no"]

/-- The greatest number of 64 bits. -/
def countMax : Nat := 0xffffffffffffffff

/-- The natural number of up to 64 bits that a text spells. -/
def countOf? (s : String) : Option Nat :=
  let ds := match s.toList with
    | '+' :: r => r
    | r => r
  if ds.isEmpty || !ds.all Char.isDigit then none
  else
    let n := Extended.natOfDigits ds
    if n ≤ countMax then some n else none

/-- An item as a natural number. -/
def Item.toCount (i : Item) : Except Fault Nat :=
  match i with
  | .scalar (.int n) o =>
    if 0 ≤ n then .ok n.toNat
    else .error (.wrongType (.signed n) "an unsigned 64 bit or less integer" none o)
  | .scalar (.bool b) _ => .ok b.toNat
  | .scalar (.real x) _ => .ok (x.toCount countMax)
  | .scalar (.text s) _ =>
    if trueWords.contains (Text.lower s) then .ok 1
    else if falseWords.contains (Text.lower s) then .ok 0
    else
      match countOf? s with
      | some n => .ok n
      | none => i.refuse "an integer"
  | i => i.refuse "an integer"

/-- An item as a natural number of some bits. -/
def Item.toCountOf (bits : Nat) (i : Item) : Except Fault Nat := do
  let n ← i.toCount
  if n < 1 <<< bits then return n
  else throw (.wrongType (.unsigned n) s!"an unsigned {bits} bit integer" none none)

/-- An item as a text. -/
def Item.toText (i : Item) : Except Fault String :=
  match i with
  | .scalar (.bool b) _ => .ok (if b then "true" else "false")
  | .scalar (.int n) _ => .ok (toString n)
  | .scalar (.real x) _ => .ok x.toText
  | .scalar (.text s) _ => .ok s
  | i => i.refuse "a string"

/-- An item as true or false. -/
def Item.toFlag (i : Item) : Except Fault Bool :=
  match i with
  | .scalar (.bool b) _ => .ok b
  | .scalar (.int n) _ => .ok (n != 0)
  | .scalar (.real x) _ => .ok x.isNonzero
  | .scalar (.text s) _ =>
    let word := Text.lower s
    if word = "1" || trueWords.contains word then .ok true
    else if word = "0" || falseWords.contains word then .ok false
    else .error (.wrongType (.text word) "a boolean" none i.origin)
  | i => i.refuse "a boolean"

/-- An item as one of some words; the case of letters does not count. -/
def Item.toWord (form : String) (words : List String) (i : Item) : Except Fault String :=
  let pick (s : String) : Except Fault String :=
    match words.find? (· == Text.lower s) with
    | some w => .ok w
    | none => .error (.noSuchWord form s)
  match i with
  | .scalar (.text s) _ => pick s
  | .table [(s, _)] _ => pick s
  | _ => .error (.notOneWord form)

/-- An item as what a setting takes. -/
def Item.convert (kind : Kind) (i : Item) : Except Fault Json.Value :=
  match kind with
  | .count bits _ => (i.toCountOf bits).map Json.Value.nat
  | .text _ => i.toText.map Json.Value.text
  | .flag => i.toFlag.map Json.Value.bool
  | .word form words => (i.toWord form words).map Json.Value.text

/-- The value of a setting that may be missing or not. -/
def Item.convertField (f : Field) (i : Item) : Except Fault Json.Value :=
  match f.optional, i with
  | true, .scalar .nothing _ => .ok .null
  | _, i => i.convert f.kind

/-- The settings of a section that are there, in their order. -/
def convertMembers (ms : Items) : List Field → Except Fault Json.Members
  | [] => .ok []
  | f :: fs =>
    match ms.lookup f.name with
    | none => convertMembers ms fs
    | some i => do
      let v ← (i.convertField f).mapError (·.within f.name)
      let vs ← convertMembers ms fs
      return (f.name, v) :: vs

/-- The settings of a section, of which those that may be missing are filled in. -/
def fillMissing (vs : Json.Members) : List Field → Except Fault Json.Members
  | [] => .ok []
  | f :: fs => do
    let v ← match vs.lookup f.name with
      | some v => pure v
      | none => if f.optional then pure Json.Value.null else throw (Fault.missing f.name)
    let rest ← fillMissing vs fs
    return (f.name, v) :: rest

/-- The settings of a section that lists them in order. -/
def convertItems (listName : String) : (index : Nat) → List Field → List Item →
    Except Fault Json.Members
  | _, [], _ => .ok []
  | index, _ :: _, [] => .error (.tooShort index listName)
  | index, f :: fs, i :: is => do
    let v ← (i.convertField f).mapError (·.within s!"[{index}]")
    let vs ← convertItems listName (index + 1) fs is
    return (f.name, v) :: vs

/-- A section. -/
def convertSection (s : Section) (i : Item) : Except Fault Json.Members :=
  match i with
  | .table ms _ => do
    let vs ← convertMembers ms s.fields
    fillMissing vs s.fields
  | .list is _ => convertItems (Section.listName s.form s.fields.length) 0 s.fields is
  | i => .error (.notSection i.found s.form)

/-- All sections, in their order. -/
def convertSections (ms : Items) : List Section → Except Fault Table
  | [] => .ok []
  | s :: ss => do
    let i ← match ms.lookup s.name with
      | some i => pure i
      | none => throw (Fault.missing s.name)
    let vs ← (convertSection s i).mapError (·.within s.name)
    let rest ← convertSections ms ss
    return (s.name, vs) :: rest

/-- The settings that a layer comes to. -/
def Config.ofItem (i : Item) : Except Fault Config :=
  (convertSections i.members form).map Config.ofTable

end Availability.Settings

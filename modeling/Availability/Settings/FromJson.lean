import Availability.Settings.Config

/-!
# Settings in JSON

Reads settings from a JSON value, and exactly: each has to have the type that it takes. A section
is an object, of which members of other names are passed over, or an array of its settings in
their order. The first fault in the order of the members counts, and what is missing only then.
-/

namespace Availability.Settings

open Json (Value Members)

/-- The value of a setting, if it has the type that the setting takes. -/
def takeExact (kind : Kind) (v : Value) : Except Json.Fault Value :=
  match kind, v with
  | .count bits name, .number (.int i) =>
    if 0 ≤ i ∧ i.toNat < 1 <<< bits then .ok v else .error (.wrongValue (.int i) name)
  | .count _ name, v => .error (.wrongType v.found name)
  | .text _, .text _ => .ok v
  | .text name, v => .error (.wrongType v.found name)
  | .flag, .bool _ => .ok v
  | .flag, v => .error (.wrongType v.found "a boolean")
  | .word _ words, .text s => takeWord words s
  | .word _ words, .object [(s, v)] =>
    match takeWord words s, v with
    | .ok w, .null => .ok w
    | .ok _, v => .error (.wrongType v.found "unit")
    | e, _ => e
  | .word _ _, .object _ => .error (.wrongValue .object "map with a single key")
  | .word _ _, v => .error (.wrongType v.found "string or map")
where
  /-- One of some words. -/
  takeWord (words : List String) (s : String) : Except Json.Fault Value :=
    if words.contains s then .ok (.text s)
    else .error (.unknownVariant s (" or ".intercalate (words.map fun w => s!"\x60{w}\x60")))

/-- The value of a setting that may be null if it may be missing. -/
def takeField (f : Field) (v : Value) : Except Json.Fault Value :=
  match f.optional, v with
  | true, .null => .ok .null
  | _, v => takeExact f.kind v

/-- The members of an object that are known, each taken by its own rule. -/
def takeMembers {α : Type} (rule? : String → Option (Value → Except Json.Fault α)) :
    Members → Except Json.Fault (List (String × α))
  | [] => .ok []
  | (k, v) :: ms =>
    match rule? k with
    | none => takeMembers rule? ms
    | some rule => do
      let x ← rule v
      let xs ← takeMembers rule? ms
      return (k, x) :: xs

/-- The items of an array, each taken by the rule in its place; none may be missing. -/
def takeItems {α : Type} (listName : String) :
    (index : Nat) → List (String × (Value → Except Json.Fault α)) → List Value →
      Except Json.Fault (List (String × α))
  | _, [], _ => .ok []
  | index, _ :: _, [] => .error (.wrongLength index listName)
  | index, (name, rule) :: rules, v :: vs => do
    let x ← rule v
    let xs ← takeItems listName (index + 1) rules vs
    return (name, x) :: xs

/-- Takes an object or an array by the rules of a form. -/
def takeForm {α : Type} (form : String) (rules : List (String × (Value → Except Json.Fault α))) :
    Value → Except Json.Fault (List (String × α))
  | .object ms => takeMembers (fun k => rules.lookup k) ms
  | .array vs => do
    let xs ← takeItems (Section.listName form rules.length) 0 rules vs
    if rules.length < vs.length then
      throw (.wrongLength vs.length "fewer elements in sequence")
    return xs
  | v => .error (.wrongType v.found s!"struct {form}")

/-- The settings of a section in their order, those that may be missing filled in. -/
def fillSection : List Field → Members → Except Json.Fault Members
  | [], _ => .ok []
  | f :: fs, ms => do
    let v ← match ms.lookup f.name with
      | some v => pure v
      | none => if f.optional then pure Value.null else throw (Json.Fault.missingField f.name)
    let rest ← fillSection fs ms
    return (f.name, v) :: rest

/-- Reads a section. -/
def takeSection (s : Section) (v : Value) : Except Json.Fault Members := do
  let ms ← takeForm s.form (s.fields.map fun f => (f.name, takeField f)) v
  fillSection s.fields ms

/-- The sections in their order; none may be missing. -/
def fillTable : List Section → Table → Except Json.Fault Table
  | [], _ => .ok []
  | s :: ss, t =>
    match t.lookup s.name with
    | none => .error (.missingField s.name)
    | some ms => (fillTable ss t).map fun rest => (s.name, ms) :: rest

/-- Reads settings from a JSON value. -/
def Config.ofJson (v : Value) : Except Json.Failure Config :=
  Except.mapError (fun fault => ⟨fault, none⟩) do
    let t ← takeForm formName (form.map fun s => (s.name, takeSection s)) v
    let t ← fillTable form t
    return ofTable t

/-- The defaults, written in JSON, read back the same. -/
theorem Config.ofJson_default :
    (Config.ofJson Config.default.toJson).toOption = some Config.default := by
  decide +kernel

end Availability.Settings

import Availability.Settings.Layer

/-!
# Paths to settings

At the top of a layer a name may be a path: names with dots between them, and numbers in brackets
for places in lists. A name that is no path stands for itself.
-/

namespace Availability.Settings

/-- A step of a path. -/
inductive Step where
  | name (s : String)
  | place (i : Int)
  deriving DecidableEq, Repr

/-- A character of a name in a path. -/
def isNameChar (c : Char) : Bool := c.isAlphanum || c == '_' || c == '-'

/-- Reads a name, which has at least one character. -/
def readName (s : List Char) : Option (Step × List Char) :=
  let name := s.takeWhile isNameChar
  if name.isEmpty then none else some (.name (String.ofList name), s.dropWhile isNameChar)

/-- A blank that may stand beside a number in brackets. -/
def isGap (c : Char) : Bool := c == ' ' || c == '\t'

/-- Reads a number and its closing bracket. -/
def readPlace (s : List Char) : Option (Step × List Char) :=
  let (negative, t) := match s.dropWhile isGap with
    | '-' :: r => (true, r)
    | r => (false, r)
  let ds := t.takeWhile Char.isDigit
  match (t.dropWhile Char.isDigit).dropWhile isGap with
  | ']' :: r =>
    let n : Int := Extended.natOfDigits ds
    if ds.isEmpty || 0x8000000000000000 ≤ n then none
    else some (.place (if negative then -n else n), r)
  | _ => none

/-- Reads the steps after the first. -/
def readSteps : (fuel : Nat) → List Char → Option (List Step)
  | _, [] => some []
  | 0, _ => none
  | fuel + 1, '.' :: r => do
    let (step, r) ← readName r
    let steps ← readSteps fuel r
    return step :: steps
  | fuel + 1, '[' :: r => do
    let (step, r) ← readPlace r
    let steps ← readSteps fuel r
    return step :: steps
  | _, _ => none

/-- The steps of a path, the first of them a name. -/
def pathOf? (s : String) : Option (List Step) := do
  let cs := s.toList
  let (step, r) ← readName cs
  let steps ← readSteps r.length r
  return step :: steps

namespace Item

/-- The place in a list of `length` items that a number stands for: from the front, or, if it is
negative, from the end. -/
def placeIn? (i : Int) (length : Nat) : Option Nat :=
  if 0 ≤ i then some i.toNat
  else if i.natAbs ≤ length then some (length - i.natAbs) else none

/-- Lays an item over what a path leads to. What is on the way gives way to tables and lists as
the path needs them. -/
def layAt (value : Item) : List Step → Item → Item
  | [], _ => value
  | [.name k], root => lay k value root
  | [.place i], root =>
    match placeIn? i root.items.length with
    | some n => root.putAt n value
    | none => root
  | .name k :: steps, root =>
    let old := (root.members.lookup (Text.lower k)).getD nothing
    root.putMember (Text.lower k) (layAt value steps old)
  | .place i :: steps, root =>
    match placeIn? i root.items.length with
    | some n => root.putAt n (layAt value steps ((root.items[n]?).getD nothing))
    | none => root

/-- Lays an item over what a name at the top of a layer stands for. -/
def layTop (name : String) (value root : Item) : Item :=
  match pathOf? name with
  | some steps => layAt value steps root
  | none => lay name value root

/-- Lays a whole layer over another. -/
def layLayer (layer : Items) (root : Item) : Item :=
  layer.foldl (fun root m => layTop m.1 m.2 root) root

end Item

end Availability.Settings

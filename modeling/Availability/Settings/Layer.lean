import Availability.Number.Extended
import Availability.Settings.Fault
import Availability.Text.Case
import Availability.Toml.Value

/-!
# Layers of settings

Settings come in layers: what holds by default, what the file says, what the environment says. An
`Item` is a value of a layer, or a whole one. A layer is laid over another name by name: tables
merge, everything else gives way. The case of names does not count.

* `lookup_putMember_same`, `lookup_putMember_other`: laying a value over a name changes what that
  name stands for, and no other.
-/

namespace Availability.Settings

/-- A value without parts. -/
inductive Scalar where
  | nothing
  | bool (b : Bool)
  | int (i : Int)
  | real (x : Extended)
  | text (s : String)
  deriving DecidableEq, Repr

/-- A value, with the place it comes from where that is known. -/
inductive Item where
  | scalar (s : Scalar) (origin : Option Origin)
  | list (items : List Item) (origin : Option Origin)
  | table (members : List (String × Item)) (origin : Option Origin)
  deriving Repr

/-- The members of a table. -/
abbrev Items := List (String × Item)

/-- Gives a name in a table its item. -/
def Items.put (name : String) (i : Item) : Items → Items
  | [] => [(name, i)]
  | (k, j) :: ms => if k = name then (k, i) :: ms else (k, j) :: put name i ms

theorem Items.lookup_put_same (name : String) (i : Item) (ms : Items) :
    (Items.put name i ms).lookup name = some i := by
  induction ms with
  | nil => simp [Items.put]
  | cons m ms ih =>
    obtain ⟨k, j⟩ := m
    by_cases h : k = name
    · simp [Items.put, h]
    · have : (name == k) = false := by simpa using Ne.symm h
      simp [Items.put, h, List.lookup_cons, this, ih]

theorem Items.lookup_put_other {name other : String} (i : Item) (ms : Items) (h : other ≠ name) :
    (Items.put name i ms).lookup other = ms.lookup other := by
  have hn : (other == name) = false := by simpa using h
  induction ms with
  | nil => simp [Items.put, List.lookup_cons, hn]
  | cons m ms ih =>
    obtain ⟨k, j⟩ := m
    by_cases hk : k = name
    · subst hk
      simp [Items.put, List.lookup_cons, hn]
    · simp [Items.put, hk, List.lookup_cons, ih]

namespace Item

/-- An item that says nothing. -/
def nothing : Item := .scalar .nothing none

/-- An empty table. -/
def emptyTable : Item := .table [] none

/-- The members of an item; what is no table has none. -/
def members : Item → Items
  | .table ms _ => ms
  | _ => []

/-- The items of an item; what is no list has none. -/
def items : Item → List Item
  | .list is _ => is
  | _ => []

/-- Where an item comes from. -/
def origin : Item → Option Origin
  | .scalar _ o => o
  | .list _ o => o
  | .table _ o => o

/-- An item as a table; what is no table gives way to an empty one. -/
def asTable : Item → Item
  | .table ms o => .table ms o
  | _ => emptyTable

/-- An item as a list; what is no list gives way to an empty one. -/
def asList : Item → Item
  | .list is o => .list is o
  | _ => .list [] none

/-- Gives a name in a table its item. What is no table gives way to one. -/
def putMember (root : Item) (name : String) (i : Item) : Item :=
  .table (root.members.put name i) root.asTable.origin

theorem lookup_putMember_same (root : Item) (name : String) (i : Item) :
    (root.putMember name i).members.lookup name = some i := Items.lookup_put_same _ _ _

theorem lookup_putMember_other {name other : String} (root i : Item) (h : other ≠ name) :
    (root.putMember name i).members.lookup other = root.members.lookup other :=
  Items.lookup_put_other _ _ h

mutual

/-- Lays an item over what a name stands for. -/
def lay (name : String) : Item → Item → Item
  | .table ms _, root =>
    let old := (root.members.lookup (Text.lower name)).getD emptyTable
    root.putMember (Text.lower name) (layAll ms old)
  | .scalar s o, root => root.putMember (Text.lower name) (.scalar s o)
  | .list is o, root => root.putMember (Text.lower name) (.list is o)

/-- Lays the members of a table over an item, one after the other. -/
def layAll : List (String × Item) → Item → Item
  | [], target => target
  | (k, i) :: ms, target => layAll ms (lay k i target)

end

/-- Gives a place in a list its item; places before it that are not there yet say nothing. -/
def putAt (root : Item) (index : Nat) (i : Item) : Item :=
  let is := root.items
  .list ((is ++ List.replicate (index + 1 - is.length) nothing).set index i) root.asList.origin

end Item

mutual

/-- A value of the file as an item. A moment is its text. -/
def Item.ofToml : Toml.Value → Item
  | .text s => .scalar (.text s) (some .file)
  | .integer i => .scalar (.int i) (some .file)
  | .real x => .scalar (.real x) (some .file)
  | .bool b => .scalar (.bool b) (some .file)
  | .moment m => .scalar (.text m.text) (some .file)
  | .array vs => .list (itemsOfToml vs) (some .file)
  | .table ms => .table (membersOfToml ms) (some .file)

/-- The items of an array of the file. -/
def itemsOfToml : List Toml.Value → List Item
  | [] => []
  | v :: vs => Item.ofToml v :: itemsOfToml vs

/-- The members of a table of the file. -/
def membersOfToml : List (String × Toml.Value) → List (String × Item)
  | [] => []
  | (k, v) :: ms => (k, Item.ofToml v) :: membersOfToml ms

end

end Availability.Settings

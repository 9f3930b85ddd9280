import Availability.Settings.Convert
import Availability.Text.Utf8
import Availability.Toml.Reader

/-!
# Loading settings

Three layers make the settings: the defaults, over these the file if there is one, and over that
the environment. What they come to has to be valid.
-/

namespace Availability.Settings

/-- A value by default as an item. -/
def Item.ofDefault : Json.Value → Item
  | .text s => .scalar (.text s) none
  | .bool b => .scalar (.bool b) none
  | .number (.int i) => .scalar (.int i) none
  | _ => .nothing

/-- The layer of the defaults. -/
def defaultLayer : Items :=
  Config.default.toTable.map fun s =>
    (s.1, .table (s.2.map fun m => (m.1, Item.ofDefault m.2)) none)

/-- The layer of the file, of which the bytes are given if it is there. -/
def fileLayer (file : Option Bytes) : Except Fault Items :=
  match file with
  | none => .ok []
  | some bytes =>
    match Utf8.decode? bytes with
    | none => .error .fileEncoding
    | some text =>
      match Toml.read text with
      | none => .error .fileFormat
      | some members => .ok (membersOfToml members)

/-- All layers, one over the other. -/
def layered (file : Items) (environment : List (String × String)) : Item :=
  let root := Item.table defaultLayer none
  Item.layLayer (environmentLayer environment) (Item.layLayer file root)

/-- Loads settings from a file, if there is one, and from the environment. -/
def Config.load (file : Option Bytes) (environment : List (String × String)) :
    Except Error Config :=
  match fileLayer file with
  | .error fault => .error (.config fault)
  | .ok layer =>
    match Config.ofItem (layered layer environment) with
    | .error fault => .error (.config fault)
    | .ok c =>
      match c.validate with
      | some fault => .error (.validation fault)
      | none => .ok c

end Availability.Settings

import Availability.Text.Quoted

/-!
# What can be wrong with the settings

The file cannot be read, a value does not convert to the kind of its setting, or the settings as a
whole do not have their form.
-/

namespace Availability.Settings

/-- Where a value comes from. -/
inductive Origin where
  | file
  | environment
  deriving DecidableEq, Repr

/-- The name of an origin. -/
def Origin.name : Origin → String
  | .file => "config.toml"
  | .environment => "the environment"

/-- What was found in the place of something else. -/
inductive Found where
  | bool (b : Bool)
  | signed (i : Int)
  | unsigned (n : Nat)
  | text (s : String)
  | real (text : String)
  | nothing
  | list
  | table
  deriving DecidableEq, Repr

/-- The wording of what was found in the place of a scalar. -/
def Found.message : Found → String
  | .bool b => s!"boolean \x60{b}\x60"
  | .signed i => s!"64-bit integer \x60{i}\x60"
  | .unsigned n => s!"64-bit unsigned integer \x60{n}\x60"
  | .text s => "string " ++ Text.quoted s
  | .real t => s!"floating point \x60{t}\x60"
  | .nothing => "unit value"
  | .list => "sequence"
  | .table => "map"

/-- The wording of what was found in the place of a section, where the size of an integer does not
matter. -/
def Found.plainMessage : Found → String
  | .signed i => s!"integer \x60{i}\x60"
  | .unsigned n => s!"integer \x60{n}\x60"
  | found => found.message

/-- What can be wrong with settings. -/
inductive Fault where
  /-- The file is not in its format. -/
  | fileFormat
  /-- The file is not UTF-8. -/
  | fileEncoding
  /-- A value does not convert to the kind of its setting. -/
  | wrongType (found : Found) (expected : String) (key : Option String) (origin : Option Origin)
  /-- A section is no section. -/
  | notSection (found : Found) (form : String)
  /-- A section that lists its settings in order lists too few. -/
  | tooShort (length : Nat) (form : String)
  /-- A setting is missing. -/
  | missing (name : String)
  /-- A setting that takes one of several words has neither a word nor a table of one key. -/
  | notOneWord (form : String)
  /-- A setting that takes one of several words has another. -/
  | noSuchWord (form word : String)
  | other (text : String)
  deriving DecidableEq, Repr

namespace Fault

/-- The wording of a fault. -/
def message : Fault → String
  | .fileFormat => "the file is not in its format"
  | .fileEncoding => "stream did not contain valid UTF-8"
  | .wrongType found expected key origin =>
    "invalid type: " ++ found.message ++ ", expected " ++ expected
      ++ (match key with | some k => s!" for key \x60{k}\x60" | none => "")
      ++ (match origin with | some o => " in " ++ o.name | none => "")
  | .notSection found form => "invalid type: " ++ found.plainMessage ++ ", expected struct " ++ form
  | .tooShort length form => s!"invalid length {length}, expected {form}"
  | .missing name => s!"missing field \x60{name}\x60"
  | .notOneWord form =>
    s!"value of enum {form} should be represented by either string or table with exactly one key"
  | .noSuchWord form word => s!"enum {form} does not have variant constructor {word}"
  | .other text => text

/-- The key of a setting within a section; a place in a list stands next to its name. -/
def joinKey (outer : String) : Option String → String
  | some inner => if inner.startsWith "[" then outer ++ inner else outer ++ "." ++ inner
  | none => outer

/-- A fault within a section or a list, with its key as seen from outside. -/
def within (outer : String) : Fault → Fault
  | .wrongType found expected key origin =>
    .wrongType found expected (some (joinKey outer key)) origin
  | fault => fault

end Fault

end Availability.Settings

import Availability.Settings.Path

/-!
# Settings in the environment

A variable whose name begins with `STATUSER__`, in letters of any case, holds a setting. The rest
of its name is the path to the setting, with two underscores for each dot. Its value is taken for
what it looks like: true or false, an integer, another number, or else a text.
-/

namespace Availability.Settings

/-- What the names of variables with settings begin with. -/
def envStart : List Char := ['s', 't', 'a', 't', 'u', 's', 'e', 'r', '_', '_']

/-- Writes a dot for each two underscores. -/
def dotted : List Char → List Char
  | '_' :: '_' :: r => '.' :: dotted r
  | c :: r => c :: dotted r
  | [] => []

/-- The path that the name of a variable stands for, if it stands for one. -/
def envPath? (name : String) : Option String :=
  let cs := (Text.lower name).toList
  if cs.take envStart.length = envStart then
    some (String.ofList (dotted (cs.drop envStart.length)))
  else none

/-- The integer of up to 64 bits that a text spells, with a sign or without. -/
def integerOf? (s : String) : Option Int :=
  let (negative, ds) := Extended.splitSign s.toList
  if ds.isEmpty || !ds.all Char.isDigit then none
  else
    let n : Int := Extended.natOfDigits ds
    let i := if negative then -n else n
    if -0x8000000000000000 ≤ i ∧ i < 0x8000000000000000 then some i else none

/-- What the value of a variable is taken for. -/
def Scalar.ofVariable (s : String) : Scalar :=
  if Text.lower s = "true" then .bool true
  else if Text.lower s = "false" then .bool false
  else
    match integerOf? s, Extended.ofText? s with
    | some i, _ => .int i
    | none, some x => .real x
    | none, none => .text s

/-- The layer of the environment. -/
def environmentLayer (environment : List (String × String)) : Items :=
  environment.filterMap fun v =>
    (envPath? v.1).map fun path =>
      (path, .scalar (Scalar.ofVariable v.2) (some .environment))

end Availability.Settings

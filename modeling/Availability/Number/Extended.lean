import Availability.Number.Shortest

/-!
# Binary64 with infinities

Settings may hold any number of the format, the two infinities and the value that is no number
included. `Extended.ofText?` reads one from decimal, `Extended.toText` writes it without an
exponent, and `Extended.toCount` is the nearest natural number within bounds.
-/

namespace Availability

/-- A number, an infinity, or what is no number. -/
inductive Extended where
  | finite (x : Binary64)
  | infinite (negative : Bool)
  | nan
  deriving DecidableEq, Repr

namespace Extended

/-- The nearest to `digits * 10 ^ exponent`; an infinity beyond the greatest. -/
def ofDecimal (negative : Bool) (digits : Nat) (exponent : Int) : Extended :=
  match Binary64.ofDecimal negative digits exponent with
  | some x => .finite x
  | none => .infinite negative

/-- The number with the other sign. -/
def neg : Extended → Extended
  | .finite x => .finite x.neg
  | .infinite negative => .infinite (!negative)
  | .nan => .nan

/-- The text of a number. -/
def toText : Extended → String
  | .finite x => x.toPositional
  | .infinite false => "inf"
  | .infinite true => "-inf"
  | .nan => "NaN"

/-- The text of a number with a point in it, if it is finite. -/
def toPointed : Extended → String
  | .finite x =>
    if x.toPositional.toList.contains '.' then x.toPositional else x.toPositional ++ ".0"
  | x => x.toText

/-- Whether it is other than zero. -/
def isNonzero : Extended → Bool
  | .finite x => !x.isZero
  | _ => true

/-- The nearest natural number up to `most`, a half going up; what is no number counts as zero. -/
def toCount (most : Nat) : Extended → Nat
  | .finite x => min most x.roundHalfAway.toNat
  | .infinite false => most
  | .infinite true => 0
  | .nan => 0

/-- A sign at the front, true for minus, and what follows it. -/
def splitSign : List Char → Bool × List Char
  | '-' :: r => (true, r)
  | '+' :: r => (false, r)
  | s => (false, s)

/-- The natural number of decimal digits. -/
def natOfDigits (ds : List Char) : Nat := ds.foldl (fun n c => n * 10 + (c.toNat - 48)) 0

/-- The exponent that a text spells after its letter. -/
def exponentOf? (s : List Char) : Option Int :=
  let (negative, ds) := splitSign s
  if ds.isEmpty || !ds.all Char.isDigit then none
  else if negative then some (-(natOfDigits ds : Int)) else some (natOfDigits ds)

/-- Makes a number of the digits on both sides of the point and of what follows them. -/
def assemble? (negative : Bool) (whole fraction rest : List Char) : Option Extended :=
  if whole.isEmpty && fraction.isEmpty then none
  else
    let digits := natOfDigits (whole ++ fraction)
    let places : Int := fraction.length
    match rest with
    | [] => some (ofDecimal negative digits (-places))
    | 'e' :: r => (exponentOf? r).map fun e => ofDecimal negative digits (e - places)
    | 'E' :: r => (exponentOf? r).map fun e => ofDecimal negative digits (e - places)
    | _ => none

/-- The number that a text without a sign spells: digits with or without a point, and then an
exponent or not. -/
def ofUnsigned? (negative : Bool) (s : List Char) : Option Extended :=
  let whole := s.takeWhile Char.isDigit
  match s.dropWhile Char.isDigit with
  | '.' :: r => assemble? negative whole (r.takeWhile Char.isDigit) (r.dropWhile Char.isDigit)
  | r => assemble? negative whole [] r

/-- The number that a text spells. -/
def ofText? (s : String) : Option Extended :=
  let (negative, cs) := splitSign s.toList
  match String.ofList (cs.map Char.toLower) with
  | "inf" => some (.infinite negative)
  | "infinity" => some (.infinite negative)
  | "nan" => some .nan
  | _ => ofUnsigned? negative cs

end Extended

end Availability

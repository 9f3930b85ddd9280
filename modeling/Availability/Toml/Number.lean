import Availability.Toml.Text

/-!
# Numbers in TOML

Integers have up to 64 bits, in decimal or, with `0x`, `0o` or `0b` in front, in another base.
Other numbers have a point or an exponent. An underscore may stand between two digits.
-/

namespace Availability.Toml

/-- Reads one or more digits of a class, of which two may have an underscore between them. -/
def readDigits (isIn : Char → Bool) : List Char → Reading (List Char)
  | c :: '_' :: d :: r =>
    if isIn c && isIn d then (readDigits isIn (d :: r)).map fun p => (c :: p.1, p.2) else
      if isIn c then some ([c], '_' :: d :: r) else none
  | c :: d :: r =>
    if isIn c && isIn d then (readDigits isIn (d :: r)).map fun p => (c :: p.1, p.2)
    else if isIn c then some ([c], d :: r) else none
  | [c] => if isIn c then some ([c], []) else none
  | [] => none

/-- The least integer. -/
def integerMin : Int := -0x8000000000000000

/-- The greatest integer. -/
def integerMax : Int := 0x7fffffffffffffff

/-- An integer, if it is within bounds. -/
def inBounds? (i : Int) : Option Int := if integerMin ≤ i ∧ i ≤ integerMax then some i else none

/-- A digit below `base`. -/
def isDigitOf (base : Nat) (c : Char) : Bool :=
  match hexValue? c with
  | some n => n < base
  | none => false

/-- The natural number of digits in some base. -/
def natOf (base : Nat) (ds : List Char) : Nat :=
  ds.foldl (fun n c => n * base + (hexValue? c).getD 0) 0

/-- Reads the digits of an integer in another base. -/
def readInBase (base : Nat) (s : List Char) : Option (Int × List Char) := do
  let (ds, r) ← readDigits (isDigitOf base) s
  let i ← inBounds? (natOf base ds)
  return (i, r)

/-- Reads the digits before a point: a zero stands alone. -/
def readWhole (s : List Char) : Reading (List Char) :=
  match s with
  | '0' :: r => some (['0'], r)
  | s => readDigits Char.isDigit s

/-- Reads an integer in decimal. -/
def readDecimal (s : List Char) : Option (Int × List Char) := do
  let (negative, t) := Extended.splitSign s
  let (ds, r) ← readWhole t
  let n : Int := natOf 10 ds
  let i ← inBounds? (if negative then -n else n)
  return (i, r)

/-- Reads an integer. -/
def readInteger : List Char → Reading Int
  | '0' :: 'x' :: r => readInBase 16 r
  | '0' :: 'o' :: r => readInBase 8 r
  | '0' :: 'b' :: r => readInBase 2 r
  | s => readDecimal s

/-- Reads an exponent, if one is at the front, and gives it with its letter. -/
def readExponent : List Char → Option (List Char × List Char)
  | c :: r => do
    guard (c == 'e' || c == 'E')
    let sign := r.takeWhile fun d => d == '+' || d == '-'
    guard (sign.length ≤ 1)
    let (ds, r) ← readDigits Char.isDigit (r.drop sign.length)
    return ('e' :: sign ++ ds, r)
  | [] => none

/-- Reads a point and the digits after it. -/
def readFraction : List Char → Option (List Char × List Char)
  | '.' :: r => do
    let (ds, r) ← readDigits Char.isDigit r
    return ('.' :: ds, r)
  | _ => none

/-- Reads what makes a number none of the integers: an exponent, or a fraction that one may
follow. -/
def readTail (s : List Char) : Option (List Char × List Char) :=
  match readFraction s with
  | some (fraction, r) =>
    match readExponent r with
    | some (exponent, r) => some (fraction ++ exponent, r)
    | none => some (fraction, r)
  | none => readExponent s

/-- Reads a number with a point or an exponent. One too great is refused, but not one too far below
zero. -/
def readFinite (s : List Char) : Option (Extended × List Char) := do
  let (negative, t) := Extended.splitSign s
  let (whole, r) ← readWhole t
  let (tail, r) ← readTail r
  let x ← Extended.ofUnsigned? negative (whole ++ tail)
  guard (x != .infinite false)
  return (x, r)

/-- Reads an infinity, or what is no number. -/
def readSpecial (s : List Char) : Reading Extended :=
  match Extended.splitSign s with
  | (negative, 'i' :: 'n' :: 'f' :: r) => some (.infinite negative, r)
  | (_, 'n' :: 'a' :: 'n' :: r) => some (.nan, r)
  | _ => none

/-- Reads a number that is no integer. -/
def readReal (s : List Char) : Reading Extended := readFinite s <|> readSpecial s

end Availability.Toml

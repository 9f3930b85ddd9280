import Availability.Number.Binary64

/-!
# The shortest decimal of a number

`Binary64.shortest` gives the fewest decimal digits that read back as the number and, of those,
the nearest to it. The reals that read back as a number form an interval around it that holds its
ends exactly when the mantissa is even. If a point of a decimal grid lies in it, so does one of
the two neighbours of the number on that grid, so it is enough to try these on the grids of one
digit, of two, and so on.

Two spellings are made from the digits: `scientific` with an exponent for the very large and the
very small, and `positional` without one.
-/

namespace Availability

/-- `digits * 10 ^ exponent`. -/
structure Decimal where
  digits : Nat
  exponent : Int
  deriving DecidableEq, Repr

namespace Decimal

/-- The digits as text. -/
def digitChars (d : Decimal) : List Char := Nat.toDigits 10 d.digits

/-- The power of ten of the first digit. -/
def magnitude (d : Decimal) : Int := d.exponent + (d.digitChars.length - 1 : Nat)

/-- The digits with a point at its place, and the zeros that this needs: none but one before the
point of a fraction, none after the last digit. -/
def positional (d : Decimal) : List Char :=
  let cs := d.digitChars
  if 0 ≤ d.exponent then cs ++ List.replicate d.exponent.toNat '0'
  else
    let places := (-d.exponent).toNat
    if places < cs.length then
      cs.take (cs.length - places) ++ '.' :: cs.drop (cs.length - places)
    else '0' :: '.' :: List.replicate (places - cs.length) '0' ++ cs

/-- The first digit, a point and the others if there are any, and the exponent with its sign. -/
def scientific (d : Decimal) : List Char :=
  let e := d.magnitude
  let fraction := match d.digitChars with
    | [] => []
    | [c] => [c]
    | c :: cs => c :: '.' :: cs
  fraction ++ 'e' :: (if e < 0 then '-' else '+') :: Nat.toDigits 10 e.natAbs

end Decimal

namespace Binary64

/-- Bounds of the reals that read back as a number, all four as numerators over one denominator:
the number, its lower and its upper bound. -/
structure Interval where
  value : Nat
  low : Nat
  high : Nat
  den : Nat
  closed : Bool

/-- The interval of a number other than zero. Below a power of two the neighbour is half as far
away. -/
def interval (x : Binary64) : Interval :=
  let (n, d) := x.quotient
  let unit := if x.exponent < 0 then 1 else 1 <<< x.exponent.toNat
  let below := if x.mantissa = 1 <<< 52 ∧ x.exponent ≠ leastExponent then unit else 2 * unit
  ⟨4 * n, 4 * n - below, 4 * n + 2 * unit, 4 * d, x.mantissa % 2 = 0⟩

/-- Whether `digits * 10 ^ exponent` lies in the interval. -/
def Interval.holds (i : Interval) (d : Decimal) : Bool :=
  let scaled := if d.exponent < 0 then d.digits else d.digits * Nat.pow 10 d.exponent.toNat
  let unit := if d.exponent < 0 then Nat.pow 10 (-d.exponent).toNat else 1
  let point := scaled * i.den
  if i.closed then i.low * unit ≤ point && point ≤ i.high * unit
  else i.low * unit < point && point < i.high * unit

/-- The power of ten of the first digit of `num / den`, by counting down from `start`. -/
def magnitudeFrom (num den : Nat) (start : Int) : Nat → Int
  | 0 => start
  | fuel + 1 =>
    let reached :=
      if start < 0 then den ≤ num * Nat.pow 10 (-start).toNat
      else den * Nat.pow 10 start.toNat ≤ num
    if reached then start else magnitudeFrom num den (start - 1) fuel

/-- The power of ten of the first digit of a number other than zero. A bit is worth less than
0.30103 decimal digits, so the start is not too low, and at most two too high. -/
def magnitude (x : Binary64) : Int :=
  let (n, d) := x.quotient
  let bits : Int := (x.mantissa.log2 : Int) + 1 + x.exponent
  magnitudeFrom n d ((bits * 30103).fdiv 100000 + 1) 4

/-- The better of the two neighbours of the number on the grid of `10 ^ exponent`, if one reads
back: the nearer, and of two equally near the even one. -/
def onGrid (i : Interval) (exponent : Int) : Option Decimal :=
  let num := if exponent < 0 then i.value * Nat.pow 10 (-exponent).toNat else i.value
  let den := if exponent < 0 then i.den else i.den * Nat.pow 10 exponent.toNat
  let q := num / den
  let r := num % den
  let low : Decimal := ⟨q, exponent⟩
  let high : Decimal := ⟨q + 1, exponent⟩
  match i.holds low && q != 0, i.holds high with
  | true, true =>
    if 2 * r < den then some low
    else if den < 2 * r then some high
    else if q % 2 = 0 then some low else some high
  | true, false => some low
  | false, true => some high
  | false, false => none

/-- Tries grids of more and more digits. -/
def shortestFrom (i : Interval) (exponent : Int) : Nat → Decimal
  | 0 => ⟨i.value / i.den, 0⟩
  | fuel + 1 =>
    match onGrid i exponent with
    | some d => d
    | none => shortestFrom i (exponent - 1) fuel

/-- Moves zeros at the end of the digits into the exponent. -/
def stripZeros : Nat → Decimal → Decimal
  | 0, d => d
  | fuel + 1, d =>
    if d.digits ≠ 0 ∧ d.digits % 10 = 0 then stripZeros fuel ⟨d.digits / 10, d.exponent + 1⟩ else d

/-- The fewest digits that read back, and of those the nearest. -/
def shortest (x : Binary64) : Decimal :=
  if x.isZero then ⟨0, 0⟩
  else stripZeros 18 (shortestFrom x.interval x.magnitude 18)

/-- The text without an exponent, and without a point where no digit follows it. -/
def toPositional (x : Binary64) : String :=
  String.ofList ((if x.negative then ['-'] else []) ++ x.shortest.positional)

end Binary64

end Availability

/-!
# Binary64 numbers

A finite number of the format is a sign, a mantissa below 2^53 and an exponent of two from
-1074 to 971; the mantissa has all 53 bits unless the exponent is the least. Every operation is
exact arithmetic on natural numbers followed by one rounding to the nearest number of the format,
with a tie going to the even mantissa.
-/

namespace Availability

/-- A finite number of the format: `mantissa * 2 ^ exponent`, negated if `negative`. -/
structure Binary64 where
  negative : Bool
  mantissa : Nat
  exponent : Int
  deriving DecidableEq, Repr

namespace Binary64

/-- The least exponent, at which the mantissa may have fewer than 53 bits. -/
def leastExponent : Int := -1074

/-- The greatest exponent. -/
def greatestExponent : Int := 971

/-- Zero, with its sign. -/
def zero (negative : Bool) : Binary64 := ⟨negative, 0, leastExponent⟩

/-- Whether the number is zero, of either sign. -/
def isZero (x : Binary64) : Bool := x.mantissa == 0

/-- The number with the other sign. -/
def neg (x : Binary64) : Binary64 := { x with negative := !x.negative }

/-- `n / d` to the nearest integer, a tie to the even one. -/
def roundHalfEven (n d : Nat) : Nat :=
  let q := n / d
  let twice := 2 * (n % d)
  if twice < d then q
  else if d < twice then q + 1
  else if q % 2 = 0 then q else q + 1

/-- The exponent at which `num / den` has a mantissa of 53 bits before rounding. -/
def scaleExponent (num den : Nat) : Int :=
  let e : Int := (num.log2 : Int) - den.log2 - 52
  let wide := if e < 0 then num <<< (-e).toNat < den <<< 52 else num < den <<< (e.toNat + 52)
  if wide then e - 1 else e

/-- The number nearest to `num / den`, or none if that lies beyond the greatest. -/
def ofQuotient (negative : Bool) (num den : Nat) : Option Binary64 :=
  if num = 0 then some (zero negative)
  else
    let e := max (scaleExponent num den) leastExponent
    let m :=
      if e < 0 then roundHalfEven (num <<< (-e).toNat) den
      else roundHalfEven num (den <<< e.toNat)
    let (m, e) := if m = 1 <<< 53 then (1 <<< 52, e + 1) else (m, e)
    if e > greatestExponent then none else some ⟨negative, m, e⟩

/-- The number as a quotient of natural numbers, without its sign. -/
def quotient (x : Binary64) : Nat × Nat :=
  if x.exponent < 0 then (x.mantissa, 1 <<< (-x.exponent).toNat)
  else (x.mantissa <<< x.exponent.toNat, 1)

/-- The product. -/
def mul (x y : Binary64) : Option Binary64 :=
  let (a, b) := x.quotient
  let (c, d) := y.quotient
  ofQuotient (x.negative != y.negative) (a * c) (b * d)

/-- The quotient, for a divisor that is not zero. -/
def div (x y : Binary64) : Option Binary64 :=
  let (a, b) := x.quotient
  let (c, d) := y.quotient
  ofQuotient (x.negative != y.negative) (a * d) (b * c)

/-- The number nearest to a natural number. -/
def ofNat (n : Nat) : Option Binary64 := ofQuotient false n 1

/-- The number nearest to `digits * 10 ^ exponent`, or none if that lies beyond the greatest.
Exponents so far out that the answer is plain are not raised to. -/
def ofDecimal (negative : Bool) (digits : Nat) (exponent : Int) : Option Binary64 :=
  if digits = 0 then some (zero negative)
  else
    let size : Int := (digits.log2 : Int) + 1
    if exponent < -size - 400 then some (zero negative)
    else if exponent > 400 then none
    else if exponent < 0 then ofQuotient negative digits (Nat.pow 10 (-exponent).toNat)
    else ofQuotient negative (digits * Nat.pow 10 exponent.toNat) 1

/-- The integer nearest to the number, a half going away from zero. -/
def roundHalfAway (x : Binary64) : Int :=
  let (n, d) := x.quotient
  let q : Int := ((2 * n + d) / (2 * d) : Nat)
  if x.negative then -q else q

end Binary64

end Availability

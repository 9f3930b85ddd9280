import Availability.Text.Utf8

/-!
# Names in other scripts

A label of a host name that has characters outside ASCII is written in ASCII after `xn--`: its
ASCII characters, and then the others as differences of code point and place, in a base of 36
whose digits adapt to what went before.
-/

namespace Availability.Url

/-- A digit of base 36. -/
def labelDigit (n : Nat) : Char :=
  if n < 26 then Char.ofNat (0x61 + n) else Char.ofNat (0x30 + (n - 26))

/-- Divides a difference down to the range of one digit, and counts the steps. -/
def adaptFrom (delta k : Nat) : Nat × Nat :=
  if 455 < delta then adaptFrom (delta / 35) (k + 36) else (delta, k)
termination_by delta
decreasing_by omega

/-- The bias for the next difference. -/
def adapt (delta count : Nat) (first : Bool) : Nat :=
  let scaled := if first then delta / 700 else delta / 2
  let (delta, k) := adaptFrom (scaled + scaled / count) 0
  k + 36 * delta / (delta + 38)

/-- The least digit that ends a difference at position `k`. -/
def threshold (k bias : Nat) : Nat :=
  if k ≤ bias then 1 else if bias + 26 ≤ k then 26 else k - bias

theorem threshold_bounds (k bias : Nat) : 1 ≤ threshold k bias ∧ threshold k bias ≤ 26 := by
  unfold threshold
  split
  · omega
  · split <;> omega

/-- The digits of a difference, from position `k` on. -/
def differenceDigits (bias k q : Nat) : List Char :=
  let t := threshold k bias
  if h : q < t then [labelDigit q]
  else
    labelDigit (t + (q - t) % (36 - t)) :: differenceDigits bias (k + 36) ((q - t) / (36 - t))
termination_by q
decreasing_by
  have := threshold_bounds k bias
  have : (q - threshold k bias) / (36 - threshold k bias) ≤ q - threshold k bias :=
    Nat.div_le_self _ _
  omega

/-- How far the writing of a label has come. -/
structure LabelState where
  output : List Char
  delta : Nat
  handled : Nat
  bias : Nat
  first : Bool

/-- Goes over the code points of a label once, writing those equal to `m`. -/
def writePass (m : Nat) : List Nat → LabelState → LabelState
  | [], s => s
  | c :: cs, s =>
    if c < m then writePass m cs { s with delta := s.delta + 1 }
    else if c = m then
      writePass m cs
        { output := s.output ++ differenceDigits s.bias 36 s.delta
          delta := 0
          handled := s.handled + 1
          bias := adapt s.delta (s.handled + 1) s.first
          first := false }
    else writePass m cs s

/-- Writes the code points from `n` on, in ascending order. -/
def writeRest : (fuel : Nat) → (n : Nat) → List Nat → LabelState → LabelState
  | 0, _, _, s => s
  | fuel + 1, n, codes, s =>
    match (codes.filter (n ≤ ·)).min? with
    | none => s
    | some m =>
      let s := writePass m codes { s with delta := s.delta + (m - n) * (s.handled + 1) }
      writeRest fuel (m + 1) codes { s with delta := s.delta + 1 }

/-- A label in ASCII. -/
def asciiLabel (label : List Char) : List Char :=
  if label.all fun c => c.toNat < 0x80 then label
  else
    let basic := label.filter fun c => c.toNat < 0x80
    let start := if basic.isEmpty then [] else basic ++ ['-']
    let s := writeRest label.length 0x80 (label.map Char.toNat) ⟨start, 0, basic.length, 72, true⟩
    ['x', 'n', '-', '-'] ++ s.output

end Availability.Url

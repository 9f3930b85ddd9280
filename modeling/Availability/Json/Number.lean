import Availability.Json.Fault

/-!
# JSON numbers

`readNumber` reads a number and its value. Digits are gathered into a significand of 64 bits; the
digits from the first one that does not fit only move the exponent, or are dropped after the
point. A number with a point, an exponent or a significand that does not fit is read into binary64
with two roundings: one of the significand, one of its product or quotient with a power of ten.
`skipNumber` only finds the end.
-/

namespace Availability.Json

/-- A decimal digit. -/
def isDigit (b : UInt8) : Bool := 0x30 ≤ b && b ≤ 0x39

/-- The value of a decimal digit. -/
def digitValue (b : UInt8) : Nat := b.toNat - 0x30

/-- The digits at the front, and what follows them. -/
def splitDigits (s : Bytes) : Bytes × Bytes := (s.takeWhile isDigit, s.dropWhile isDigit)

/-- The greatest significand. -/
def significandMax : Nat := 0xffffffffffffffff

/-- Appends digits to a significand as long as it fits; the second part counts the digits that
were not appended. -/
def gather (significand : Nat) : Bytes → Nat × Nat
  | [] => (significand, 0)
  | b :: r =>
    let next := significand * 10 + digitValue b
    if next ≤ significandMax then gather next r else (significand, r.length + 1)

/-- The greatest power of ten in binary64. -/
def greatestPower : Nat := 308

/-- `x / 10 ^ n`, taken down by the greatest power first. Three such steps take any significand
to zero. -/
def scaleDown (x : Binary64) (n : Nat) : Nat → Binary64
  | 0 => Binary64.zero false
  | fuel + 1 =>
    if n ≤ greatestPower then
      ((Binary64.ofDecimal false 1 n).bind x.div).getD (Binary64.zero false)
    else if x.isZero then x
    else
      let y := ((Binary64.ofDecimal false 1 greatestPower).bind x.div).getD (Binary64.zero false)
      scaleDown y (n - greatestPower) fuel

/-- The number `significand * 10 ^ exponent`, or none if it is beyond the range. -/
def realOf (negative : Bool) (significand : Nat) (exponent : Int) : Option Binary64 :=
  let x := (Binary64.ofNat significand).getD (Binary64.zero false)
  let y? :=
    if exponent < 0 then some (scaleDown x exponent.natAbs 4)
    else if exponent ≤ greatestPower then (Binary64.ofDecimal false 1 exponent).bind x.mul
    else if x.isZero then some x
    else none
  y?.map fun y => { y with negative := negative }

/-- What the digits of an exponent come to: a value, or that it does not fit 31 bits. -/
inductive ExponentDigits where
  | value (n : Nat) (rest : Bytes)
  | tooLong (rest : Bytes)

/-- Reads the digits of an exponent after the first. -/
def readExponentDigits (n : Nat) : Bytes → ExponentDigits
  | [] => .value n []
  | b :: r =>
    if isDigit b then
      let next := n * 10 + digitValue b
      if next < 0x80000000 then readExponentDigits next r else .tooLong r
    else .value n (b :: r)

/-- The sign of an exponent, true for plus, and what follows it. -/
def splitSign : Bytes → Bool × Bytes
  | 0x2B :: r => (true, r)
  | 0x2D :: r => (false, r)
  | s => (true, s)

/-- Makes a number of its parts, at the place where it ends. -/
def finishReal (negative : Bool) (significand : Nat) (exponent : Int) (rest : Bytes) :
    Except Stop (Number × Bytes) :=
  match realOf negative significand exponent with
  | some x => .ok (.real x, rest)
  | none => Stop.before .numberTooLarge rest

/-- Reads an exponent, after its letter; `exponent` is what the digits before it ask for. -/
def readExponent (negative : Bool) (significand : Nat) (exponent : Int) (s : Bytes) :
    Except Stop (Number × Bytes) :=
  let (positive, r) := splitSign s
  match r with
  | [] => Stop.before .endInValue []
  | b :: r =>
    if isDigit b then
      match readExponentDigits (digitValue b) r with
      | .value n rest =>
        finishReal negative significand (if positive then exponent + n else exponent - n) rest
      | .tooLong rest =>
        if significand ≠ 0 ∧ positive then Stop.before .numberTooLarge rest
        else .ok (.real (Binary64.zero negative), rest.dropWhile isDigit)
    else Stop.before .badNumber r

/-- Reads a fraction, after its point. -/
def readFraction (negative : Bool) (significand : Nat) (exponent : Int) (s : Bytes) :
    Except Stop (Number × Bytes) :=
  match splitDigits s with
  | ([], []) => Stop.on .endInValue []
  | ([], r) => Stop.on .badNumber r
  | (ds, r) =>
    let (significand, dropped) := gather significand ds
    let exponent := exponent - (ds.length - dropped : Nat)
    match r with
    | 0x65 :: r => readExponent negative significand exponent r
    | 0x45 :: r => readExponent negative significand exponent r
    | r => finishReal negative significand exponent r

/-- The integer of a sign and a significand, as far as 64 bits go; minus zero is none. -/
def integerOf? (negative : Bool) (significand : Nat) : Option Int :=
  if negative then
    if 0 < significand ∧ significand ≤ 0x8000000000000000 then some (-significand) else none
  else some significand

/-- Reads what follows the digits before the point. -/
def readAfterDigits (negative : Bool) (ds s : Bytes) : Except Stop (Number × Bytes) :=
  let (significand, dropped) := gather 0 ds
  match s with
  | 0x2E :: r => readFraction negative significand dropped r
  | 0x65 :: r => readExponent negative significand dropped r
  | 0x45 :: r => readExponent negative significand dropped r
  | r =>
    match (if dropped = 0 then integerOf? negative significand else none) with
    | some i => .ok (.int i, r)
    | none => finishReal negative significand dropped r

/-- Reads a number without its sign. A zero stands alone before the point. -/
def readUnsigned (negative : Bool) (s : Bytes) : Except Stop (Number × Bytes) :=
  match splitDigits s with
  | ([], []) => Stop.before .endInValue []
  | ([], r) => Stop.on .badNumber r
  | (0x30 :: b :: ds, r) => Stop.on .badNumber (b :: ds ++ r)
  | (ds, r) => readAfterDigits negative ds r

/-- Reads a number. -/
def readNumber : Bytes → Except Stop (Number × Bytes)
  | 0x2D :: r => readUnsigned true r
  | s => readUnsigned false s

/-- Finds the end of an exponent, after its letter. -/
def skipExponent (s : Bytes) : Except Stop Bytes :=
  match (splitSign s).2 with
  | [] => Stop.before .badNumber []
  | b :: r => if isDigit b then .ok (r.dropWhile isDigit) else Stop.before .badNumber r

/-- Finds the end of what follows the digits before the point. -/
def skipAfterDigits : Bytes → Except Stop Bytes
  | 0x2E :: r =>
    match splitDigits r with
    | ([], r) => Stop.on .badNumber r
    | (_, 0x65 :: r) => skipExponent r
    | (_, 0x45 :: r) => skipExponent r
    | (_, r) => .ok r
  | 0x65 :: r => skipExponent r
  | 0x45 :: r => skipExponent r
  | r => .ok r

/-- Finds the end of a number without its sign. -/
def skipUnsigned (s : Bytes) : Except Stop Bytes :=
  match splitDigits s with
  | ([], r) => Stop.on .badNumber r
  | (0x30 :: b :: ds, r) => Stop.on .badNumber (b :: ds ++ r)
  | (_, r) => skipAfterDigits r

/-- Finds the end of a number. -/
def skipNumber : Bytes → Except Stop Bytes
  | 0x2D :: r => skipUnsigned r
  | s => skipUnsigned s

end Availability.Json

import Availability.Toml.Text

/-!
# Dates and times in TOML

A day, a time of day, or a day and a time with a `T`, a `t` or a space between them and, after
these, an offset or none.
-/

namespace Availability.Toml

/-- Reads a number of exactly so many digits, within bounds. -/
def readFixed (digits low high : Nat) (s : List Char) : Reading Nat :=
  let ds := s.take digits
  let n := Extended.natOfDigits ds
  if ds.length = digits && ds.all Char.isDigit && low ≤ n && n ≤ high then some (n, s.drop digits)
  else none

/-- Reads one character. -/
def readMark (mark : Char) : List Char → Option (List Char)
  | c :: r => if c == mark then some r else none
  | [] => none

/-- Whether a year has a day more. -/
def isLeapYear (year : Nat) : Bool :=
  year % 4 == 0 && (year % 100 != 0 || year % 400 == 0)

/-- How many days a month has. -/
def daysIn (year month : Nat) : Nat :=
  if month == 2 then if isLeapYear year then 29 else 28
  else if month == 4 || month == 6 || month == 9 || month == 11 then 30
  else 31

/-- Reads a day. -/
def readDate (s : List Char) : Option (Date × List Char) := do
  let (year, r) ← readFixed 4 0 9999 s
  let r ← readMark '-' r
  let (month, r) ← readFixed 2 1 12 r
  let r ← readMark '-' r
  let (day, r) ← readFixed 2 1 (daysIn year month) r
  return (⟨year, month, day⟩, r)

/-- Reads a fraction of a second, if one is at the front. What is below a nanosecond is cut. -/
def readFractionOf : List Char → Reading Nat
  | '.' :: r =>
    let ds := r.takeWhile Char.isDigit
    let kept := ds.take 9
    if ds.isEmpty then none
    else some (Extended.natOfDigits kept * Nat.pow 10 (9 - kept.length), r.dropWhile Char.isDigit)
  | r => some (0, r)

/-- Reads a time of day. -/
def readTime (s : List Char) : Option (Time × List Char) := do
  let (hour, r) ← readFixed 2 0 23 s
  let r ← readMark ':' r
  let (minute, r) ← readFixed 2 0 59 r
  let r ← readMark ':' r
  let (second, r) ← readFixed 2 0 60 r
  let (nanosecond, r) ← readFractionOf r
  return (⟨hour, minute, second, nanosecond⟩, r)

/-- Reads an offset in hours and minutes, after its sign. -/
def readHours (s : List Char) : Option (Nat × List Char) := do
  let (hours, r) ← readFixed 2 0 23 s
  let r ← readMark ':' r
  let (minutes, r) ← readFixed 2 0 59 r
  return (hours * 60 + minutes, r)

/-- Reads an offset, if one is at the front. -/
def readOffset : List Char → Reading (Option Offset)
  | 'Z' :: r => some (some .universal, r)
  | 'z' :: r => some (some .universal, r)
  | '+' :: r => (readHours r).map fun p => (some (.minutes p.1), p.2)
  | '-' :: r => (readHours r).map fun p => (some (.minutes (-p.1)), p.2)
  | r => some (none, r)

/-- Whether a character may stand between a day and a time. -/
def isBetween (c : Char) : Bool := c == 'T' || c == 't' || c == ' '

/-- Reads a time and an offset, if they are at the front after what may stand between them and a
day. -/
def readTimeAfter : List Char → Option ((Time × Option Offset) × List Char)
  | c :: r => do
    guard (isBetween c)
    let (time, r) ← readTime r
    let (offset, r) ← readOffset r
    return ((time, offset), r)
  | [] => none

/-- Reads a day, a time, or both. -/
def readMoment (s : List Char) : Reading Moment :=
  match readDate s with
  | some (date, r) =>
    match readTimeAfter r with
    | some ((time, offset), r) => some (⟨some date, some time, offset⟩, r)
    | none => some (⟨some date, none, none⟩, r)
  | none => (readTime s).map fun p => (⟨none, some p.1, none⟩, p.2)

end Availability.Toml

/-!
# Points in time

A point in time is a count of seconds from the start of 1970 and a count of nanoseconds within the
second; 10^9 nanoseconds or more mean the leap second that follows. It is written as a date and a
time in UTC, with no fraction, or one of three, six or nine digits. Years with more than four
digits, and those before the year 0, have a sign.

* `toText_of_ofText?`: a text that reads as a point in time is what this is written as.
-/

namespace Availability

/-- A point in time. -/
structure Timestamp where
  seconds : Int
  nanos : Nat
  deriving DecidableEq, Repr, Inhabited

/-- A day of the calendar. -/
structure Date where
  year : Int
  month : Nat
  day : Nat
  deriving DecidableEq, Repr

namespace Date

/-- The day that lies `days` after the first of 1970. Years are counted from March, so that a leap
day ends its year, and in eras of 400 years, which all have 146097 days. -/
def ofDays (days : Int) : Date :=
  let d := days + 719468
  let era := d.fdiv 146097
  let dayOfEra := (d - era * 146097).toNat
  let yearOfEra :=
    (dayOfEra - dayOfEra / 1460 + dayOfEra / 36524 - dayOfEra / 146096) / 365
  let dayOfYear := dayOfEra - (365 * yearOfEra + yearOfEra / 4 - yearOfEra / 100)
  let shifted := (5 * dayOfYear + 2) / 153
  let day := dayOfYear - (153 * shifted + 2) / 5 + 1
  let month := if shifted < 10 then shifted + 3 else shifted - 9
  let year := era * 400 + yearOfEra + (if month ≤ 2 then 1 else 0)
  ⟨year, month, day⟩

/-- The days from the first of 1970 to a date. -/
def toDays (d : Date) : Int :=
  let year := if d.month ≤ 2 then d.year - 1 else d.year
  let era := year.fdiv 400
  let yearOfEra := (year - era * 400).toNat
  let shifted := if d.month ≤ 2 then d.month + 9 else d.month - 3
  let dayOfYear := (153 * shifted + 2) / 5 + d.day - 1
  let dayOfEra := yearOfEra * 365 + yearOfEra / 4 - yearOfEra / 100 + dayOfYear
  era * 146097 + dayOfEra - 719468

end Date

namespace Timestamp

/-- A number with zeros before it up to a width. -/
def padded (width n : Nat) : List Char :=
  let ds := Nat.toDigits 10 n
  List.replicate (width - ds.length) '0' ++ ds

/-- A year. -/
def yearChars (year : Int) : List Char :=
  if 0 ≤ year ∧ year ≤ 9999 then padded 4 year.toNat
  else (if year < 0 then '-' else '+') :: padded 4 year.natAbs

/-- The fraction of a second, in as few groups of three digits as hold it. -/
def fractionChars (nanos : Nat) : List Char :=
  if nanos = 0 then []
  else if nanos % 1000000 = 0 then '.' :: padded 3 (nanos / 1000000)
  else if nanos % 1000 = 0 then '.' :: padded 6 (nanos / 1000)
  else '.' :: padded 9 nanos

/-- The text of a point in time. -/
def toText (t : Timestamp) : String :=
  let date := Date.ofDays (t.seconds.fdiv 86400)
  let inDay := (t.seconds.fmod 86400).toNat
  let (second, nanos) :=
    if t.nanos < 1000000000 then (inDay % 60, t.nanos) else (inDay % 60 + 1, t.nanos - 1000000000)
  String.ofList (yearChars date.year ++ '-' :: padded 2 date.month ++ '-' :: padded 2 date.day
    ++ 'T' :: padded 2 (inDay / 3600) ++ ':' :: padded 2 (inDay / 60 % 60) ++ ':' :: padded 2 second
    ++ fractionChars nanos ++ ['Z'])

/-- The number of some digits. -/
def number (cs : List Char) : Nat := cs.foldl (fun n c => n * 10 + (c.toNat - 48)) 0

/-- The point in time that a text would mean if it was well written: the year up to the first
hyphen after its sign, and then the other parts at their places. -/
def guess (cs : List Char) : Timestamp :=
  let (negative, unsigned) := match cs with
    | '-' :: r => (true, r)
    | '+' :: r => (false, r)
    | r => (false, r)
  let years := unsigned.takeWhile (· != '-')
  let rest := unsigned.drop years.length
  let part (start : Nat) := number ((rest.drop start).take 2)
  let fraction := ((rest.drop 16).takeWhile Char.isDigit)
  let year : Int := if negative then -(number years) else number years
  let days := Date.toDays ⟨year, part 1, part 4⟩
  let leap := part 13 == 60
  let second := if leap then 59 else part 13
  let nanos := number fraction * Nat.pow 10 (9 - fraction.length)
  ⟨days * 86400 + part 7 * 3600 + part 10 * 60 + second,
    if leap then nanos + 1000000000 else nanos⟩

/-- Reads a point in time in the form in which it is written. -/
def ofText? (s : String) : Option Timestamp :=
  let t := guess s.toList
  if t.toText = s then some t else none

theorem toText_of_ofText? {s : String} {t : Timestamp} (h : ofText? s = some t) :
    t.toText = s := by
  unfold ofText? at h
  simp only [Option.ite_none_right_eq_some, Option.some.injEq] at h
  obtain ⟨h, rfl⟩ := h
  exact h

end Timestamp

end Availability

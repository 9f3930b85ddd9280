import Availability.Number.Extended

/-!
# TOML values

A value of a TOML document. Dates and times keep what they say; their text has one form, whatever
form they were written in.
-/

namespace Availability.Toml

/-- A day. -/
structure Date where
  year : Nat
  month : Nat
  day : Nat
  deriving DecidableEq, Repr

/-- A time of day. -/
structure Time where
  hour : Nat
  minute : Nat
  second : Nat
  nanosecond : Nat
  deriving DecidableEq, Repr

/-- How far a time is ahead of universal time. -/
inductive Offset where
  | universal
  | minutes (n : Int)
  deriving DecidableEq, Repr

/-- A date, a time, or both; with both there may be an offset. -/
structure Moment where
  date : Option Date
  time : Option Time
  offset : Option Offset
  deriving DecidableEq, Repr

/-- A number with zeros in front up to `width` digits. -/
def padded (width n : Nat) : List Char :=
  let ds := Nat.toDigits 10 n
  List.replicate (width - ds.length) '0' ++ ds

/-- The text of a day. -/
def Date.chars (d : Date) : List Char :=
  padded 4 d.year ++ '-' :: padded 2 d.month ++ '-' :: padded 2 d.day

/-- The text of a fraction of a second, without zeros at its end; none of zero. -/
def fractionChars (nanosecond : Nat) : List Char :=
  if nanosecond = 0 then []
  else '.' :: ((padded 9 nanosecond).reverse.dropWhile (· == '0')).reverse

/-- The text of a time. -/
def Time.chars (t : Time) : List Char :=
  padded 2 t.hour ++ ':' :: padded 2 t.minute ++ ':' :: padded 2 t.second
    ++ fractionChars t.nanosecond

/-- The text of an offset. -/
def Offset.chars : Offset → List Char
  | .universal => ['Z']
  | .minutes n =>
    (if n < 0 then '-' else '+') :: padded 2 (n.natAbs / 60) ++ ':' :: padded 2 (n.natAbs % 60)

/-- The text of a moment. -/
def Moment.text (m : Moment) : String :=
  let date := (m.date.map Date.chars).getD []
  let time := (m.time.map Time.chars).getD []
  let between := if m.date.isSome && m.time.isSome then ['T'] else []
  String.ofList (date ++ between ++ time ++ (m.offset.map Offset.chars).getD [])

/-- A value. -/
inductive Value where
  | text (s : String)
  | integer (i : Int)
  | real (x : Extended)
  | bool (b : Bool)
  | moment (m : Moment)
  | array (items : List Value)
  | table (members : List (String × Value))
  deriving Repr, Inhabited

end Availability.Toml

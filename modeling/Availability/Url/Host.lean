import Availability.Url.Path
import Availability.Url.Punycode

/-!
# Hosts in addresses

A host is a name, four bytes, or eight groups of sixteen bits. A name whose last part is a number
is read as four bytes, in any of the forms these were ever written in, and written in the usual one.
-/

namespace Availability.Url

/-- The host of an address. -/
inductive Host where
  | name (s : String)
  | v4 (n : Nat)
  | v6 (groups : List Nat)
  deriving DecidableEq, Repr

/-- A number in base 8, 10 or 16 by what it begins with; empty digits count as zero. -/
def hostNumber? (s : List Char) : Option Nat :=
  let (base, ds) := match s with
    | '0' :: 'x' :: r => (16, r)
    | '0' :: 'X' :: r => (16, r)
    | '0' :: c :: r => (8, c :: r)
    | r => (10, r)
  let append (n : Nat) (c : Char) : Option Nat :=
    (hexValue? c).bind fun d => if d < base then some (n * base + d) else none
  ds.foldlM append 0

/-- The parts of a name between its dots, without an empty one at the end. -/
def hostParts (s : List Char) : List (List Char) :=
  let parts := splitAtEach (· == '.') s
  match parts.reverse with
  | [] :: p :: ps => (p :: ps).reverse
  | _ => parts

/-- Whether the last part of a name is a number. -/
def endsInNumber (s : List Char) : Bool :=
  match (hostParts s).getLast? with
  | none => false
  | some [] => false
  | some p =>
    p.all Char.isDigit
      || (match p with
        | '0' :: x :: r => (x == 'x' || x == 'X') && r.all fun c => (hexValue? c).isSome
        | _ => false)

/-- The number of four bytes: each part but the last gives one, and the last the others. -/
def v4Of? (s : List Char) : Option Nat := do
  let parts := hostParts s
  guard (parts.length ≤ 4)
  let numbers ← parts.mapM fun p => if p.isEmpty then none else hostNumber? p
  let front := numbers.dropLast
  let last ← numbers.getLast?
  guard (front.all (· ≤ 255))
  guard (last < 1 <<< (8 * (4 - front.length)))
  return front.zipIdx.foldl (fun n b => n + b.1 <<< (8 * (3 - b.2))) last

/-- The four bytes in their usual form. -/
def v4Chars (n : Nat) : List Char :=
  let byte (i : Nat) := Nat.toDigits 10 ((n >>> (8 * i)) % 256)
  byte 3 ++ '.' :: byte 2 ++ '.' :: byte 1 ++ '.' :: byte 0

/-- A group of up to four hexadecimal digits. -/
def group? (s : List Char) : Option Nat :=
  if s.isEmpty || 4 < s.length then none
  else s.foldlM (fun n c => (hexValue? c).map (n * 16 + ·)) 0

/-- A byte in decimal, without zeros in front. -/
def plainByte? (s : List Char) : Option Nat :=
  if s.isEmpty || 3 < s.length || !s.all Char.isDigit then none
  else if 1 < s.length && s.head? == some '0' then none
  else
    let n := s.foldl (fun n c => n * 10 + (c.toNat - 48)) 0
    if n ≤ 255 then some n else none

/-- The groups between colons; the last may be four bytes, which make two groups. -/
def groups? (s : List Char) : Option (List Nat) :=
  if s.isEmpty then some []
  else
    let parts := splitAtEach (· == ':') s
    match parts.reverse with
    | [] => none
    | last :: front => do
      let before ← front.reverse.mapM group?
      if last.contains '.' then
        match ← (splitAtEach (· == '.') last).mapM plainByte? with
        | [a, b, c, d] => return before ++ [a * 256 + b, c * 256 + d]
        | _ => none
      else
        let g ← group? last
        return before ++ [g]

/-- Splits at the first double colon. -/
def splitDouble : List Char → Option (List Char × List Char)
  | ':' :: ':' :: r => some ([], r)
  | c :: r => (splitDouble r).map fun p => (c :: p.1, p.2)
  | [] => none

/-- Eight groups, of which a double colon may stand for one or more zeros. -/
def v6Of? (s : List Char) : Option (List Nat) :=
  match splitDouble s with
  | none => (groups? s).bind fun gs => if gs.length = 8 then some gs else none
  | some (front, back) => do
    guard (!front.contains '.')
    let front ← groups? front
    let back ← groups? back
    guard (front.length + back.length < 8)
    return front ++ List.replicate (8 - front.length - back.length) 0 ++ back

/-- How many zeros the groups begin with. -/
def zeroRun (gs : List Nat) : Nat := (gs.takeWhile (· == 0)).length

/-- The place and length of the first longest run of zeros. -/
def longestRun (gs : List Nat) : Nat × Nat :=
  (List.range gs.length).foldl
    (fun best i => if best.2 < zeroRun (gs.drop i) then (i, zeroRun (gs.drop i)) else best) (0, 0)

/-- Groups with colons between them. -/
def joinGroups (gs : List Nat) : List Char :=
  List.intercalate [':'] (gs.map (Nat.toDigits 16))

/-- Eight groups; the first longest run of two or more zeros is a double colon. -/
def v6Chars (gs : List Nat) : List Char :=
  let (start, count) := longestRun gs
  if count < 2 then joinGroups gs
  else joinGroups (gs.take start) ++ ':' :: ':' :: joinGroups (gs.drop (start + count))

/-- A character that no host holds. -/
def isForbidden (c : Char) : Bool :=
  c.toNat == 0 || c == '\t' || c == '\n' || c == '\r' || c == ' ' || c == '#' || c == '/'
    || c == ':' || c == '<' || c == '>' || c == '?' || c == '@' || c == '[' || c == '\\'
    || c == ']' || c == '^' || c == '|'

/-- A character that no name holds. -/
def isForbiddenInName (c : Char) : Bool := isForbidden c || isControl c || c == '%'

namespace Host

/-- Reads what stands between brackets. -/
def ofBrackets? (s : List Char) : Option Host :=
  match s.reverse with
  | ']' :: r => (v6Of? r.reverse).map .v6
  | _ => none

/-- Reads the host of one of the well-known schemes. -/
def ofText? (s : List Char) : Option Host :=
  match s with
  | '[' :: r => ofBrackets? r
  | s =>
    let decoded := (decodeText s).toList.map Char.toLower
    let labels := (splitAtEach (· == '.') decoded).map asciiLabel
    let name := List.intercalate ['.'] labels
    if name.isEmpty || name.any isForbiddenInName then none
    else if endsInNumber name then (v4Of? name).map .v4
    else some (.name (String.ofList name))

/-- Reads the host of any other scheme, which is taken as it is. -/
def ofPlain? (s : List Char) : Option Host :=
  match s with
  | '[' :: r => ofBrackets? r
  | s =>
    if s.any isForbidden then none else some (.name (String.ofList (encodeWith isAlien s)))

/-- The text of a host. -/
def chars : Host → List Char
  | .name s => s.toList
  | .v4 n => v4Chars n
  | .v6 gs => '[' :: v6Chars gs ++ [']']

end Host

end Availability.Url

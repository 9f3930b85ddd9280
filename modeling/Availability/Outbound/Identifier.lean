/-!
# Message identifiers

An identifier is a number of 128 bits, written as 32 hexadecimal digits in five groups. One that
is drawn at random says so in its version digit, 4, and in the two highest bits of its variant.

* `Identifier.version_random`: an identifier made of random bits has version 4.
-/

namespace Availability

/-- An identifier of 128 bits. -/
structure Identifier where
  value : Nat
  deriving DecidableEq, Repr, Inhabited

namespace Identifier

/-- The digits of an identifier, without the groups. -/
def digits (i : Identifier) : List Char :=
  (List.range 32).map fun k => Nat.digitChar ((i.value >>> (4 * (31 - k))) % 16)

/-- The text of an identifier. -/
def toText (i : Identifier) : String :=
  let d := i.digits
  let group (start length : Nat) := (d.drop start).take length
  String.ofList (group 0 8 ++ '-' :: group 8 4 ++ '-' :: group 12 4 ++ '-' :: group 16 4
    ++ '-' :: group 20 12)

/-- The version digit. -/
def version (i : Identifier) : Nat := (i.value >>> 76) % 16

/-- The two highest bits of the variant. -/
def variant (i : Identifier) : Nat := (i.value >>> 62) % 4

/-- Whether an identifier says that it was drawn at random. -/
def isRandom (i : Identifier) : Bool := i.version == 4 && i.variant == 2

/-- An identifier of 122 random bits. -/
def random (bits : Nat) : Identifier :=
  let low := bits % (1 <<< 62)
  let middle := (bits >>> 62) % (1 <<< 12)
  let high := (bits >>> 74) % (1 <<< 48)
  ⟨(high <<< 80) + (4 <<< 76) + (middle <<< 64) + (2 <<< 62) + low⟩

/-- The bits of an identifier made of random ones, part by part. -/
theorem random_value (bits : Nat) : ∃ high middle low, middle < 1 <<< 12 ∧ low < 1 <<< 62 ∧
    (random bits).value =
      (high <<< 80) + (4 <<< 76) + (middle <<< 64) + (2 <<< 62) + low :=
  ⟨_, _, _, Nat.mod_lt _ (by decide), Nat.mod_lt _ (by decide), rfl⟩

theorem version_random (bits : Nat) : (random bits).version = 4 := by
  obtain ⟨high, middle, low, hm, hl, h⟩ := random_value bits
  simp only [version, h]
  omega

theorem variant_random (bits : Nat) : (random bits).variant = 2 := by
  obtain ⟨high, middle, low, hm, hl, h⟩ := random_value bits
  simp only [variant, h]
  omega

/-- The value of a hexadecimal digit. -/
def digit? (c : Char) : Option Nat :=
  if '0' ≤ c ∧ c ≤ '9' then some (c.toNat - 48)
  else if 'a' ≤ c ∧ c ≤ 'f' then some (c.toNat - 87)
  else if 'A' ≤ c ∧ c ≤ 'F' then some (c.toNat - 55)
  else none

/-- An identifier of its 32 digits. -/
def ofDigits? (cs : List Char) : Option Identifier :=
  if cs.length = 32 then
    (cs.mapM digit?).map fun ds => ⟨ds.foldl (fun n d => n * 16 + d) 0⟩
  else none

/-- The digits of five groups with a hyphen between each two. -/
def ungroup? (cs : List Char) : Option (List Char) :=
  let hyphens := [8, 13, 18, 23]
  if cs.length = 36 ∧ hyphens.all (fun i => cs[i]? == some '-') then
    some (cs.filter (· != '-'))
  else none

/-- What stands in a pair of braces or after the name of the scheme. -/
def unwrap (cs : List Char) : List Char :=
  match cs with
  | '{' :: r => if r.getLast? = some '}' then r.dropLast else cs
  | _ =>
    let scheme := "urn:uuid:".toList
    if cs.take 9 = scheme then cs.drop 9 else cs

/-- Reads an identifier: 32 digits, or five groups, these also in braces or after the name of the
scheme. -/
def ofText? (s : String) : Option Identifier :=
  let cs := s.toList
  if cs.length = 32 then ofDigits? cs else (ungroup? (unwrap cs)).bind ofDigits?

end Identifier

end Availability

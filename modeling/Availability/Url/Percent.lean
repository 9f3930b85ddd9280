import Availability.Text.Utf8

/-!
# Percent encoding

In an address every character outside ASCII, every control, and the characters that would be read
as something else in their place stand as percent signs and two hexadecimal digits for each of
their bytes.

* `encodeWith_eq_self`: a text of characters that may stand for themselves is left alone.
* `decodeBytes_encodeByte`: an encoded byte reads back.
-/

namespace Availability.Url

/-- A hexadecimal digit, in upper case. -/
def hexUpper (n : Nat) : Char := (Nat.digitChar n).toUpper

/-- A byte, encoded. -/
def encodeByte (b : UInt8) : List Char := ['%', hexUpper (b.toNat / 16), hexUpper (b.toNat % 16)]

/-- A control of ASCII. -/
def isControl (c : Char) : Bool := c.toNat < 0x20 || c.toNat == 0x7F

/-- Whether a character is always encoded. -/
def isAlien (c : Char) : Bool := isControl c || 0x80 ≤ c.toNat

/-- The characters that are encoded in a fragment. -/
def inFragment (c : Char) : Bool :=
  isAlien c || c == ' ' || c == '"' || c == '<' || c == '>' || c == '\x60'

/-- The characters that are encoded in a path. -/
def inPath (c : Char) : Bool := inFragment c || c == '#' || c == '?' || c == '{' || c == '}'

/-- The characters that are encoded in a query; in one of the well-known schemes the apostrophe
too. -/
def inQuery (special : Bool) (c : Char) : Bool :=
  isAlien c || c == ' ' || c == '"' || c == '#' || c == '<' || c == '>' || (special && c == '\x27')

/-- Encodes the characters of a set. -/
def encodeWith (set : Char → Bool) (cs : List Char) : List Char :=
  cs.flatMap fun c => if set c then (String.utf8EncodeChar c).flatMap encodeByte else [c]

theorem encodeWith_eq_self (set : Char → Bool) (cs : List Char) (h : ∀ c ∈ cs, set c = false) :
    encodeWith set cs = cs := by
  induction cs with
  | nil => rfl
  | cons c cs ih =>
    have hc : set c = false := h c (by simp)
    have := ih fun d hd => h d (by simp [hd])
    simp only [encodeWith, List.flatMap_cons, hc] at this ⊢
    simp [this]

/-- The value of a hexadecimal digit. -/
def hexValue? (c : Char) : Option Nat :=
  if c.isDigit then some (c.toNat - 48)
  else if 'a' ≤ c && c ≤ 'f' then some (c.toNat - 87)
  else if 'A' ≤ c && c ≤ 'F' then some (c.toNat - 55)
  else none

/-- The bytes of a text, encoded ones decoded. A percent sign without two digits stands for
itself. -/
def decodeBytes : List Char → Bytes
  | '%' :: a :: b :: r =>
    match hexValue? a, hexValue? b with
    | some x, some y => UInt8.ofNat (x * 16 + y) :: decodeBytes r
    | _, _ => 0x25 :: decodeBytes (a :: b :: r)
  | c :: r => String.utf8EncodeChar c ++ decodeBytes r
  | [] => []

theorem decodeBytes_encodeByte (b : UInt8) (r : List Char) :
    decodeBytes (encodeByte b ++ r) = b :: decodeBytes r := by
  have h : ∀ n < 16, hexValue? (hexUpper n) = some n := by decide
  have hb := b.toNat_lt
  have h₁ := h (b.toNat / 16) (by omega)
  have h₂ := h (b.toNat % 16) (by omega)
  have : b.toNat / 16 * 16 + b.toNat % 16 = b.toNat := by omega
  simp [encodeByte, decodeBytes, h₁, h₂, this]

/-- The text of a text, encoded characters decoded. -/
def decodeText (cs : List Char) : String := Utf8.decodeLossy (decodeBytes cs)

end Availability.Url

import Availability.Text.Utf8

/-!
# The grammar of JSON

What a well-formed text is, said of its bytes and without a reader. There are two grammars for what
stands between quotes. `Spells` is that of a text that is wanted: it is UTF-8, the halves of its
surrogate pairs stand together, and it denotes characters. `Quotable` is that of a text that is
only passed over: its escapes have their form, and nothing else is asked of it. The strings of a
value nobody asked for, and the names within it, are of the second kind.

* `IsNumeral`, `IsValue`: numerals of any magnitude, and values of any depth.
* `IsText`: a string that denotes a text.
* `IsArrayOf`, `IsObjectOf`: a text that is an array of one item, or an object of some members.
-/

namespace Availability.Json

/-- White space between tokens: blanks, line feeds, tabs and carriage returns. -/
def White (s : Bytes) : Prop := ∀ b ∈ s, b = 0x20 ∨ b = 0x0A ∨ b = 0x09 ∨ b = 0x0D

/-! ## Strings -/

/-- The letters that may follow a backslash, and the characters that they stand for. -/
def escapeLetters : List (UInt8 × Char) :=
  [(0x22, '"'), (0x5C, '\\'), (0x2F, '/'), (0x62, '\x08'), (0x66, '\x0c'), (0x6E, '\n'),
    (0x72, '\r'), (0x74, '\t')]

/-- A hexadecimal digit, in either case, and its value. -/
def IsHexDigit (b : UInt8) (n : Nat) : Prop :=
  n < 10 ∧ b.toNat = 0x30 + n ∨
    10 ≤ n ∧ n < 16 ∧ (b.toNat = 0x41 + (n - 10) ∨ b.toNat = 0x61 + (n - 10))

/-- Four hexadecimal digits and the code unit that they are. -/
inductive IsCode : Bytes → Nat → Prop where
  | digits {a b c d : UInt8} {i j k l : Nat} :
      IsHexDigit a i → IsHexDigit b j → IsHexDigit c k → IsHexDigit d l →
      IsCode [a, b, c, d] (((i * 16 + j) * 16 + k) * 16 + l)

/-- An escape that denotes a character, after its backslash. -/
inductive IsEscape : Bytes → Char → Prop where
  | letter {b : UInt8} {c : Char} : (b, c) ∈ escapeLetters → IsEscape [b] c
  /-- A code unit that is no half of a pair is a character. -/
  | code {u : Bytes} {n : Nat} : IsCode u n → n < 0xD800 ∨ 0xDFFF < n →
      IsEscape (0x75 :: u) (Char.ofNat n)
  /-- A high half and a low half, one after the other, are a character. -/
  | pair {u v : Bytes} {m n : Nat} :
      IsCode u m → 0xD800 ≤ m → m ≤ 0xDBFF → IsCode v n → 0xDC00 ≤ n → n ≤ 0xDFFF →
      IsEscape (0x75 :: (u ++ 0x5C :: 0x75 :: v))
        (Char.ofNat (0x10000 + (m - 0xD800) * 0x400 + (n - 0xDC00)))

/-- What stands between the quotes of a string, and the characters that it denotes. -/
inductive Spells : Bytes → List Char → Prop where
  | nil : Spells [] []
  /-- A character other than a quote, a backslash and a control stands for itself. -/
  | plain {c : Char} {s : Bytes} {cs : List Char} :
      c ≠ '"' → c ≠ '\\' → 0x20 ≤ c.toNat → Spells s cs →
      Spells (String.utf8EncodeChar c ++ s) (c :: cs)
  | escape {e : Bytes} {c : Char} {s : Bytes} {cs : List Char} :
      IsEscape e c → Spells s cs → Spells (0x5C :: (e ++ s)) (c :: cs)

/-- An escape that has the form of one, after its backslash. -/
inductive HasEscapeForm : Bytes → Prop where
  | letter {b : UInt8} {c : Char} : (b, c) ∈ escapeLetters → HasEscapeForm [b]
  | code {u : Bytes} {n : Nat} : IsCode u n → HasEscapeForm (0x75 :: u)

/-- What stands between the quotes of a string that nobody asked for. -/
inductive Quotable : Bytes → Prop where
  | nil : Quotable []
  | plain {b : UInt8} {s : Bytes} :
      b ≠ 0x22 → b ≠ 0x5C → 0x20 ≤ b → Quotable s → Quotable (b :: s)
  | escape {e s : Bytes} : HasEscapeForm e → Quotable s → Quotable (0x5C :: (e ++ s))

/-- A string that denotes a text. -/
inductive IsText : Bytes → String → Prop where
  | quoted {s : Bytes} {text : String} :
      Spells s text.toList → IsText (0x22 :: (s ++ [0x22])) text

/-! ## Numerals -/

/-- A run of decimal digits, maybe none. -/
def AreDigits (s : Bytes) : Prop := ∀ b ∈ s, 0x30 ≤ b ∧ b ≤ 0x39

/-- The digits before the point: a zero alone, or some that do not begin with one. -/
inductive IsWhole : Bytes → Prop where
  | zero : IsWhole [0x30]
  | digits {b : UInt8} {s : Bytes} : 0x31 ≤ b → b ≤ 0x39 → AreDigits s → IsWhole (b :: s)

/-- A point and at least one digit, or nothing. -/
inductive IsFraction : Bytes → Prop where
  | none : IsFraction []
  | digits {s : Bytes} : AreDigits s → s ≠ [] → IsFraction (0x2E :: s)

/-- A letter, a sign or none, and at least one digit; or nothing. -/
inductive IsExponent : Bytes → Prop where
  | none : IsExponent []
  | digits {e : UInt8} {sign s : Bytes} :
      e = 0x65 ∨ e = 0x45 → sign = [] ∨ sign = [0x2B] ∨ sign = [0x2D] → AreDigits s → s ≠ [] →
      IsExponent (e :: (sign ++ s))

/-- A number of any magnitude. -/
inductive IsNumeral : Bytes → Prop where
  | parts {sign whole fraction exponent : Bytes} :
      sign = [] ∨ sign = [0x2D] → IsWhole whole → IsFraction fraction → IsExponent exponent →
      IsNumeral (sign ++ (whole ++ (fraction ++ exponent)))

/-! ## Values -/

/-- An item with the white space around it. -/
def itemBytes (w value w' : Bytes) : Bytes := w ++ (value ++ w')

/-- A member, from the white space before its name to that after its value. -/
def memberBytes (w₁ name w₂ w₃ value w₄ : Bytes) : Bytes :=
  w₁ ++ 0x22 :: (name ++ 0x22 :: (w₂ ++ 0x3A :: itemBytes w₃ value w₄))

mutual

/-- A value nobody asked for. -/
inductive IsValue : Bytes → Prop where
  | null : IsValue [0x6E, 0x75, 0x6C, 0x6C]
  | true : IsValue [0x74, 0x72, 0x75, 0x65]
  | false : IsValue [0x66, 0x61, 0x6C, 0x73, 0x65]
  | number {s : Bytes} : IsNumeral s → IsValue s
  | text {s : Bytes} : Quotable s → IsValue (0x22 :: (s ++ [0x22]))
  | emptyArray {w : Bytes} : White w → IsValue (0x5B :: (w ++ [0x5D]))
  | array {s : Bytes} : AreItems s → IsValue (0x5B :: (s ++ [0x5D]))
  | emptyObject {w : Bytes} : White w → IsValue (0x7B :: (w ++ [0x7D]))
  | object {s : Bytes} : AreMembers s → IsValue (0x7B :: (s ++ [0x7D]))

/-- The items of an array, at least one. -/
inductive AreItems : Bytes → Prop where
  | last {w v w' : Bytes} : White w → IsValue v → White w' → AreItems (itemBytes w v w')
  | more {w v w' s : Bytes} : White w → IsValue v → White w' → AreItems s →
      AreItems (itemBytes w v w' ++ 0x2C :: s)

/-- The members of an object, at least one. -/
inductive AreMembers : Bytes → Prop where
  | last {w₁ name w₂ w₃ v w₄ : Bytes} :
      White w₁ → Quotable name → White w₂ → White w₃ → IsValue v → White w₄ →
      AreMembers (memberBytes w₁ name w₂ w₃ v w₄)
  | more {w₁ name w₂ w₃ v w₄ s : Bytes} :
      White w₁ → Quotable name → White w₂ → White w₃ → IsValue v → White w₄ → AreMembers s →
      AreMembers (memberBytes w₁ name w₂ w₃ v w₄ ++ 0x2C :: s)

end

/-! ## Whole texts -/

/-- The members of an object, at least one: their names, which are wanted, and the bytes of their
values. -/
inductive Lists : Bytes → List (String × Bytes) → Prop where
  | last {w₁ s w₂ w₃ v w₄ : Bytes} {name : String} :
      White w₁ → Spells s name.toList → White w₂ → White w₃ → IsValue v → White w₄ →
      Lists (memberBytes w₁ s w₂ w₃ v w₄) [(name, v)]
  | more {w₁ s w₂ w₃ v w₄ t : Bytes} {name : String} {ms : List (String × Bytes)} :
      White w₁ → Spells s name.toList → White w₂ → White w₃ → IsValue v → White w₄ → Lists t ms →
      Lists (memberBytes w₁ s w₂ w₃ v w₄ ++ 0x2C :: t) ((name, v) :: ms)

/-- A text that is an object of some members, between white space. -/
inductive IsObjectOf : Bytes → List (String × Bytes) → Prop where
  | empty {w w' w'' : Bytes} : White w → White w' → White w'' →
      IsObjectOf (w ++ 0x7B :: (w' ++ 0x7D :: w'')) []
  | members {w s w' : Bytes} {ms : List (String × Bytes)} : White w → Lists s ms → White w' →
      IsObjectOf (w ++ 0x7B :: (s ++ 0x7D :: w')) ms

/-- A text that is an array of one item, between white space. -/
inductive IsArrayOf : Bytes → Bytes → Prop where
  | item {w w₁ v w₂ w' : Bytes} : White w → White w₁ → White w₂ → White w' →
      IsArrayOf (w ++ 0x5B :: (itemBytes w₁ v w₂ ++ 0x5D :: w')) v

end Availability.Json

/-!
# Blank characters

The 25 characters of the Unicode property White_Space, and texts without those at their ends.

* `trim_eq_nil_iff`: a text trims to nothing exactly when all its characters are blank.
-/

namespace Availability.Text

/-- The property White_Space. -/
def isBlank (c : Char) : Bool :=
  let n := c.toNat
  (9 ≤ n && n ≤ 13) || n == 0x20 || n == 0x85 || n == 0xA0 || n == 0x1680
    || (0x2000 ≤ n && n ≤ 0x200A) || n == 0x2028 || n == 0x2029 || n == 0x202F || n == 0x205F
    || n == 0x3000

/-- A list of characters without the blank ones at either end. -/
def trimChars (cs : List Char) : List Char :=
  ((cs.dropWhile isBlank).reverse.dropWhile isBlank).reverse

/-- A text without the blank characters at either end. -/
def trim (s : String) : String := String.ofList (trimChars s.toList)

/-- Whether a text has nothing but blank characters. -/
def allBlank (s : String) : Bool := s.toList.all isBlank

theorem dropWhile_isBlank_eq_nil_iff (cs : List Char) :
    cs.dropWhile isBlank = [] ↔ ∀ c ∈ cs, isBlank c = true := by
  induction cs with
  | nil => simp
  | cons c cs ih =>
    by_cases h : isBlank c = true
    · simp [h, ih]
    · simp [h]

theorem trim_eq_nil_iff (cs : List Char) : trimChars cs = [] ↔ ∀ c ∈ cs, isBlank c = true := by
  rw [trimChars, List.reverse_eq_nil_iff, dropWhile_isBlank_eq_nil_iff]
  simp only [List.mem_reverse, ← dropWhile_isBlank_eq_nil_iff cs]
  constructor
  · intro h
    cases hd : cs.dropWhile isBlank with
    | nil => rfl
    | cons c r =>
      have := List.head_dropWhile_not isBlank (l := cs) (by simp [hd])
      simp [hd, h c (by simp [hd])] at this
  · intro h
    simp [h]

/-- The characters that a reading of ASCII alone calls white are blank. -/
theorem isBlank_of_isWhitespace {c : Char} (h : c.isWhitespace = true) : isBlank c = true := by
  simp only [Char.isWhitespace, Bool.or_eq_true, decide_eq_true_eq] at h
  rcases h with ((rfl | rfl) | rfl) | rfl <;> decide

end Availability.Text

import Availability.Url.Percent

/-!
# Paths in addresses

A path is a list of segments. While it is read, a segment of one dot goes away, and one of two dots
goes away with the segment before it; a dot may be spelled in hexadecimal.

* `resolve_append`: segments without dots stay as they are.
-/

namespace Availability.Url

/-- The ways to spell a single dot. -/
def isDot (segment : List Char) : Bool :=
  let s := segment.map Char.toLower
  s == ['.'] || s == ['%', '2', 'e']

/-- The ways to spell two dots. -/
def isDoubleDot (segment : List Char) : Bool :=
  let s := segment.map Char.toLower
  s == ['.', '.'] || s == ['.', '%', '2', 'e'] || s == ['%', '2', 'e', '.']
    || s == ['%', '2', 'e', '%', '2', 'e']

/-- Splits at every character of a class. The result is never empty. -/
def splitAtEach (isMark : Char → Bool) : List Char → List (List Char)
  | [] => [[]]
  | c :: cs =>
    if isMark c then [] :: splitAtEach isMark cs
    else
      match splitAtEach isMark cs with
      | [] => [[c]]
      | s :: ss => (c :: s) :: ss

/-- Adds segments to those read so far, in their order, and resolves dots. At the end a segment
that goes away leaves an empty one. -/
def resolve (done : List String) : List (List Char) → List String
  | [] => done
  | [s] =>
    if isDoubleDot s then done.dropLast ++ [""]
    else if isDot s then done ++ [""]
    else done ++ [String.ofList (encodeWith inPath s)]
  | s :: ss =>
    if isDoubleDot s then resolve done.dropLast ss
    else if isDot s then resolve done ss
    else resolve (done ++ [String.ofList (encodeWith inPath s)]) ss

/-- Segments without dots stay as they are. -/
theorem resolve_append (done : List String) (ss : List (List Char))
    (h : ∀ s ∈ ss, isDot s = false ∧ isDoubleDot s = false) :
    resolve done ss = done ++ ss.map fun s => String.ofList (encodeWith inPath s) := by
  induction ss generalizing done with
  | nil => simp [resolve]
  | cons s ss ih =>
    obtain ⟨h₁, h₂⟩ := h s (by simp)
    have ih := ih (done ++ [String.ofList (encodeWith inPath s)]) fun t ht => h t (by simp [ht])
    cases ss with
    | nil => simp [resolve, h₁, h₂]
    | cons t ss =>
      simp only [resolve, h₁, h₂, Bool.false_eq_true, if_false]
      rw [ih]
      simp

end Availability.Url

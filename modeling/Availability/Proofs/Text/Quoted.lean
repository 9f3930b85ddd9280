import Availability.Text.Quoted
import Availability.Toml.Text

/-!
# Quoted text is read back

What a character is written as between quotes tells which character it is, and where the next one
begins. So a message that shows a text between quotes leaves no doubt about that text.

* `unquoteChar_quoteChar`: a written character is read back, whatever follows it.
* `quoted_inj`: no two texts look the same between quotes.
-/

namespace Availability.Text

open Toml (hexValue? charOfHex?)

/-! ## Code points in hexadecimal -/

theorem hexValue?_digitChar {d : Nat} (h : d < 16) : hexValue? (Nat.digitChar d) = some d := by
  have hall : ∀ d < 16, hexValue? (Nat.digitChar d) = some d := by decide
  exact hall d h

theorem foldlM_hexValue? (n : Nat) :
    (Nat.toDigits 16 n).foldlM (fun n c => (hexValue? c).map (n * 16 + ·)) 0 = some n := by
  induction n using Nat.strongRecOn with
  | ind n ih =>
    rw [Nat.toDigits_eq_if (by omega)]
    split
    · next hlow => simp [hexValue?_digitChar hlow]
    · have hlast : n % 16 < 16 := Nat.mod_lt n (by omega)
      rw [List.foldlM_append, ih (n / 16) (by omega)]
      simp only [Option.bind_eq_bind, Option.bind_some, List.foldlM_cons, List.foldlM_nil,
        hexValue?_digitChar hlast, Option.map_some, Option.pure_def, Option.some.injEq]
      omega

theorem charOfHex?_toDigits (c : Char) : charOfHex? (Nat.toDigits 16 c.toNat) = some c := by
  have hvalid : c.toNat.isValidChar := c.valid
  rw [charOfHex?, foldlM_hexValue?]
  exact dif_pos hvalid

theorem exists_digit_of_mem_toDigits {n : Nat} {c : Char} (h : c ∈ Nat.toDigits 16 n) :
    ∃ d < 16, c = Nat.digitChar d := by
  induction n using Nat.strongRecOn with
  | ind n ih =>
    rw [Nat.toDigits_eq_if (by omega)] at h
    split at h
    · next hlow => exact ⟨n, hlow, List.mem_singleton.1 h⟩
    · rw [List.mem_append, List.mem_singleton] at h
      rcases h with hfront | hlast
      · exact ih (n / 16) (by omega) hfront
      · exact ⟨n % 16, Nat.mod_lt n (by omega), hlast⟩

/-! ## Characters -/

/-- The character that stands first between quotes, and what follows it. -/
def unquoteChar : List Char → Option (Char × List Char)
  | '\\' :: '0' :: r => some ('\x00', r)
  | '\\' :: 't' :: r => some ('\t', r)
  | '\\' :: 'r' :: r => some ('\r', r)
  | '\\' :: 'n' :: r => some ('\n', r)
  | '\\' :: '\\' :: r => some ('\\', r)
  | '\\' :: '"' :: r => some ('"', r)
  | '\\' :: 'u' :: '{' :: r =>
    (charOfHex? (r.takeWhile (· != '}'))).map fun c => (c, (r.dropWhile (· != '}')).drop 1)
  | '\\' :: _ => none
  | c :: r => some (c, r)
  | [] => none

theorem unquoteChar_of_ne {c : Char} (h : c ≠ '\\') (r : List Char) :
    unquoteChar (c :: r) = some (c, r) := by
  rw [unquoteChar] <;> simp [h]

/-- A written character is read back, whatever follows it. -/
theorem unquoteChar_quoteChar (c : Char) (r : List Char) :
    unquoteChar (quoteChar c ++ r) = some (c, r) := by
  unfold quoteChar
  split
  · rfl
  · rfl
  · rfl
  · rfl
  · rfl
  · rfl
  · next hbackslash _ =>
    split
    · -- the digits end at the brace, which is none of them
      have hbrace : ∀ d < 16, (Nat.digitChar d != '}') = true := by decide
      have hdigits : ∀ x ∈ Nat.toDigits 16 c.toNat, (x != '}') = true := by
        intro x hx
        obtain ⟨d, hd, rfl⟩ := exists_digit_of_mem_toDigits hx
        exact hbrace d hd
      simp only [List.cons_append, List.nil_append, List.append_assoc, unquoteChar,
        List.takeWhile_append_of_pos hdigits, List.dropWhile_append_of_pos hdigits]
      simp [charOfHex?_toDigits]
    · exact unquoteChar_of_ne hbackslash r

/-! ## Texts -/

theorem flatMap_quoteChar_inj {s t : List Char} (h : s.flatMap quoteChar = t.flatMap quoteChar) :
    s = t := by
  induction s generalizing t with
  | nil =>
    cases t with
    | nil => rfl
    | cons d t =>
      have hread := unquoteChar_quoteChar d (t.flatMap quoteChar)
      rw [← List.flatMap_cons, ← h] at hread
      cases hread
  | cons c s ih =>
    have hc := unquoteChar_quoteChar c (s.flatMap quoteChar)
    rw [← List.flatMap_cons, h] at hc
    cases t with
    | nil => cases hc
    | cons d t =>
      rw [List.flatMap_cons, unquoteChar_quoteChar, Option.some.injEq, Prod.mk.injEq] at hc
      rw [hc.1, ih hc.2.symm]

/-- **No two texts look the same between quotes.** -/
theorem quoted_inj {s t : String} : quoted s = quoted t ↔ s = t := by
  constructor
  · intro h
    have hchars := (List.cons.inj (String.ofList_injective h)).2
    exact String.toList_injective (flatMap_quoteChar_inj (List.append_cancel_right hchars))
  · intro h
    rw [h]

end Availability.Text

import Availability.Json.Printer
import Availability.Json.Text
import Availability.Proofs.Text.Utf8
import Availability.Proofs.Url.Percent

/-!
# There and back for JSON strings

A written string is read back whatever characters it has, and no control is left in it: each of
them has an escape.

* `readEscape_control`: the escape of a control that has no letter of its own.
* `readTextFrom_writeChar`: one character, however it is written.
* `readText_writeText`: the whole string, up to its closing quote.
* `printed_of_mem_writeText`: a written string has no controls.
-/

namespace Availability.Json

open Url (utf8 utf8_cons)

theorem utf8_append (xs ys : List Char) : utf8 (xs ++ ys) = utf8 xs ++ utf8 ys :=
  List.flatMap_append

/-! ## Escapes -/

/-- A hexadecimal digit is read as its value. -/
theorem hexDigit?_hexChar {n : Nat} (h : n < 16) :
    hexDigit? (UInt8.ofNat (hexChar n).toNat) = some n := by
  have hall : ∀ n < 16, hexDigit? (UInt8.ofNat (hexChar n).toNat) = some n := by decide
  exact hall n h

theorem utf8_hexChar {n : Nat} (h : n < 16) :
    String.utf8EncodeChar (hexChar n) = [UInt8.ofNat (hexChar n).toNat] := by
  have hall : ∀ n < 16, (hexChar n).toNat < 128 := by decide
  exact Utf8.encodeChar_ascii (hall n h)

/-- The escape of a control by its code. -/
theorem readEscape_control {c : Char} (h : c.toNat < 0x20) (s : Bytes) :
    readEscape (0x75 :: 0x30 :: 0x30 :: UInt8.ofNat (hexChar (c.toNat / 16)).toNat ::
      UInt8.ofNat (hexChar (c.toNat % 16)).toNat :: s) = .ok (c, s) := by
  have hzero : hexDigit? 0x30 = some 0 := rfl
  have hcode : ((0 * 16 + 0) * 16 + c.toNat / 16) * 16 + c.toNat % 16 = c.toNat := by omega
  have hlow : isLowHalf c.toNat = false := by
    simp only [isLowHalf, Bool.and_eq_false_iff, decide_eq_false_iff_not]
    omega
  have hhigh : isHighHalf c.toNat = false := by
    simp only [isHighHalf, Bool.and_eq_false_iff, decide_eq_false_iff_not]
    omega
  simp only [readEscape, readHex, hzero, hexDigit?_hexChar (show c.toNat / 16 < 16 by omega),
    hexDigit?_hexChar (show c.toNat % 16 < 16 by omega), hcode, bind, Except.bind, hlow, hhigh]
  exact congrArg (fun d => Except.ok (d, s)) (Char.ofNat_toNat c)

/-- The backslash and what follows it are read as the character they stand for. -/
theorem readTextFrom_escape {done : List Char} {s r : Bytes} {c : Char}
    (h : readEscape s = .ok (c, r)) :
    readTextFrom done (0x5C :: s) = readTextFrom (c :: done) r := by
  rw [readTextFrom]
  simp only [show (0x5C : UInt8) ≠ 0x22 by decide, if_false, if_true]
  split
  · next h' =>
    rw [h] at h'
    cases h'
    rfl
  · next h' =>
    rw [h] at h'
    cases h'

/-! ## Characters that stand for themselves -/

/-- A character other than the quote, the backslash and the controls is read as it stands. -/
theorem readTextFrom_plain {done : List Char} {c : Char} (hquote : c ≠ '"') (hslash : c ≠ '\\')
    (hc : 0x20 ≤ c.toNat) (s : Bytes) :
    readTextFrom done (String.utf8EncodeChar c ++ s) = readTextFrom (c :: done) s := by
  have hfront := Utf8.front_append c s
  obtain ⟨b, t, hbytes⟩ := List.exists_cons_of_length_pos (Url.length_utf8EncodeChar_pos c)
  -- a byte below 128 is the whole of its character
  have hb : b.toNat < 128 → c.toNat = b.toNat :=
    Utf8.toNat_of_mem_encodeChar (hbytes ▸ List.mem_cons_self)
  have hne : ∀ d : Char, c ≠ d → d.toNat < 128 → b ≠ UInt8.ofNat d.toNat := by
    intro d hd hlt heq
    have hval : b.toNat = d.toNat := by rw [heq, Utf8.toNat_part (by omega)]
    exact hd (Char.toNat_inj.1 ((hb (by omega)).trans hval))
  have hcontrol : ¬b < 0x20 := by
    intro hlt
    have hlt : b.toNat < 32 := UInt8.lt_iff_toNat_lt.1 hlt
    have := hb (by omega)
    omega
  rw [hbytes, List.cons_append] at hfront ⊢
  rw [readTextFrom]
  simp only [show b ≠ 0x22 from hne '"' hquote (by decide),
    show b ≠ 0x5C from hne '\\' hslash (by decide), hcontrol, if_false]
  split
  · next h =>
    rw [hfront] at h
    cases h
    rfl
  · next h => exact absurd hfront (h c s)

/-! ## The way there and back -/

/-- A written character is read as that character. -/
theorem readTextFrom_writeChar (c : Char) (done : List Char) (s : Bytes) :
    readTextFrom done (utf8 (writeChar c) ++ s) = readTextFrom (c :: done) s := by
  unfold writeChar
  split
  -- the quote, the backslash, and the five controls with a letter
  iterate 7 exact readTextFrom_escape rfl
  next hquote hslash _ _ _ _ _ =>
    split
    · next hc =>
      rw [utf8_cons, utf8_cons, utf8_cons, utf8_cons, utf8_cons, utf8_cons,
        utf8_hexChar (show c.toNat / 16 < 16 by omega),
        utf8_hexChar (show c.toNat % 16 < 16 by omega)]
      exact readTextFrom_escape (readEscape_control hc s)
    · next hc =>
      rw [utf8_cons, show utf8 [] = [] from rfl, List.append_nil]
      exact readTextFrom_plain hquote hslash (by omega) s

theorem readTextFrom_write (cs done : List Char) (r : Bytes) :
    readTextFrom done (utf8 (cs.flatMap writeChar) ++ 0x22 :: r) =
      .ok (String.ofList (done.reverse ++ cs), r) := by
  induction cs generalizing done with
  | nil =>
    rw [List.flatMap_nil, show utf8 [] = [] from rfl, List.nil_append, readTextFrom]
    simp
  | cons c cs ih =>
    rw [List.flatMap_cons, utf8_append, List.append_assoc, readTextFrom_writeChar, ih]
    simp

theorem utf8_writeText (s : String) (r : Bytes) :
    utf8 (writeText s) ++ r = 0x22 :: (utf8 (s.toList.flatMap writeChar) ++ 0x22 :: r) := by
  rw [writeText, List.cons_append, utf8_cons, utf8_append]
  simp only [List.append_assoc]
  rfl

/-- A written string is read back. -/
theorem readText_writeText (s : String) (r : Bytes) :
    readText (utf8 (s.toList.flatMap writeChar) ++ 0x22 :: r) = .ok (s, r) := by
  rw [readText, readTextFrom_write, List.reverse_nil, List.nil_append, String.ofList_toList]

/-! ## No controls -/

/-- A character that is no control. -/
def Printed (c : Char) : Prop := 0x20 ≤ c.toNat

instance (c : Char) : Decidable (Printed c) := inferInstanceAs (Decidable (0x20 ≤ c.toNat))

/-- Among characters that are given, all can be tried. -/
theorem printed_of_all {cs : List Char} (h : cs.all (fun c => decide (Printed c)) = true) :
    ∀ c ∈ cs, Printed c := by
  intro c hc
  exact of_decide_eq_true (List.all_eq_true.1 h c hc)

theorem printed_of_mem_writeChar {c d : Char} (h : d ∈ writeChar c) : Printed d := by
  unfold writeChar at h
  split at h
  iterate 7
    have hall : ∀ d ∈ ['\\', '"', 'b', 'f', 'n', 'r', 't'], Printed d :=
      printed_of_all (by decide)
    exact hall d (by simp only [List.mem_cons] at h ⊢; grind)
  split at h
  · next hc =>
    have hhex : ∀ n < 16, Printed (hexChar n) := by decide
    have hlead : ∀ d ∈ ['\\', 'u', '0'], Printed d := printed_of_all (by decide)
    simp only [List.mem_cons, List.not_mem_nil, or_false] at h
    rcases h with rfl | rfl | rfl | rfl | rfl | rfl
    · exact hlead _ (by simp)
    · exact hlead _ (by simp)
    · exact hlead _ (by simp)
    · exact hlead _ (by simp)
    · exact hhex _ (by omega)
    · exact hhex _ (by omega)
  · next hc =>
    rw [List.mem_singleton] at h
    rw [h]
    exact Nat.le_of_not_lt hc

theorem printed_of_mem_writeText {s : String} {d : Char} (h : d ∈ writeText s) : Printed d := by
  simp only [writeText, List.cons_append, List.mem_cons, List.mem_append, List.mem_flatMap,
    List.not_mem_nil, or_false] at h
  rcases h with rfl | ⟨c, -, h⟩ | rfl
  · decide
  · exact printed_of_mem_writeChar h
  · decide

end Availability.Json

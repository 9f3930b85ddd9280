import Availability.Json.Number
import Availability.Json.Printer
import Availability.Proofs.Json.Text
import Availability.Proofs.Number.Digits

/-!
# There and back for JSON integers

An integer of 64 bits is written in digits that are gathered into the same integer. What follows
must not go on with the number.

* `gather_digits`: the digits of a number of 64 bits come to that number.
* `readNumber_writeInt`: a written integer is read back.
-/

namespace Availability.Json

open Url (utf8 utf8_cons)
open Digits (IsDecimal isDecimal_toDigits toNat_of_isDigit)

/-- What may follow a number without going on with it: no digit, point or exponent. -/
def Ends (r : Bytes) : Prop :=
  ∀ b ∈ r.head?, isDigit b = false ∧ b ≠ 0x2E ∧ b ≠ 0x65 ∧ b ≠ 0x45

theorem ends_nil : Ends [] := fun _ h => nomatch h

/-! ## Digits as bytes -/

theorem utf8_digit {c : Char} (h : c.isDigit = true) :
    String.utf8EncodeChar c = [UInt8.ofNat c.toNat] :=
  Utf8.encodeChar_ascii (by have := toNat_of_isDigit h; omega)

theorem toNat_digit {c : Char} (h : c.isDigit = true) : (UInt8.ofNat c.toNat).toNat = c.toNat :=
  Utf8.toNat_part (by have := toNat_of_isDigit h; omega)

theorem isDigit_digit {c : Char} (h : c.isDigit = true) : isDigit (UInt8.ofNat c.toNat) = true := by
  have := toNat_of_isDigit h
  simp only [isDigit, Bool.and_eq_true, decide_eq_true_eq, UInt8.le_iff_toNat_le, toNat_digit h,
    UInt8.reduceToNat]
  omega

theorem utf8_digits {ds : List Char} (h : ∀ c ∈ ds, c.isDigit = true) :
    utf8 ds = ds.map fun c => UInt8.ofNat c.toNat := by
  induction ds with
  | nil => rfl
  | cons c ds ih =>
    rw [utf8_cons, utf8_digit (h c List.mem_cons_self),
      ih fun d hd => h d (List.mem_cons_of_mem _ hd)]
    rfl

theorem splitDigits_digits {ds : List Char} (h : ∀ c ∈ ds, c.isDigit = true) {r : Bytes}
    (hr : Ends r) : splitDigits (utf8 ds ++ r) = (utf8 ds, r) := by
  have hds : ∀ b ∈ utf8 ds, isDigit b = true := by
    intro b hb
    rw [utf8_digits h, List.mem_map] at hb
    obtain ⟨c, hc, rfl⟩ := hb
    exact isDigit_digit (h c hc)
  rw [splitDigits, List.takeWhile_append_of_pos hds, List.dropWhile_append_of_pos hds]
  cases r with
  | nil => simp
  | cons b r =>
    have hb : isDigit b = false := (hr b rfl).1
    simp [hb]

theorem le_ofDigitChars (ds : List Char) (n : Nat) : n ≤ Nat.ofDigitChars 10 ds n := by
  induction ds generalizing n with
  | nil => exact Nat.le_of_eq Nat.ofDigitChars_nil.symm
  | cons c ds ih =>
    rw [Nat.ofDigitChars_cons]
    have := ih (10 * n + (c.toNat - '0'.toNat))
    omega

/-- Digits are gathered into their number if it fits. -/
theorem gather_digits {ds : List Char} (h : ∀ c ∈ ds, c.isDigit = true) {n : Nat}
    (hn : Nat.ofDigitChars 10 ds n ≤ significandMax) :
    gather n (utf8 ds) = (Nat.ofDigitChars 10 ds n, 0) := by
  induction ds generalizing n with
  | nil => rw [Nat.ofDigitChars_nil]; rfl
  | cons c ds ih =>
    have hc : c.isDigit = true := h c List.mem_cons_self
    have hnext : n * 10 + digitValue (UInt8.ofNat c.toNat) = 10 * n + (c.toNat - '0'.toNat) := by
      rw [digitValue, toNat_digit hc, Nat.mul_comm]
      rfl
    rw [Nat.ofDigitChars_cons] at hn ⊢
    have hle := le_ofDigitChars ds (10 * n + (c.toNat - '0'.toNat))
    rw [utf8_cons, utf8_digit hc, List.singleton_append, gather]
    simp only [hnext, show 10 * n + (c.toNat - '0'.toNat) ≤ significandMax by omega, if_true]
    exact ih (fun d hd => h d (List.mem_cons_of_mem _ hd)) hn

/-! ## Integers -/

theorem readAfterDigits_integer {negative : Bool} {n : Nat} {i : Int} {ds r : Bytes}
    (hds : gather 0 ds = (n, 0)) (hi : integerOf? negative n = some i) (hr : Ends r) :
    readAfterDigits negative ds r = .ok (.int i, r) := by
  unfold readAfterDigits
  rw [hds]
  simp only
  split
  · exact absurd rfl (hr 0x2E rfl).2.1
  · exact absurd rfl (hr 0x65 rfl).2.2.1
  · exact absurd rfl (hr 0x45 rfl).2.2.2
  · simp only [if_true, hi]

theorem readUnsigned_digits {negative : Bool} {n : Nat} {i : Int} {r : Bytes}
    (hn : n ≤ significandMax) (hi : integerOf? negative n = some i) (hr : Ends r) :
    readUnsigned negative (utf8 (Nat.toDigits 10 n) ++ r) = .ok (.int i, r) := by
  have hdec := isDecimal_toDigits n
  have hdigits : ∀ c ∈ Nat.toDigits 10 n, c.isDigit = true := fun c hc => hdec.isDigit hc
  have hgather : gather 0 (utf8 (Nat.toDigits 10 n)) = (n, 0) := by
    rw [gather_digits hdigits (by rwa [Nat.ofDigitChars_ten_toDigits]),
      Nat.ofDigitChars_ten_toDigits]
  have hne : utf8 (Nat.toDigits 10 n) ≠ [] := by
    rw [utf8_digits hdigits]
    simp
  unfold readUnsigned
  rw [splitDigits_digits hdigits hr]
  split
  · next h => exact absurd (Prod.mk.inj h).1 hne
  · next h => exact absurd (Prod.mk.inj h).1 hne
  · next h =>
    -- a zero before another digit
    have hbytes := (Prod.mk.inj h).1
    rw [utf8_digits hdigits] at hbytes
    obtain ⟨c, cs, hcs⟩ := List.exists_cons_of_ne_nil hdec.ne_nil
    rw [hcs, List.map_cons] at hbytes
    have hc : c = '0' := by
      have hzero := congrArg UInt8.toNat (List.cons.inj hbytes).1
      rw [toNat_digit (hdigits c (by rw [hcs]; exact List.mem_cons_self))] at hzero
      exact Char.toNat_inj.1 hzero
    have hall := hdec.2.2 (by rw [hcs, hc]; rfl)
    rw [hall] at hcs
    cases hcs
    cases (List.cons.inj hbytes).2
  · next h =>
    cases h
    exact readAfterDigits_integer hgather hi hr

/-- A written integer of 64 bits is read back. -/
theorem readNumber_writeInt {i : Int} (hlow : -0x8000000000000000 ≤ i)
    (hhigh : i ≤ 0xffffffffffffffff) {r : Bytes} (hr : Ends r) :
    readNumber (utf8 (writeInt i) ++ r) = .ok (.int i, r) := by
  have hmax : i.natAbs ≤ significandMax := by
    unfold significandMax
    omega
  unfold writeInt
  split
  · next hneg =>
    have hi : integerOf? true i.natAbs = some i := by
      rw [integerOf?]
      simp only [if_true, show 0 < i.natAbs ∧ i.natAbs ≤ 0x8000000000000000 by omega]
      exact congrArg some (by omega)
    exact readUnsigned_digits hmax hi hr
  · next hpos =>
    have hi : integerOf? false i.natAbs = some i := congrArg some (by omega)
    rw [List.nil_append, readNumber]
    · exact readUnsigned_digits hmax hi hr
    · intro t ht
      obtain ⟨c, cs, hcs⟩ := List.exists_cons_of_ne_nil (isDecimal_toDigits i.natAbs).ne_nil
      have hc : c.isDigit = true :=
        (isDecimal_toDigits i.natAbs).isDigit (hcs ▸ List.mem_cons_self)
      rw [hcs, utf8_cons, utf8_digit hc] at ht
      have hminus := congrArg UInt8.toNat (List.cons.inj ht).1
      rw [toNat_digit hc] at hminus
      have := toNat_of_isDigit hc
      have : (0x2D : UInt8).toNat = 45 := rfl
      omega

end Availability.Json

/-!
# Decimal digits

A natural number is written with at least one digit, and with no zero before another digit. No
other spelling of it is so.

* `isDecimal_toDigits`: what a number is written as.
* `toDigits_ofDigitChars`: digits without a needless zero are what their number is written as.
-/

namespace Availability.Digits

/-- Digits of which the first is a zero only if it is the only one. -/
def IsDecimal (ds : List Char) : Prop :=
  ds ≠ [] ∧ (∀ c ∈ ds, c.isDigit = true) ∧ (ds.head? = some '0' → ds = ['0'])

instance (ds : List Char) : Decidable (IsDecimal ds) :=
  inferInstanceAs (Decidable (_ ∧ _ ∧ _))

theorem IsDecimal.ne_nil {ds : List Char} (h : IsDecimal ds) : ds ≠ [] := h.1

theorem IsDecimal.isDigit {ds : List Char} (h : IsDecimal ds) {c : Char} (hc : c ∈ ds) :
    c.isDigit = true := h.2.1 c hc

theorem head?_toDigits {n : Nat} (hn : 0 < n) : (Nat.toDigits 10 n).head? ≠ some '0' := by
  induction n using Nat.strongRecOn with
  | ind n ih =>
    by_cases h : n < 10
    · rw [Nat.toDigits_of_lt_base h, List.head?_cons, ne_eq, Option.some.injEq,
        Nat.digitChar_eq_zero]
      omega
    · rw [Nat.toDigits_of_base_le (by omega) (by omega),
        List.head?_append, Option.or_of_isSome (List.isSome_head?.2 Nat.toDigits_ne_nil)]
      exact ih (n / 10) (by omega) (by omega)

theorem isDecimal_toDigits (n : Nat) : IsDecimal (Nat.toDigits 10 n) := by
  refine ⟨Nat.toDigits_ne_nil, fun c hc => Nat.isDigit_of_mem_toDigits (by omega) (by omega) hc, ?_⟩
  intro hhead
  cases n with
  | zero => rfl
  | succ n => exact absurd hhead (head?_toDigits (by omega))

theorem toNat_of_isDigit {c : Char} (h : c.isDigit = true) : 48 ≤ c.toNat ∧ c.toNat < 58 := by
  simp only [Char.isDigit, Bool.and_eq_true, decide_eq_true_eq, ge_iff_le,
    UInt32.le_iff_toNat_le] at h
  have h₁ : 48 ≤ c.toNat := h.1
  have h₂ : c.toNat ≤ 57 := h.2
  omega

theorem digitChar_toNat_sub {c : Char} (h : c.isDigit = true) :
    Nat.digitChar (c.toNat - 48) = c := by
  have hall : ∀ n < 58, 48 ≤ n → Nat.digitChar (n - 48) = Char.ofNat n := by decide
  obtain ⟨h₁, h₂⟩ := toNat_of_isDigit h
  rw [hall c.toNat h₂ h₁, Char.ofNat_toNat]

/-- Digits that follow those of a positive number make it longer. -/
theorem toDigits_append {ds : List Char} (h : ∀ c ∈ ds, c.isDigit = true) {n : Nat} (hn : 0 < n) :
    Nat.toDigits 10 n ++ ds = Nat.toDigits 10 (Nat.ofDigitChars 10 ds n) := by
  induction ds generalizing n with
  | nil => rw [List.append_nil, Nat.ofDigitChars_nil]
  | cons c ds ih =>
    have hc : c.isDigit = true := h c List.mem_cons_self
    have hlt : c.toNat - 48 < 10 := by
      have := toNat_of_isDigit hc
      omega
    calc Nat.toDigits 10 n ++ c :: ds
        = (Nat.toDigits 10 n ++ Nat.toDigits 10 (c.toNat - 48)) ++ ds := by
          rw [Nat.toDigits_of_lt_base hlt, digitChar_toNat_sub hc, List.append_assoc]
          rfl
      _ = Nat.toDigits 10 (10 * n + (c.toNat - 48)) ++ ds := by
          rw [Nat.toDigits_append_toDigits (by omega) hn hlt]
      _ = Nat.toDigits 10 (Nat.ofDigitChars 10 (c :: ds) n) := by
          rw [ih (fun d hd => h d (List.mem_cons_of_mem _ hd)) (by omega), Nat.ofDigitChars_cons]
          rfl

/-- Digits without a needless zero are what their number is written as. -/
theorem toDigits_ofDigitChars {ds : List Char} (h : IsDecimal ds) :
    Nat.toDigits 10 (Nat.ofDigitChars 10 ds 0) = ds := by
  obtain ⟨c, cs, rfl⟩ := List.exists_cons_of_ne_nil h.ne_nil
  by_cases hzero : c = '0'
  · rw [h.2.2 (by rw [hzero]; rfl)]
    rfl
  · have hc : c.isDigit = true := h.isDigit List.mem_cons_self
    have hbounds := toNat_of_isDigit hc
    have hpos : 0 < c.toNat - 48 := by
      have : c.toNat ≠ 48 := fun heq => hzero (Char.toNat_inj.1 heq)
      omega
    rw [Nat.ofDigitChars_cons, Nat.mul_zero, Nat.zero_add, show '0'.toNat = 48 from rfl,
      ← toDigits_append (fun d hd => h.isDigit (List.mem_cons_of_mem _ hd)) hpos,
      Nat.toDigits_of_lt_base (by omega), digitChar_toNat_sub hc]
    rfl

end Availability.Digits

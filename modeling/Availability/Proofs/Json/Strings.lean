import Availability.Json.Text
import Availability.Proofs.Json.Grammar
import Availability.Proofs.Json.Text

/-!
# Strings by their grammar

The readers of strings take exactly what the grammar allows, up to the closing quote. A string that
is wanted may always be passed over too, and no two strings end at different quotes.

* `readEscape_eq_ok_iff`, `skipEscape_eq_ok_iff`: escapes.
* `readText_eq_ok_iff`: what is read is what stands before the quote spells.
* `skipText_eq_ok_iff`: what is passed over has the form of a string.
* `Quotable.unique`: where a string ends.
-/

namespace Availability.Json

open Url (utf8 utf8_cons)

/-! ## Digits and escapes -/

theorem hexDigit?_eq_some_iff {b : UInt8} {n : Nat} : hexDigit? b = some n ↔ IsHexDigit b n := by
  simp only [hexDigit?, IsHexDigit, Bool.and_eq_true, decide_eq_true_eq, UInt8.le_iff_toNat_le,
    UInt8.reduceToNat]
  split
  · rw [Option.some.injEq]
    omega
  split
  · rw [Option.some.injEq]
    omega
  split
  · rw [Option.some.injEq]
    omega
  · simp only [reduceCtorEq, false_iff]
    omega

theorem readHex_eq_ok_iff {s r : Bytes} {n : Nat} :
    readHex s = .ok (n, r) ↔ ∃ u, IsCode u n ∧ s = u ++ r := by
  constructor
  · intro h
    unfold readHex at h
    split at h
    · next a b c d t =>
      split at h
      · next ha hb hc hd =>
        cases h
        exact ⟨[a, b, c, d], .digits (hexDigit?_eq_some_iff.1 ha) (hexDigit?_eq_some_iff.1 hb)
          (hexDigit?_eq_some_iff.1 hc) (hexDigit?_eq_some_iff.1 hd), rfl⟩
      · cases h
    · cases h
  · rintro ⟨_, ⟨ha, hb, hc, hd⟩, rfl⟩
    simp only [readHex, List.cons_append, List.nil_append, hexDigit?_eq_some_iff.2 ha,
      hexDigit?_eq_some_iff.2 hb, hexDigit?_eq_some_iff.2 hc, hexDigit?_eq_some_iff.2 hd]

theorem escapeChar?_eq_some_iff {b : UInt8} {c : Char} :
    escapeChar? b = some c ↔ (b, c) ∈ escapeLetters := by
  unfold escapeChar? escapeLetters
  split <;> simp_all [eq_comm]

theorem u_notMem_escapeLetters {c : Char} : (0x75, c) ∉ escapeLetters := by
  rw [← escapeChar?_eq_some_iff]
  exact nofun

theorem isLowHalf_iff {n : Nat} : isLowHalf n = true ↔ 0xDC00 ≤ n ∧ n ≤ 0xDFFF := by
  simp [isLowHalf]

theorem isHighHalf_iff {n : Nat} : isHighHalf n = true ↔ 0xD800 ≤ n ∧ n ≤ 0xDBFF := by
  simp [isHighHalf]

theorem readLowHalf_eq_ok_iff {m : Nat} {s r : Bytes} {c : Char} :
    readLowHalf m s = .ok (c, r) ↔ ∃ v n, IsCode v n ∧ 0xDC00 ≤ n ∧ n ≤ 0xDFFF ∧
      Char.ofNat (pairCode m n) = c ∧ s = 0x5C :: 0x75 :: (v ++ r) := by
  constructor
  · intro h
    unfold readLowHalf at h
    split at h
    · next t =>
      cases hx : readHex t with
      | error e => simp [hx, bind, Except.bind] at h
      | ok p =>
        obtain ⟨v, hv, rfl⟩ := readHex_eq_ok_iff.1 (show readHex t = .ok (p.1, p.2) from hx)
        simp only [hx, bind, Except.bind] at h
        split at h
        · next hlow =>
          simp only [Except.ok.injEq, Prod.mk.injEq] at h
          obtain ⟨rfl, rfl⟩ := h
          exact ⟨v, p.1, hv, (isLowHalf_iff.1 hlow).1, (isLowHalf_iff.1 hlow).2, rfl, rfl⟩
        · cases h
    all_goals cases h
  · rintro ⟨v, n, hv, hlow, hhigh, rfl, rfl⟩
    have hx : readHex (v ++ r) = .ok (n, r) := readHex_eq_ok_iff.2 ⟨v, hv, rfl⟩
    simp only [readLowHalf, hx, bind, Except.bind, isLowHalf_iff.2 ⟨hlow, hhigh⟩, if_true]

/-- An escape is read as the character that it denotes. -/
theorem readEscape_eq_ok_iff {s r : Bytes} {c : Char} :
    readEscape s = .ok (c, r) ↔ ∃ e, IsEscape e c ∧ s = e ++ r := by
  constructor
  · intro h
    unfold readEscape at h
    split at h
    · cases h
    · next t =>
      cases hx : readHex t with
      | error e => simp [hx, bind, Except.bind] at h
      | ok p =>
        obtain ⟨u, hu, rfl⟩ := readHex_eq_ok_iff.1 (show readHex t = .ok (p.1, p.2) from hx)
        simp only [hx, bind, Except.bind] at h
        split at h
        · cases h
        next hlow =>
        rw [isLowHalf_iff] at hlow
        split at h
        · next hhigh =>
          obtain ⟨v, n, hv, hv₁, hv₂, rfl, hp⟩ := readLowHalf_eq_ok_iff.1 h
          rw [isHighHalf_iff] at hhigh
          exact ⟨_, .pair hu hhigh.1 hhigh.2 hv hv₁ hv₂, by simp [hp]⟩
        · next hhigh =>
          simp only [Except.ok.injEq, Prod.mk.injEq] at h
          obtain ⟨rfl, rfl⟩ := h
          rw [isHighHalf_iff] at hhigh
          exact ⟨_, .code hu (by omega), rfl⟩
    · split at h
      · next hc =>
        cases h
        exact ⟨_, .letter (escapeChar?_eq_some_iff.1 hc), rfl⟩
      · cases h
  · rintro ⟨e, he, rfl⟩
    cases he with
    | @letter b c hmem =>
      rw [List.singleton_append, readEscape]
      · simp only [escapeChar?_eq_some_iff.2 hmem]
      · rintro rfl
        exact u_notMem_escapeLetters hmem
    | @code u n hu hn =>
      have hx : readHex (u ++ r) = .ok (n, r) := readHex_eq_ok_iff.2 ⟨u, hu, rfl⟩
      have hlow : isLowHalf n = false := by rw [← Bool.not_eq_true, isLowHalf_iff]; omega
      have hhigh : isHighHalf n = false := by rw [← Bool.not_eq_true, isHighHalf_iff]; omega
      simp [readEscape, hx, bind, Except.bind, hlow, hhigh]
    | @pair u v m n hu hm hm' hv hn hn' =>
      have hx : readHex (u ++ (0x5C :: 0x75 :: v ++ r)) = .ok (m, 0x5C :: 0x75 :: v ++ r) :=
        readHex_eq_ok_iff.2 ⟨u, hu, rfl⟩
      have hlow : isLowHalf m = false := by rw [← Bool.not_eq_true, isLowHalf_iff]; omega
      have hhalf : readLowHalf m (0x5C :: 0x75 :: (v ++ r)) = .ok (Char.ofNat (pairCode m n), r) :=
        readLowHalf_eq_ok_iff.2 ⟨v, n, hv, hn, hn', rfl, rfl⟩
      simp only [List.cons_append, List.append_assoc] at hx ⊢
      simp only [readEscape, hx, bind, Except.bind, hlow, isHighHalf_iff.2 ⟨hm, hm'⟩, hhalf]
      rfl

/-- An escape is passed over when it has the form of one. -/
theorem skipEscape_eq_ok_iff {s r : Bytes} :
    skipEscape s = .ok r ↔ ∃ e, HasEscapeForm e ∧ s = e ++ r := by
  constructor
  · intro h
    unfold skipEscape at h
    split at h
    · cases h
    · next t =>
      cases hx : readHex t with
      | error e => simp [hx, Except.map] at h
      | ok p =>
        obtain ⟨u, hu, rfl⟩ := readHex_eq_ok_iff.1 (show readHex t = .ok (p.1, p.2) from hx)
        simp only [hx, Except.map, Except.ok.injEq] at h
        subst h
        exact ⟨_, .code hu, rfl⟩
    · split at h
      · next hsome =>
        cases h
        obtain ⟨c, hc⟩ := Option.isSome_iff_exists.1 hsome
        exact ⟨_, .letter (escapeChar?_eq_some_iff.1 hc), rfl⟩
      · cases h
  · rintro ⟨e, he, rfl⟩
    cases he with
    | @letter b c hmem =>
      rw [List.singleton_append, skipEscape]
      · simp [escapeChar?_eq_some_iff.2 hmem]
      · rintro rfl
        exact u_notMem_escapeLetters hmem
    | @code u n hu =>
      have hx : readHex (u ++ r) = .ok (n, r) := readHex_eq_ok_iff.2 ⟨u, hu, rfl⟩
      simp [skipEscape, hx, Except.map]

/-! ## Texts that are wanted -/

theorem readTextFrom_spells {s : Bytes} {cs : List Char} (h : Spells s cs) (done : List Char)
    (r : Bytes) :
    readTextFrom done (s ++ 0x22 :: r) = .ok (String.ofList (done.reverse ++ cs), r) := by
  induction h generalizing done with
  | nil =>
    rw [List.nil_append, readTextFrom]
    simp
  | plain hquote hslash hc _ ih =>
    rw [List.append_assoc, readTextFrom_plain hquote hslash hc, ih]
    simp
  | escape he _ ih =>
    rw [List.cons_append, List.append_assoc,
      readTextFrom_escape (readEscape_eq_ok_iff.2 ⟨_, he, rfl⟩), ih]
    simp

theorem spells_of_readTextFrom {done : List Char} {s r : Bytes} {t : String}
    (h : readTextFrom done s = .ok (t, r)) :
    ∃ body cs, Spells body cs ∧ s = body ++ 0x22 :: r ∧ t = String.ofList (done.reverse ++ cs) := by
  fun_induction readTextFrom done s with
  | case1 => cases h
  | case2 =>
    cases h
    exact ⟨[], [], .nil, rfl, by rw [List.append_nil]⟩
  | case3 done t c r' hescape _ _ ih =>
    obtain ⟨e, he, rfl⟩ := readEscape_eq_ok_iff.1 hescape
    obtain ⟨body, cs, hbody, rfl, rfl⟩ := ih h
    exact ⟨0x5C :: (e ++ body), c :: cs, .escape he hbody, by simp, by simp⟩
  | case4 => cases h
  | case5 => cases h
  | case6 done b t hquote hslash hcontrol c r' hfront _ ih =>
    obtain ⟨body, cs, hbody, rfl, rfl⟩ := ih h
    have hbytes := Utf8.eq_append_of_front hfront
    refine ⟨String.utf8EncodeChar c ++ body, c :: cs, .plain ?_ ?_ ?_ hbody, by simp [hbytes],
      by simp⟩
    · rintro rfl
      exact hquote (List.cons.inj hbytes).1
    · rintro rfl
      exact hslash (List.cons.inj hbytes).1
    · -- a control would be the first byte itself
      rw [← Nat.not_lt]
      intro hlt
      rw [Utf8.encodeChar_ascii (by omega)] at hbytes
      rw [(List.cons.inj hbytes).1, UInt8.lt_iff_toNat_lt, Utf8.toNat_part (by omega)] at hcontrol
      exact hcontrol hlt
  | case7 => cases h

/-- A string is read as the text that its bytes spell, up to the first quote that is none of
them. -/
theorem readText_eq_ok_iff {s r : Bytes} {t : String} :
    readText s = .ok (t, r) ↔ ∃ body, Spells body t.toList ∧ s = body ++ 0x22 :: r := by
  constructor
  · intro h
    obtain ⟨body, cs, hbody, rfl, rfl⟩ := spells_of_readTextFrom h
    exact ⟨body, by rwa [List.reverse_nil, List.nil_append, String.toList_ofList], rfl⟩
  · rintro ⟨body, hbody, rfl⟩
    rw [readText, readTextFrom_spells hbody, List.reverse_nil, List.nil_append,
      String.ofList_toList]

/-- Characters that need no escape spell themselves. -/
theorem spells_utf8 {cs : List Char}
    (h : cs.all fun c => c ≠ '"' ∧ c ≠ '\\' ∧ 0x20 ≤ c.toNat) : Spells (utf8 cs) cs := by
  induction cs with
  | nil => exact .nil
  | cons c cs ih =>
    rw [List.all_cons, Bool.and_eq_true, decide_eq_true_iff] at h
    obtain ⟨⟨hquote, hslash, hc⟩, hrest⟩ := h
    rw [utf8_cons]
    exact .plain hquote hslash hc (ih hrest)

/-! ## Texts that are passed over -/

theorem skipText_quotable {s : Bytes} (h : Quotable s) (r : Bytes) :
    skipText (s ++ 0x22 :: r) = .ok r := by
  induction h with
  | nil =>
    rw [List.nil_append, skipText]
    simp
  | @plain b s hquote hslash hcontrol _ ih =>
    rw [List.cons_append, skipText]
    simp only [hquote, hslash, UInt8.not_lt.2 hcontrol, if_false, ih]
  | @escape e s he _ ih =>
    rw [List.cons_append, List.append_assoc, skipText]
    simp only [show (0x5C : UInt8) ≠ 0x22 by decide, if_false, if_true]
    split
    · next h' =>
      rw [skipEscape_eq_ok_iff.2 ⟨e, he, rfl⟩] at h'
      cases h'
      exact ih
    · next h' =>
      rw [skipEscape_eq_ok_iff.2 ⟨e, he, rfl⟩] at h'
      cases h'

/-- A string is passed over when it has the form of one. -/
theorem skipText_eq_ok_iff {s r : Bytes} :
    skipText s = .ok r ↔ ∃ body, Quotable body ∧ s = body ++ 0x22 :: r := by
  constructor
  · intro h
    fun_induction skipText s with
    | case1 => cases h
    | case2 =>
      cases h
      exact ⟨[], .nil, rfl⟩
    | case3 t r' hescape _ _ ih =>
      obtain ⟨e, he, rfl⟩ := skipEscape_eq_ok_iff.1 hescape
      obtain ⟨body, hbody, rfl⟩ := ih h
      exact ⟨0x5C :: (e ++ body), .escape he hbody, by simp⟩
    | case4 => cases h
    | case5 => cases h
    | case6 b t hquote hslash hcontrol ih =>
      obtain ⟨body, hbody, rfl⟩ := ih h
      exact ⟨b :: body, .plain hquote hslash (UInt8.not_lt.1 hcontrol) hbody, rfl⟩
  · rintro ⟨body, hbody, rfl⟩
    exact skipText_quotable hbody r

/-- No two strings begin alike and end at different quotes. -/
theorem Quotable.unique {s s' r r' : Bytes} (h : Quotable s) (h' : Quotable s')
    (heq : s ++ 0x22 :: r = s' ++ 0x22 :: r') : s = s' ∧ r = r' := by
  have hskip := skipText_quotable h r
  rw [heq, skipText_quotable h' r'] at hskip
  cases hskip
  exact ⟨List.append_cancel_right heq, rfl⟩

theorem IsEscape.hasForm {e : Bytes} {c : Char} (h : IsEscape e c) {s : Bytes}
    (hs : Quotable s) : Quotable (0x5C :: (e ++ s)) := by
  cases h with
  | letter hmem => exact .escape (.letter hmem) hs
  | code hu => exact .escape (.code hu) hs
  | pair hu _ _ hv =>
    have htwo := Quotable.escape (.code hu) (.escape (.code hv) hs)
    simpa using htwo

theorem quotable_of_plain {bytes s : Bytes} (hbytes : ∀ b ∈ bytes, b ≠ 0x22 ∧ b ≠ 0x5C ∧ 0x20 ≤ b)
    (hs : Quotable s) : Quotable (bytes ++ s) := by
  induction bytes with
  | nil => exact hs
  | cons b bytes ih =>
    obtain ⟨hquote, hslash, hcontrol⟩ := hbytes b List.mem_cons_self
    exact .plain hquote hslash hcontrol (ih fun b hb => hbytes b (List.mem_cons_of_mem _ hb))

/-- A string that is wanted could be passed over. -/
theorem Spells.quotable {s : Bytes} {cs : List Char} (h : Spells s cs) : Quotable s := by
  induction h with
  | nil => exact .nil
  | @plain c s cs hquote hslash hc _ ih =>
    refine quotable_of_plain (fun b hb => ?_) ih
    -- a byte below 128 is the whole of its character
    have hsmall : b.toNat < 128 → c.toNat = b.toNat := Utf8.toNat_of_mem_encodeChar hb
    refine ⟨?_, ?_, ?_⟩
    · rintro rfl
      exact hquote (Char.toNat_inj.1 (hsmall (by decide)))
    · rintro rfl
      exact hslash (Char.toNat_inj.1 (hsmall (by decide)))
    · simp only [UInt8.le_iff_toNat_le, UInt8.reduceToNat]
      omega
  | escape he _ ih => exact he.hasForm ih

end Availability.Json

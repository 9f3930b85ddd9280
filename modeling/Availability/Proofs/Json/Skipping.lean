import Availability.Proofs.Json.RoundTrip
import Availability.Proofs.Json.Strings
import Availability.Proofs.Results

/-!
# Values by their grammar

What is passed over is a value of the grammar, of any depth, and every value is passed over up to
its end. A numeral has no mark at its end, so what follows a value must not go on with one.

* `skipNumber_of_isNumeral`, `isNumeral_of_skipNumber`: numerals.
* `skipValueFuel_of_isValue`: the way there, with two steps of fuel for each byte of the value.
* `isValue_of_skipValueFuel`: the way back.
* `skipValue_of_isValue`, `isValue_of_skipValue`: both for the reader itself.
-/

namespace Availability.Json

/-! ## White space -/

theorem isSpace_iff {b : UInt8} :
    isSpace b = true ↔ b = 0x20 ∨ b = 0x0A ∨ b = 0x09 ∨ b = 0x0D := by
  simp [isSpace, or_assoc]

theorem white_nil : White [] := fun _ h => nomatch h

theorem White.append {w s : Bytes} (hw : White w) (hs : White s) : White (w ++ s) := by
  intro b hb
  exact (List.mem_append.1 hb).elim (hw b) (hs b)

theorem exists_white (s : Bytes) : ∃ w, White w ∧ s = w ++ skipSpace s := by
  refine ⟨s.takeWhile isSpace, fun b hb => ?_, List.takeWhile_append_dropWhile.symm⟩
  exact isSpace_iff.1 (List.all_eq_true.1 List.all_takeWhile b hb)

theorem White.skipSpace {w : Bytes} (hw : White w) (s : Bytes) :
    skipSpace (w ++ s) = skipSpace s :=
  List.dropWhile_append_of_pos fun b hb => isSpace_iff.2 (hw b hb)

theorem White.skipSpace_self {w : Bytes} (hw : White w) : Json.skipSpace w = [] := by
  simpa [Json.skipSpace] using hw.skipSpace []

theorem skipSpace_idem (s : Bytes) : skipSpace (skipSpace s) = skipSpace s := by
  obtain ⟨w, hw, hs⟩ := exists_white s
  have h := hw.skipSpace (skipSpace s)
  rwa [← hs, eq_comm] at h

theorem white_of_skipSpace {s : Bytes} (h : skipSpace s = []) : White s := by
  obtain ⟨w, hw, hs⟩ := exists_white s
  rw [h, List.append_nil] at hs
  rwa [hs]

theorem ends_append {w r : Bytes} (hw : White w) (hr : Ends r) : Ends (w ++ r) := by
  cases w with
  | nil => exact hr
  | cons b w =>
    rintro b' ⟨⟩
    rcases hw b List.mem_cons_self with rfl | rfl | rfl | rfl <;> decide

/-! ## Numerals -/

theorem isDigit_iff {b : UInt8} : isDigit b = true ↔ 0x30 ≤ b ∧ b ≤ 0x39 := by
  simp [isDigit]

theorem splitDigits_append {ds r : Bytes} (hds : AreDigits ds)
    (hr : ∀ b ∈ r.head?, isDigit b = false) : splitDigits (ds ++ r) = (ds, r) := by
  have hall : ∀ b ∈ ds, isDigit b = true := fun b hb => isDigit_iff.2 (hds b hb)
  rw [splitDigits, List.takeWhile_append_of_pos hall, List.dropWhile_append_of_pos hall]
  cases r with
  | nil => simp
  | cons b r => simp [hr b rfl]

theorem areDigits_of_splitDigits {s ds r : Bytes} (h : splitDigits s = (ds, r)) :
    AreDigits ds ∧ s = ds ++ r := by
  obtain ⟨rfl, rfl⟩ := Prod.mk.inj h
  exact ⟨fun b hb => isDigit_iff.1 (List.all_eq_true.1 List.all_takeWhile b hb),
    List.takeWhile_append_dropWhile.symm⟩

theorem splitSign_append {sign r : Bytes} (hsign : sign = [] ∨ sign = [0x2B] ∨ sign = [0x2D])
    (hr : ∀ b ∈ r.head?, isDigit b = true) : (splitSign (sign ++ r)).2 = r := by
  rcases hsign with rfl | rfl | rfl
  · cases r with
    | nil => rfl
    | cons b r =>
      have hb : isDigit b = true := hr b rfl
      unfold splitSign
      split
      · next heq =>
        rw [(List.cons.inj heq).1] at hb
        cases hb
      · next heq =>
        rw [(List.cons.inj heq).1] at hb
        cases hb
      · rfl
  · rfl
  · rfl

theorem splitSign_eq (s : Bytes) :
    ∃ sign, (sign = [] ∨ sign = [0x2B] ∨ sign = [0x2D]) ∧ s = sign ++ (splitSign s).2 := by
  unfold splitSign
  split
  · exact ⟨[0x2B], .inr (.inl rfl), rfl⟩
  · exact ⟨[0x2D], .inr (.inr rfl), rfl⟩
  · exact ⟨[], .inl rfl, rfl⟩

theorem skipExponent_of_digits {sign ds r : Bytes}
    (hsign : sign = [] ∨ sign = [0x2B] ∨ sign = [0x2D]) (hds : AreDigits ds) (hne : ds ≠ [])
    (hr : Ends r) : skipExponent (sign ++ (ds ++ r)) = .ok r := by
  obtain ⟨b, ds, rfl⟩ := List.exists_cons_of_ne_nil hne
  have hb : isDigit b = true := isDigit_iff.2 (hds b List.mem_cons_self)
  have hrest := splitDigits_append (fun c hc => hds c (List.mem_cons_of_mem _ hc))
    fun c hc => (hr c hc).1
  rw [skipExponent, splitSign_append hsign (by simpa using hb)]
  simp only [List.cons_append, hb, if_true]
  exact congrArg Except.ok (Prod.mk.inj hrest).2

theorem isExponent_of_skipExponent {e : UInt8} {s r : Bytes} (he : e = 0x65 ∨ e = 0x45)
    (h : skipExponent s = .ok r) : ∃ t, IsExponent (e :: t) ∧ s = t ++ r := by
  obtain ⟨sign, hsign, hs⟩ := splitSign_eq s
  unfold skipExponent at h
  split at h
  · cases h
  · next b t hrest =>
    split at h
    · next hb =>
      cases h
      obtain ⟨hds, ht⟩ := areDigits_of_splitDigits (s := t) rfl
      refine ⟨sign ++ b :: t.takeWhile isDigit, .digits he hsign ?_ (List.cons_ne_nil _ _), ?_⟩
      · exact List.forall_mem_cons.2 ⟨isDigit_iff.1 hb, hds⟩
      · rw [hs, hrest, List.append_assoc, List.cons_append, List.takeWhile_append_dropWhile]
    · cases h

/-- A fraction and an exponent are passed over, up to what does not go on with them. -/
theorem skipAfterDigits_of_parts {fraction exponent r : Bytes} (hfraction : IsFraction fraction)
    (hexponent : IsExponent exponent) (hr : Ends r) :
    skipAfterDigits (fraction ++ (exponent ++ r)) = .ok r := by
  cases hfraction with
  | none =>
    cases hexponent with
    | none =>
      rw [List.nil_append, List.nil_append]
      unfold skipAfterDigits
      split
      · exact absurd rfl (hr 0x2E rfl).2.1
      · exact absurd rfl (hr 0x65 rfl).2.2.1
      · exact absurd rfl (hr 0x45 rfl).2.2.2
      · rfl
    | @digits e sign ds he hsign hds hne =>
      have hskip := skipExponent_of_digits hsign hds hne hr
      rw [← List.append_assoc] at hskip
      rcases he with rfl | rfl <;> exact hskip
  | @digits fs hfs hnone =>
    obtain ⟨f, fs, rfl⟩ := List.exists_cons_of_ne_nil hnone
    cases hexponent with
    | none =>
      have hsplit := splitDigits_append hfs fun b hb => (hr b hb).1
      rw [List.nil_append, List.cons_append, skipAfterDigits, hsplit]
      split
      · next heq => cases heq
      · next heq =>
        cases heq
        exact absurd rfl (hr 0x65 rfl).2.2.1
      · next heq =>
        cases heq
        exact absurd rfl (hr 0x45 rfl).2.2.2
      · next heq =>
        cases heq
        rfl
    | @digits e sign ds he hsign hds hne =>
      have hskip := skipExponent_of_digits hsign hds hne hr
      rw [← List.append_assoc] at hskip
      have hsplit : splitDigits (f :: fs ++ (e :: (sign ++ ds) ++ r)) =
          (f :: fs, e :: (sign ++ ds) ++ r) := by
        refine splitDigits_append hfs ?_
        rintro b ⟨⟩
        rcases he with rfl | rfl <;> decide
      rw [List.cons_append, skipAfterDigits, hsplit]
      rcases he with rfl | rfl <;> exact hskip

theorem parts_of_skipAfterDigits {s r : Bytes} (h : skipAfterDigits s = .ok r) :
    ∃ fraction exponent, IsFraction fraction ∧ IsExponent exponent ∧
      s = fraction ++ (exponent ++ r) := by
  unfold skipAfterDigits at h
  split at h
  · next t =>
    split at h
    · cases h
    · next ds u hne hsplit =>
      obtain ⟨hds, rfl⟩ := areDigits_of_splitDigits hsplit
      obtain ⟨e, he, rfl⟩ := isExponent_of_skipExponent (.inl rfl) h
      exact ⟨0x2E :: ds, _, .digits hds hne, he, by simp⟩
    · next ds u hne hsplit =>
      obtain ⟨hds, rfl⟩ := areDigits_of_splitDigits hsplit
      obtain ⟨e, he, rfl⟩ := isExponent_of_skipExponent (.inr rfl) h
      exact ⟨0x2E :: ds, _, .digits hds hne, he, by simp⟩
    · next ds u hne _ _ hsplit =>
      cases h
      obtain ⟨hds, rfl⟩ := areDigits_of_splitDigits hsplit
      exact ⟨0x2E :: ds, [], .digits hds hne, .none, by simp⟩
  · obtain ⟨e, he, rfl⟩ := isExponent_of_skipExponent (.inl rfl) h
    exact ⟨[], _, .none, he, rfl⟩
  · obtain ⟨e, he, rfl⟩ := isExponent_of_skipExponent (.inr rfl) h
    exact ⟨[], _, .none, he, rfl⟩
  · cases h
    exact ⟨[], [], .none, .none, rfl⟩

theorem skipUnsigned_of_parts {whole fraction exponent r : Bytes} (hwhole : IsWhole whole)
    (hfraction : IsFraction fraction) (hexponent : IsExponent exponent) (hr : Ends r) :
    skipUnsigned (whole ++ (fraction ++ (exponent ++ r))) = .ok r := by
  have hskip := skipAfterDigits_of_parts hfraction hexponent hr
  -- no digit follows those before the point
  have hstop : ∀ b ∈ (fraction ++ (exponent ++ r)).head?, isDigit b = false := by
    cases hfraction with
    | none =>
      cases hexponent with
      | none => exact fun b hb => (hr b hb).1
      | digits he =>
        rintro b ⟨⟩
        rcases he with rfl | rfl <;> decide
    | digits =>
      rintro b ⟨⟩
      decide
  cases hwhole with
  | zero =>
    have hzero : AreDigits [0x30] := by
      rintro b ⟨⟩
      · decide
      · next h => cases h
    rw [skipUnsigned, splitDigits_append hzero hstop]
    exact hskip
  | @digits b ds hlow hhigh hds =>
    have hb : b ≠ 0x30 := by
      rintro rfl
      exact absurd hlow (by decide)
    have hall : AreDigits (b :: ds) :=
      List.forall_mem_cons.2 ⟨⟨UInt8.le_trans (by decide) hlow, hhigh⟩, hds⟩
    rw [skipUnsigned, splitDigits_append hall hstop]
    split
    · next heq => cases heq
    · next heq => exact absurd (List.cons.inj (Prod.mk.inj heq).1).1 hb
    · next heq =>
      cases heq
      exact hskip

theorem parts_of_skipUnsigned {s r : Bytes} (h : skipUnsigned s = .ok r) :
    ∃ whole fraction exponent, IsWhole whole ∧ IsFraction fraction ∧ IsExponent exponent ∧
      s = whole ++ (fraction ++ (exponent ++ r)) := by
  unfold skipUnsigned at h
  split at h
  · cases h
  · cases h
  · next ds t hnil hzero hsplit =>
    obtain ⟨hds, rfl⟩ := areDigits_of_splitDigits hsplit
    obtain ⟨fraction, exponent, hfraction, hexponent, rfl⟩ := parts_of_skipAfterDigits h
    refine ⟨ds, fraction, exponent, ?_, hfraction, hexponent, rfl⟩
    obtain ⟨b, ds, rfl⟩ := List.exists_cons_of_ne_nil hnil
    obtain ⟨⟨hlow, hhigh⟩, hrest⟩ := List.forall_mem_cons.1 hds
    by_cases hb : b = 0x30
    · subst hb
      cases ds with
      | nil => exact .zero
      | cons c ds => exact absurd rfl (hzero c ds)
    · refine .digits ?_ hhigh hrest
      simp only [UInt8.le_iff_toNat_le, UInt8.reduceToNat, ← UInt8.toNat_inj] at hlow hb ⊢
      omega

/-- A numeral is passed over, up to what does not go on with it. -/
theorem skipNumber_of_isNumeral {s r : Bytes} (h : IsNumeral s) (hr : Ends r) :
    skipNumber (s ++ r) = .ok r := by
  obtain ⟨hsign, hwhole, hfraction, hexponent⟩ := h
  have hskip := skipUnsigned_of_parts hwhole hfraction hexponent hr
  simp only [List.append_assoc]
  rcases hsign with rfl | rfl
  · rw [List.nil_append, skipNumber]
    · exact hskip
    · intro t ht
      cases hwhole with
      | zero => cases ht
      | digits hlow =>
        rw [(List.cons.inj ht).1] at hlow
        exact absurd hlow (by decide)
  · exact hskip

theorem isNumeral_of_skipNumber {s r : Bytes} (h : skipNumber s = .ok r) :
    ∃ t, IsNumeral t ∧ s = t ++ r := by
  unfold skipNumber at h
  split at h
  · obtain ⟨whole, fraction, exponent, hwhole, hfraction, hexponent, rfl⟩ :=
      parts_of_skipUnsigned h
    exact ⟨_, .parts (.inr rfl) hwhole hfraction hexponent, by simp⟩
  · obtain ⟨whole, fraction, exponent, hwhole, hfraction, hexponent, rfl⟩ :=
      parts_of_skipUnsigned h
    exact ⟨_, .parts (.inl rfl) hwhole hfraction hexponent, by simp⟩

/-! ## How a value starts -/

/-- The byte that values of a kind start with, if they all start with one. -/
def Start.byte? : Start → Option UInt8
  | .null => some 0x6E
  | .true => some 0x74
  | .false => some 0x66
  | .text => some 0x22
  | .array => some 0x5B
  | .object => some 0x7B
  | .number => none
  | .other => none

theorem eq_of_start {b c : UInt8} (h : (Start.of b).byte? = some c) : b = c := by
  unfold Start.of at h
  split at h
  case h_8 => split at h <;> cases h
  case h_4 => cases h
  all_goals exact Option.some.inj h

theorem start_of_isDigit {b : UInt8} (h : isDigit b = true) : Start.of b = .number := by
  have hall : ∀ n < 58, 48 ≤ n → Start.of (UInt8.ofNat n) = .number := by decide
  rw [isDigit_iff, UInt8.le_iff_toNat_le, UInt8.le_iff_toNat_le] at h
  simp only [UInt8.reduceToNat] at h
  have hb := hall b.toNat (by omega) (by omega)
  rwa [UInt8.ofNat_toNat] at hb

theorem IsNumeral.starts {s : Bytes} (h : IsNumeral s) :
    ∃ b t, s = b :: t ∧ Start.of b = .number := by
  obtain ⟨hsign, hwhole, -, -⟩ := h
  rcases hsign with rfl | rfl
  · cases hwhole with
    | zero => exact ⟨_, _, rfl, rfl⟩
    | digits hlow hhigh =>
      exact ⟨_, _, rfl, start_of_isDigit (isDigit_iff.2 ⟨UInt8.le_trans (by decide) hlow, hhigh⟩)⟩
  · exact ⟨_, _, rfl, rfl⟩

theorem IsValue.opens {s : Bytes} (h : IsValue s) : Opens s := by
  cases h with
  | number hs =>
    obtain ⟨b, t, rfl, hb⟩ := hs.starts
    exact ⟨b, t, rfl, by rw [hb]; exact nofun⟩
  | _ => exact ⟨_, _, rfl, nofun⟩

theorem IsValue.length_pos {s : Bytes} (h : IsValue s) : 0 < s.length := by
  obtain ⟨b, t, rfl, -⟩ := h.opens
  exact Nat.succ_pos _

/-! ## Words -/

theorem readWord_eq_ok_iff {letters s r : Bytes} :
    readWord letters s = .ok r ↔ s = letters ++ r := by
  induction letters generalizing s with
  | nil => simp [readWord, eq_comm]
  | cons c cs ih =>
    cases s with
    | nil => simp [readWord, Stop.before]
    | cons b t =>
      by_cases hb : b = c
      · simp [readWord, hb, ih]
      · simp [readWord, hb, Stop.before]

theorem readColon_append {w : Bytes} (hw : White w) (r : Bytes) :
    readColon (w ++ 0x3A :: r) = .ok r := by
  rw [readColon, hw.skipSpace, skipSpace_cons rfl]
  rfl

theorem white_of_readColon {s r : Bytes} (h : readColon s = .ok r) :
    ∃ w, White w ∧ s = w ++ 0x3A :: r := by
  obtain ⟨w, hw, hs⟩ := exists_white s
  unfold readColon at h
  split at h
  · next heq =>
    cases h
    exact ⟨w, hw, by rw [← heq]; exact hs⟩
  · cases h
  · cases h

/-! ## White space before the first item or member -/

theorem AreItems.pad {w s : Bytes} (hw : White w) (h : AreItems s) : AreItems (w ++ s) := by
  cases h with
  | last hw₁ hv hw₂ =>
    have hpad := AreItems.last (hw.append hw₁) hv hw₂
    simpa [itemBytes] using hpad
  | more hw₁ hv hw₂ hs =>
    have hpad := AreItems.more (hw.append hw₁) hv hw₂ hs
    simpa [itemBytes] using hpad

theorem AreMembers.pad {w s : Bytes} (hw : White w) (h : AreMembers s) :
    AreMembers (w ++ s) := by
  cases h with
  | last hw₁ hname hw₂ hw₃ hv hw₄ =>
    have hpad := AreMembers.last (hw.append hw₁) hname hw₂ hw₃ hv hw₄
    simpa [memberBytes] using hpad
  | more hw₁ hname hw₂ hw₃ hv hw₄ hs =>
    have hpad := AreMembers.more (hw.append hw₁) hname hw₂ hw₃ hv hw₄ hs
    simpa [memberBytes] using hpad

/-- The white space in front of the first item. -/
theorem AreItems.opens {s : Bytes} (h : AreItems s) :
    ∃ w t, s = w ++ t ∧ White w ∧ AreItems t ∧ Opens t := by
  cases h with
  | last hw hv hw' => exact ⟨_, _, rfl, hw, .last white_nil hv hw', hv.opens.append _⟩
  | more hw hv hw' hs =>
    refine ⟨_, _, List.append_assoc .., hw, ?_, (hv.opens.append _).append _⟩
    exact .more white_nil hv hw' hs

/-- The white space in front of the first name. -/
theorem AreMembers.opens {s : Bytes} (h : AreMembers s) :
    ∃ w t, s = w ++ 0x22 :: t ∧ White w ∧ AreMembers (0x22 :: t) := by
  cases h with
  | last hw hname hw₂ hw₃ hv hw₄ =>
    exact ⟨_, _, rfl, hw, .last white_nil hname hw₂ hw₃ hv hw₄⟩
  | more hw hname hw₂ hw₃ hv hw₄ hs =>
    exact ⟨_, _, List.append_assoc .., hw, .more white_nil hname hw₂ hw₃ hv hw₄ hs⟩

/-! ## Values that are passed over -/

-- The induction is on the fuel. A value spends one on itself, and so does each item and each
-- member; the brackets, the commas and the quotes pay for what the text is shorter by.
mutual

/-- A value is passed over up to its end. -/
theorem skipValueFuel_of_isValue {t : Bytes} (h : IsValue t) {n : Nat} {w r : Bytes}
    (hw : White w) (hn : 2 * t.length ≤ n) (hr : Ends r) :
    skipValueFuel n (w ++ (t ++ r)) = .ok r := by
  have hpos := h.length_pos
  obtain ⟨m, rfl⟩ : ∃ m, n = m + 1 := ⟨n - 1, by omega⟩
  rw [skipValueFuel, hw.skipSpace, (h.opens.append r).skipSpace]
  cases h with
  | null => exact readWord_eq_ok_iff.2 rfl
  | true => exact readWord_eq_ok_iff.2 rfl
  | false => exact readWord_eq_ok_iff.2 rfl
  | number hs =>
    have hskip := skipNumber_of_isNumeral hs hr
    obtain ⟨b, t, rfl, hb⟩ := hs.starts
    simp only [List.cons_append, hb] at hskip ⊢
    exact hskip
  | text hs =>
    simp only [List.cons_append, List.append_assoc, show Start.of 0x22 = .text from rfl]
    exact skipText_quotable hs r
  | emptyArray hw' =>
    simp only [List.cons_append, List.append_assoc, show Start.of 0x5B = .array from rfl,
      hw'.skipSpace]
    rfl
  | @array s hs =>
    simp only [List.length_cons, List.length_append] at hn
    obtain ⟨w', t, rfl, hw', hitems, hopens⟩ := hs.opens
    rw [List.length_append] at hn
    have hskip := skipItems_of_areItems hitems (n := m) (r := r) (by omega)
    have hspace := (hopens.append (0x5D :: r)).skipSpace
    simp only [List.cons_append, List.append_assoc, List.nil_append,
      show Start.of 0x5B = .array from rfl, hw'.skipSpace, hspace]
    obtain ⟨b, u, rfl, hb⟩ := hopens
    split
    · next heq => cases heq
    · next heq =>
      rw [(List.cons.inj heq).1] at hb
      exact absurd rfl hb
    · exact hskip
  | emptyObject hw' =>
    simp only [List.cons_append, List.append_assoc, show Start.of 0x7B = .object from rfl,
      hw'.skipSpace]
    rfl
  | @object s hs =>
    simp only [List.length_cons, List.length_append] at hn
    obtain ⟨w', t, rfl, hw', hmembers⟩ := hs.opens
    rw [List.length_append] at hn
    have hskip := skipMembers_of_areMembers hmembers (n := m) (r := r) (by omega)
    simp only [List.cons_append, List.append_assoc, List.nil_append,
      show Start.of 0x7B = .object from rfl, hw'.skipSpace,
      skipSpace_cons (show isSpace 0x22 = false from rfl)] at hskip ⊢
    exact hskip
termination_by n

/-- The items of an array are passed over with the end of it. -/
theorem skipItems_of_areItems {s : Bytes} (h : AreItems s) {n : Nat} {r : Bytes}
    (hn : 2 * s.length + 1 ≤ n) : skipItems n (s ++ 0x5D :: r) = .ok r := by
  obtain ⟨m, rfl⟩ : ∃ m, n = m + 1 := ⟨n - 1, by omega⟩
  rw [skipItems]
  cases h with
  | @last w v w' hw hv hw' =>
    simp only [itemBytes, List.length_append] at hn
    have hskip := skipValueFuel_of_isValue hv (n := m) hw (by omega)
      (ends_append hw' (ends_itemsEnd r))
    simp only [itemBytes, List.append_assoc, hskip, bind, Except.bind, hw'.skipSpace]
    rfl
  | @more w v w' s hw hv hw' hs =>
    simp only [itemBytes, List.length_append, List.length_cons] at hn
    have hskip := skipValueFuel_of_isValue hv (n := m) hw (by omega)
      (ends_append hw' (ends_comma (s ++ 0x5D :: r)))
    have hmore := skipItems_of_areItems hs (n := m) (r := r) (by omega)
    simp only [itemBytes, List.append_assoc, List.cons_append, hskip, bind, Except.bind,
      hw'.skipSpace]
    exact hmore
termination_by n

/-- The members of an object are passed over with the end of it. -/
theorem skipMembers_of_areMembers {s : Bytes} (h : AreMembers s) {n : Nat} {r : Bytes}
    (hn : 2 * s.length + 1 ≤ n) : skipMembers n (s ++ 0x7D :: r) = .ok r := by
  obtain ⟨m, rfl⟩ : ∃ m, n = m + 1 := ⟨n - 1, by omega⟩
  rw [skipMembers]
  cases h with
  | @last w₁ name w₂ w₃ v w₄ hw₁ hname hw₂ hw₃ hv hw₄ =>
    simp only [memberBytes, itemBytes, List.length_append, List.length_cons] at hn
    have hskip := skipValueFuel_of_isValue hv (n := m) hw₃ (by omega)
      (ends_append hw₄ (ends_membersEnd r))
    simp only [memberBytes, itemBytes, List.append_assoc, List.cons_append, hw₁.skipSpace,
      skipSpace_cons (show isSpace 0x22 = false from rfl), skipText_quotable hname, bind,
      Except.bind, readColon_append hw₂, hskip, hw₄.skipSpace]
    rfl
  | @more w₁ name w₂ w₃ v w₄ s hw₁ hname hw₂ hw₃ hv hw₄ hs =>
    simp only [memberBytes, itemBytes, List.length_append, List.length_cons] at hn
    have hskip := skipValueFuel_of_isValue hv (n := m) hw₃ (by omega)
      (ends_append hw₄ (ends_comma (s ++ 0x7D :: r)))
    have hmore := skipMembers_of_areMembers hs (n := m) (r := r) (by omega)
    simp only [memberBytes, itemBytes, List.append_assoc, List.cons_append, hw₁.skipSpace,
      skipSpace_cons (show isSpace 0x22 = false from rfl), skipText_quotable hname, bind,
      Except.bind, readColon_append hw₂, hskip, hw₄.skipSpace]
    exact hmore
termination_by n

end

-- The same induction for the way back: whatever the fuel was, it was enough for what was read.
mutual

/-- What is passed over is a value, after white space. -/
theorem isValue_of_skipValueFuel {n : Nat} {s r : Bytes} (h : skipValueFuel n s = .ok r) :
    ∃ w t, White w ∧ IsValue t ∧ s = w ++ (t ++ r) := by
  match n with
  | 0 => cases h
  | n + 1 =>
    obtain ⟨w, hw, hs⟩ := exists_white s
    rw [skipValueFuel] at h
    cases hspace : skipSpace s with
    | nil => simp [hspace, Stop.on] at h
    | cons b t =>
      rw [hspace] at h hs
      simp only at h
      cases hstart : Start.of b with
      | null =>
        obtain rfl : b = 0x6E := eq_of_start (by rw [hstart]; rfl)
        obtain rfl := readWord_eq_ok_iff.1 h
        exact ⟨w, _, hw, .null, hs⟩
      | true =>
        obtain rfl : b = 0x74 := eq_of_start (by rw [hstart]; rfl)
        obtain rfl := readWord_eq_ok_iff.1 h
        exact ⟨w, _, hw, .true, hs⟩
      | false =>
        obtain rfl : b = 0x66 := eq_of_start (by rw [hstart]; rfl)
        obtain rfl := readWord_eq_ok_iff.1 h
        exact ⟨w, _, hw, .false, hs⟩
      | number =>
        simp only [hstart] at h
        obtain ⟨u, hu, htext⟩ := isNumeral_of_skipNumber h
        exact ⟨w, u, hw, .number hu, by rw [hs, htext]⟩
      | text =>
        simp only [hstart] at h
        obtain rfl : b = 0x22 := eq_of_start (by rw [hstart]; rfl)
        obtain ⟨body, hbody, rfl⟩ := skipText_eq_ok_iff.1 h
        exact ⟨w, _, hw, .text hbody, by simp [hs]⟩
      | array =>
        simp only [hstart] at h
        obtain rfl : b = 0x5B := eq_of_start (by rw [hstart]; rfl)
        obtain ⟨w', hw', ht⟩ := exists_white t
        split at h
        · cases h
        · next heq =>
          cases h
          rw [heq] at ht
          exact ⟨w, _, hw, .emptyArray hw', by simp [hs, ht]⟩
        · obtain ⟨u, hu, hrest⟩ := areItems_of_skipItems h
          rw [hrest] at ht
          exact ⟨w, _, hw, .array (hu.pad hw'), by simp [hs, ht]⟩
      | object =>
        simp only [hstart] at h
        obtain rfl : b = 0x7B := eq_of_start (by rw [hstart]; rfl)
        obtain ⟨w', hw', ht⟩ := exists_white t
        split at h
        · cases h
        · next heq =>
          cases h
          rw [heq] at ht
          exact ⟨w, _, hw, .emptyObject hw', by simp [hs, ht]⟩
        · obtain ⟨u, hu, hrest⟩ := areMembers_of_skipMembers h
          rw [hrest] at ht
          exact ⟨w, _, hw, .object (hu.pad hw'), by simp [hs, ht]⟩
      | other =>
        simp only [hstart] at h
        cases h
termination_by n

/-- What is passed over with the end of an array are items. -/
theorem areItems_of_skipItems {n : Nat} {s r : Bytes} (h : skipItems n s = .ok r) :
    ∃ t, AreItems t ∧ s = t ++ 0x5D :: r := by
  match n with
  | 0 => cases h
  | n + 1 =>
    rw [skipItems] at h
    obtain ⟨u, hvalue, hnext⟩ := bind_eq_ok h
    obtain ⟨w, v, hw, hv, rfl⟩ := isValue_of_skipValueFuel hvalue
    obtain ⟨w', hw', hu⟩ := exists_white u
    split at hnext
    · cases hnext
    · next heq =>
      obtain ⟨t, ht, hrest⟩ := areItems_of_skipItems hnext
      rw [heq, hrest] at hu
      exact ⟨_, .more hw hv hw' ht, by simp [itemBytes, hu]⟩
    · next heq =>
      cases hnext
      rw [heq] at hu
      exact ⟨_, .last hw hv hw', by simp [itemBytes, hu]⟩
    · cases hnext
termination_by n

/-- What is passed over with the end of an object are members. -/
theorem areMembers_of_skipMembers {n : Nat} {s r : Bytes} (h : skipMembers n s = .ok r) :
    ∃ t, AreMembers t ∧ s = t ++ 0x7D :: r := by
  match n with
  | 0 => cases h
  | n + 1 =>
    rw [skipMembers] at h
    obtain ⟨w₁, hw₁, hs⟩ := exists_white s
    split at h
    · cases h
    · next heq =>
      rw [heq] at hs
      obtain ⟨_, hquoted, hafterName⟩ := bind_eq_ok h
      obtain ⟨name, hname, rfl⟩ := skipText_eq_ok_iff.1 hquoted
      obtain ⟨_, hcolon, hafterColon⟩ := bind_eq_ok hafterName
      obtain ⟨w₂, hw₂, rfl⟩ := white_of_readColon hcolon
      obtain ⟨u, hvalue, hnext⟩ := bind_eq_ok hafterColon
      obtain ⟨w₃, v, hw₃, hv, rfl⟩ := isValue_of_skipValueFuel hvalue
      obtain ⟨w₄, hw₄, hu⟩ := exists_white u
      split at hnext
      · cases hnext
      · next heq =>
        obtain ⟨t, ht, hrest⟩ := areMembers_of_skipMembers hnext
        rw [heq, hrest] at hu
        exact ⟨_, .more hw₁ hname hw₂ hw₃ hv hw₄ ht, by simp [memberBytes, itemBytes, hs, hu]⟩
      · next heq =>
        cases hnext
        rw [heq] at hu
        exact ⟨_, .last hw₁ hname hw₂ hw₃ hv hw₄, by simp [memberBytes, itemBytes, hs, hu]⟩
      · cases hnext
    · cases h
termination_by n

end

/-- A value is passed over up to its end, with the white space before it. -/
theorem skipValue_of_isValue {w t r : Bytes} (hw : White w) (h : IsValue t) (hr : Ends r) :
    skipValue (w ++ (t ++ r)) = .ok r :=
  skipValueFuel_of_isValue h hw (by simp only [List.length_append]; omega) hr

/-- What is passed over is a value, with white space before it. -/
theorem isValue_of_skipValue {s r : Bytes} (h : skipValue s = .ok r) :
    ∃ w t, White w ∧ IsValue t ∧ s = w ++ (t ++ r) :=
  isValue_of_skipValueFuel h

end Availability.Json

import Availability.Proofs.Json.Record

/-!
# Documents by their grammar

What a text denotes, said of its bytes and without a reader: `Denotes` keeps the members of an
object as they are written, also those whose name comes again. Its numbers are the integers of 64
bits, each of which has one spelling. Such a text is read exactly if nothing in it stands too deep,
and what is read is what it denotes, with the members in order and of each name the last.

* `isInteger_iff`: the one spelling of an integer.
* `readValueFuel_iff`, `readItems_iff`, `readMembers_iff`: a value, items and members, up to their
  end.
* `read_iff`: a whole text.
-/

namespace Availability.Json

open Url (utf8 utf8_cons)
open Digits (IsDecimal isDecimal_toDigits toDigits_ofDigitChars)

/-! ## Integers -/

/-- The number that decimal digits make. -/
def digitsValue (s : Bytes) : Nat := s.foldl (fun n b => 10 * n + (b.toNat - 0x30)) 0

/-- The spelling of an integer. A minus before a zero is none of an integer. -/
inductive IsInteger : Bytes → Int → Prop where
  | plain {s : Bytes} : IsWhole s → IsInteger s (digitsValue s)
  | minus {s : Bytes} : IsWhole s → digitsValue s ≠ 0 → IsInteger (0x2D :: s) (-digitsValue s)

theorem digitsValue_utf8 {ds : List Char} (h : ∀ c ∈ ds, c.isDigit = true) :
    digitsValue (utf8 ds) = Nat.ofDigitChars 10 ds 0 := by
  have hfold (n : Nat) :
      (utf8 ds).foldl (fun n b => 10 * n + (b.toNat - 0x30)) n = Nat.ofDigitChars 10 ds n := by
    induction ds generalizing n with
    | nil => rw [Nat.ofDigitChars_nil]; rfl
    | cons c ds ih =>
      have hc := h c List.mem_cons_self
      rw [utf8_cons, utf8_digit hc, List.singleton_append, List.foldl_cons, toNat_digit hc,
        Nat.ofDigitChars_cons]
      exact ih (fun d hd => h d (List.mem_cons_of_mem _ hd)) _
  exact hfold 0

/-- A digit as a character. -/
theorem exists_digit {b : UInt8} (h : 0x30 ≤ b ∧ b ≤ 0x39) :
    ∃ c : Char, c.isDigit = true ∧ String.utf8EncodeChar c = [b] := by
  have hall : ∀ n < 58, 48 ≤ n → (Char.ofNat n).isDigit = true := by decide
  simp only [UInt8.le_iff_toNat_le, UInt8.reduceToNat] at h
  exact ⟨Char.ofNat b.toNat, hall b.toNat (by omega) h.1, Utf8.encodeChar_one (by omega)⟩

theorem AreDigits.exists_chars {s : Bytes} (h : AreDigits s) :
    ∃ ds : List Char, (∀ c ∈ ds, c.isDigit = true) ∧ s = utf8 ds := by
  induction s with
  | nil => exact ⟨[], nofun, rfl⟩
  | cons b s ih =>
    obtain ⟨hb, hs⟩ := List.forall_mem_cons.1 h
    obtain ⟨c, hc, hbytes⟩ := exists_digit hb
    obtain ⟨ds, hds, rfl⟩ := ih hs
    exact ⟨c :: ds, List.forall_mem_cons.2 ⟨hc, hds⟩, by rw [utf8_cons, hbytes]; rfl⟩

/-- Digits before a point are those of a decimal. -/
theorem IsWhole.exists_decimal {s : Bytes} (h : IsWhole s) :
    ∃ ds, IsDecimal ds ∧ s = utf8 ds := by
  cases h with
  | zero => exact ⟨['0'], isDecimal_toDigits 0, rfl⟩
  | @digits b s hlow hhigh hs =>
    have hall : AreDigits (b :: s) :=
      List.forall_mem_cons.2 ⟨⟨UInt8.le_trans (by decide) hlow, hhigh⟩, hs⟩
    obtain ⟨ds, hds, hbytes⟩ := hall.exists_chars
    refine ⟨ds, ⟨?_, hds, fun hhead => ?_⟩, hbytes⟩
    · rintro rfl
      cases hbytes
    · cases ds with
      | nil => cases hhead
      | cons c ds =>
        -- the first byte is no zero
        cases hhead
        rw [utf8_cons, show String.utf8EncodeChar '0' = [0x30] from rfl] at hbytes
        rw [(List.cons.inj hbytes).1] at hlow
        exact absurd hlow (by decide)

theorem IsWhole.eq_toDigits {s : Bytes} (h : IsWhole s) :
    s = utf8 (Nat.toDigits 10 (digitsValue s)) := by
  obtain ⟨ds, hds, rfl⟩ := h.exists_decimal
  rw [digitsValue_utf8 fun _ hc => hds.isDigit hc, toDigits_ofDigitChars hds]

theorem isWhole_toDigits (n : Nat) : IsWhole (utf8 (Nat.toDigits 10 n)) := by
  have hdec := isDecimal_toDigits n
  obtain ⟨c, cs, hcs⟩ := List.exists_cons_of_ne_nil hdec.ne_nil
  rw [hcs] at hdec ⊢
  have hdigit {d : Char} (hd : d ∈ c :: cs) :
      0x30 ≤ UInt8.ofNat d.toNat ∧ UInt8.ofNat d.toNat ≤ 0x39 :=
    isDigit_iff.1 (isDigit_digit (hdec.isDigit hd))
  rw [utf8_digits fun d hd => hdec.isDigit hd, List.map_cons]
  by_cases hzero : c = '0'
  · obtain rfl : cs = [] := by
      have hall := hdec.2.2 (by rw [hzero]; rfl)
      exact (List.cons.inj hall).2
    rw [hzero]
    exact .zero
  · have hc := hdigit List.mem_cons_self
    refine .digits ?_ hc.2 fun b hb => ?_
    · have hne : c.toNat ≠ 48 := fun heq => hzero (Char.toNat_inj.1 heq)
      have hval := toNat_digit (hdec.isDigit List.mem_cons_self)
      simp only [UInt8.le_iff_toNat_le, UInt8.reduceToNat, hval] at hc ⊢
      omega
    · obtain ⟨d, hd, rfl⟩ := List.mem_map.1 hb
      exact hdigit (List.mem_cons_of_mem _ hd)

theorem digitsValue_toDigits (n : Nat) : digitsValue (utf8 (Nat.toDigits 10 n)) = n := by
  rw [digitsValue_utf8 fun _ hc => (isDecimal_toDigits n).isDigit hc,
    Nat.ofDigitChars_ten_toDigits]

/-- An integer has one spelling. -/
theorem isInteger_iff {s : Bytes} {i : Int} : IsInteger s i ↔ s = utf8 (writeInt i) := by
  constructor
  · intro h
    cases h with
    | plain hs =>
      rw [writeInt, if_neg (by omega), Int.natAbs_natCast, List.nil_append]
      exact hs.eq_toDigits
    | @minus s hs hne =>
      rw [writeInt, if_pos (by omega), Int.natAbs_neg, Int.natAbs_natCast]
      exact congrArg (0x2D :: ·) hs.eq_toDigits
  · rintro rfl
    have hwhole := isWhole_toDigits i.natAbs
    have hvalue := digitsValue_toDigits i.natAbs
    unfold writeInt
    split
    · next hneg =>
      have hminus := IsInteger.minus hwhole (by omega)
      rw [hvalue, show -(i.natAbs : Int) = i by omega] at hminus
      exact hminus
    · next hpos =>
      have hplain := IsInteger.plain hwhole
      rw [hvalue, show (i.natAbs : Int) = i by omega] at hplain
      exact hplain

/-! ## Values -/

mutual

/-- A value that is wanted, and what it denotes. -/
inductive Denotes : Bytes → Value → Prop where
  | null : Denotes [0x6E, 0x75, 0x6C, 0x6C] .null
  | true : Denotes [0x74, 0x72, 0x75, 0x65] (.bool .true)
  | false : Denotes [0x66, 0x61, 0x6C, 0x73, 0x65] (.bool .false)
  | integer {s : Bytes} {i : Int} : IsInteger s i → -0x8000000000000000 ≤ i →
      i ≤ 0xffffffffffffffff → Denotes s (.int i)
  | text {s : Bytes} {t : String} : Spells s t.toList → Denotes (0x22 :: (s ++ [0x22])) (.text t)
  | emptyArray {w : Bytes} : White w → Denotes (0x5B :: (w ++ [0x5D])) (.array [])
  | array {s : Bytes} {vs : List Value} : DenoteItems s vs →
      Denotes (0x5B :: (s ++ [0x5D])) (.array vs)
  | emptyObject {w : Bytes} : White w → Denotes (0x7B :: (w ++ [0x7D])) (.object [])
  | object {s : Bytes} {ms : Members} : DenoteMembers s ms →
      Denotes (0x7B :: (s ++ [0x7D])) (.object ms)

/-- The items of an array, at least one. -/
inductive DenoteItems : Bytes → List Value → Prop where
  | last {w s w' : Bytes} {v : Value} : White w → Denotes s v → White w' →
      DenoteItems (itemBytes w s w') [v]
  | more {w s w' t : Bytes} {v : Value} {vs : List Value} : White w → Denotes s v → White w' →
      DenoteItems t vs → DenoteItems (itemBytes w s w' ++ 0x2C :: t) (v :: vs)

/-- The members of an object, at least one, as they are written. -/
inductive DenoteMembers : Bytes → Members → Prop where
  | last {w₁ name w₂ w₃ s w₄ : Bytes} {k : String} {v : Value} :
      White w₁ → Spells name k.toList → White w₂ → White w₃ → Denotes s v → White w₄ →
      DenoteMembers (memberBytes w₁ name w₂ w₃ s w₄) [(k, v)]
  | more {w₁ name w₂ w₃ s w₄ t : Bytes} {k : String} {v : Value} {ms : Members} :
      White w₁ → Spells name k.toList → White w₂ → White w₃ → Denotes s v → White w₄ →
      DenoteMembers t ms →
      DenoteMembers (memberBytes w₁ name w₂ w₃ s w₄ ++ 0x2C :: t) ((k, v) :: ms)

end

/-- A text that is one value, between white space. -/
inductive IsDocument : Bytes → Value → Prop where
  | between {w s w' : Bytes} {v : Value} : White w → Denotes s v → White w' →
      IsDocument (w ++ (s ++ w')) v

theorem IsInteger.starts {s : Bytes} {i : Int} (h : IsInteger s i) :
    ∃ b t, s = b :: t ∧ Start.of b = .number := by
  rw [isInteger_iff.1 h]
  exact writeInt_opens i

theorem Denotes.opens {s : Bytes} {v : Value} (h : Denotes s v) : Opens s := by
  cases h with
  | integer hs =>
    obtain ⟨b, t, rfl, hb⟩ := hs.starts
    exact ⟨b, t, rfl, by rw [hb]; exact nofun⟩
  | _ => exact ⟨_, _, rfl, nofun⟩

theorem Denotes.length_pos {s : Bytes} {v : Value} (h : Denotes s v) : 0 < s.length := by
  obtain ⟨b, t, rfl, -⟩ := h.opens
  exact Nat.succ_pos _

/-- After the white space in front of it, the first item opens. -/
theorem DenoteItems.opens {s : Bytes} {vs : List Value} (h : DenoteItems s vs) (r : Bytes) :
    Opens (skipSpace (s ++ r)) := by
  cases h with
  | last hw hv hw' =>
    simp only [itemBytes, List.append_assoc, hw.skipSpace, (hv.opens.append _).skipSpace]
    exact hv.opens.append _
  | more hw hv hw' hs =>
    simp only [itemBytes, List.append_assoc, hw.skipSpace, (hv.opens.append _).skipSpace]
    exact hv.opens.append _

/-- After the white space in front of it, the first name opens with its quote. -/
theorem DenoteMembers.opens {s : Bytes} {ms : Members} (h : DenoteMembers s ms) (r : Bytes) :
    ∃ w t, White w ∧ s ++ r = w ++ 0x22 :: t := by
  cases h with
  | last hw => exact ⟨_, _, hw, List.append_assoc ..⟩
  | more hw => exact ⟨_, _, hw, by rw [List.append_assoc, memberBytes, List.append_assoc]; rfl⟩

/-! ## What follows an item -/

theorem afterItem_close {w : Bytes} (hw : White w) (r : Bytes) :
    afterItem (w ++ 0x5D :: r) = .ok (.close r) := by
  rw [afterItem, hw.skipSpace, skipSpace_cons rfl]
  rfl

theorem afterItem_next {w s : Bytes} (hw : White w) (h : Opens (skipSpace s)) :
    afterItem (w ++ 0x2C :: s) = .ok (.next (skipSpace s)) := by
  have hcomma := afterItem_comma h
  rw [afterItem, skipSpace_cons rfl] at hcomma
  rw [afterItem, hw.skipSpace, skipSpace_cons rfl]
  simpa only [skipSpace_idem] using hcomma

/-! ## What is read -/

@[simp]
theorem fits_null (depth : Nat) : Value.null.fits depth = true := by cases depth <;> rfl

@[simp]
theorem fits_bool (depth : Nat) (b : Bool) : (Value.bool b).fits depth = true := by
  cases depth <;> rfl

@[simp]
theorem fits_text (depth : Nat) (t : String) : (Value.text t).fits depth = true := by
  cases depth <;> rfl

theorem fits_int {i : Int} (hlow : -0x8000000000000000 ≤ i) (hhigh : i ≤ 0xffffffffffffffff)
    (depth : Nat) : (Value.int i).fits depth = true := by
  cases depth <;> exact decide_eq_true ⟨hlow, hhigh⟩

/-- A value that is read as itself, whatever the depth. -/
theorem ok_iff_of_fits {v : Value} {depth : Nat} {r : Bytes} {p : Value × Bytes}
    (h : v.fits depth = true) (hsorted : v.sorted = v) :
    (Except.ok (v, r) : Except Stop (Value × Bytes)) = .ok p ↔
      v.fits depth = true ∧ p = (v.sorted, r) := by
  rw [hsorted, Except.ok.injEq, eq_comm (a := p)]
  exact (and_iff_right h).symm

theorem readValueFuel_array {n depth : Nat} {s : Bytes} (h : Opens (skipSpace s)) :
    readValueFuel (n + 1) (depth + 1) (0x5B :: s) = readItems n depth [] (skipSpace s) := by
  have hitems : readValueFuel (n + 1) (depth + 1) (0x5B :: skipSpace s) =
      readItems n depth [] (skipSpace s) := readValueFuel_items h
  rw [readValueFuel, skipSpace_cons rfl] at hitems ⊢
  simpa only [show Start.of 0x5B = .array from rfl, skipSpace_idem] using hitems

theorem readValueFuel_object {n depth : Nat} {s t : Bytes} (h : skipSpace s = 0x22 :: t) :
    readValueFuel (n + 1) (depth + 1) (0x7B :: s) = readMembers n depth [] t := by
  rw [readValueFuel, skipSpace_cons rfl]
  simp only [show Start.of 0x7B = .object from rfl, h]

-- The induction is on the fuel. A value spends one on itself, and so does each item and each
-- member; the brackets, the commas and the quotes pay for what the text is shorter by.
mutual

/-- A value is read up to its end, if nothing in it stands too deep. -/
theorem readValueFuel_iff {t : Bytes} {v : Value} (h : Denotes t v) {n : Nat} (depth : Nat)
    {w r : Bytes} {p : Value × Bytes} (hw : White w) (hn : 2 * t.length ≤ n) (hr : Ends r) :
    readValueFuel n depth (w ++ (t ++ r)) = .ok p ↔ v.fits depth = true ∧ p = (v.sorted, r) := by
  have hpos := h.length_pos
  obtain ⟨m, rfl⟩ : ∃ m, n = m + 1 := ⟨n - 1, by omega⟩
  have hspace : readValueFuel (m + 1) depth (w ++ (t ++ r)) =
      readValueFuel (m + 1) depth (t ++ r) := by
    rw [readValueFuel, readValueFuel, hw.skipSpace]
  rw [hspace]
  cases h with
  | null => exact ok_iff_of_fits (fits_null depth) rfl
  | true => exact ok_iff_of_fits (fits_bool depth true) rfl
  | false => exact ok_iff_of_fits (fits_bool depth false) rfl
  | @integer _ i hs hlow hhigh =>
    have hread := readNumber_writeInt hlow hhigh hr
    rw [← isInteger_iff.1 hs] at hread
    obtain ⟨b, t, rfl, hb⟩ := hs.starts
    rw [List.cons_append] at hread ⊢
    rw [readValueFuel_cons hb, hread]
    exact ok_iff_of_fits (fits_int hlow hhigh depth) rfl
  | @text s t hs =>
    have hread : readText (s ++ 0x22 :: r) = .ok (t, r) := readText_eq_ok_iff.2 ⟨s, hs, rfl⟩
    rw [readValueFuel, List.cons_append, List.append_assoc, skipSpace_cons rfl]
    simp only [show Start.of 0x22 = .text from rfl, List.singleton_append, hread]
    exact ok_iff_of_fits (fits_text depth t) rfl
  | @emptyArray w' hw' =>
    cases depth with
    | zero => exact ⟨nofun, fun h => nomatch h.1⟩
    | succ depth =>
      have hread : readValueFuel (m + 1) (depth + 1) (0x5B :: (w' ++ 0x5D :: r)) =
          .ok (.array [], r) := by
        rw [readValueFuel, skipSpace_cons rfl]
        simp only [show Start.of 0x5B = .array from rfl, hw'.skipSpace,
          skipSpace_cons (show isSpace 0x5D = false from rfl)]
      rw [List.cons_append, List.append_assoc, List.singleton_append, hread]
      exact ok_iff_of_fits rfl rfl
  | @array s vs hs =>
    cases depth with
    | zero => exact ⟨nofun, fun h => nomatch h.1⟩
    | succ depth =>
      simp only [List.length_cons, List.length_append] at hn
      rw [List.cons_append, List.append_assoc, List.singleton_append,
        readValueFuel_array (hs.opens _)]
      exact readItems_iff hs depth [] (by omega)
  | @emptyObject w' hw' =>
    cases depth with
    | zero => exact ⟨nofun, fun h => nomatch h.1⟩
    | succ depth =>
      have hread : readValueFuel (m + 1) (depth + 1) (0x7B :: (w' ++ 0x7D :: r)) =
          .ok (.object [], r) := by
        rw [readValueFuel, skipSpace_cons rfl]
        simp only [show Start.of 0x7B = .object from rfl, hw'.skipSpace,
          skipSpace_cons (show isSpace 0x7D = false from rfl)]
      rw [List.cons_append, List.append_assoc, List.singleton_append, hread]
      exact ok_iff_of_fits rfl rfl
  | @object s ms hs =>
    cases depth with
    | zero => exact ⟨nofun, fun h => nomatch h.1⟩
    | succ depth =>
      simp only [List.length_cons, List.length_append] at hn
      obtain ⟨w', t, hw', hbytes⟩ := hs.opens (0x7D :: r)
      have hspace : skipSpace (s ++ 0x7D :: r) = 0x22 :: t := by
        rw [hbytes, hw'.skipSpace, skipSpace_cons rfl]
      rw [List.cons_append, List.append_assoc, List.singleton_append,
        readValueFuel_object hspace]
      exact readMembers_iff hs depth [] hspace (by omega)
termination_by n

/-- The items of an array are read with the end of it. -/
theorem readItems_iff {s : Bytes} {vs : List Value} (h : DenoteItems s vs) {n : Nat} (depth : Nat)
    (done : List Value) {r : Bytes} {p : Value × Bytes} (hn : 2 * s.length + 1 ≤ n) :
    readItems n depth done (skipSpace (s ++ 0x5D :: r)) = .ok p ↔
      itemsFit depth vs = true ∧ p = (.array (done.reverse ++ sortedItems vs), r) := by
  obtain ⟨m, rfl⟩ : ∃ m, n = m + 1 := ⟨n - 1, by omega⟩
  cases h with
  | @last w s w' v hw hv hw' =>
    simp only [itemBytes, List.length_append] at hn
    have hvalue {p : Value × Bytes} := readValueFuel_iff hv depth (n := m) (p := p)
      white_nil (by omega) (ends_append hw' (ends_itemsEnd r))
    simp only [itemBytes, List.append_assoc, hw.skipSpace, (hv.opens.append _).skipSpace]
    rw [readItems, bind_eq_ok_iff]
    simp only [List.nil_append] at hvalue
    simp only [hvalue, and_assoc, exists_and_left, exists_eq_left, afterItem_close hw', bind,
      Except.bind, Except.ok.injEq]
    simp [itemsFit, sortedItems, eq_comm (a := p)]
  | @more w s w' t v vs hw hv hw' hs =>
    simp only [itemBytes, List.length_append, List.length_cons] at hn
    have hvalue {p : Value × Bytes} := readValueFuel_iff hv depth (n := m) (p := p)
      white_nil (by omega) (ends_append hw' (ends_comma (t ++ 0x5D :: r)))
    have hmore := readItems_iff hs depth (v.sorted :: done) (n := m) (r := r) (p := p) (by omega)
    simp only [itemBytes, List.append_assoc, List.cons_append, hw.skipSpace,
      (hv.opens.append _).skipSpace]
    rw [readItems, bind_eq_ok_iff]
    simp only [List.nil_append] at hvalue
    simp only [hvalue, and_assoc, exists_and_left, exists_eq_left, afterItem_next hw' (hs.opens _),
      bind, Except.bind, hmore]
    simp [itemsFit, sortedItems, and_assoc]
termination_by n

/-- The members of an object are read with the end of it. -/
theorem readMembers_iff {s : Bytes} {ms : Members} (h : DenoteMembers s ms) {n : Nat} (depth : Nat)
    (done : Members) {r t : Bytes} {p : Value × Bytes}
    (ht : skipSpace (s ++ 0x7D :: r) = 0x22 :: t) (hn : 2 * s.length + 1 ≤ n) :
    readMembers n depth done t = .ok p ↔ membersFit depth ms = true ∧
      p = (.object ((sortedMembers ms).foldl (fun ms p => Members.insert p.1 p.2 ms) done), r) := by
  obtain ⟨m, rfl⟩ : ∃ m, n = m + 1 := ⟨n - 1, by omega⟩
  cases h with
  | @last w₁ name w₂ w₃ s w₄ k v hw₁ hname hw₂ hw₃ hv hw₄ =>
    simp only [memberBytes, itemBytes, List.length_append, List.length_cons] at hn
    have hvalue {p : Value × Bytes} := readValueFuel_iff hv depth (n := m) (p := p)
      hw₃ (by omega) (ends_append hw₄ (ends_membersEnd r))
    simp only [memberBytes, itemBytes, List.append_assoc, List.cons_append, hw₁.skipSpace,
      skipSpace_cons (show isSpace 0x22 = false from rfl), List.cons.injEq, true_and] at ht
    subst ht
    rw [readMembers, readText_eq_ok_iff.2 ⟨name, hname, rfl⟩]
    simp only [bind_eq_ok_iff, Except.ok.injEq, exists_eq_left', readColon_append hw₂, hvalue,
      and_assoc, exists_and_left, exists_eq_left, afterMember_close hw₄]
    simp [membersFit, sortedMembers, eq_comm (a := p)]
  | @more w₁ name w₂ w₃ s w₄ t' k v ms hw₁ hname hw₂ hw₃ hv hw₄ hs =>
    simp only [memberBytes, itemBytes, List.length_append, List.length_cons] at hn
    have hvalue {p : Value × Bytes} := readValueFuel_iff hv depth (n := m) (p := p)
      hw₃ (by omega) (ends_append hw₄ (ends_comma (t' ++ 0x7D :: r)))
    obtain ⟨w, u, hw, hbytes⟩ := hs.opens (0x7D :: r)
    have hafter : afterMember (w₄ ++ 0x2C :: (t' ++ 0x7D :: r)) = .ok (.next u) := by
      rw [hbytes]
      exact afterMember_next hw₄ hw u
    have hmore := readMembers_iff hs depth (done.insert k v.sorted) (n := m) (p := p) (r := r)
      (t := u) (by rw [hbytes, hw.skipSpace, skipSpace_cons rfl]) (by omega)
    simp only [memberBytes, itemBytes, List.append_assoc, List.cons_append, hw₁.skipSpace,
      skipSpace_cons (show isSpace 0x22 = false from rfl), List.cons.injEq, true_and] at ht
    subst ht
    rw [readMembers, readText_eq_ok_iff.2 ⟨name, hname, rfl⟩]
    simp only [bind_eq_ok_iff, Except.ok.injEq, exists_eq_left', readColon_append hw₂, hvalue,
      and_assoc, exists_and_left, exists_eq_left, hafter, hmore]
    simp [membersFit, sortedMembers, and_assoc]
termination_by n

end

/-- A document is read if nothing in it stands too deep, and then as what it denotes with the
members of its objects in order. -/
theorem read_iff {s : Bytes} {v u : Value} (h : IsDocument s v) :
    read s = .ok u ↔ v.fits depthMax = true ∧ u = v.sorted := by
  cases h with
  | @between w s w' _ hw hv hw' =>
    have hvalue {p : Value × Bytes} :=
      readValueFuel_iff hv depthMax (n := 2 * (w ++ (s ++ w')).length + 2) (p := p) hw
        (by simp only [List.length_append]; omega) (r := w')
        (by simpa using ends_append hw' ends_nil)
    rw [read, mapError_eq_ok_iff]
    simp only [bind_eq_ok_iff, hvalue, and_assoc, exists_and_left, exists_eq_left,
      readEnd_eq_ok_iff.2 hw', Except.ok.injEq, exists_const, true_and, pure, Except.pure,
      eq_comm (a := u)]

end Availability.Json

import Availability.Json.Reader
import Availability.Proofs.Json.Number

/-!
# There and back for JSON values

A written value is read back as the same value with the members of its objects in order, as long
as its numbers are integers of 64 bits and it is not too deep for the reader. Its text has no
controls, so it fits on a line.

* `readValueFuel_write`, `readItems_write`, `readMembers_write`: a value, the items of an array and
  the members of an object are read up to the end of their text, whatever follows.
* `read_write`: the whole text of a value.
* `newline_notMem_write`: no line break is in it.
-/

namespace Availability.Json

open Url (utf8 utf8_cons)

/-! ## What is read back -/

mutual

/-- A value with the members of its objects sorted by name, of each name the last. -/
def Value.sorted : Value → Value
  | .array vs => .array (sortedItems vs)
  | .object ms => .object (Members.ofList (sortedMembers ms))
  | .null => .null
  | .bool b => .bool b
  | .number n => .number n
  | .text s => .text s

/-- The items of an array with their members sorted. -/
def sortedItems : List Value → List Value
  | [] => []
  | v :: vs => v.sorted :: sortedItems vs

/-- The members of an object with the members within them sorted. -/
def sortedMembers : Members → Members
  | [] => []
  | (k, v) :: ms => (k, v.sorted) :: sortedMembers ms

end

mutual

/-- Whether a value can be read back where `depth` more brackets may be open: its numbers are
integers of 64 bits, and nothing in it stands deeper. -/
def Value.fits : (depth : Nat) → Value → Bool
  | _, .number (.int i) => decide (-0x8000000000000000 ≤ i ∧ i ≤ 0xffffffffffffffff)
  | _, .number (.real _) => false
  | 0, .array _ => false
  | 0, .object _ => false
  | depth + 1, .array vs => itemsFit depth vs
  | depth + 1, .object ms => membersFit depth ms
  | _, .null => true
  | _, .bool _ => true
  | _, .text _ => true

/-- Whether the items of an array can be read back. -/
def itemsFit (depth : Nat) : List Value → Bool
  | [] => true
  | v :: vs => v.fits depth && itemsFit depth vs

/-- Whether the members of an object can be read back. -/
def membersFit (depth : Nat) : Members → Bool
  | [] => true
  | (_, v) :: ms => v.fits depth && membersFit depth ms

end

/-! ## How a value starts -/

/-- Whether a text starts with the first byte of a value. -/
def Opens (s : Bytes) : Prop := ∃ b t, s = b :: t ∧ Start.of b ≠ .other

theorem isSpace_of_start {b : UInt8} (h : Start.of b ≠ .other) : isSpace b = false := by
  cases hb : isSpace b with
  | false => rfl
  | true =>
    simp only [isSpace, Bool.or_eq_true, beq_iff_eq] at hb
    rcases hb with ((rfl | rfl) | rfl) | rfl <;> exact absurd rfl h

theorem skipSpace_cons {b : UInt8} (h : isSpace b = false) (s : Bytes) :
    skipSpace (b :: s) = b :: s := by
  simp [skipSpace, h]

theorem Opens.skipSpace {s : Bytes} (h : Opens s) : skipSpace s = s := by
  obtain ⟨b, t, rfl, hb⟩ := h
  exact skipSpace_cons (isSpace_of_start hb) t

theorem Opens.append {s : Bytes} (h : Opens s) (r : Bytes) : Opens (s ++ r) := by
  obtain ⟨b, t, rfl, hb⟩ := h
  exact ⟨b, t ++ r, rfl, hb⟩

theorem start_digit {c : Char} (h : c.isDigit = true) :
    Start.of (UInt8.ofNat c.toNat) = .number := by
  have hall : ∀ n < 58, 48 ≤ n → Start.of (UInt8.ofNat n) = .number := by decide
  have := Digits.toNat_of_isDigit h
  exact hall c.toNat this.2 this.1

theorem writeInt_opens (i : Int) :
    ∃ b t, utf8 (writeInt i) = b :: t ∧ Start.of b = .number := by
  unfold writeInt
  split
  · exact ⟨0x2D, _, rfl, rfl⟩
  · obtain ⟨c, cs, hcs⟩ := List.exists_cons_of_ne_nil (Digits.isDecimal_toDigits i.natAbs).ne_nil
    have hc : c.isDigit = true :=
      (Digits.isDecimal_toDigits i.natAbs).isDigit (hcs ▸ List.mem_cons_self)
    refine ⟨UInt8.ofNat c.toNat, utf8 cs, ?_, start_digit hc⟩
    rw [List.nil_append, hcs, utf8_cons, utf8_digit hc]
    rfl

theorem writeValue_opens {v : Value} {depth : Nat} (h : v.fits depth = true) :
    Opens (utf8 (writeValue v)) := by
  match v with
  | .null => exact ⟨_, _, rfl, nofun⟩
  | .bool true => exact ⟨_, _, rfl, nofun⟩
  | .bool false => exact ⟨_, _, rfl, nofun⟩
  | .number (.real x) => cases depth <;> cases h
  | .number (.int i) =>
    obtain ⟨b, t, hbytes, hb⟩ := writeInt_opens i
    exact ⟨b, t, hbytes, by rw [hb]; exact nofun⟩
  | .text s => exact ⟨0x22, _, rfl, nofun⟩
  | .array [] => exact ⟨_, _, rfl, nofun⟩
  | .array (v :: vs) => exact ⟨0x5B, _, rfl, nofun⟩
  | .object [] => exact ⟨_, _, rfl, nofun⟩
  | .object ((k, v) :: ms) => exact ⟨0x7B, _, rfl, nofun⟩

/-! ## What stands between values -/

theorem ends_comma (r : Bytes) : Ends (0x2C :: r) := by
  rintro b ⟨⟩
  decide

theorem ends_itemsEnd (r : Bytes) : Ends (0x5D :: r) := by
  rintro b ⟨⟩
  decide

theorem ends_membersEnd (r : Bytes) : Ends (0x7D :: r) := by
  rintro b ⟨⟩
  decide

theorem ends_writeItems (vs : List Value) (r : Bytes) : Ends (utf8 (writeItems vs) ++ r) := by
  cases vs with
  | nil => exact ends_itemsEnd r
  | cons v vs => exact ends_comma _

theorem ends_writeMembers (ms : Members) (r : Bytes) : Ends (utf8 (writeMembers ms) ++ r) := by
  cases ms with
  | nil => exact ends_membersEnd r
  | cons m ms => exact ends_comma _

theorem afterItem_comma {s : Bytes} (h : Opens s) : afterItem (0x2C :: s) = .ok (.next s) := by
  have hspace := h.skipSpace
  obtain ⟨b, t, rfl, hb⟩ := h
  rw [afterItem, skipSpace_cons rfl]
  simp only [hspace]
  split
  · next heq => cases heq
  · next heq =>
    cases heq
    exact absurd rfl hb
  · rfl

/-! ## The way there and back -/

theorem readValueFuel_cons {n depth : Nat} {b : UInt8} (h : Start.of b = .number) (s : Bytes) :
    readValueFuel (n + 1) depth (b :: s) =
      (readNumber (b :: s)).map fun p => (.number p.1, p.2) := by
  have hspace : isSpace b = false := isSpace_of_start (by rw [h]; exact nofun)
  rw [readValueFuel, skipSpace_cons hspace]
  simp only [h]

theorem readValueFuel_items {n depth : Nat} {s : Bytes} (h : Opens s) :
    readValueFuel (n + 1) (depth + 1) (0x5B :: s) = readItems n depth [] s := by
  have hspace := h.skipSpace
  obtain ⟨b, t, rfl, hb⟩ := h
  rw [readValueFuel, skipSpace_cons rfl]
  simp only [show Start.of 0x5B = .array from rfl, hspace]
  split
  · next heq => cases heq
  · next heq =>
    cases heq
    exact absurd rfl hb
  · rfl

theorem readValueFuel_text {n depth : Nat} (t : String) (r : Bytes) :
    readValueFuel (n + 1) depth (utf8 (writeText t) ++ r) = .ok (.text t, r) := by
  rw [utf8_writeText]
  exact congrArg (Except.map fun p => (Value.text p.1, p.2)) (readText_writeText t r)

theorem length_writeItems_pos (vs : List Value) : 0 < (writeItems vs).length := by
  cases vs <;> simp [writeItems]

theorem length_writeMembers_pos (ms : Members) : 0 < (writeMembers ms).length := by
  cases ms <;> simp [writeMembers]

theorem utf8_item (v : Value) (rest : List Char) (r : Bytes) :
    utf8 (writeValue v ++ rest) ++ r = utf8 (writeValue v) ++ (utf8 rest ++ r) := by
  rw [utf8_append, List.append_assoc]

theorem utf8_member (k : String) (v : Value) (rest : List Char) (r : Bytes) :
    utf8 (writeText k ++ ':' :: writeValue v ++ rest) ++ r =
      0x22 :: (utf8 (k.toList.flatMap writeChar) ++ 0x22 :: 0x3A ::
        (utf8 (writeValue v) ++ (utf8 rest ++ r))) := by
  rw [utf8_append, utf8_append, utf8_cons, List.append_assoc, List.append_assoc, utf8_writeText]
  rfl

-- The induction is on the fuel. A value spends one on itself, and so does each item and each
-- member; what is written of the others is shorter by a mark at least, which pays for two.
mutual

/-- A written value is read up to its end. -/
theorem readValueFuel_write (v : Value) {n depth : Nat} {r : Bytes}
    (hn : 2 * (writeValue v).length ≤ n + 1) (hv : v.fits depth = true) (hr : Ends r) :
    readValueFuel (n + 1) depth (utf8 (writeValue v) ++ r) = .ok (v.sorted, r) := by
  match v, depth with
  | .null, _ => rfl
  | .bool true, _ => rfl
  | .bool false, _ => rfl
  | .number (.int i), depth =>
    obtain ⟨hlow, hhigh⟩ : -0x8000000000000000 ≤ i ∧ i ≤ 0xffffffffffffffff := by
      simpa [Value.fits] using hv
    have hread := readNumber_writeInt hlow hhigh hr
    obtain ⟨b, t, hbytes, hb⟩ := writeInt_opens i
    rw [hbytes, List.cons_append] at hread
    rw [writeValue, writeNumber, hbytes, List.cons_append, readValueFuel_cons hb, hread]
    rfl
  | .text t, _ => exact readValueFuel_text t r
  | .array [], depth + 1 => rfl
  | .array (v :: vs), depth + 1 =>
    obtain ⟨hv, hvs⟩ : v.fits depth = true ∧ itemsFit depth vs = true := by
      simpa [Value.fits, itemsFit] using hv
    have hpos := length_writeItems_pos vs
    simp only [writeValue, List.length_cons, List.length_append] at hn
    obtain ⟨m, rfl⟩ : ∃ m, n = m + 1 := ⟨n - 1, by omega⟩
    have hitems := readItems_write vs [] (n := m) (r := r) (by omega) hv hvs
    have hbytes : utf8 (writeValue (.array (v :: vs))) ++ r =
        0x5B :: (utf8 (writeValue v) ++ (utf8 (writeItems vs) ++ r)) :=
      congrArg (0x5B :: ·) (utf8_item v (writeItems vs) r)
    rw [hbytes, readValueFuel_items ((writeValue_opens hv).append _), hitems]
    rfl
  | .object [], depth + 1 => rfl
  | .object ((k, v) :: ms), depth + 1 =>
    obtain ⟨hv, hms⟩ : v.fits depth = true ∧ membersFit depth ms = true := by
      simpa [Value.fits, membersFit] using hv
    have hpos := length_writeMembers_pos ms
    simp only [writeValue, List.length_cons, List.length_append] at hn
    obtain ⟨m, rfl⟩ : ∃ m, n = m + 1 := ⟨n - 1, by omega⟩
    have hmembers := readMembers_write ms k [] (n := m) (r := r) (by omega) hv hms
    have hbytes : utf8 (writeValue (.object ((k, v) :: ms))) ++ r =
        0x7B :: 0x22 :: (utf8 (k.toList.flatMap writeChar) ++ 0x22 :: 0x3A ::
          (utf8 (writeValue v) ++ (utf8 (writeMembers ms) ++ r))) :=
      congrArg (0x7B :: ·) (utf8_member k v (writeMembers ms) r)
    rw [hbytes]
    exact hmembers
termination_by n

/-- The items of an array are read up to the end of it. -/
theorem readItems_write (vs done : List Value) {v : Value} {n depth : Nat} {r : Bytes}
    (hn : 2 * ((writeValue v).length + (writeItems vs).length) ≤ n + 1)
    (hv : v.fits depth = true) (hvs : itemsFit depth vs = true) :
    readItems (n + 1) depth done (utf8 (writeValue v) ++ (utf8 (writeItems vs) ++ r)) =
      .ok (.array (done.reverse ++ sortedItems (v :: vs)), r) := by
  have hpos := length_writeItems_pos vs
  obtain ⟨m, rfl⟩ : ∃ m, n = m + 1 := ⟨n - 1, by omega⟩
  have hvalue := readValueFuel_write v (n := m) (by omega) hv (ends_writeItems vs r)
  rw [readItems, hvalue]
  match vs with
  | [] =>
    have hafter : afterItem (utf8 (writeItems []) ++ r) = .ok (.close r) := rfl
    simp only [bind, Except.bind, hafter, List.reverse_cons]
    rfl
  | w :: ws =>
    obtain ⟨hw, hws⟩ : w.fits depth = true ∧ itemsFit depth ws = true := by
      simpa [itemsFit] using hvs
    have hbytes : utf8 (writeItems (w :: ws)) ++ r =
        0x2C :: (utf8 (writeValue w) ++ (utf8 (writeItems ws) ++ r)) :=
      congrArg (0x2C :: ·) (utf8_item w (writeItems ws) r)
    have hafter := afterItem_comma ((writeValue_opens hw).append (utf8 (writeItems ws) ++ r))
    simp only [writeItems, List.length_cons, List.length_append] at hn
    have hitems := readItems_write ws (v.sorted :: done) (n := m) (r := r) (by omega) hw
      hws
    rw [hbytes]
    simp only [bind, Except.bind, hafter, hitems]
    simp [sortedItems]
termination_by n

/-- The members of an object are read up to the end of it. -/
theorem readMembers_write (ms : Members) (k : String) (done : Members) {v : Value} {n depth : Nat}
    {r : Bytes}
    (hn : 2 * ((writeValue v).length + (writeMembers ms).length) ≤ n + 1)
    (hv : v.fits depth = true) (hms : membersFit depth ms = true) :
    readMembers (n + 1) depth done (utf8 (k.toList.flatMap writeChar) ++ 0x22 :: 0x3A ::
        (utf8 (writeValue v) ++ (utf8 (writeMembers ms) ++ r))) =
      .ok (.object
        ((sortedMembers ((k, v) :: ms)).foldl (fun ms p => Members.insert p.1 p.2 ms) done),
        r) := by
  have hpos := length_writeMembers_pos ms
  obtain ⟨m, rfl⟩ : ∃ m, n = m + 1 := ⟨n - 1, by omega⟩
  have hvalue := readValueFuel_write v (n := m) (by omega) hv (ends_writeMembers ms r)
  have hcolon (s : Bytes) : readColon (0x3A :: s) = .ok s := rfl
  rw [readMembers, readText_writeText]
  simp only [bind, Except.bind, hcolon, hvalue]
  match ms with
  | [] => rfl
  | (l, w) :: ms =>
    obtain ⟨hw, hms⟩ : w.fits depth = true ∧ membersFit depth ms = true := by
      simpa [membersFit] using hms
    have hbytes : utf8 (writeMembers ((l, w) :: ms)) ++ r =
        0x2C :: 0x22 :: (utf8 (l.toList.flatMap writeChar) ++ 0x22 :: 0x3A ::
          (utf8 (writeValue w) ++ (utf8 (writeMembers ms) ++ r))) :=
      congrArg (0x2C :: ·) (utf8_member l w (writeMembers ms) r)
    have hafter (s : Bytes) : afterMember (0x2C :: 0x22 :: s) = .ok (.next s) := rfl
    simp only [writeMembers, List.length_cons, List.length_append] at hn
    have hmembers := readMembers_write ms l (done.insert k v.sorted) (n := m) (r := r)
      (by omega) hw hms
    rw [hbytes]
    simp only [hafter, hmembers]
    rfl
termination_by n

end

theorem length_le_length_utf8 (cs : List Char) : cs.length ≤ (utf8 cs).length := by
  induction cs with
  | nil => exact Nat.le_refl _
  | cons c cs ih =>
    have := Url.length_utf8EncodeChar_pos c
    rw [utf8_cons, List.length_append, List.length_cons]
    omega

/-- The text of a value is read back as the value, with the members of its objects in order. -/
theorem read_write {v : Value} (h : v.fits depthMax = true) :
    read (Utf8.encode (write v)) = .ok v.sorted := by
  have hbytes : Utf8.encode (write v) = utf8 (writeValue v) ++ [] := by
    rw [List.append_nil, write, Utf8.encode, String.toList_ofList]
    rfl
  have hlength := length_le_length_utf8 (writeValue v)
  have hvalue := readValueFuel_write v (n := 2 * (utf8 (writeValue v)).length + 1) (r := [])
    (by omega) h ends_nil
  rw [read, hbytes]
  simp only [List.append_nil] at hvalue ⊢
  rw [hvalue]
  rfl

/-! ## On one line -/

theorem printed_of_mem_toDigits {n : Nat} {c : Char} (h : c ∈ Nat.toDigits 10 n) : Printed c := by
  have := Digits.toNat_of_isDigit ((Digits.isDecimal_toDigits n).isDigit h)
  unfold Printed
  omega

theorem printed_of_mem_sign {p : Prop} [Decidable p] {c : Char}
    (h : c ∈ if p then ['-'] else []) : Printed c := by
  split at h
  · rw [List.mem_singleton] at h
    rw [h]
    decide
  · cases h

theorem printed_of_mem_writeInt {i : Int} {c : Char} (h : c ∈ writeInt i) : Printed c := by
  rcases List.mem_append.1 h with h | h
  · exact printed_of_mem_sign h
  · exact printed_of_mem_toDigits h

theorem printed_of_mem_positional {d : Decimal} {c : Char} (h : c ∈ d.positional) :
    Printed c := by
  have hzero : Printed '0' := by decide
  have hpoint : Printed '.' := by decide
  have hdigits : ∀ c ∈ d.digitChars, Printed c := fun c hc => printed_of_mem_toDigits hc
  unfold Decimal.positional at h
  simp only at h
  split at h
  · rcases List.mem_append.1 h with h | h
    · exact hdigits c h
    · rw [(List.mem_replicate.1 h).2]
      exact hzero
  · split at h
    · simp only [List.mem_append, List.mem_cons] at h
      rcases h with h | rfl | h
      · exact hdigits c (List.mem_of_mem_take h)
      · exact hpoint
      · exact hdigits c (List.mem_of_mem_drop h)
    · simp only [List.cons_append, List.mem_append, List.mem_cons, List.mem_replicate] at h
      rcases h with rfl | rfl | ⟨-, rfl⟩ | h
      · exact hzero
      · exact hpoint
      · exact hzero
      · exact hdigits c h

theorem printed_of_mem_scientific {d : Decimal} {c : Char} (h : c ∈ d.scientific) :
    Printed c := by
  have hdigits : ∀ c ∈ d.digitChars, Printed c := fun c hc => printed_of_mem_toDigits hc
  have hmarks : ∀ c ∈ ['.', 'e', '-', '+'], Printed c := printed_of_all (by decide)
  unfold Decimal.scientific at h
  simp only at h
  rcases List.mem_append.1 h with h | h
  · split at h
    · cases h
    · next hd => exact hdigits c (hd ▸ h)
    · next hd =>
      rw [hd] at hdigits
      simp only [List.mem_cons] at h hdigits
      rcases h with h | rfl | h
      · exact hdigits c (.inl h)
      · exact hmarks _ (by simp)
      · exact hdigits c (.inr h)
  · simp only [List.mem_cons] at h
    rcases h with rfl | h | h
    · exact hmarks _ (by simp)
    · split at h <;> exact hmarks _ (by simp [h])
    · exact printed_of_mem_toDigits h

theorem printed_of_mem_realChars {x : Binary64} {c : Char} (h : c ∈ realChars x) : Printed c := by
  have hzero : ∀ c ∈ ['0', '.', '0'], Printed c := printed_of_all (by decide)
  unfold realChars at h
  simp only at h
  split at h
  · rcases List.mem_append.1 h with h | h
    · exact printed_of_mem_sign h
    · exact hzero c h
  · split at h
    · simp only [List.append_assoc, List.mem_append] at h
      rcases h with h | h | h
      · exact printed_of_mem_sign h
      · exact printed_of_mem_positional h
      · split at h
        · exact hzero c (List.mem_cons_of_mem _ h)
        · cases h
    · rcases List.mem_append.1 h with h | h
      · exact printed_of_mem_sign h
      · exact printed_of_mem_scientific h

mutual

/-- A written value has no controls. -/
theorem printed_of_mem_writeValue {v : Value} {c : Char} (h : c ∈ writeValue v) : Printed c := by
  match v with
  | .null =>
    have hword : ∀ c ∈ writeValue .null, Printed c := printed_of_all (by decide)
    exact hword c h
  | .bool b =>
    have hword : ∀ c ∈ writeValue (.bool b), Printed c := by
      cases b with
      | false => exact printed_of_all (by decide)
      | true => exact printed_of_all (by decide)
    exact hword c h
  | .number (.int i) => exact printed_of_mem_writeInt h
  | .number (.real x) => exact printed_of_mem_realChars h
  | .text t => exact printed_of_mem_writeText h
  | .array [] =>
    have hword : ∀ c ∈ writeValue (.array []), Printed c := printed_of_all (by decide)
    exact hword c h
  | .array (v :: vs) =>
    simp only [writeValue, List.cons_append, List.mem_cons, List.mem_append] at h
    rcases h with rfl | h | h
    · decide
    · exact printed_of_mem_writeValue h
    · exact printed_of_mem_writeItems h
  | .object [] =>
    have hword : ∀ c ∈ writeValue (.object []), Printed c := printed_of_all (by decide)
    exact hword c h
  | .object ((k, v) :: ms) =>
    simp only [writeValue, List.cons_append, List.append_assoc, List.mem_cons,
      List.mem_append] at h
    rcases h with rfl | h | rfl | h | h
    · decide
    · exact printed_of_mem_writeText h
    · decide
    · exact printed_of_mem_writeValue h
    · exact printed_of_mem_writeMembers h

theorem printed_of_mem_writeItems {vs : List Value} {c : Char} (h : c ∈ writeItems vs) :
    Printed c := by
  match vs with
  | [] =>
    rw [writeItems, List.mem_singleton] at h
    rw [h]
    decide
  | v :: vs =>
    simp only [writeItems, List.cons_append, List.mem_cons, List.mem_append] at h
    rcases h with rfl | h | h
    · decide
    · exact printed_of_mem_writeValue h
    · exact printed_of_mem_writeItems h

theorem printed_of_mem_writeMembers {ms : Members} {c : Char} (h : c ∈ writeMembers ms) :
    Printed c := by
  match ms with
  | [] =>
    rw [writeMembers, List.mem_singleton] at h
    rw [h]
    decide
  | (k, v) :: ms =>
    simp only [writeMembers, List.cons_append, List.append_assoc, List.mem_cons,
      List.mem_append] at h
    rcases h with rfl | h | rfl | h | h
    · decide
    · exact printed_of_mem_writeText h
    · decide
    · exact printed_of_mem_writeValue h
    · exact printed_of_mem_writeMembers h

end

/-- No line break is left in the text of a value. -/
theorem newline_notMem_write (v : Value) : 10 ∉ Utf8.encode (write v) := by
  intro h
  rw [write, Utf8.encode, String.toList_ofList, List.mem_flatMap] at h
  obtain ⟨c, hc, hb⟩ := h
  have hprinted : 0x20 ≤ c.toNat := printed_of_mem_writeValue hc
  have := Utf8.toNat_of_mem_encodeChar hb (by decide)
  have : (10 : UInt8).toNat = 10 := rfl
  omega

end Availability.Json

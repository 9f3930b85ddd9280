import Availability.Url.Percent

/-!
# What the text of a path decodes to

Encoding leaves a percent sign as it is. A text that is encoded for a path therefore decodes to its
own bytes, unless it held what looks like an encoded byte: then it decodes to fewer.

* `decodeBytes_encodeWith`, `length_decodeBytes_lt`: a text without such a place comes back as it
  was, and any other comes back shorter.
* `hasEscape_map_toLower`: such a place may be in capitals.
-/

namespace Availability.Url

/-- Whether a text starts with two hexadecimal digits. -/
def startsHex : List Char → Bool
  | a :: b :: _ => (hexValue? a).isSome && (hexValue? b).isSome
  | _ => false

/-- Whether a text holds what looks like an encoded byte. -/
def hasEscape : List Char → Bool
  | [] => false
  | c :: r => (c == '%' && startsHex r) || hasEscape r

/-- The bytes of characters. -/
def utf8 (cs : List Char) : Bytes := cs.flatMap String.utf8EncodeChar

theorem utf8_toList (s : String) : utf8 s.toList = Utf8.encode s := rfl

@[simp] theorem utf8_cons (c : Char) (cs : List Char) :
    utf8 (c :: cs) = String.utf8EncodeChar c ++ utf8 cs :=
  List.flatMap_cons

theorem length_utf8EncodeChar_pos (c : Char) : 0 < (String.utf8EncodeChar c).length := by
  rw [String.length_utf8EncodeChar]
  exact c.utf8Size_pos

theorem length_utf8_of_sublist {xs ys : List Char} (h : xs.Sublist ys) :
    (utf8 xs).length ≤ (utf8 ys).length := by
  induction h with
  | slnil => exact Nat.le_refl _
  | cons y _ ih =>
    rw [utf8_cons, List.length_append]
    omega
  | cons_cons y _ ih =>
    rw [utf8_cons, utf8_cons, List.length_append, List.length_append]
    omega

theorem utf8_inj {xs ys : List Char} (h : utf8 xs = utf8 ys) : xs = ys := by
  have hbytes : (String.ofList xs).toByteArray = (String.ofList ys).toByteArray :=
    congrArg List.toByteArray h
  have htext := congrArg String.toList (String.toByteArray_inj.1 hbytes)
  rwa [String.toList_ofList, String.toList_ofList] at htext

/-! ## Encoding and decoding, character by character -/

theorem encodeWith_cons (set : Char → Bool) (c : Char) (cs : List Char) :
    encodeWith set (c :: cs) =
      (if set c then (String.utf8EncodeChar c).flatMap encodeByte else [c]) ++ encodeWith set cs :=
  List.flatMap_cons

theorem encodeWith_cons_of_not {set : Char → Bool} {c : Char} (h : set c = false)
    (cs : List Char) : encodeWith set (c :: cs) = c :: encodeWith set cs := by
  rw [encodeWith_cons, h]
  rfl

theorem decodeBytes_encodeBytes (bs : Bytes) (r : List Char) :
    decodeBytes (bs.flatMap encodeByte ++ r) = bs ++ decodeBytes r := by
  induction bs with
  | nil => rfl
  | cons b bs ih =>
    rw [List.flatMap_cons, List.append_assoc, decodeBytes_encodeByte, ih]
    rfl

theorem decodeBytes_cons_of_ne {c : Char} (h : c ≠ '%') (r : List Char) :
    decodeBytes (c :: r) = String.utf8EncodeChar c ++ decodeBytes r := by
  rw [decodeBytes]
  rintro a b r' heq
  cases heq
  exact absurd rfl h

theorem decodeBytes_percent {r : List Char} (h : startsHex r = false) :
    decodeBytes ('%' :: r) = String.utf8EncodeChar '%' ++ decodeBytes r := by
  match r, h with
  | [], _ => rfl
  | [a], _ => rfl
  | a :: b :: r, h =>
    have h : ∀ x y, hexValue? a = some x → hexValue? b ≠ some y := by
      intro x y hx hy
      simp [startsHex, hx, hy] at h
    rw [decodeBytes]
    cases ha : hexValue? a with
    | none => rfl
    | some x =>
      cases hb : hexValue? b with
      | none => rfl
      | some y => exact absurd hb (h x y ha)

/-! ## Digits in an encoded text -/

theorem toNat_lt_of_hexValue? {c : Char} (h : (hexValue? c).isSome = true) : c.toNat < 128 := by
  unfold hexValue? at h
  grind [Char.isDigit, Char.le_def, Char.toNat, UInt32.le_iff_toNat_le]

/-- What may not stand for itself is no hexadecimal digit. -/
theorem hexValue?_of_inPath {c : Char} (h : inPath c = true) : hexValue? c = none := by
  have hall : ∀ n < 128, inPath (Char.ofNat n) = true → hexValue? (Char.ofNat n) = none := by decide
  cases hc : hexValue? c with
  | none => rfl
  | some x =>
    have := hall c.toNat (toNat_lt_of_hexValue? (by rw [hc]; rfl))
    rw [Char.ofNat_toNat] at this
    rw [← hc]
    exact this h

theorem encodeWith_cons_of_mem {set : Char → Bool} {c : Char} (h : set c = true)
    (cs : List Char) : ∃ t, encodeWith set (c :: cs) = '%' :: t := by
  obtain ⟨b, bs, hbs⟩ := List.exists_cons_of_length_pos (length_utf8EncodeChar_pos c)
  rw [encodeWith_cons, if_pos h, hbs, List.flatMap_cons]
  exact ⟨_, rfl⟩

theorem startsHex_cons_of_none {a : Char} (h : hexValue? a = none) (r : List Char) :
    startsHex (a :: r) = false := by
  cases r with
  | nil => rfl
  | cons b r =>
    rw [startsHex, h]
    rfl

theorem startsHex_cons_cons_of_none {b : Char} (h : hexValue? b = none) (a : Char)
    (r : List Char) : startsHex (a :: b :: r) = false := by
  rw [startsHex, h]
  exact Bool.and_false _

/-- An encoded text starts with two digits only where the text itself does: what encoding puts in
starts with a percent sign. -/
theorem startsHex_encodeWith (cs : List Char) :
    startsHex (encodeWith inPath cs) = startsHex cs := by
  have hpercent : hexValue? '%' = none := by decide
  match cs with
  | [] => rfl
  | a :: cs =>
    cases ha : inPath a with
    | true =>
      obtain ⟨t, ht⟩ := encodeWith_cons_of_mem ha cs
      rw [ht, startsHex_cons_of_none hpercent, startsHex_cons_of_none (hexValue?_of_inPath ha)]
    | false =>
      rw [encodeWith_cons_of_not ha]
      match cs with
      | [] => rfl
      | b :: cs =>
        cases hb : inPath b with
        | true =>
          obtain ⟨t, ht⟩ := encodeWith_cons_of_mem hb cs
          rw [ht, startsHex_cons_cons_of_none hpercent,
            startsHex_cons_cons_of_none (hexValue?_of_inPath hb)]
        | false =>
          rw [encodeWith_cons_of_not hb]
          rfl

/-! ## The way there and back -/

/-- A character that starts nothing that looks like an encoded byte comes back as it was. -/
theorem decodeBytes_encodeWith_cons {c : Char} {r : List Char}
    (h : (c == '%' && startsHex r) = false) :
    decodeBytes (encodeWith inPath (c :: r)) =
      String.utf8EncodeChar c ++ decodeBytes (encodeWith inPath r) := by
  cases hc : inPath c with
  | true => rw [encodeWith_cons, if_pos hc, decodeBytes_encodeBytes]
  | false =>
    rw [encodeWith_cons_of_not hc]
    by_cases hp : c = '%'
    · subst hp
      have hr : startsHex r = false := by simpa using h
      exact decodeBytes_percent (by rw [startsHex_encodeWith, hr])
    · exact decodeBytes_cons_of_ne hp _

/-- What looks like an encoded byte comes back as that byte. -/
theorem decodeBytes_encodeWith_escape {a b : Char} (r : List Char)
    (h : startsHex (a :: b :: r) = true) :
    ∃ x, decodeBytes (encodeWith inPath ('%' :: a :: b :: r)) =
      x :: decodeBytes (encodeWith inPath r) := by
  have hin : ∀ c, (hexValue? c).isSome = true → inPath c = false := by
    intro c hc
    cases hp : inPath c with
    | false => rfl
    | true => rw [hexValue?_of_inPath hp] at hc; cases hc
  obtain ⟨ha, hb⟩ : (hexValue? a).isSome = true ∧ (hexValue? b).isSome = true := by
    simpa [startsHex] using h
  obtain ⟨x, hx⟩ := Option.isSome_iff_exists.1 ha
  obtain ⟨y, hy⟩ := Option.isSome_iff_exists.1 hb
  refine ⟨UInt8.ofNat (x * 16 + y), ?_⟩
  rw [encodeWith_cons_of_not (by decide), encodeWith_cons_of_not (hin a ha),
    encodeWith_cons_of_not (hin b hb), decodeBytes, hx, hy]

theorem length_decodeBytes_le (cs : List Char) :
    (decodeBytes (encodeWith inPath cs)).length ≤ (utf8 cs).length := by
  match cs with
  | [] => exact Nat.le_refl _
  | c :: r =>
    cases h : c == '%' && startsHex r with
    | false =>
      have ih := length_decodeBytes_le r
      rw [decodeBytes_encodeWith_cons h, utf8_cons, List.length_append, List.length_append]
      omega
    | true =>
      obtain ⟨hc, hr⟩ : c = '%' ∧ startsHex r = true := by simpa using h
      match r, hr with
      | a :: b :: r, hr =>
        obtain ⟨x, hx⟩ := decodeBytes_encodeWith_escape r hr
        have ih := length_decodeBytes_le r
        have ha := length_utf8EncodeChar_pos a
        rw [hc, hx]
        simp only [utf8_cons, List.length_append, List.length_cons]
        omega
termination_by cs.length

theorem length_decodeBytes_lt {cs : List Char} (h : hasEscape cs = true) :
    (decodeBytes (encodeWith inPath cs)).length < (utf8 cs).length := by
  induction cs with
  | nil => cases h
  | cons c r ih =>
    cases hc : c == '%' && startsHex r with
    | false =>
      have hr : hasEscape r = true := by simpa [hasEscape, hc] using h
      have ih := ih hr
      rw [decodeBytes_encodeWith_cons hc, utf8_cons, List.length_append, List.length_append]
      omega
    | true =>
      -- three characters give one byte, and the rest gives no more than it has
      obtain ⟨hp, hr⟩ : c = '%' ∧ startsHex r = true := by simpa using hc
      match r, hr with
      | a :: b :: r, hr =>
        obtain ⟨x, hx⟩ := decodeBytes_encodeWith_escape r hr
        have hle := length_decodeBytes_le r
        have ha := length_utf8EncodeChar_pos a
        have hb := length_utf8EncodeChar_pos b
        rw [hp, hx]
        simp only [utf8_cons, List.length_append, List.length_cons]
        omega

theorem decodeBytes_encodeWith {cs : List Char} (h : hasEscape cs = false) :
    decodeBytes (encodeWith inPath cs) = utf8 cs := by
  induction cs with
  | nil => rfl
  | cons c r ih =>
    obtain ⟨hc, hr⟩ : (c == '%' && startsHex r) = false ∧ hasEscape r = false := by
      simpa [hasEscape] using h
    rw [decodeBytes_encodeWith_cons hc, ih hr, utf8_cons]

/-! ## Upper and lower case -/

theorem toLower_of_not_isUpper {c : Char} (h : c.isUpper = false) : c.toLower = c :=
  dif_neg (of_decide_eq_false h)

theorem toNat_lt_of_isUpper {c : Char} (h : c.isUpper = true) : c.toNat < 91 :=
  Nat.lt_succ_of_le (UInt32.le_iff_toNat_le.1 (of_decide_eq_true h).2)

theorem toLower_eq_iff {c d : Char} (hd : d.isAlpha = false) : c.toLower = d ↔ c = d := by
  cases hc : c.isUpper with
  | false => rw [toLower_of_not_isUpper hc]
  | true =>
    have hall : ∀ n < 91, (Char.ofNat n).isUpper = true →
        (Char.ofNat n).toLower.isAlpha = true ∧ (Char.ofNat n).isAlpha = true := by decide
    have halpha := hall c.toNat (toNat_lt_of_isUpper hc)
    rw [Char.ofNat_toNat] at halpha
    constructor
    · rintro rfl
      simp [(halpha hc).1] at hd
    · rintro rfl
      simp [(halpha hc).2] at hd

theorem isSome_hexValue?_toLower (c : Char) :
    (hexValue? c.toLower).isSome = (hexValue? c).isSome := by
  cases hc : c.isUpper with
  | false => rw [toLower_of_not_isUpper hc]
  | true =>
    have hall : ∀ n < 91, (Char.ofNat n).isUpper = true →
        (hexValue? (Char.ofNat n).toLower).isSome = (hexValue? (Char.ofNat n)).isSome := by decide
    have hsame := hall c.toNat (toNat_lt_of_isUpper hc)
    rw [Char.ofNat_toNat] at hsame
    exact hsame hc

theorem startsHex_map_toLower (s : List Char) : startsHex (s.map Char.toLower) = startsHex s := by
  match s with
  | [] => rfl
  | [_] => rfl
  | a :: b :: _ => simp only [List.map_cons, startsHex, isSome_hexValue?_toLower]

/-- What looks like an encoded byte does so in lower case too. -/
theorem hasEscape_map_toLower (s : List Char) : hasEscape (s.map Char.toLower) = hasEscape s := by
  induction s with
  | nil => rfl
  | cons c s ih =>
    have hpercent : (c.toLower == '%') = (c == '%') := by
      rw [Bool.eq_iff_iff, beq_iff_eq, beq_iff_eq, toLower_eq_iff (by decide)]
    rw [List.map_cons, hasEscape, hasEscape, ih, startsHex_map_toLower, hpercent]

end Availability.Url

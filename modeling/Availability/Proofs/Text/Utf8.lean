import Availability.Text.Utf8

/-!
# There and back in UTF-8

A text has one sequence of bytes, and this decodes to the text. What the bytes of a character are,
and how they are read back, goes by the number of them; the first byte tells it.

* `front_append`: the bytes of a character are read as that character, whatever follows them.
* `decode_encode`, `decode_eq_ok_iff`: the bytes of a text decode to the text, and no others do.
* `eq_append_of_front`: a character that is read stands in front with all its bytes, so that the
  bytes that are read are the only ones of their character.
* `toNat_of_mem_encodeChar`: a byte below 128 stands for the character of this code, and for no
  other.
* `encode_lt`: texts and their bytes have the same order.
-/

namespace Availability.Utf8

theorem toNat_part {n : Nat} (h : n < 256) : (UInt8.ofNat n).toNat = n :=
  UInt8.toNat_ofNat_of_lt' h

/-! ## The first byte -/

theorem front_one {a : UInt8} (ha : a.toNat < 128) (r : Bytes) :
    front (a :: r) = .char (Char.ofNat a.toNat) r := by
  have h : a < 0x80 := UInt8.lt_iff_toNat_lt.2 ha
  simp [front, h]

theorem front_two {a b : UInt8} (ha : 194 ≤ a.toNat) (ha' : a.toNat < 224)
    (hb : isTail b = true) (r : Bytes) :
    front (a :: b :: r) = .char (Char.ofNat (a.toNat % 32 * 64 + tailBits b)) r := by
  have h₁ : ¬a.toNat < 128 := by omega
  have h₂ : ¬a.toNat < 194 := by omega
  simp [front, UInt8.lt_iff_toNat_lt, h₁, h₂, ha', hb]

theorem front_three {a b c : UInt8} (ha : 224 ≤ a.toNat) (ha' : a.toNat < 240)
    (hb : follows3 a b = true) (hc : isTail c = true) (r : Bytes) :
    front (a :: b :: c :: r) =
      .char (Char.ofNat ((a.toNat % 16 * 64 + tailBits b) * 64 + tailBits c)) r := by
  have h₁ : ¬a.toNat < 128 := by omega
  have h₂ : ¬a.toNat < 194 := by omega
  have h₃ : ¬a.toNat < 224 := by omega
  simp [front, UInt8.lt_iff_toNat_lt, h₁, h₂, h₃, ha', hb, hc]

theorem front_four {a b c d : UInt8} (ha : 240 ≤ a.toNat) (ha' : a.toNat < 245)
    (hb : follows4 a b = true) (hc : isTail c = true) (hd : isTail d = true) (r : Bytes) :
    front (a :: b :: c :: d :: r) =
      .char (Char.ofNat
        (((a.toNat % 8 * 64 + tailBits b) * 64 + tailBits c) * 64 + tailBits d)) r := by
  have h₁ : ¬a.toNat < 128 := by omega
  have h₂ : ¬a.toNat < 194 := by omega
  have h₃ : ¬a.toNat < 224 := by omega
  have h₄ : ¬a.toNat < 240 := by omega
  simp [front, UInt8.lt_iff_toNat_lt, h₁, h₂, h₃, h₄, ha', hb, hc, hd]

/-! ## The bytes after it -/

theorem isTail_part {n : Nat} (h : n < 64) : isTail (UInt8.ofNat (n + 128)) = true := by
  simp only [isTail, Bool.and_eq_true, decide_eq_true_eq, UInt8.le_iff_toNat_le,
    toNat_part (show n + 128 < 256 by omega), UInt8.reduceToNat]
  omega

theorem tailBits_part {n : Nat} (h : n < 64) : tailBits (UInt8.ofNat (n + 128)) = n := by
  rw [tailBits, toNat_part (by omega)]
  omega

theorem follows3_part {m n : Nat} (hm : m < 16) (hn : n < 64) (hlow : m = 0 → 32 ≤ n)
    (hhigh : m = 13 → n < 32) :
    follows3 (UInt8.ofNat (m + 224)) (UInt8.ofNat (n + 128)) = true := by
  have htail := isTail_part hn
  simp only [follows3, ← UInt8.toNat_inj, UInt8.le_iff_toNat_le, UInt8.reduceToNat,
    toNat_part (show m + 224 < 256 by omega), toNat_part (show n + 128 < 256 by omega)]
  split
  · simp only [Bool.and_eq_true, decide_eq_true_eq]
    omega
  · split
    · simp only [Bool.and_eq_true, decide_eq_true_eq]
      omega
    · exact htail

theorem follows4_part {m n : Nat} (hm : m < 8) (hn : n < 64) (hlow : m = 0 → 16 ≤ n)
    (hhigh : m = 4 → n < 16) :
    follows4 (UInt8.ofNat (m + 240)) (UInt8.ofNat (n + 128)) = true := by
  have htail := isTail_part hn
  simp only [follows4, ← UInt8.toNat_inj, UInt8.le_iff_toNat_le, UInt8.reduceToNat,
    toNat_part (show m + 240 < 256 by omega), toNat_part (show n + 128 < 256 by omega)]
  split
  · simp only [Bool.and_eq_true, decide_eq_true_eq]
    omega
  · split
    · simp only [Bool.and_eq_true, decide_eq_true_eq]
      omega
    · exact htail

/-! ## Characters and texts -/

theorem encodeChar_ascii {c : Char} (h : c.toNat < 128) :
    String.utf8EncodeChar c = [UInt8.ofNat c.toNat] := by
  have h : c.val.toNat ≤ 127 := by
    have : c.val.toNat < 128 := h
    omega
  rw [String.utf8EncodeChar]
  simp only [h, if_true]
  rfl

theorem le_of_mem_encodeChar {c : Char} (h : 128 ≤ c.toNat) {b : UInt8}
    (hb : b ∈ String.utf8EncodeChar c) : 128 ≤ b.toNat := by
  have hc : 128 ≤ c.val.toNat := h
  unfold String.utf8EncodeChar at hb
  generalize c.val.toNat = v at hc hb
  simp only at hb
  split at hb
  · omega
  all_goals
    repeat' split at hb
    all_goals
      simp only [List.mem_cons, List.not_mem_nil, or_false] at hb
      rcases hb with rfl | rfl | rfl | rfl <;> rw [toNat_part] <;> omega

theorem encodeChar_ne_nil (c : Char) : String.utf8EncodeChar c ≠ [] := by
  rw [← List.length_pos_iff, String.length_utf8EncodeChar]
  exact Char.utf8Size_pos c

/-- A byte below 128 is all there is of its character. -/
theorem toNat_of_mem_encodeChar {c : Char} {b : UInt8} (hb : b ∈ String.utf8EncodeChar c)
    (h : b.toNat < 128) : c.toNat = b.toNat := by
  by_cases hc : c.toNat < 128
  · rw [encodeChar_ascii hc, List.mem_singleton] at hb
    rw [hb, toNat_part (by omega)]
  · have := le_of_mem_encodeChar (by omega) hb
    omega

/-- The bytes of a character are read as that character. -/
theorem front_append (c : Char) (r : Bytes) : front (String.utf8EncodeChar c ++ r) = .char c r := by
  have hc : Char.ofNat c.val.toNat = c := Char.ofNat_toNat c
  have hvalid : c.val.toNat.isValidChar := c.valid
  unfold String.utf8EncodeChar
  generalize c.val.toNat = v at hc hvalid ⊢
  unfold Nat.isValidChar at hvalid
  simp only
  split
  · simp only [List.cons_append, List.nil_append]
    rw [front_one (by rw [toNat_part] <;> omega), toNat_part (by omega), hc]
  split
  · simp only [List.cons_append, List.nil_append]
    rw [front_two (by rw [toNat_part] <;> omega) (by rw [toNat_part] <;> omega)
        (isTail_part (by omega)),
      toNat_part (by omega), tailBits_part (by omega),
      show (v / 64 % 32 + 192) % 32 * 64 + v % 64 = v by omega, hc]
  split
  · simp only [List.cons_append, List.nil_append]
    rw [front_three (by rw [toNat_part] <;> omega) (by rw [toNat_part] <;> omega)
        (follows3_part (by omega) (by omega) (by omega) (by omega)) (isTail_part (by omega)),
      toNat_part (by omega), tailBits_part (by omega), tailBits_part (by omega),
      show ((v / 4096 % 16 + 224) % 16 * 64 + v / 64 % 64) * 64 + v % 64 = v by omega, hc]
  · simp only [List.cons_append, List.nil_append]
    rw [front_four (by rw [toNat_part] <;> omega) (by rw [toNat_part] <;> omega)
        (follows4_part (by omega) (by omega) (by omega) (by omega)) (isTail_part (by omega))
        (isTail_part (by omega)),
      toNat_part (by omega), tailBits_part (by omega), tailBits_part (by omega),
      tailBits_part (by omega),
      show (((v / 262144 % 8 + 240) % 8 * 64 + v / 4096 % 64) * 64 + v / 64 % 64) * 64 + v % 64 = v
        by omega, hc]

/-- Characters that are read already stay in front of those of the rest. -/
theorem decodeFrom_encode (cs : List Char) (start : Nat) (done : List Char) :
    decodeFrom start done (cs.flatMap String.utf8EncodeChar) =
      .ok (String.ofList (done.reverse ++ cs)) := by
  induction cs generalizing start done with
  | nil =>
    rw [List.flatMap_nil, List.append_nil, decodeFrom]
    rfl
  | cons c cs ih =>
    rw [decodeFrom, List.flatMap_cons]
    split
    · next h => rw [front_append] at h; cases h
    · next c' r h =>
      rw [front_append] at h
      cases h
      rw [ih]
      simp
    · next h => rw [front_append] at h; cases h
    · next h => rw [front_append] at h; cases h

/-- The bytes of a text decode to the text. -/
theorem decode_encode (s : String) : decode (encode s) = .ok s := by
  rw [decode, encode, decodeFrom_encode, List.reverse_nil, List.nil_append, String.ofList_toList]

/-! ## What is read -/

theorem toNat_ofNat {v : Nat} (h : v.isValidChar) : (Char.ofNat v).val.toNat = v := by
  rw [Char.ofNat, dif_pos h]
  rfl

theorem isTail_iff {b : UInt8} : isTail b = true ↔ 128 ≤ b.toNat ∧ b.toNat ≤ 191 := by
  simp only [isTail, Bool.and_eq_true, decide_eq_true_eq, UInt8.le_iff_toNat_le,
    UInt8.reduceToNat]

theorem follows3_iff {a b : UInt8} :
    follows3 a b = true ↔
      isTail b = true ∧ (a.toNat = 224 → 160 ≤ b.toNat) ∧ (a.toNat = 237 → b.toNat ≤ 159) := by
  simp only [follows3, isTail_iff, ← UInt8.toNat_inj, UInt8.reduceToNat]
  split
  · simp only [Bool.and_eq_true, decide_eq_true_eq, UInt8.le_iff_toNat_le, UInt8.reduceToNat]
    omega
  · split
    · simp only [Bool.and_eq_true, decide_eq_true_eq, UInt8.le_iff_toNat_le, UInt8.reduceToNat]
      omega
    · rw [isTail_iff]
      omega

theorem follows4_iff {a b : UInt8} :
    follows4 a b = true ↔
      isTail b = true ∧ (a.toNat = 240 → 144 ≤ b.toNat) ∧ (a.toNat = 244 → b.toNat ≤ 143) := by
  simp only [follows4, isTail_iff, ← UInt8.toNat_inj, UInt8.reduceToNat]
  split
  · simp only [Bool.and_eq_true, decide_eq_true_eq, UInt8.le_iff_toNat_le, UInt8.reduceToNat]
    omega
  · split
    · simp only [Bool.and_eq_true, decide_eq_true_eq, UInt8.le_iff_toNat_le, UInt8.reduceToNat]
      omega
    · rw [isTail_iff]
      omega

theorem encodeChar_one {a : UInt8} (ha : a.toNat < 128) :
    String.utf8EncodeChar (Char.ofNat a.toNat) = [a] := by
  have hv : (Char.ofNat a.toNat).toNat = a.toNat := toNat_ofNat (by left; omega)
  rw [encodeChar_ascii (by omega), hv, UInt8.ofNat_toNat]

theorem encodeChar_two {a b : UInt8} (ha : 194 ≤ a.toNat) (ha' : a.toNat < 224)
    (hb : isTail b = true) :
    String.utf8EncodeChar (Char.ofNat (a.toNat % 32 * 64 + tailBits b)) = [a, b] := by
  rw [isTail_iff] at hb
  unfold tailBits
  have hv := toNat_ofNat (v := a.toNat % 32 * 64 + b.toNat % 64) (by left; omega)
  rw [String.utf8EncodeChar]
  simp only [hv]
  rw [if_neg (by omega), if_pos (by omega)]
  simp only [List.cons.injEq, ← UInt8.toNat_inj, and_true]
  exact ⟨by rw [toNat_part (by omega)]; omega, by rw [toNat_part (by omega)]; omega⟩

theorem encodeChar_three {a b c : UInt8} (ha : 224 ≤ a.toNat) (ha' : a.toNat < 240)
    (hb : follows3 a b = true) (hc : isTail c = true) :
    String.utf8EncodeChar
      (Char.ofNat ((a.toNat % 16 * 64 + tailBits b) * 64 + tailBits c)) = [a, b, c] := by
  rw [follows3_iff, isTail_iff] at hb
  rw [isTail_iff] at hc
  unfold tailBits
  have hv := toNat_ofNat (v := (a.toNat % 16 * 64 + b.toNat % 64) * 64 + c.toNat % 64)
    (by unfold Nat.isValidChar; omega)
  rw [String.utf8EncodeChar]
  simp only [hv]
  rw [if_neg (by omega), if_neg (by omega), if_pos (by omega)]
  simp only [List.cons.injEq, ← UInt8.toNat_inj, and_true]
  exact ⟨by rw [toNat_part (by omega)]; omega, by rw [toNat_part (by omega)]; omega,
    by rw [toNat_part (by omega)]; omega⟩

theorem encodeChar_four {a b c d : UInt8} (ha : 240 ≤ a.toNat) (ha' : a.toNat < 245)
    (hb : follows4 a b = true) (hc : isTail c = true) (hd : isTail d = true) :
    String.utf8EncodeChar
      (Char.ofNat (((a.toNat % 8 * 64 + tailBits b) * 64 + tailBits c) * 64 + tailBits d)) =
        [a, b, c, d] := by
  rw [follows4_iff, isTail_iff] at hb
  rw [isTail_iff] at hc hd
  unfold tailBits
  have hv := toNat_ofNat
    (v := ((a.toNat % 8 * 64 + b.toNat % 64) * 64 + c.toNat % 64) * 64 + d.toNat % 64)
    (by unfold Nat.isValidChar; omega)
  rw [String.utf8EncodeChar]
  simp only [hv]
  rw [if_neg (by omega), if_neg (by omega), if_neg (by omega)]
  simp only [List.cons.injEq, ← UInt8.toNat_inj, and_true]
  exact ⟨by rw [toNat_part (by omega)]; omega, by rw [toNat_part (by omega)]; omega,
    by rw [toNat_part (by omega)]; omega, by rw [toNat_part (by omega)]; omega⟩

theorem eq_nil_of_front {s : Bytes} (h : front s = .nothing) : s = [] := by
  unfold front at h
  repeat' split at h
  all_goals first | rfl | cases h

/-- A character that is read stands in front with all its bytes. -/
theorem eq_append_of_front {s r : Bytes} {c : Char} (h : front s = .char c r) :
    s = String.utf8EncodeChar c ++ r := by
  unfold front at h
  repeat' split at h
  -- four of the ways through end with a character, one for each number of bytes
  all_goals first | (cases h; done) | skip
  all_goals simp only [UInt8.lt_iff_toNat_lt, Nat.not_lt, UInt8.reduceToNat] at *
  all_goals obtain ⟨rfl, rfl⟩ := Front.char.inj h
  · rw [encodeChar_one]
    · rfl
    · assumption
  · rw [encodeChar_two]
    · rfl
    all_goals assumption
  · rw [encodeChar_three]
    · rfl
    all_goals assumption
  · rw [encodeChar_four]
    · rfl
    all_goals assumption

/-- What has been decoded is in front, and the rest are the bytes of what comes after it. -/
theorem eq_of_decodeFrom {start : Nat} {done : List Char} {s : Bytes} {t : String}
    (h : decodeFrom start done s = .ok t) :
    ∃ cs, s = cs.flatMap String.utf8EncodeChar ∧ t = String.ofList (done.reverse ++ cs) := by
  fun_induction decodeFrom start done s with
  | case1 start done s hfront =>
    cases h
    refine ⟨[], ?_, by rw [List.append_nil]⟩
    exact eq_nil_of_front hfront
  | case2 start done s c r hfront _ ih =>
    obtain ⟨cs, rfl, rfl⟩ := ih h
    refine ⟨c :: cs, eq_append_of_front hfront, ?_⟩
    rw [List.reverse_cons, List.append_assoc]
    rfl
  | case3 => cases h
  | case4 => cases h

/-- The bytes of a text are the only ones that decode to it. -/
theorem decode_eq_ok_iff {s : Bytes} {t : String} : decode s = .ok t ↔ s = encode t := by
  constructor
  · intro h
    obtain ⟨cs, rfl, rfl⟩ := eq_of_decodeFrom h
    rw [encode, List.reverse_nil, List.nil_append, String.toList_ofList]
  · rintro rfl
    exact decode_encode t

theorem decode?_eq_some_iff {s : Bytes} {t : String} : decode? s = some t ↔ s = encode t := by
  rw [← decode_eq_ok_iff, decode?]
  cases decode s <;> simp [Except.toOption]

/-! ## Order -/

/-- The lesser of two characters has the lesser bytes, whatever follows them. -/
theorem encodeChar_lt {c d : Char} (h : c < d) (s t : Bytes) :
    String.utf8EncodeChar c ++ s < String.utf8EncodeChar d ++ t := by
  have hlt : c.val.toNat < d.val.toNat := h
  have hc : c.val.toNat.isValidChar := c.valid
  have hd : d.val.toNat.isValidChar := d.valid
  unfold String.utf8EncodeChar
  generalize c.val.toNat = v at hlt hc ⊢
  generalize d.val.toNat = w at hlt hd ⊢
  unfold Nat.isValidChar at hc hd
  have hv : v / 64 / 64 = v / 4096 ∧ v / 4096 / 64 = v / 262144 ∧
      v / 262144 % 8 = v / 262144 := by omega
  have hw : w / 64 / 64 = w / 4096 ∧ w / 4096 / 64 = w / 262144 ∧
      w / 262144 % 8 = w / 262144 := by omega
  simp only
  -- a case for each pair of numbers of bytes
  repeat' split
  all_goals
    simp only [List.cons_append, List.nil_append, List.cons_lt_cons_iff, UInt8.lt_iff_toNat_lt,
      ← UInt8.toNat_inj]
    repeat rw [toNat_part (by omega)]
    omega

theorem flatMap_encodeChar_lt {cs ds : List Char} (h : cs < ds) :
    cs.flatMap String.utf8EncodeChar < ds.flatMap String.utf8EncodeChar := by
  induction ds generalizing cs with
  | nil => cases h
  | cons d ds ih =>
    cases cs with
    | nil =>
      obtain ⟨b, bs, hbytes⟩ := List.exists_cons_of_ne_nil (encodeChar_ne_nil d)
      rw [List.flatMap_cons, hbytes]
      exact List.nil_lt_cons _ _
    | cons c cs =>
      rw [List.flatMap_cons, List.flatMap_cons]
      rcases List.cons_lt_cons_iff.1 h with hlt | ⟨rfl, hlt⟩
      · exact encodeChar_lt hlt _ _
      · exact List.append_left_lt (ih hlt)

/-- The lesser of two texts has the lesser bytes. -/
theorem encode_lt {s t : String} (h : s < t) : encode s < encode t :=
  flatMap_encodeChar_lt h

end Availability.Utf8

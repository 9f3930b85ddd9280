import Availability.Json.Fault

/-!
# JSON strings

`readText` reads the rest of a string, after its opening quote, and gives its characters: every
escape is resolved, the two halves of a surrogate pair become one character, and the bytes have to
be UTF-8. `skipText` only finds the end of a string: escapes have to be well formed, but halves of
pairs may stand alone and the bytes may be anything above the controls.

* `readEscape_length`, `readText_length`, `skipText_length`: some of the text is used up.
-/

namespace Availability.Json

/-- The value of a hexadecimal digit. -/
def hexDigit? (b : UInt8) : Option Nat :=
  if 0x30 ≤ b && b ≤ 0x39 then some (b.toNat - 0x30)
  else if 0x41 ≤ b && b ≤ 0x46 then some (b.toNat - 0x41 + 10)
  else if 0x61 ≤ b && b ≤ 0x66 then some (b.toNat - 0x61 + 10)
  else none

/-- Reads four hexadecimal digits. -/
def readHex : Bytes → Except Stop (Nat × Bytes)
  | a :: b :: c :: d :: r =>
    match hexDigit? a, hexDigit? b, hexDigit? c, hexDigit? d with
    | some a, some b, some c, some d => .ok (((a * 16 + b) * 16 + c) * 16 + d, r)
    | _, _, _, _ => Stop.before .badEscape r
  | _ => Stop.before .endInText []

theorem readHex_length {s r : Bytes} {n : Nat} (h : readHex s = .ok (n, r)) :
    r.length < s.length := by
  unfold readHex at h
  split at h
  · split at h
    · simp only [Except.ok.injEq, Prod.mk.injEq] at h
      obtain ⟨-, rfl⟩ := h
      simp only [List.length_cons]
      omega
    · cases h
  · cases h

/-- What a letter after a backslash stands for. -/
def escapeChar? (b : UInt8) : Option Char :=
  match b with
  | 0x22 => some '"'
  | 0x5C => some '\\'
  | 0x2F => some '/'
  | 0x62 => some '\x08'
  | 0x66 => some '\x0c'
  | 0x6E => some '\n'
  | 0x72 => some '\r'
  | 0x74 => some '\t'
  | _ => none

/-- Whether a code unit is the first half of a surrogate pair. -/
def isHighHalf (n : Nat) : Bool := 0xD800 ≤ n && n ≤ 0xDBFF

/-- Whether a code unit is the second half of a surrogate pair. -/
def isLowHalf (n : Nat) : Bool := 0xDC00 ≤ n && n ≤ 0xDFFF

/-- The code point of a surrogate pair. -/
def pairCode (high low : Nat) : Nat := 0x10000 + (high - 0xD800) * 0x400 + (low - 0xDC00)

/-- Reads the second half of a surrogate pair, after the first. -/
def readLowHalf (high : Nat) : Bytes → Except Stop (Char × Bytes)
  | 0x5C :: 0x75 :: r => do
    let (low, r) ← readHex r
    if isLowHalf low then .ok (Char.ofNat (pairCode high low), r) else Stop.before .lonePart r
  | 0x5C :: _ :: r => Stop.before .halfPair r
  | [0x5C] => Stop.before .endInText []
  | _ :: r => Stop.before .halfPair r
  | [] => Stop.before .endInText []

/-- Reads an escape, after its backslash. -/
def readEscape : Bytes → Except Stop (Char × Bytes)
  | [] => Stop.before .endInText []
  | 0x75 :: r => do
    let (n, r) ← readHex r
    if isLowHalf n then Stop.before .lonePart r
    else if isHighHalf n then readLowHalf n r
    else .ok (Char.ofNat n, r)
  | b :: r =>
    match escapeChar? b with
    | some c => .ok (c, r)
    | none => Stop.before .badEscape r

theorem readLowHalf_length {high : Nat} {s r : Bytes} {c : Char}
    (h : readLowHalf high s = .ok (c, r)) : r.length < s.length := by
  unfold readLowHalf at h
  split at h
  · rename_i t
    cases hx : readHex t with
    | error e => simp [hx, bind, Except.bind] at h
    | ok p =>
      have hl := readHex_length (s := t) (n := p.1) (r := p.2) hx
      simp only [hx, bind, Except.bind] at h
      split at h
      · simp only [Except.ok.injEq, Prod.mk.injEq] at h
        obtain ⟨-, rfl⟩ := h
        simp only [List.length_cons]
        omega
      · cases h
  all_goals cases h

theorem readEscape_length {s r : Bytes} {c : Char} (h : readEscape s = .ok (c, r)) :
    r.length < s.length := by
  unfold readEscape at h
  split at h
  · cases h
  · rename_i t
    cases hx : readHex t with
    | error e => simp [hx, bind, Except.bind] at h
    | ok p =>
      have hl := readHex_length (s := t) (n := p.1) (r := p.2) hx
      simp only [hx, bind, Except.bind] at h
      split at h
      · cases h
      · split at h
        · have := readLowHalf_length h
          simp only [List.length_cons]
          omega
        · simp only [Except.ok.injEq, Prod.mk.injEq] at h
          obtain ⟨-, rfl⟩ := h
          simp only [List.length_cons]
          omega
  · split at h
    · simp only [Except.ok.injEq, Prod.mk.injEq] at h
      obtain ⟨-, rfl⟩ := h
      simp
    · cases h

/-- Reads what is left of a string of which the characters `done`, latest first, are read. -/
def readTextFrom (done : List Char) (s : Bytes) : Except Stop (String × Bytes) :=
  match s with
  | [] => Stop.before .endInText []
  | b :: r =>
    if b = 0x22 then .ok (String.ofList done.reverse, r)
    else if b = 0x5C then
      match h : readEscape r with
      | .ok (c, r') =>
        have := readEscape_length h
        readTextFrom (c :: done) r'
      | .error e => .error e
    else if b < 0x20 then Stop.before .controlCharacter r
    else
      match h : Utf8.front (b :: r) with
      | .char c r' =>
        have := Utf8.front_length h
        readTextFrom (c :: done) r'
      | _ => Stop.before .notUtf8 r
termination_by s.length
decreasing_by
  all_goals simp_all
  all_goals omega

/-- Reads a string, after its opening quote. -/
def readText (s : Bytes) : Except Stop (String × Bytes) := readTextFrom [] s

theorem readTextFrom_length {done : List Char} {s r : Bytes} {t : String}
    (h : readTextFrom done s = .ok (t, r)) : r.length < s.length := by
  fun_induction readTextFrom done s with
  | case1 => cases h
  | case2 =>
    simp only [Except.ok.injEq, Prod.mk.injEq] at h
    obtain ⟨-, rfl⟩ := h
    simp
  | case3 _ _ _ _ _ _ _ ih =>
    have := ih h
    simp only [List.length_cons]
    omega
  | case4 => cases h
  | case5 => cases h
  | case6 _ _ _ _ _ _ _ _ _ _ ih =>
    have := ih h
    omega
  | case7 => cases h

theorem readText_length {s r : Bytes} {t : String} (h : readText s = .ok (t, r)) :
    r.length < s.length := readTextFrom_length h

/-- Finds the end of an escape, after its backslash. -/
def skipEscape : Bytes → Except Stop Bytes
  | [] => Stop.before .endInText []
  | 0x75 :: r => (readHex r).map (·.2)
  | b :: r => if (escapeChar? b).isSome then .ok r else Stop.before .badEscape r

theorem skipEscape_length {s r : Bytes} (h : skipEscape s = .ok r) : r.length < s.length := by
  unfold skipEscape at h
  split at h
  · cases h
  · rename_i t
    cases hx : readHex t with
    | error e => simp [hx, Except.map] at h
    | ok p =>
      have := readHex_length (s := t) (n := p.1) (r := p.2) hx
      simp only [hx, Except.map, Except.ok.injEq] at h
      subst h
      simp only [List.length_cons]
      omega
  · split at h
    · simp only [Except.ok.injEq] at h
      subst h
      simp
    · cases h

/-- Finds the end of a string, after its opening quote. -/
def skipText (s : Bytes) : Except Stop Bytes :=
  match s with
  | [] => Stop.before .endInText []
  | b :: r =>
    if b = 0x22 then .ok r
    else if b = 0x5C then
      match h : skipEscape r with
      | .ok r' =>
        have := skipEscape_length h
        skipText r'
      | .error e => .error e
    else if b < 0x20 then Stop.before .controlCharacter (b :: r)
    else skipText r
termination_by s.length
decreasing_by
  all_goals simp_all
  all_goals omega

theorem skipText_length {s r : Bytes} (h : skipText s = .ok r) : r.length < s.length := by
  fun_induction skipText s with
  | case1 => cases h
  | case2 =>
    simp only [Except.ok.injEq] at h
    subst h
    simp
  | case3 _ _ _ _ _ ih =>
    have := ih h
    simp only [List.length_cons]
    omega
  | case4 => cases h
  | case5 => cases h
  | case6 _ _ _ _ _ ih =>
    have := ih h
    simp only [List.length_cons]
    omega

end Availability.Json

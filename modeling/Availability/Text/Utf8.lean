/-!
# UTF-8

Text outside the service is a sequence of bytes. `Utf8.front` says what stands at the front of
one: a character and what follows it, or why no character does. `Utf8.decode` repeats it and, on
a sequence that is no UTF-8, says how far the text is good and how many bytes spoil it.

* `Utf8.front_length`: a character takes at least one byte.
-/

namespace Availability

/-- What is read from or written to the outside. -/
abbrev Bytes := List UInt8

namespace Utf8

/-- The bytes of a text. -/
def encode (s : String) : Bytes := s.toList.flatMap String.utf8EncodeChar

/-- What stands at the front of a byte sequence. -/
inductive Front where
  | nothing
  | char (c : Char) (rest : Bytes)
  /-- The first `count` bytes begin no character, whatever follows them. -/
  | invalid (count : Nat)
  /-- The bytes up to the end begin a character and do not finish it. -/
  | incomplete
  deriving DecidableEq, Repr

/-- A byte that continues a character. -/
def isTail (b : UInt8) : Bool := 0x80 ≤ b && b ≤ 0xBF

/-- The bytes that may follow the lead byte of a character of three bytes: no code point below
U+0800, none of the surrogates. -/
def follows3 (a b : UInt8) : Bool :=
  if a = 0xE0 then 0xA0 ≤ b && b ≤ 0xBF
  else if a = 0xED then 0x80 ≤ b && b ≤ 0x9F
  else isTail b

/-- The bytes that may follow the lead byte of a character of four bytes: no code point below
U+10000, none above U+10FFFF. -/
def follows4 (a b : UInt8) : Bool :=
  if a = 0xF0 then 0x90 ≤ b && b ≤ 0xBF
  else if a = 0xF4 then 0x80 ≤ b && b ≤ 0x8F
  else isTail b

/-- The low six bits, which a continuing byte adds to the code point. -/
def tailBits (b : UInt8) : Nat := b.toNat % 64

/-- Reads the character at the front. -/
def front : Bytes → Front
  | [] => .nothing
  | a :: r =>
    if a < 0x80 then .char (Char.ofNat a.toNat) r
    else if a < 0xC2 then .invalid 1
    else if a < 0xE0 then
      match r with
      | [] => .incomplete
      | b :: r =>
        if isTail b then .char (Char.ofNat (a.toNat % 32 * 64 + tailBits b)) r else .invalid 1
    else if a < 0xF0 then
      match r with
      | [] => .incomplete
      | b :: r =>
        if follows3 a b then
          match r with
          | [] => .incomplete
          | c :: r =>
            if isTail c then
              .char (Char.ofNat ((a.toNat % 16 * 64 + tailBits b) * 64 + tailBits c)) r
            else .invalid 2
        else .invalid 1
    else if a < 0xF5 then
      match r with
      | [] => .incomplete
      | b :: r =>
        if follows4 a b then
          match r with
          | [] => .incomplete
          | c :: r =>
            if isTail c then
              match r with
              | [] => .incomplete
              | d :: r =>
                if isTail d then
                  .char (Char.ofNat
                    (((a.toNat % 8 * 64 + tailBits b) * 64 + tailBits c) * 64 + tailBits d)) r
                else .invalid 3
            else .invalid 2
        else .invalid 1
    else .invalid 1

/-- A character takes at least one byte. -/
theorem front_length {s r : Bytes} {c : Char} (h : front s = .char c r) :
    r.length < s.length := by
  unfold front at h
  repeat' split at h
  all_goals first
    | cases h; done
    | (simp only [Front.char.injEq] at h; obtain ⟨-, rfl⟩ := h; simp only [List.length_cons]; omega)

/-- Why a sequence is no UTF-8: its first `start` bytes are, and then `count` bytes begin no
character, or, with no count, the sequence ends within one. -/
structure Fault where
  start : Nat
  count : Option Nat
  deriving DecidableEq, Repr

/-- The wording of a fault. -/
def Fault.message (f : Fault) : String :=
  match f.count with
  | some n => s!"invalid utf-8 sequence of {n} bytes from index {f.start}"
  | none => s!"incomplete utf-8 byte sequence from index {f.start}"

/-- Decodes what is left of a sequence of which `start` bytes have given the characters `done`,
latest first. -/
def decodeFrom (start : Nat) (done : List Char) (s : Bytes) : Except Fault String :=
  match h : front s with
  | .nothing => .ok (String.ofList done.reverse)
  | .char c r =>
    have := front_length h
    decodeFrom (start + (s.length - r.length)) (c :: done) r
  | .invalid n => .error ⟨start, some n⟩
  | .incomplete => .error ⟨start, none⟩
termination_by s.length

/-- The text whose bytes these are. -/
def decode (s : Bytes) : Except Fault String := decodeFrom 0 [] s

/-- The text whose bytes these are, if they are UTF-8. -/
def decode? (s : Bytes) : Option String := (decode s).toOption

/-- Decodes with a replacement character for each longest part that begins no character. -/
def decodeLossy (s : Bytes) : String := String.ofList (go [] s)
where
  /-- Decodes what is left, after the characters `done`, latest first. -/
  go (done : List Char) (s : Bytes) : List Char :=
    match h : front s with
    | .nothing => done.reverse
    | .char c r =>
      have := front_length h
      go (c :: done) r
    | .invalid n =>
      match s with
      | [] => done.reverse
      | _ :: t => go ('\uFFFD' :: done) (t.drop (n - 1))
    | .incomplete => ('\uFFFD' :: done).reverse
  termination_by s.length
  decreasing_by
    all_goals grind

end Utf8

end Availability

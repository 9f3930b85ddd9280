import Availability.Toml.Value

/-!
# Blanks, comments and strings in TOML

A reader takes what it is for off the front of the characters and gives what follows, or none if
that is not there. A string stands between quotes, with escapes, or between apostrophes, without
any; three quotes or apostrophes enclose a string of several lines.

* `readEscape_length`: an escape takes at least one character.
-/

namespace Availability.Toml

/-- What a reader gives: what it read, and the characters after it. -/
abbrev Reading (α : Type) := Option (α × List Char)

/-- A space or a tab. -/
def isSpace (c : Char) : Bool := c == ' ' || c == '\t'

/-- A character that may stand in a comment: no control but the tab. -/
def isPlain (c : Char) : Bool := c == '\t' || (0x20 ≤ c.toNat && c.toNat != 0x7F)

/-- A character that may stand for itself between quotes. -/
def isQuotable (c : Char) : Bool := isPlain c && c != '"' && c != '\\'

/-- A character that may stand between apostrophes. -/
def isLiteral (c : Char) : Bool := isPlain c && c != '\x27'

/-- What follows the spaces at the front. -/
def skipSpace (s : List Char) : List Char := s.dropWhile isSpace

/-- What follows the end of line at the front, if one is there. -/
def newline? : List Char → Option (List Char)
  | '\n' :: r => some r
  | '\r' :: '\n' :: r => some r
  | _ => none

theorem newline?_length {s r : List Char} (h : newline? s = some r) : r.length < s.length := by
  unfold newline? at h
  split at h
  · cases h
    simp
  · cases h
    simp only [List.length_cons]
    omega
  · cases h

/-- What follows a comment, if one is at the front. -/
def skipComment : List Char → List Char
  | '#' :: r => r.dropWhile isPlain
  | s => s

/-- The rest of a line that holds nothing more: spaces, a comment, and its end. -/
def endLine? (s : List Char) : Option (List Char) :=
  match skipComment (skipSpace s) with
  | [] => some []
  | r => newline? r

/-- What follows spaces and ends of lines. -/
def skipLines (s : List Char) : List Char :=
  match s with
  | [] => []
  | c :: r =>
    if isSpace c then skipLines r
    else
      match h : newline? (c :: r) with
      | some r' =>
        have := newline?_length h
        skipLines r'
      | none => c :: r
termination_by s.length
decreasing_by
  · simp
  · exact this

/-- What follows spaces, ends of lines and comments, over as many lines as these take. -/
def skipBetween : (fuel : Nat) → List Char → List Char
  | 0, s => s
  | fuel + 1, s =>
    match skipLines s with
    | '#' :: r => skipBetween fuel (r.dropWhile isPlain)
    | r => r

/-- The value of a hexadecimal digit. -/
def hexValue? (c : Char) : Option Nat :=
  if c.isDigit then some (c.toNat - 48)
  else if 'a' ≤ c && c ≤ 'f' then some (c.toNat - 87)
  else if 'A' ≤ c && c ≤ 'F' then some (c.toNat - 55)
  else none

/-- The character of a code point in hexadecimal, if there is one. -/
def charOfHex? (ds : List Char) : Option Char := do
  let n ← ds.foldlM (fun n c => (hexValue? c).map (n * 16 + ·)) 0
  if h : n.isValidChar then some (Char.ofNatAux n h) else none

/-- What a letter after a backslash stands for. -/
def escapeChar? (c : Char) : Option Char :=
  match c with
  | 'b' => some '\x08'
  | 't' => some '\t'
  | 'n' => some '\n'
  | 'f' => some '\x0c'
  | 'r' => some '\r'
  | '"' => some '"'
  | '\\' => some '\\'
  | _ => none

/-- Reads an escape, after its backslash. -/
def readEscape : List Char → Reading Char
  | 'u' :: a :: b :: c :: d :: r => (charOfHex? [a, b, c, d]).map (·, r)
  | 'U' :: a :: b :: c :: d :: e :: f :: g :: h :: r =>
    (charOfHex? [a, b, c, d, e, f, g, h]).map (·, r)
  | c :: r => (escapeChar? c).map (·, r)
  | [] => none

theorem readEscape_length {s r : List Char} {c : Char} (h : readEscape s = some (c, r)) :
    r.length < s.length := by
  unfold readEscape at h
  split at h
  all_goals first
    | cases h
    | (obtain ⟨_, _, h⟩ := Option.map_eq_some_iff.1 h
       cases h
       simp only [List.length_cons]
       omega)

/-- Reads what is left of a string in quotes of which the characters `done`, latest first, are
read. -/
def readQuotedFrom (done : List Char) (s : List Char) : Reading String :=
  match s with
  | [] => none
  | '"' :: r => some (String.ofList done.reverse, r)
  | '\\' :: r =>
    match h : readEscape r with
    | some (c, r') =>
      have := readEscape_length h
      readQuotedFrom (c :: done) r'
    | none => none
  | c :: r => if isQuotable c then readQuotedFrom (c :: done) r else none
termination_by s.length
decreasing_by
  all_goals simp only [List.length_cons]
  all_goals omega

/-- What follows the backslash at the end of a line: the blanks up to the next character that is
none. -/
def foldLine? (s : List Char) : Option (List Char) := (newline? (skipSpace s)).map skipLines

theorem length_dropWhile_le {α : Type} (p : α → Bool) (s : List α) :
    (s.dropWhile p).length ≤ s.length := by
  induction s with
  | nil => simp
  | cons a s ih =>
    simp only [List.dropWhile_cons]
    split
    · simp only [List.length_cons]
      omega
    · exact Nat.le_refl _

theorem skipLines_length (s : List Char) : (skipLines s).length ≤ s.length := by
  fun_induction skipLines s with
  | case1 => simp
  | case2 _ _ _ ih =>
    simp only [List.length_cons]
    omega
  | case3 _ _ _ _ _ shorter ih => exact Nat.le_of_lt (Nat.lt_of_le_of_lt ih shorter)
  | case4 => exact Nat.le_refl _

theorem foldLine?_length {s r : List Char} (h : foldLine? s = some r) : r.length < s.length := by
  obtain ⟨t, ht, rfl⟩ := Option.map_eq_some_iff.1 h
  have h₁ := newline?_length ht
  have h₂ := length_dropWhile_le isSpace s
  have h₃ := skipLines_length t
  simp only [skipSpace] at h₁
  omega

/-- How many quotes at the end of a string of several lines belong to it, of `n` in a row. -/
def ownQuotes (n : Nat) : Nat := min (n - 3) 2

/-- Reads what is left of a string of several lines in quotes. -/
def readLongQuotedFrom (done : List Char) (s : List Char) : Reading String :=
  match s with
  | [] => none
  | '"' :: r =>
    let n := 1 + (r.takeWhile (· == '"')).length
    if 3 ≤ n then
      let own := List.replicate (ownQuotes n) '"'
      some (String.ofList (own ++ done).reverse, r.drop (ownQuotes n + 2))
    else readLongQuotedFrom ('"' :: done) r
  | '\\' :: r =>
    match h : foldLine? r with
    | some r' =>
      have := foldLine?_length h
      readLongQuotedFrom done r'
    | none =>
      match h : readEscape r with
      | some (c, r') =>
        have := readEscape_length h
        readLongQuotedFrom (c :: done) r'
      | none => none
  | '\n' :: r => readLongQuotedFrom ('\n' :: done) r
  | '\r' :: '\n' :: r => readLongQuotedFrom ('\n' :: done) r
  | c :: r => if isQuotable c then readLongQuotedFrom (c :: done) r else none
termination_by s.length
decreasing_by
  all_goals simp only [List.length_cons]
  all_goals omega

/-- Reads the rest of a string in apostrophes. -/
def readLiteral (s : List Char) : Reading String :=
  match s.dropWhile isLiteral with
  | '\x27' :: r => some (String.ofList (s.takeWhile isLiteral), r)
  | _ => none

/-- Reads what is left of a string of several lines in apostrophes. -/
def readLongLiteralFrom (done : List Char) : List Char → Reading String
  | [] => none
  | '\x27' :: r =>
    let n := 1 + (r.takeWhile (· == '\x27')).length
    if 3 ≤ n then
      let own := List.replicate (ownQuotes n) '\x27'
      some (String.ofList (own ++ done).reverse, r.drop (ownQuotes n + 2))
    else readLongLiteralFrom ('\x27' :: done) r
  | '\n' :: r => readLongLiteralFrom ('\n' :: done) r
  | '\r' :: '\n' :: r => readLongLiteralFrom ('\n' :: done) r
  | c :: r => if isLiteral c then readLongLiteralFrom (c :: done) r else none

/-- A string of several lines does not begin with the end of the line it opens on. -/
def dropNewline (s : List Char) : List Char := (newline? s).getD s

/-- Reads a string, if one is at the front. -/
def readString : List Char → Reading String
  | '"' :: '"' :: '"' :: r => readLongQuotedFrom [] (dropNewline r)
  | '"' :: r => readQuotedFrom [] r
  | '\x27' :: '\x27' :: '\x27' :: r => readLongLiteralFrom [] (dropNewline r)
  | '\x27' :: r => readLiteral r
  | _ => none

/-- A character of a key without quotes. -/
def isKeyChar (c : Char) : Bool := c.isAlphanum || c == '-' || c == '_'

/-- Reads one part of a key. -/
def readKeyPart : List Char → Reading String
  | '"' :: r => readQuotedFrom [] r
  | '\x27' :: r => readLiteral r
  | s =>
    let name := s.takeWhile isKeyChar
    if name.isEmpty then none else some (String.ofList name, s.dropWhile isKeyChar)

/-- The most parts that a key may have. -/
def keyPartsMax : Nat := 79

/-- Reads a key with up to `fuel` parts, with dots between them and spaces around each. -/
def readKeyParts : (fuel : Nat) → List Char → Option (List String × List Char)
  | 0, _ => none
  | fuel + 1, s => do
    let (part, r) ← readKeyPart (skipSpace s)
    match skipSpace r with
    | '.' :: r =>
      let (parts, r) ← readKeyParts fuel r
      return (part :: parts, r)
    | r => return ([part], r)

/-- Reads a key. -/
def readKey (s : List Char) : Reading (List String) := readKeyParts keyPartsMax s

end Availability.Toml

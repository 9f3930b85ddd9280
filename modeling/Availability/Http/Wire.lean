import Availability.Http.Exchange

/-!
# HTTP on the wire

The bytes that a request is sent as, and the reply that bytes come back as. Each connection serves
one request, so that a body whose length is not given ends where the bytes end; one that is shorter
than its length breaks off.

* `splitLine_length`: a line and its end are taken off what is left.
* `readChunks_length`: a body in chunks is no longer than the bytes that carry it.
-/

namespace Availability.Http

/-- The end of a line. -/
def lineEnd : Bytes := [13, 10]

/-- The character of six bits. -/
def sextetChar (n : Nat) : Char :=
  if n < 26 then Char.ofNat (65 + n)
  else if n < 52 then Char.ofNat (71 + n)
  else if n < 62 then Char.ofNat (n - 4)
  else if n = 62 then '+'
  else '/'

/-- Bytes as characters of six bits each, filled up with equals signs to groups of four. -/
def sextets : Bytes → List Char
  | [] => []
  | [a] =>
    let n := a.toNat * 16
    [sextetChar (n / 64), sextetChar (n % 64), '=', '=']
  | [a, b] =>
    let n := (a.toNat * 256 + b.toNat) * 4
    [sextetChar (n / 4096), sextetChar (n / 64 % 64), sextetChar (n % 64), '=']
  | a :: b :: c :: r =>
    let n := (a.toNat * 256 + b.toNat) * 256 + c.toNat
    sextetChar (n / 262144) :: sextetChar (n / 4096 % 64) :: sextetChar (n / 64 % 64)
      :: sextetChar (n % 64) :: sextets r

namespace Request

/-- The headers that every request has. -/
def ownHeaders (r : Request) : List (String × Bytes) :=
  let login := r.address.credentials.map fun c =>
    ("authorization",
      Utf8.encode ("Basic " ++ String.ofList (sextets (Utf8.encode (c.1 ++ ":" ++ c.2)))))
  let length := if r.body.isEmpty then none
    else some ("content-length", Utf8.encode (toString r.body.length))
  [("host", Utf8.encode r.address.hostText), ("accept", Utf8.encode "*/*"),
    ("connection", Utf8.encode "close")] ++ login.toList ++ length.toList

/-- The line of a header. -/
def headerLine (h : String × Bytes) : Bytes := Utf8.encode (h.1 ++ ": ") ++ h.2 ++ lineEnd

/-- The bytes that a request is sent as. -/
def toBytes (r : Request) : Bytes :=
  Utf8.encode (r.method ++ " " ++ r.address.target ++ " HTTP/1.1") ++ lineEnd
    ++ (r.ownHeaders ++ r.headers).flatMap headerLine ++ lineEnd ++ r.body

end Request

/-- The first line, without its end, and what follows it. -/
def splitLine (s : Bytes) : Option (Bytes × Bytes) :=
  match s.dropWhile (· != 10) with
  | [] => none
  | _ :: r => some ((s.takeWhile (· != 10)).filter (· != 13), r)

theorem splitLine_length {s line r : Bytes} (h : splitLine s = some (line, r)) :
    r.length < s.length := by
  unfold splitLine at h
  split at h
  · cases h
  · rename_i b t ht
    simp only [Option.some.injEq, Prod.mk.injEq] at h
    obtain ⟨-, rfl⟩ := h
    have := (List.dropWhile_sublist (p := (· != 10)) (l := s)).length_le
    rw [ht, List.length_cons] at this
    omega

/-- The text of bytes that are letters and digits, in small letters. -/
def plainText (b : Bytes) : String :=
  String.ofList (b.map fun x => (Char.ofNat x.toNat).toLower)

/-- Bytes without the blanks at both ends. -/
def stripped (b : Bytes) : Bytes :=
  let isBlank (x : UInt8) : Bool := x == 32 || x == 9
  ((b.dropWhile isBlank).reverse.dropWhile isBlank).reverse

/-- A header line as a name, in small letters, and a value. -/
def splitHeader (line : Bytes) : String × Bytes :=
  let name := line.takeWhile (· != 58)
  (plainText name, stripped (line.drop (name.length + 1)))

/-- Reads header lines up to the empty line that ends them. -/
def readHeaders (s : Bytes) : Option (List (String × Bytes) × Bytes) :=
  match h : splitLine s with
  | none => none
  | some ([], r) => some ([], r)
  | some (line, r) =>
    have := splitLine_length h
    (readHeaders r).map fun p => (splitHeader line :: p.1, p.2)
termination_by s.length

/-- A number in digits of a base, as far as it goes. -/
def readNumber (base : Nat) (b : Bytes) : Option Nat :=
  let value (x : UInt8) : Option Nat :=
    let n := x.toNat
    let d := if 48 ≤ n ∧ n ≤ 57 then n - 48
      else if 97 ≤ n ∧ n ≤ 102 then n - 87
      else if 65 ≤ n ∧ n ≤ 70 then n - 55
      else base
    if d < base then some d else none
  let ds := (b.takeWhile fun x => (value x).isSome).filterMap value
  if ds.isEmpty then none else some (ds.foldl (fun n d => n * base + d) 0)

/-- Reads a body that comes in chunks, or none if it breaks off. -/
def readChunks (s : Bytes) : Option Bytes :=
  match h : splitLine s with
  | none => none
  | some (line, r) =>
    match readNumber 16 line with
    | none => none
    | some 0 => some []
    | some n =>
      if r.length < n then none
      else
        have := splitLine_length h
        (readChunks (r.drop (n + 2))).map (r.take n ++ ·)
termination_by s.length
decreasing_by
  simp only [List.length_drop]
  omega

theorem readChunks_length {s body : Bytes} (h : readChunks s = some body) :
    body.length ≤ s.length := by
  fun_induction readChunks s generalizing body with
  | case1 => cases h
  | case2 => cases h
  | case3 =>
    cases h
    exact Nat.zero_le _
  | case4 => cases h
  | case5 s line r hl n _ _ _ hlt ih =>
    obtain ⟨rest, hr, rfl⟩ := Option.map_eq_some_iff.1 h
    have := ih hr
    simp only [List.length_append, List.length_take, List.length_drop] at this ⊢
    omega

/-- Whether a reply with a status never has a body. -/
def isBodiless (status : Nat) : Bool := status < 200 || status == 204 || status == 304

/-- The body of a reply, or none if it breaks off. -/
def bodyOf (status : Nat) (headers : List (String × Bytes)) (s : Bytes) : Option Bytes :=
  if isBodiless status then some []
  else if (headers.lookup "transfer-encoding").map plainText = some "chunked" then readChunks s
  else
    match (headers.lookup "content-length").bind (readNumber 10) with
    | some n => if s.length < n then none else some (s.take n)
    | none => some s

/-- The status that a status line gives. -/
def readStatus (line : Bytes) : Option Nat :=
  if (plainText (line.take 5)) = "http/" then readNumber 10 ((line.dropWhile (· != 32)).drop 1)
  else none

/-- The reply that bytes are. -/
def readReply (s : Bytes) : Reply :=
  match splitLine s with
  | none => .none
  | some (line, r) =>
    match readStatus line, readHeaders r with
    | some status, some (headers, r) => .response status (bodyOf status headers r)
    | _, _ => .none

end Availability.Http

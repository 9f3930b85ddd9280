import Availability.Url.Host

/-!
# Addresses

An address has a scheme and then, as the scheme wants it, a host with a port and a path of
segments, or any text; at the end there may be a query and a fragment. `Address.ofText?` reads one
as browsers do: with blanks at its ends and line breaks within left out, back slashes taken for
slashes in the well-known schemes, and what may not stand for itself encoded.
-/

namespace Availability.Url

/-- What stands between the host and the query of an address. -/
inductive Course where
  | segments (ss : List String)
  /-- Text that is no path. -/
  | plain (s : String)
  deriving DecidableEq, Repr

/-- An address. -/
structure Address where
  scheme : String
  /-- Whether two slashes follow the scheme, and after them the place of a host. -/
  slashed : Bool
  /-- A name and a password, if one of them is there. -/
  credentials : Option (String × String)
  host : Option Host
  /-- The port, unless it is the one that goes without saying. -/
  port : Option Nat
  course : Course
  query : Option String
  fragment : Option String
  deriving DecidableEq, Repr

/-- The port that goes without saying. -/
def defaultPort? (scheme : String) : Option Nat :=
  match scheme with
  | "http" => some 80
  | "https" => some 443
  | "ws" => some 80
  | "wss" => some 443
  | "ftp" => some 21
  | _ => none

/-- Whether a scheme is one of the well-known ones. -/
def isSpecial (scheme : String) : Bool := (defaultPort? scheme).isSome || scheme == "file"

/-- Whether a character parts segments. -/
def isSlash (special : Bool) (c : Char) : Bool := c == '/' || (special && c == '\\')

/-- Leaves out what does not count: controls and spaces at both ends, tabs and line breaks
everywhere. -/
def cleaned (s : String) : List Char :=
  let isOuter (c : Char) : Bool := c.toNat ≤ 0x20
  let inner := (((s.toList.dropWhile isOuter).reverse).dropWhile isOuter).reverse
  inner.filter fun c => c != '\t' && c != '\n' && c != '\r'

/-- Splits off a scheme. -/
def splitScheme? (s : List Char) : Option (String × List Char) :=
  match s with
  | [] => none
  | c :: _ =>
    let isIn (c : Char) : Bool := c.isAlphanum || c == '+' || c == '-' || c == '.'
    match s.dropWhile isIn with
    | ':' :: r =>
      if c.isAlpha then some (String.ofList ((s.takeWhile isIn).map Char.toLower), r) else none
    | _ => none

/-- What is at the end of an address. -/
structure Ending where
  course : List Char
  query : Option String
  fragment : Option String

/-- Splits a query and a fragment off. -/
def splitEnding (special : Bool) (s : List Char) : Ending :=
  let main := s.takeWhile (· != '#')
  let encoded (set : Char → Bool) (cs : List Char) : String := String.ofList (encodeWith set cs)
  { course := main.takeWhile (· != '?')
    query := match main.dropWhile (· != '?') with
      | _ :: q => some (encoded (inQuery special) q)
      | [] => none
    fragment := match s.dropWhile (· != '#') with
      | _ :: f => some (encoded inFragment f)
      | [] => none }

/-- The segments of a path. In a well-known scheme there is at least one. -/
def segmentsOf (special : Bool) (s : List Char) : List String :=
  match s with
  | [] => if special then [""] else []
  | c :: r => resolve [] (splitAtEach (isSlash special) (if isSlash special c then r else c :: r))

/-- Splits a name and a password off, at the last `@`. -/
def splitCredentials (s : List Char) : Option (List Char) × List Char :=
  let host := (s.reverse.takeWhile (· != '@')).reverse
  if host.length < s.length then (some (s.take (s.length - host.length - 1)), host) else (none, s)

/-- The name and the password, decoded, if one of them is there. -/
def credentialsOf (s : List Char) : Option (String × String) :=
  let name := s.takeWhile (· != ':')
  let password := (s.dropWhile (· != ':')).drop 1
  if name.isEmpty && password.isEmpty then none else some (decodeText name, decodeText password)

/-- Splits a port off; a colon between brackets does not count. -/
def splitPort (inBrackets : Bool) : List Char → List Char × Option (List Char)
  | [] => ([], none)
  | c :: r =>
    if c == ':' && !inBrackets then ([], some r)
    else
      let inBrackets := if c == '[' then true else if c == ']' then false else inBrackets
      let (host, port) := splitPort inBrackets r
      (c :: host, port)

/-- Reads a port; none where it goes without saying. -/
def portOf? (scheme : String) (s : List Char) : Option (Option Nat) :=
  if s.isEmpty then some none
  else if !s.all Char.isDigit then none
  else
    let n := s.foldl (fun n c => n * 10 + (c.toNat - 48)) 0
    if 65535 < n then none else some (if defaultPort? scheme = some n then none else some n)

namespace Address

/-- Reads what follows the two slashes of a scheme. -/
def ofAuthority? (scheme : String) (s : List Char) : Option Address := do
  let special := isSpecial scheme
  let isEnd (c : Char) : Bool := isSlash special c || c == '?' || c == '#'
  let (login, rest) := splitCredentials (s.takeWhile (!isEnd ·))
  let (hostText, portText) := splitPort false rest
  let ending := splitEnding special (s.dropWhile (!isEnd ·))
  guard (!hostText.isEmpty || (!special && login.isNone && portText.isNone))
  let host ← if special then (Host.ofText? hostText).map some
    else if hostText.isEmpty then some none
    else (Host.ofPlain? hostText).map some
  let port ← portOf? scheme (portText.getD [])
  return {
    scheme
    slashed := true
    credentials := login.bind credentialsOf
    host
    port
    course := .segments (segmentsOf special ending.course)
    query := ending.query
    fragment := ending.fragment }

/-- Reads what follows the scheme of a file. -/
def ofFile? (s : List Char) : Option Address := do
  let slashes := s.takeWhile (isSlash true)
  let rest := if slashes.length < 2 then s else s.drop 2
  let isEnd (c : Char) : Bool := isSlash true c || c == '?' || c == '#'
  let hostText := if slashes.length < 2 then [] else rest.takeWhile (!isEnd ·)
  let ending := splitEnding true (rest.drop hostText.length)
  let host ← if hostText.isEmpty then some none else (Host.ofText? hostText).map some
  return {
    scheme := "file"
    slashed := true
    credentials := none
    host := if host = some (.name "localhost") then none else host
    port := none
    course := .segments (segmentsOf true ending.course)
    query := ending.query
    fragment := ending.fragment }

/-- Reads what follows a scheme without two slashes. -/
def ofCourse (scheme : String) (s : List Char) : Address :=
  let ending := splitEnding false s
  { scheme
    slashed := false
    credentials := none
    host := none
    port := none
    course := match ending.course with
      | '/' :: _ => .segments (segmentsOf false ending.course)
      | cs => .plain (String.ofList (encodeWith isAlien cs))
    query := ending.query
    fragment := ending.fragment }

/-- Reads an address. -/
def ofText? (text : String) : Option Address := do
  let (scheme, s) ← splitScheme? (cleaned text)
  if scheme = "file" then ofFile? s
  else if isSpecial scheme then ofAuthority? scheme (s.dropWhile (isSlash true))
  else
    match s with
    | '/' :: '/' :: r => ofAuthority? scheme r
    | s => return ofCourse scheme s

/-- The text of what stands between the host and the query. A path that would look like a host is
marked by a dot. -/
def courseText (a : Address) : String :=
  match a.course with
  | .plain s => s
  | .segments ss =>
    let path := String.join (ss.map ("/" ++ ·))
    if !a.slashed && 1 < ss.length && ss.head? == some "" then "/." ++ path else path

/-- The text of the host and the port. -/
def hostText (a : Address) : String :=
  match a.host with
  | some h =>
    String.ofList h.chars ++ (match a.port with | some n => s!":{n}" | none => "")
  | none => ""

/-- The text of the path and the query, as a request asks for it. -/
def target (a : Address) : String :=
  a.courseText ++ (match a.query with | some q => "?" ++ q | none => "")

/-- The text of an address, without a name and a password. -/
def text (a : Address) : String :=
  a.scheme ++ ":" ++ (if a.slashed then "//" else "") ++ a.hostText
    ++ a.target ++ (match a.fragment with | some f => "#" ++ f | none => "")

end Address

end Availability.Url

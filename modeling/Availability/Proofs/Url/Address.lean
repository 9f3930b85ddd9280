import Availability.Url.Address
import Availability.Proofs.Sequences
import Availability.Proofs.Url.Path

/-!
# Addresses below another

An address is read from left to right: the scheme, the slashes after it, the host and the segments
of a path that ends in a slash are settled before what follows them is looked at.

* `Address.ofText?_append`: an address that ends in a slash, with more text after it, is read as the
  address with its path going on from there.
-/

namespace Availability.Url

/-! ## Where a run of characters stops -/

/-- The pieces of a text that stands between two others, as far as a run of characters goes. -/
theorem of_mem_splitAtEach_takeWhile {isMark p : Char → Bool} {m : Char} {us ys vs q : List Char}
    (hm : isMark m = true) (hpm : p m = true)
    (hus : ∀ c ∈ us, isMark c = false ∧ p c = true)
    (hvs : ∀ c ∈ vs, isMark c = false ∧ p c = true)
    (hq : q ∈ splitAtEach isMark ((us ++ m :: (ys ++ m :: vs)).takeWhile p)) :
    q = us ∨ q = vs ∨ q.Sublist ys := by
  rw [List.takeWhile_append_of_pos fun c hc => (hus c hc).2, List.takeWhile_cons_of_pos hpm,
    splitAtEach_append_mark hm, splitAtEach_of_no_mark fun c hc => (hus c hc).1] at hq
  rcases List.mem_append.1 hq with hq | hq
  · exact .inl (List.mem_singleton.1 hq)
  · by_cases hpasses : ys.dropWhile p = []
    · rw [takeWhile_append_of_passes hpasses, List.takeWhile_cons_of_pos hpm,
        takeWhile_eq_self (dropWhile_eq_nil fun c hc => (hvs c hc).2),
        splitAtEach_append_mark hm, splitAtEach_of_no_mark fun c hc => (hvs c hc).1] at hq
      rcases List.mem_append.1 hq with hq | hq
      · exact .inr (.inr (of_mem_splitAtEach hq).1)
      · exact .inr (.inl (List.mem_singleton.1 hq))
    · rw [takeWhile_append_of_stops hpasses] at hq
      exact .inr (.inr ((of_mem_splitAtEach hq).1.trans (List.takeWhile_sublist p)))

/-! ## What does not count -/

/-- Whether a character does not count at the ends of an address. -/
def isOuter (c : Char) : Bool := c.toNat ≤ 0x20

/-- Whether a character counts within an address. -/
def isKept (c : Char) : Bool := c != '\t' && c != '\n' && c != '\r'

theorem cleaned_of_last {text : String} {d : Char} (hlast : text.toList.getLast? = some d)
    (hd : isOuter d = false) :
    cleaned text = (text.toList.dropWhile isOuter).filter isKept := by
  have hne : text.toList.dropWhile isOuter ≠ [] :=
    dropWhile_ne_nil (List.mem_of_getLast? hlast) hd
  have hhead : (text.toList.dropWhile isOuter).reverse.head? = some d := by
    rw [List.head?_reverse, getLast?_dropWhile hne, hlast]
  have hstays : (text.toList.dropWhile isOuter).reverse.dropWhile isOuter
      = (text.toList.dropWhile isOuter).reverse := by
    obtain ⟨t, ht⟩ := List.head?_eq_some_iff.1 hhead
    rw [ht, List.dropWhile_cons_of_neg (by simp [hd])]
  show ((text.toList.dropWhile isOuter).reverse.dropWhile isOuter).reverse.filter isKept = _
  rw [hstays, List.reverse_reverse]

/-- More text that ends in a character that counts is cleaned on its own. -/
theorem cleaned_append {text more : String} {c d : Char} (hc : text.toList.getLast? = some c)
    (hc' : isOuter c = false) (hd : more.toList.getLast? = some d) (hd' : isOuter d = false) :
    cleaned (text ++ more) = cleaned text ++ more.toList.filter isKept := by
  have hne := dropWhile_ne_nil (List.mem_of_getLast? hc) hc'
  have hlast : (text ++ more).toList.getLast? = some d := by
    rw [String.toList_append, List.getLast?_append, hd]
    rfl
  rw [cleaned_of_last hlast hd', cleaned_of_last hc hc', String.toList_append,
    dropWhile_append_of_stops hne, List.filter_append]

theorem getLast?_cleaned {text : String} {d : Char} (hlast : text.toList.getLast? = some d)
    (hd : isOuter d = false) (hkept : isKept d = true) : (cleaned text).getLast? = some d := by
  have hne := dropWhile_ne_nil (List.mem_of_getLast? hlast) hd
  obtain ⟨ys, hys⟩ := List.getLast?_eq_some_iff.1 ((getLast?_dropWhile hne).trans hlast)
  rw [cleaned_of_last hlast hd, hys, List.filter_append, List.filter_cons_of_pos hkept]
  exact List.getLast?_concat

/-! ## The scheme -/

/-- Whether a character may stand in a scheme. -/
def isSchemePart (c : Char) : Bool := c.isAlphanum || c == '+' || c == '-' || c == '.'

theorem splitScheme?_eq_some {s r : List Char} {scheme : String} :
    splitScheme? s = some (scheme, r) ↔
      s.head?.any Char.isAlpha = true ∧ s.dropWhile isSchemePart = ':' :: r
        ∧ scheme = String.ofList ((s.takeWhile isSchemePart).map Char.toLower) := by
  cases s with
  | nil => simp [splitScheme?]
  | cons c s =>
    simp only [splitScheme?]
    rw [show (fun c : Char => c.isAlphanum || c == '+' || c == '-' || c == '.') = isSchemePart
      from rfl]
    split
    · rename_i r' hr
      cases halpha : c.isAlpha with
      | false => simp [halpha]
      | true =>
        simp only [if_true, Option.some.injEq, Prod.mk.injEq, List.head?_cons, Option.any_some,
          halpha, hr, List.cons.injEq, true_and]
        exact ⟨fun h => ⟨h.2, h.1.symm⟩, fun h => ⟨h.2.symm, h.1⟩⟩
    · rename_i hne
      simp only [reduceCtorEq, false_iff]
      rintro ⟨-, hr, -⟩
      exact hne r hr

theorem splitScheme?_append {s r : List Char} {scheme : String}
    (h : splitScheme? s = some (scheme, r)) (X : List Char) :
    splitScheme? (s ++ X) = some (scheme, r ++ X) := by
  obtain ⟨halpha, hdrop, hscheme⟩ := splitScheme?_eq_some.1 h
  have hstops : s.dropWhile isSchemePart ≠ [] := by simp [hdrop]
  refine splitScheme?_eq_some.2 ⟨?_, ?_, ?_⟩
  · cases s with
    | nil => cases halpha
    | cons c s => exact halpha
  · rw [dropWhile_append_of_stops hstops, hdrop]
    rfl
  · rw [takeWhile_append_of_stops hstops, hscheme]

/-! ## The path -/

/-- A text that ends in a slash settles the segments up to there. -/
theorem segmentsOf_append {c : Char} {D : List Char} (hc : isSlash true c = true)
    (hlast : (c :: D).getLast? = some '/') :
    ∃ front, ∀ X, segmentsOf true (c :: D ++ X) =
      resolve front (splitAtEach (isSlash true) X) := by
  cases hD : D.getLast? with
  | none =>
    rw [List.getLast?_eq_none_iff.1 hD]
    refine ⟨[], fun X => ?_⟩
    rw [List.cons_append, segmentsOf, if_pos hc, List.nil_append]
  | some d =>
    obtain rfl : d = '/' := by
      rw [List.getLast?_cons, hD] at hlast
      simpa using hlast
    obtain ⟨ps, rfl⟩ := List.getLast?_eq_some_iff.1 hD
    refine ⟨(splitAtEach (isSlash true) ps).foldl enter [], fun X => ?_⟩
    rw [List.cons_append, segmentsOf, if_pos hc, List.append_assoc, List.singleton_append,
      splitAtEach_append_mark (by rfl), resolve_append_left _ _ (splitAtEach_ne_nil _ X)]

/-- A text without the marks of a query and a fragment is a path. -/
theorem splitEnding_of_no_mark {special : Bool} {s : List Char}
    (h : ∀ c ∈ s, c ≠ '?' ∧ c ≠ '#') : splitEnding special s = ⟨s, none, none⟩ := by
  have hhash : s.dropWhile (· != '#') = [] :=
    dropWhile_eq_nil fun c hc => by simp [(h c hc).2]
  have hmark : s.dropWhile (· != '?') = [] :=
    dropWhile_eq_nil fun c hc => by simp [(h c hc).1]
  simp only [splitEnding, hhash, hmark, takeWhile_eq_self hhash, takeWhile_eq_self hmark]

theorem passes_of_fragment_none {special : Bool} {s : List Char}
    (h : (splitEnding special s).fragment = none) : s.dropWhile (· != '#') = [] := by
  simp only [splitEnding] at h
  split at h
  · cases h
  · assumption

theorem passes_of_query_none {special : Bool} {s : List Char}
    (h : (splitEnding special s).query = none) :
    (s.takeWhile (· != '#')).dropWhile (· != '?') = [] := by
  simp only [splitEnding] at h
  split at h
  · cases h
  · assumption

/-- Without a query the path goes on up to the fragment. -/
theorem course_of_query_none {special : Bool} {s : List Char}
    (h : (splitEnding special s).query = none) :
    (splitEnding special s).course = s.takeWhile (· != '#') ∧
      ∀ c ∈ (splitEnding special s).course, c ≠ '?' ∧ c ≠ '#' := by
  have hmark := passes_of_query_none h
  have hcourse : (splitEnding special s).course = s.takeWhile (· != '#') := takeWhile_eq_self hmark
  refine ⟨hcourse, fun c hc => ?_⟩
  rw [hcourse] at hc
  have hall : (s.takeWhile (· != '#')).all (· != '#') = true := List.all_takeWhile
  refine ⟨?_, by simpa using List.all_eq_true.1 hall c hc⟩
  rintro rfl
  exact dropWhile_ne_nil hc (by decide) hmark

theorem passes_of_splitEnding {special : Bool} {D : List Char}
    (hquery : (splitEnding special D).query = none)
    (hfragment : (splitEnding special D).fragment = none) :
    D.dropWhile (· != '#') = [] ∧ D.dropWhile (· != '?') = [] := by
  have hhash := passes_of_fragment_none hfragment
  have hmark := passes_of_query_none hquery
  rw [takeWhile_eq_self hhash] at hmark
  exact ⟨hhash, hmark⟩

/-- A text without a query and a fragment is the start of the path of any that it starts. -/
theorem splitEnding_append {special : Bool} {D : List Char}
    (hquery : (splitEnding special D).query = none)
    (hfragment : (splitEnding special D).fragment = none) (X : List Char) :
    splitEnding special (D ++ X) =
      { splitEnding special X with course := D ++ (splitEnding special X).course } := by
  obtain ⟨hhash, hmark⟩ := passes_of_splitEnding hquery hfragment
  simp only [splitEnding, takeWhile_append_of_passes hhash, dropWhile_append_of_passes hhash,
    takeWhile_append_of_passes hmark, dropWhile_append_of_passes hmark]

/-! ## The host -/

/-- Whether a character ends the place of a host in a well-known scheme. -/
def endsHost (c : Char) : Bool := isSlash true c || c == '?' || c == '#'

namespace Address

/-- Reads what stands before the path of an address in a well-known scheme. -/
def ofHost? (scheme : String) (s : List Char) : Option Address := do
  let (login, rest) := splitCredentials s
  let (hostText, portText) := splitPort false rest
  guard !hostText.isEmpty
  let host ← Host.ofText? hostText
  let port ← portOf? scheme (portText.getD [])
  return {
    scheme
    slashed := true
    credentials := login.bind credentialsOf
    host := some host
    port
    course := .segments []
    query := none
    fragment := none }

/-- An address with another path, query and fragment. -/
def withEnding (a : Address) (segments : List String) (e : Ending) : Address :=
  { a with course := .segments segments, query := e.query, fragment := e.fragment }

/-- The address that a path goes on to from the segments `front`. -/
def below (a : Address) (front : List String) (more : List Char) : Address :=
  let e := splitEnding true more
  a.withEnding (resolve front (splitAtEach (isSlash true) e.course)) e

theorem ofAuthority?_special {scheme : String} (hscheme : isSpecial scheme = true)
    (s : List Char) :
    ofAuthority? scheme s = (ofHost? scheme (s.takeWhile (!endsHost ·))).map fun a =>
      let e := splitEnding true (s.dropWhile (!endsHost ·))
      a.withEnding (segmentsOf true e.course) e := by
  unfold ofAuthority? ofHost? endsHost
  rw [hscheme]
  dsimp only
  generalize splitCredentials _ = login
  generalize splitPort false login.2 = host
  cases host.1.isEmpty with
  | true => rfl
  | false =>
    cases Host.ofText? host.1 with
    | none => rfl
    | some h =>
      cases portOf? scheme (host.2.getD []) with
      | none => rfl
      | some port => rfl

theorem host_of_ofHost? {scheme : String} {s : List Char} {a : Address}
    (h : ofHost? scheme s = some a) : a.host.isSome = true := by
  unfold ofHost? at h
  obtain ⟨_, -, h⟩ := Option.bind_eq_some_iff.1 h
  obtain ⟨host, -, h⟩ := Option.bind_eq_some_iff.1 h
  obtain ⟨port, -, h⟩ := Option.bind_eq_some_iff.1 h
  cases h
  rfl

/-- What follows an address that ends in a slash goes on from its path. -/
theorem ofAuthority?_append {scheme : String} (hscheme : isSpecial scheme = true)
    {s : List Char} {a : Address} (h : ofAuthority? scheme s = some a)
    (hlast : s.getLast? = some '/') (hquery : a.query = none) (hfragment : a.fragment = none) :
    ∃ front, a.course = .segments (front ++ [""]) ∧ a.host.isSome = true ∧
      ∀ X, ofAuthority? scheme (s ++ X) = some (a.below front X) := by
  rw [ofAuthority?_special hscheme] at h
  obtain ⟨place, hplace, rfl⟩ := Option.map_eq_some_iff.1 h
  have hhost := host_of_ofHost? hplace
  have hstops : s.dropWhile (!endsHost ·) ≠ [] :=
    dropWhile_ne_nil (List.mem_of_getLast? hlast) (by decide)
  have hlastD := getLast?_dropWhile hstops
  rw [hlast] at hlastD
  -- what is left starts with a slash, since there is no query and no fragment
  obtain ⟨hhash, hmark⟩ := passes_of_splitEnding (D := s.dropWhile (!endsHost ·)) hquery hfragment
  obtain ⟨c, D, hD⟩ := List.exists_cons_of_ne_nil hstops
  have hends : endsHost c = true := by
    have := List.head_dropWhile_not (!endsHost ·) hstops
    simpa [hD] using this
  rw [hD] at hlastD hhash hmark
  have hc : isSlash true c = true := by
    have hhash : c ≠ '#' := by
      rintro rfl
      cases hhash
    have hmark : c ≠ '?' := by
      rintro rfl
      cases hmark
    simpa [endsHost, hhash, hmark] using hends
  obtain ⟨front, hfront⟩ := segmentsOf_append hc hlastD
  refine ⟨front, ?_, hhost, fun X => ?_⟩
  · have hcourse := congrArg Ending.course (splitEnding_append hquery hfragment [])
    rw [List.append_nil] at hcourse
    show Course.segments (segmentsOf true (splitEnding true _).course) = _
    rw [hcourse, hD, hfront]
    rfl
  · rw [ofAuthority?_special hscheme, takeWhile_append_of_stops hstops,
      dropWhile_append_of_stops hstops, hplace, Option.map_some,
      splitEnding_append hquery hfragment, hD]
    simp only [hfront]
    rfl

/-! ## The whole -/

theorem scheme_of_ofAuthority? {scheme : String} {s : List Char} {a : Address}
    (h : ofAuthority? scheme s = some a) : a.scheme = scheme := by
  unfold ofAuthority? at h
  obtain ⟨_, -, h⟩ := Option.bind_eq_some_iff.1 h
  repeat' split at h
  all_goals
    obtain ⟨_, -, h⟩ := Option.bind_eq_some_iff.1 h
    obtain ⟨_, -, h⟩ := Option.bind_eq_some_iff.1 h
    cases h
    rfl

theorem scheme_of_ofFile? {s : List Char} {a : Address} (h : ofFile? s = some a) :
    a.scheme = "file" := by
  simp only [ofFile?, Option.bind_eq_bind] at h
  repeat' split at h
  all_goals
    obtain ⟨_, -, h⟩ := Option.bind_eq_some_iff.1 h
    cases h
    rfl

theorem ofText?_special {text scheme : String} {s : List Char}
    (h : splitScheme? (cleaned text) = some (scheme, s)) (hspecial : isSpecial scheme = true)
    (hfile : scheme ≠ "file") :
    ofText? text = ofAuthority? scheme (s.dropWhile (isSlash true)) := by
  rw [ofText?, h]
  show (if scheme = "file" then _ else _) = _
  rw [if_neg hfile, if_pos hspecial]

theorem scheme_of_ofText? {text : String} {a : Address} (h : ofText? text = some a) :
    ∃ s, splitScheme? (cleaned text) = some (a.scheme, s) := by
  simp only [ofText?, Option.bind_eq_bind] at h
  obtain ⟨⟨scheme, s⟩, hsplit, h⟩ := Option.bind_eq_some_iff.1 h
  suffices hscheme : a.scheme = scheme from ⟨s, by rw [hsplit, hscheme]⟩
  dsimp only at h
  split at h
  · rename_i hfile
    rw [scheme_of_ofFile? h, hfile]
  · split at h
    · exact scheme_of_ofAuthority? h
    · split at h
      · exact scheme_of_ofAuthority? h
      · cases h
        rfl

/-- A text that goes on where an address ends in a slash is read from there. -/
theorem ofText?_append {dir : String} {a : Address} (h : ofText? (dir ++ "/") = some a)
    (hspecial : isSpecial a.scheme = true) (hfile : a.scheme ≠ "file") (hquery : a.query = none)
    (hfragment : a.fragment = none) :
    ∃ front, a.course = .segments (front ++ [""]) ∧ a.host.isSome = true ∧
      ∀ (more : String) (d : Char), more.toList.getLast? = some d → isOuter d = false →
        ofText? (dir ++ "/" ++ more) = some (a.below front (more.toList.filter isKept)) := by
  have hdir : (dir ++ "/").toList.getLast? = some '/' := by
    rw [String.toList_append]
    exact List.getLast?_concat
  obtain ⟨s, hs⟩ := scheme_of_ofText? h
  rw [ofText?_special hs hspecial hfile] at h
  -- a host was read, so the slashes after the scheme are not all there is
  have hstops : s.dropWhile (isSlash true) ≠ [] := by
    intro hnil
    rw [hnil, ofAuthority?_special hspecial] at h
    cases h
  have hlast : (s.dropWhile (isSlash true)).getLast? = some '/' := by
    have hcolon := (splitScheme?_eq_some.1 hs).2.1
    have hrest : ((cleaned (dir ++ "/")).dropWhile isSchemePart).getLast? = _ :=
      getLast?_dropWhile (by simp [hcolon])
    rw [hcolon, getLast?_cleaned hdir (by decide) (by decide), List.getLast?_cons] at hrest
    rw [getLast?_dropWhile hstops]
    cases hslash : s.getLast? with
    | none => rw [hslash] at hrest; cases hrest
    | some c => rw [hslash] at hrest; exact hrest
  obtain ⟨front, hfront, hhost, hmore⟩ :=
    ofAuthority?_append hspecial h hlast hquery hfragment
  refine ⟨front, hfront, hhost, fun more d hd houter => ?_⟩
  have hsmore := splitScheme?_append hs (more.toList.filter isKept)
  rw [← cleaned_append hdir (by decide) hd houter] at hsmore
  rw [ofText?_special hsmore hspecial hfile, dropWhile_append_of_stops hstops]
  exact hmore _

end Address

end Availability.Url

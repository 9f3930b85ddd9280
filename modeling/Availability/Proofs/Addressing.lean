import Availability.Credentials
import Availability.Inbound.Request
import Availability.Proofs.Url.Address
import Availability.Proofs.Url.Percent

/-!
# Which resource the credential service is asked for

The name of a source is put into the address of its credentials as it is. A name with a slash, a
dot segment, the mark of a query or of a fragment, a line break or what looks like an encoded byte
is then read as something else.

* `CredentialService.isPlain_iff_spelled`: which names are plain, letter for letter.
* `CredentialService.asksFor_iff_isPlain`: the names that an address asks for by their own.
-/

namespace Availability

namespace CredentialService

open Url

/-- Whether a character of a name stays what it is in an address. -/
def isPlainChar (c : Char) : Bool := isKept c && !isSlash true c && c != '?' && c != '#'

/-- Whether a name stays what it is in an address. -/
def isPlain (sourceId : String) : Bool :=
  sourceId.toList.all isPlainChar && !hasEscape sourceId.toList
    && !isDot sourceId.toList && !isDoubleDot sourceId.toList

theorem isPlain_iff {sourceId : String} :
    isPlain sourceId = true ↔ (∀ c ∈ sourceId.toList, isPlainChar c = true) ∧
      hasEscape sourceId.toList = false ∧ isDot sourceId.toList = false ∧
      isDoubleDot sourceId.toList = false := by
  simp [isPlain, and_assoc]

theorem of_isPlainChar {c : Char} (h : isPlainChar c = true) :
    isKept c = true ∧ isSlash true c = false ∧ c ≠ '?' ∧ c ≠ '#' := by
  simpa [isPlainChar, and_assoc] using h

theorem isDot_iff {s : List Char} (h : hasEscape s = false) : isDot s = true ↔ s = ['.'] := by
  have hlower := (hasEscape_map_toLower s).trans h
  simp only [isDot, Bool.or_eq_true, beq_iff_eq]
  constructor
  · rintro (hdot | hescape)
    · obtain ⟨c, r, rfl, hc, hnil⟩ := List.map_eq_cons_iff.1 hdot
      rw [(toLower_eq_iff (by decide)).1 hc, List.map_eq_nil_iff.1 hnil]
    · rw [hescape] at hlower
      exact absurd hlower (by decide)
  · rintro rfl
    exact .inl rfl

theorem isDoubleDot_iff {s : List Char} (h : hasEscape s = false) :
    isDoubleDot s = true ↔ s = ['.', '.'] := by
  have hlower := (hasEscape_map_toLower s).trans h
  simp only [isDoubleDot, Bool.or_eq_true, beq_iff_eq, or_assoc]
  constructor
  · rintro (hdots | hescape | hescape | hescape)
    · obtain ⟨c, r, rfl, hc, hr⟩ := List.map_eq_cons_iff.1 hdots
      obtain ⟨d, r, rfl, hd, hnil⟩ := List.map_eq_cons_iff.1 hr
      rw [(toLower_eq_iff (by decide)).1 hc, (toLower_eq_iff (by decide)).1 hd,
        List.map_eq_nil_iff.1 hnil]
    all_goals
      rw [hescape] at hlower
      exact absurd hlower (by decide)
  · rintro rfl
    exact .inl rfl

/-- A name is plain unless it holds a tab, a line break, a slash, the mark of a query or of a
fragment, or what looks like an encoded byte, or is one dot or two. -/
theorem isPlain_iff_spelled {sourceId : String} :
    isPlain sourceId = true ↔
      (∀ c ∈ sourceId.toList, c ∉ ['\t', '\n', '\r', '/', '\\', '?', '#']) ∧
        hasEscape sourceId.toList = false ∧ sourceId ≠ "." ∧ sourceId ≠ ".." := by
  have hchar (c : Char) : isPlainChar c = true ↔
      c ∉ ['\t', '\n', '\r', '/', '\\', '?', '#'] := by
    simp [isPlainChar, isKept, isSlash, and_assoc]
  rw [isPlain_iff]
  simp only [hchar]
  refine and_congr_right fun _ => and_congr_right fun hescape => ?_
  rw [← Bool.not_eq_true, ← Bool.not_eq_true, isDot_iff hescape, isDoubleDot_iff hescape, Ne, Ne,
    ← String.toList_inj, ← String.toList_inj]
  rfl

/-- What stands around a name in the path is plain. -/
theorem isPlain_words : isPlain "sources" = true ∧ isPlain "authentication" = true := by
  decide +kernel

/-! ## The path of a name -/

/-- Whether an address asks for the credentials of a source, below the segments `front`. -/
def AsksFor (a : Address) (front : List String) (sourceId : String) : Prop :=
  a.query = none ∧ ∃ segment,
    a.course = .segments (front ++ ["sources", segment, "authentication"]) ∧
      decodeBytes segment.toList = Utf8.encode sourceId

/-- What an address of credentials goes on with after the address of the service. -/
def pathOf (sourceId : String) : List Char :=
  "sources".toList ++ '/' :: (sourceId.toList.filter isKept ++ '/' :: "authentication".toList)

theorem filter_path (sourceId : String) :
    ("sources/" ++ sourceId ++ "/authentication").toList.filter isKept = pathOf sourceId := by
  have hstart : "sources/".toList.filter isKept = "sources".toList ++ ['/'] := by decide +kernel
  have hend : "/authentication".toList.filter isKept = '/' :: "authentication".toList := by
    decide +kernel
  rw [String.toList_append, String.toList_append, List.filter_append, List.filter_append, hstart,
    hend]
  unfold pathOf
  simp only [List.append_assoc, List.cons_append, List.nil_append]

theorem isPlainChar_of_piece {sourceId : String} {q : List Char}
    (hquery : (splitEnding true (pathOf sourceId)).query = none)
    (hq : q ∈ splitAtEach (isSlash true) (splitEnding true (pathOf sourceId)).course) :
    ∀ c ∈ q, isPlainChar c = true := by
  intro c hc
  obtain ⟨hsub, hslash⟩ := of_mem_splitAtEach hq
  obtain ⟨hcourse, hmarks⟩ := course_of_query_none hquery
  obtain ⟨hmark, hhash⟩ := hmarks c (hsub.mem hc)
  have hkept : isKept c = true := by
    have hmem := (List.takeWhile_sublist _).mem (hcourse ▸ hsub.mem hc)
    rw [← filter_path] at hmem
    exact (List.mem_filter.1 hmem).2
  simp [isPlainChar, hkept, hslash c hc, hmark, hhash]

/-- Only the name can bring in what looks like an encoded byte. -/
theorem sublist_of_piece {sourceId : String} {q : List Char}
    (hquery : (splitEnding true (pathOf sourceId)).query = none)
    (hq : q ∈ splitAtEach (isSlash true) (splitEnding true (pathOf sourceId)).course)
    (hescape : hasEscape q = true) : q.Sublist sourceId.toList := by
  obtain ⟨hsources, hauth⟩ := isPlain_words
  have hpass : ∀ {word : String}, isPlain word = true →
      ∀ c ∈ word.toList, isSlash true c = false ∧ (c != '#') = true := by
    intro word hword c hc
    obtain ⟨-, hslash, -, hhash⟩ := of_isPlainChar ((isPlain_iff.1 hword).1 c hc)
    exact ⟨hslash, bne_iff_ne.2 hhash⟩
  rw [(course_of_query_none hquery).1] at hq
  unfold pathOf at hq
  rcases of_mem_splitAtEach_takeWhile (by decide) (by decide) (hpass hsources) (hpass hauth) hq
    with rfl | rfl | hsub
  · rw [(isPlain_iff.1 hsources).2.1] at hescape
    cases hescape
  · rw [(isPlain_iff.1 hauth).2.1] at hescape
    cases hescape
  · exact hsub.trans List.filter_sublist

/-- A plain name is a piece of its own. -/
theorem pieces_of_isPlain {sourceId : String} (h : isPlain sourceId = true) :
    splitEnding true (pathOf sourceId) = ⟨pathOf sourceId, none, none⟩ ∧
      splitAtEach (isSlash true) (pathOf sourceId) =
        ["sources".toList, sourceId.toList, "authentication".toList] := by
  have hchars := (isPlain_iff.1 h).1
  have hsources := (isPlain_iff.1 isPlain_words.1).1
  have hauth := (isPlain_iff.1 isPlain_words.2).1
  unfold pathOf
  rw [List.filter_eq_self.2 fun c hc => (of_isPlainChar (hchars c hc)).1]
  constructor
  · refine splitEnding_of_no_mark fun c hc => ?_
    rcases List.mem_append.1 hc with hc | hc
    · exact (of_isPlainChar (hsources c hc)).2.2
    · rcases List.mem_cons.1 hc with rfl | hc
      · decide
      · rcases List.mem_append.1 hc with hc | hc
        · exact (of_isPlainChar (hchars c hc)).2.2
        · rcases List.mem_cons.1 hc with rfl | hc
          · decide
          · exact (of_isPlainChar (hauth c hc)).2.2
  · rw [splitAtEach_append_mark (by decide), splitAtEach_append_mark (by decide),
      splitAtEach_of_no_mark fun c hc => (of_isPlainChar (hsources c hc)).2.1,
      splitAtEach_of_no_mark fun c hc => (of_isPlainChar (hchars c hc)).2.1,
      splitAtEach_of_no_mark fun c hc => (of_isPlainChar (hauth c hc)).2.1]
    rfl

/-! ## Plain names and no others -/

theorem asksFor_of_isPlain (base : Address) (front : List String) {sourceId : String}
    (h : isPlain sourceId = true) :
    AsksFor (base.below front (pathOf sourceId)) front sourceId := by
  obtain ⟨-, hescape, hdot⟩ := isPlain_iff.1 h
  obtain ⟨hending, hpieces⟩ := pieces_of_isPlain h
  have hwords : String.ofList (encodeWith inPath "sources".toList) = "sources" ∧
      String.ofList (encodeWith inPath "authentication".toList) = "authentication" := by
    decide +kernel
  have hresolve : Url.resolve front (splitAtEach (isSlash true) (pathOf sourceId)) = front ++
      ["sources", String.ofList (encodeWith inPath sourceId.toList), "authentication"] := by
    rw [hpieces, resolve_append]
    · rw [List.map_cons, List.map_cons, List.map_cons, hwords.1, hwords.2]
      rfl
    · intro q hq
      simp only [List.mem_cons, List.not_mem_nil, or_false] at hq
      rcases hq with rfl | rfl | rfl
      · exact (isPlain_iff.1 isPlain_words.1).2.2
      · exact hdot
      · exact (isPlain_iff.1 isPlain_words.2).2.2
  unfold Address.below
  rw [hending]
  refine ⟨rfl, String.ofList (encodeWith inPath sourceId.toList), ?_, ?_⟩
  · exact congrArg Course.segments hresolve
  · rw [String.toList_ofList, decodeBytes_encodeWith hescape]
    rfl

theorem isPlain_of_asksFor {base : Address} {front : List String} {sourceId : String}
    (h : AsksFor (base.below front (pathOf sourceId)) front sourceId) :
    isPlain sourceId = true := by
  obtain ⟨hquery, segment, hcourse, hdecode⟩ := h
  have hresolve : Url.resolve front
      (splitAtEach (isSlash true) (splitEnding true (pathOf sourceId)).course) =
        front ++ ["sources", segment, "authentication"] := Course.segments.inj hcourse
  -- the segment was not there before, so it is the encoding of a piece of the path
  have hgrown : Grown front
      (fun t => ∃ q, t = String.ofList (encodeWith inPath q) ∧ (q = [] ∨
        q ∈ splitAtEach (isSlash true) (splitEnding true (pathOf sourceId)).course ∧
          isDot q = false ∧ isDoubleDot q = false))
      (front ++ ["sources", segment, "authentication"]) :=
    hresolve ▸ grown_resolve .refl ⟨[], rfl, .inl rfl⟩ fun q hq hdot hdots =>
      ⟨q, rfl, .inr ⟨hq, hdot, hdots⟩⟩
  obtain ⟨q, rfl, hq⟩ := hgrown.of_append segment (by simp)
  rw [String.toList_ofList, ← utf8_toList] at hdecode
  rcases hq with rfl | ⟨hq, hdot, hdots⟩
  · have hname : [] = sourceId.toList :=
      utf8_inj (show utf8 [] = utf8 sourceId.toList from hdecode)
    rw [isPlain_iff, ← hname]
    exact ⟨by simp, rfl, rfl, rfl⟩
  · cases hescape : hasEscape q with
    | true =>
      -- a piece of the name cannot decode to fewer bytes than it has and to the whole name
      have hlt := length_decodeBytes_lt hescape
      have hle := length_utf8_of_sublist (sublist_of_piece hquery hq hescape)
      rw [hdecode] at hlt
      omega
    | false =>
      rw [decodeBytes_encodeWith hescape] at hdecode
      have hname : q = sourceId.toList := utf8_inj hdecode
      rw [isPlain_iff, ← hname]
      exact ⟨isPlainChar_of_piece hquery hq, hescape, hdot, hdots⟩

/-! ## The request -/

/-- The service is asked at an address that goes on from its own, for anyone whom headers can
name. -/
theorem request_ok_iff {service : CredentialService} {base : Address}
    (hbase : Address.ofText? (Http.baseOf service.url ++ "/") = some base)
    (hweb : Http.isWeb base = true) (hquery : base.query = none)
    (hfragment : base.fragment = none) :
    ∃ front, base.course = .segments (front ++ [""]) ∧
      ∀ (sourceId : String) (identity : Principal) (r : Http.Request),
        service.request sourceId identity = .ok r ↔
          ((headersOf identity).all fun h => h.2.all Http.isHeaderByte) = true ∧
            r = ⟨"GET", base.below front (pathOf sourceId), headersOf identity, []⟩ := by
  have hscheme : isSpecial base.scheme = true ∧ base.scheme ≠ "file" := by
    rcases Bool.or_eq_true_iff.1 hweb with h | h
    · rw [eq_of_beq h]
      decide
    · rw [eq_of_beq h]
      decide
  obtain ⟨front, hfront, hhost, hmore⟩ :=
    Address.ofText?_append hbase hscheme.1 hscheme.2 hquery hfragment
  refine ⟨front, hfront, fun sourceId identity r => ?_⟩
  have haddress : service.addressOf sourceId =
      Http.baseOf service.url ++ "/" ++ ("sources/" ++ sourceId ++ "/authentication") := by
    rw [addressOf, show "/sources/" = "/" ++ "sources/" from rfl]
    simp only [String.append_assoc]
  have hlast : ("sources/" ++ sourceId ++ "/authentication").toList.getLast? = some 'n' := by
    rw [String.toList_append, List.getLast?_append,
      show "/authentication".toList.getLast? = some 'n' from rfl]
    rfl
  have hread := hmore ("sources/" ++ sourceId ++ "/authentication") 'n' hlast (by decide)
  rw [filter_path, ← haddress] at hread
  rw [request, Http.Request.make_ok_iff, hread]
  constructor
  · rintro ⟨a, ha, -, hheaders, -, rfl⟩
    cases ha
    exact ⟨hheaders, rfl⟩
  · rintro ⟨hheaders, rfl⟩
    exact ⟨_, rfl, hhost, hheaders, hweb, rfl⟩

/-- A source is asked for by its own name exactly if the name is plain, and then no other plain name
asks for the same. Any other name is read as something else. -/
theorem asksFor_iff_isPlain {service : CredentialService} {base : Address}
    (hbase : Address.ofText? (Http.baseOf service.url ++ "/") = some base)
    (hweb : Http.isWeb base = true) (hquery : base.query = none)
    (hfragment : base.fragment = none) :
    ∃ (front : List String) (address : String → Address),
      base.course = .segments (front ++ [""]) ∧
      (∀ (sourceId : String) (identity : Principal) (r : Http.Request),
        service.request sourceId identity = .ok r ↔
          ((headersOf identity).all fun h => h.2.all Http.isHeaderByte) = true ∧
            r = ⟨"GET", address sourceId, headersOf identity, []⟩) ∧
      (∀ sourceId, (address sourceId).scheme = base.scheme ∧
        (address sourceId).credentials = base.credentials ∧
        (address sourceId).host = base.host ∧ (address sourceId).port = base.port) ∧
      (∀ sourceId, AsksFor (address sourceId) front sourceId ↔ isPlain sourceId = true) ∧
      ∀ sourceId sourceId', isPlain sourceId = true → isPlain sourceId' = true →
        (address sourceId).course = (address sourceId').course → sourceId = sourceId' := by
  obtain ⟨front, hfront, hrequest⟩ := request_ok_iff hbase hweb hquery hfragment
  refine ⟨front, fun sourceId => base.below front (pathOf sourceId), hfront, hrequest,
    fun _ => ⟨rfl, rfl, rfl, rfl⟩,
    fun _ => ⟨isPlain_of_asksFor, asksFor_of_isPlain base front⟩,
    fun sourceId sourceId' h h' hcourse => ?_⟩
  obtain ⟨-, segment, hsegment, hdecode⟩ := asksFor_of_isPlain base front h
  obtain ⟨-, segment', hsegment', hdecode'⟩ := asksFor_of_isPlain base front h'
  have hsegments := Course.segments.inj (hsegment.symm.trans (hcourse.trans hsegment'))
  obtain rfl : segment = segment' := by
    simpa using List.append_cancel_left hsegments
  exact String.toList_inj.1 (utf8_inj (hdecode.symm.trans hdecode'))

/-- A percent sign and a blank are plain, and the way up is not. -/
theorem asksFor_below_api :
    Address.ofText? (Http.baseOf "http://localhost:8000/api/" ++ "/") =
        some ⟨"http", true, none, some (.name "localhost"), some 8000, .segments ["api", ""], none,
          none⟩ ∧
      Http.isWeb ⟨"http", true, none, some (.name "localhost"), some 8000, .segments ["api", ""],
        none, none⟩ = true ∧
      (∃ r, (CredentialService.mk "http://localhost:8000/api/" 3 100).request "100% a" ⟨"o", none⟩ =
        .ok r ∧ AsksFor r.address ["api"] "100% a") ∧
      ∀ r, (CredentialService.mk "http://localhost:8000/api/" 3 100).request "../x" ⟨"o", none⟩ =
        .ok r → ¬AsksFor r.address ["api"] "../x" := by
  have hbase : Address.ofText? (Http.baseOf "http://localhost:8000/api/" ++ "/") =
      some ⟨"http", true, none, some (.name "localhost"), some 8000, .segments ["api", ""], none,
        none⟩ := by decide +kernel
  obtain ⟨front, address, hfront, hrequest, -, hasks, -⟩ :=
    @asksFor_iff_isPlain ⟨"http://localhost:8000/api/", 3, 100⟩ _ hbase (by decide) rfl rfl
  obtain rfl : front = ["api"] := by
    have hsegments : ["api"] ++ [""] = front ++ [""] := Course.segments.inj hfront
    exact (List.append_cancel_right hsegments).symm
  have hplain : isPlain "100% a" = true ∧ isPlain "../x" = false := by decide +kernel
  refine ⟨hbase, by decide,
    ⟨_, (hrequest _ _ _).2 ⟨by decide +kernel, rfl⟩, (hasks _).2 hplain.1⟩, ?_⟩
  intro r hr hasksFor
  obtain ⟨-, rfl⟩ := (hrequest _ _ _).1 hr
  exact absurd ((hasks _).1 hasksFor) (by simp [hplain.2])

/-- A name that leads upwards asks for what is no source, and another name asks for the same. -/
theorem request_leaves_sources :
    SourceRequest.decode (Utf8.encode "\x7b\"source_id\":\"../x\"\x7d") = .ok ⟨"../x"⟩ ∧
      Address.ofText? (Http.baseOf "http://localhost:8000/api" ++ "/") =
        some ⟨"http", true, none, some (.name "localhost"), some 8000, .segments ["api", ""], none,
          none⟩ ∧
      ∃ r, (CredentialService.mk "http://localhost:8000/api" 3 100).request "../x" ⟨"o", none⟩ =
          .ok r ∧
        (CredentialService.mk "http://localhost:8000/api" 3 100).request "a/../../x" ⟨"o", none⟩ =
          .ok r ∧
        r.address.course = .segments ["api", "x", "authentication"] ∧
        ¬AsksFor r.address ["api"] "../x" := by
  have hup : Address.ofText? "http://localhost:8000/api/sources/../x/authentication" =
      some ⟨"http", true, none, some (.name "localhost"), some 8000,
        .segments ["api", "x", "authentication"], none, none⟩ := by decide +kernel
  have hupTwice : Address.ofText? "http://localhost:8000/api/sources/a/../../x/authentication" =
      some ⟨"http", true, none, some (.name "localhost"), some 8000,
        .segments ["api", "x", "authentication"], none, none⟩ := by decide +kernel
  refine ⟨by with_unfolding_all rfl, by decide +kernel, _,
    (Http.Request.make_ok_iff ..).2 ⟨_, hup, rfl, by decide +kernel, by decide, rfl⟩,
    (Http.Request.make_ok_iff ..).2 ⟨_, hupTwice, rfl, by decide +kernel, by decide, rfl⟩,
    rfl, ?_⟩
  rintro ⟨-, segment, hcourse, -⟩
  exact absurd (Course.segments.inj hcourse) (by simp)

end CredentialService

end Availability

import Availability.Credentials
import Availability.Proofs.Retry.Attempts

/-!
# What comes of a lookup

The credential service may answer each request of a lookup as it likes, or not at all. A reply
settles the lookup (`Answers`) or makes it go on (`Fails`), and every reply does one of the two. So
the first reply that settles the lookup is the last one asked for, and if there is none the lookup
fails as its last request did.

* `retry_congr`: attempts go by the outcomes of those that are made, and by no other.
* `answers_or_fails`: every reply settles a lookup or leaves it open.
* `CredentialService.lookup_settles`: requests and result of a lookup, whatever is answered.
-/

namespace Availability

/-! ## Outcomes that are not asked for -/

theorem retryFrom_congr {α : Type} {c : Circumstances} {operation operation' : Nat → Except Error α}
    {left n : Nat} {b : Backoff}
    (h : ∀ k, n ≤ k → k < (retryFrom c operation left n b).count → operation' k = operation k) :
    retryFrom c operation' left n b = retryFrom c operation left n b := by
  induction left generalizing n b with
  | zero =>
    have hfirst := h n (Nat.le_refl n) (went_retryFrom c operation 0 n b).count_bounds.1
    simp only [retryFrom, hfirst]
  | succ left ih =>
    have hfirst := h n (Nat.le_refl n) (went_retryFrom c operation (left + 1) n b).count_bounds.1
    simp only [retryFrom] at h ⊢
    rw [hfirst]
    cases hn : operation n with
    | ok x => rfl
    | error e =>
      simp only [hn] at h ⊢
      cases hs : sequel c (left + 1) n b e with
      | again wait b' =>
        simp only [hs] at h ⊢
        rw [ih fun k hk hlt => h k (Nat.le_of_succ_le hk) hlt]
      | _ => rfl

theorem retry_congr {α : Type} {c : Circumstances} {maxRetries baseDelayMs : Nat}
    {operation operation' : Nat → Except Error α}
    (h : ∀ k < (retry c maxRetries baseDelayMs operation).count, operation' k = operation k) :
    retry c maxRetries baseDelayMs operation' = retry c maxRetries baseDelayMs operation :=
  retryFrom_congr fun k _ hk => h k hk

namespace CredentialService

/-! ## Replies -/

/-- The text of a body, of which nothing is left if it breaks off. -/
def textOf (body : Option Bytes) : String := (body.map Utf8.decodeLossy).getD ""

/-- Whether a body says these credentials. -/
def Decodes (body : Bytes) (applicationId providerType payload : String) : Prop :=
  ∃ record, Json.Record.read shape body = .ok record ∧
    record.text "application_id" = applicationId ∧ record.text "provider_type" = providerType ∧
    record.text "payload" = payload

/-- The replies that settle a lookup, and what they make of it. -/
inductive Answers (sourceId : String) (identity : Principal) :
    Http.Reply → Except Error ResolvedSource → Prop
  | missing (body : Option Bytes) :
      Answers sourceId identity (.response 404 body) (.error (.notFound sourceId))
  | refused {status : Nat} {body : Option Bytes} (hthere : status ≠ 404)
      (hfailure : Http.isSuccess status = false) (hbelow : status < 500) :
      Answers sourceId identity (.response status body)
        (.error (.lookup sourceId (some status) (textOf body)))
  | resolved {status : Nat} {body : Bytes} {applicationId providerType payload : String}
      (hsuccess : Http.isSuccess status = true)
      (hdecodes : Decodes body applicationId providerType payload) :
      Answers sourceId identity (.response status (some body))
        (.ok {
          authentication := ⟨.ofText providerType, payload, applicationId⟩
          applicationId
          providerTag := .ofText providerType
          identity })

/-- The replies to a request that leave a lookup open, and the errors they are. -/
inductive Fails (r : Http.Request) (sourceId : String) : Http.Reply → Error → Prop
  | unanswered : Fails r sourceId .none (.http r.unanswered)
  | unserved {status : Nat} {body : Option Bytes} (hserver : 500 ≤ status) :
      Fails r sourceId (.response status body) (.lookup sourceId (some status) (textOf body))
  | brokenOff {status : Nat} (hsuccess : Http.isSuccess status = true) :
      Fails r sourceId (.response status none) (.http .unreadable)
  | garbled {status : Nat} {body : Bytes} (hsuccess : Http.isSuccess status = true)
      (hgarbled : ∀ applicationId providerType payload,
        ¬Decodes body applicationId providerType payload) :
      Fails r sourceId (.response status (some body)) (.http .unreadable)

variable {s : CredentialService} {sourceId : String} {identity : Principal} {r : Http.Request}
  {reply : Http.Reply}

theorem isSuccess_of_le {status : Nat} (h : 400 ≤ status) : Http.isSuccess status = false := by
  simp only [Http.isSuccess, Bool.and_eq_false_iff, decide_eq_false_iff_not]
  omega

theorem readReply_of_success {status : Nat} {body : Option Bytes}
    (h : Http.isSuccess status = true) :
    readReply r sourceId identity (.response status body) = readBody identity body := by
  have hthere : status ≠ Http.notFoundStatus := by
    rintro rfl
    cases h
  rw [readReply, if_neg hthere, if_pos h]

theorem readReply_of_failure {status : Nat} {body : Option Bytes} (hthere : status ≠ 404)
    (h : Http.isSuccess status = false) :
    readReply r sourceId identity (.response status body) =
      .error (.lookup sourceId (some status) (textOf body)) := by
  rw [readReply, if_neg (show status ≠ Http.notFoundStatus from hthere),
    if_neg (Bool.eq_false_iff.1 h)]
  rfl

theorem readReply_of_answers {x : Except Error ResolvedSource}
    (h : Answers sourceId identity reply x) : readReply r sourceId identity reply = x := by
  cases h with
  | missing body => rfl
  | refused hthere hfailure hbelow => exact readReply_of_failure hthere hfailure
  | resolved hsuccess hdecodes =>
    obtain ⟨record, hread, rfl, rfl, rfl⟩ := hdecodes
    rw [readReply_of_success hsuccess]
    simp only [readBody, hread]
    rfl

theorem readReply_of_fails {e : Error} (h : Fails r sourceId reply e) :
    readReply r sourceId identity reply = .error e := by
  cases h with
  | unanswered => rfl
  | unserved hserver =>
    exact readReply_of_failure (by omega) (isSuccess_of_le (Nat.le_trans (by decide) hserver))
  | brokenOff hsuccess => exact readReply_of_success hsuccess
  | @garbled status body hsuccess hgarbled =>
    rw [readReply_of_success hsuccess, readBody]
    cases hread : Json.Record.read shape body with
    | error failure => rfl
    | ok record => exact absurd ⟨record, hread, rfl, rfl, rfl⟩ (hgarbled _ _ _)

theorem Answers.settles {x : Except Error ResolvedSource}
    (h : Answers sourceId identity reply x) : Settles x := by
  cases h with
  | missing body => rfl
  | refused hthere hfailure hbelow => exact decide_eq_false (Nat.not_le.2 hbelow)
  | resolved => trivial

theorem Fails.isRetryable {e : Error} (h : Fails r sourceId reply e) : e.isRetryable = true := by
  cases h with
  | unserved hserver => exact decide_eq_true hserver
  | _ => rfl

/-- Every reply settles a lookup or leaves it open. -/
theorem answers_or_fails (r : Http.Request) (sourceId : String) (identity : Principal)
    (reply : Http.Reply) :
    (∃ x, Answers sourceId identity reply x) ∨ ∃ e, Fails r sourceId reply e := by
  cases reply with
  | none => exact .inr ⟨_, .unanswered⟩
  | response status body =>
    by_cases hmissing : status = 404
    · subst hmissing
      exact .inl ⟨_, .missing body⟩
    cases hsuccess : Http.isSuccess status with
    | false =>
      by_cases hbelow : status < 500
      · exact .inl ⟨_, .refused hmissing hsuccess hbelow⟩
      · exact .inr ⟨_, .unserved (Nat.le_of_not_lt hbelow)⟩
    | true =>
      cases body with
      | none => exact .inr ⟨_, .brokenOff hsuccess⟩
      | some body =>
        by_cases hdecodes : ∃ applicationId providerType payload,
            Decodes body applicationId providerType payload
        · obtain ⟨applicationId, providerType, payload, hdecodes⟩ := hdecodes
          exact .inl ⟨_, .resolved hsuccess hdecodes⟩
        · simp only [not_exists] at hdecodes
          exact .inr ⟨_, .garbled hsuccess hdecodes⟩

theorem Answers.not_fails {x : Except Error ResolvedSource} {e : Error}
    (h : Answers sourceId identity reply x) : ¬Fails r sourceId reply e := by
  intro hfails
  have hsettles := h.settles
  rw [← readReply_of_answers (r := r) h, readReply_of_fails hfails] at hsettles
  exact Bool.false_ne_true (hsettles.symm.trans hfails.isRetryable)

theorem fails_of_unsettled (h : Unsettled (readReply r sourceId identity reply)) :
    ∃ e, Fails r sourceId reply e := by
  rcases answers_or_fails r sourceId identity reply with ⟨x, hanswers⟩ | hfails
  · rw [readReply_of_answers hanswers] at h
    exact absurd hanswers.settles h.not_settles
  · exact hfails

/-- A reply that leaves a lookup open does not blame the caller. -/
theorem Fails.not_client {status : Nat} {body : Option Bytes} {e : Error}
    (h : Fails r sourceId (.response status body) e) (hclient : 400 ≤ status) : ¬status < 500 := by
  have hfailure := isSuccess_of_le hclient
  cases h with
  | unserved hserver => exact Nat.not_lt.2 hserver
  | brokenOff hsuccess => exact absurd (hfailure.symm.trans hsuccess) Bool.false_ne_true
  | garbled hsuccess => exact absurd (hfailure.symm.trans hsuccess) Bool.false_ne_true

/-! ## The requests -/

/-- Whether a request can be made for a source on behalf of a caller: at an address on the web, and
with headers that no control character spoils. -/
def CanAsk (s : CredentialService) (sourceId : String) (identity : Principal) : Prop :=
  ∃ address, Url.Address.ofText? (s.addressOf sourceId) = some address ∧
    address.host.isSome = true ∧ Http.isWeb address = true ∧
    ∀ h ∈ headersOf identity, ∀ b ∈ h.2, Http.isHeaderByte b = true

theorem request_ok_iff_canAsk :
    (∃ r, s.request sourceId identity = .ok r) ↔ s.CanAsk sourceId identity := by
  simp only [request, Http.Request.make_ok_iff, List.all_eq_true]
  constructor
  · rintro ⟨r, address, haddress, hhost, hheaders, hweb, -⟩
    exact ⟨address, haddress, hhost, hweb, hheaders⟩
  · rintro ⟨address, haddress, hhost, hweb, hheaders⟩
    exact ⟨_, address, haddress, hhost, hheaders, hweb, rfl⟩

/-- The request of every attempt. -/
structure IsRequest (s : CredentialService) (sourceId : String) (identity : Principal)
    (r : Http.Request) : Prop where
  method : r.method = "GET"
  address : Url.Address.ofText? (s.addressOf sourceId) = some r.address
  orgId : r.headers.lookup "x-org-id" = some (Utf8.encode identity.orgId)
  /-- The account is named exactly if there is one. -/
  account : r.headers.lookup "x-account-number" = identity.accountNumber.map Utf8.encode
  others : ∀ h ∈ r.headers, h.1 = "x-org-id" ∨ h.1 = "x-account-number"
  body : r.body = []

theorem isRequest_of_request (h : s.request sourceId identity = .ok r) :
    IsRequest s sourceId identity r := by
  obtain ⟨address, haddress, -, -, -, rfl⟩ := (Http.Request.make_ok_iff _ _ _ _ _).1 h
  constructor
  case method => rfl
  case address => exact haddress
  case orgId => rfl
  case account =>
    obtain ⟨orgId, accountNumber⟩ := identity
    cases accountNumber <;> rfl
  case others =>
    intro header hheader
    rw [headersOf, List.mem_cons, Option.mem_toList, Option.map_eq_some_iff] at hheader
    rcases hheader with rfl | ⟨a, -, rfl⟩
    · exact .inl rfl
    · exact .inr rfl
  case body => rfl

/-! ## The lookup -/

section Lookup

variable {c : Circumstances} {exchange : Nat → Http.Request → Http.Reply}

/-- A lookup with the request `r`, over a network that answers it by `exchange`. -/
structure LookedUp (s : CredentialService) (c : Circumstances) (sourceId : String)
    (identity : Principal) (exchange : Nat → Http.Request → Http.Reply) (r : Http.Request)
    (a : Attempts ResolvedSource) : Prop where
  request : IsRequest s sourceId identity r
  /-- The lookup goes by one reply to this request for each attempt, and by nothing else. -/
  asked : ∀ exchange', (∀ k < a.count, exchange' k r = exchange k r) →
    s.resolve c sourceId identity exchange' = a
  bounds : 1 ≤ a.count ∧ a.count ≤ max s.maxRetries 1
  failed : ∀ k, k + 1 < a.count → ∃ e, Fails r sourceId (exchange k r) e
  ended : Answers sourceId identity (exchange (a.count - 1) r) a.outcome ∨
    a.count = max s.maxRetries 1 ∧
      ∃ e, Fails r sourceId (exchange (a.count - 1) r) e ∧ a.outcome = .error e
  /-- Replies that leave the lookup open do not mask one that settles it. -/
  settled : ∀ k < max s.maxRetries 1, (∀ j < k, ∃ e, Fails r sourceId (exchange j r) e) →
    ∀ x, Answers sourceId identity (exchange k r) x → a.count = k + 1 ∧ a.outcome = x
  /-- What is the caller's fault is not asked for again. -/
  refused : ∀ k < a.count, ∀ status body, exchange k r = .response status body →
    400 ≤ status → status < 500 → k + 1 = a.count
  notFound : ∀ id, a.outcome = .error (.notFound id) →
    id = sourceId ∧ ∃ body, exchange (a.count - 1) r = .response 404 body

/-- A lookup for which no request can be made. -/
structure Unasked (s : CredentialService) (c : Circumstances) (sourceId : String)
    (identity : Principal) (fault : Http.Fault) (a : Attempts ResolvedSource) : Prop where
  unasked : ∀ exchange', s.resolve c sourceId identity exchange' = a
  count : a.count = max s.maxRetries 1
  outcome : a.outcome = .error (.http fault)

theorem attempt_eq (h : s.request sourceId identity = .ok r)
    (exchange : Http.Request → Http.Reply) :
    s.attempt sourceId identity exchange = readReply r sourceId identity (exchange r) := by
  rw [attempt, h]

theorem attempt_eq_error {fault : Http.Fault} (h : s.request sourceId identity = .error fault)
    (exchange : Http.Request → Http.Reply) :
    s.attempt sourceId identity exchange = .error (.http fault) := by
  rw [attempt, h]

/-- The first wait is granted if the longest that may be drawn is, by a millisecond. -/
theorem not_refuses_zero (hcalm : c.IsCalm) (hfair : c.IsFair s.maxRetries s.baseDelayMs)
    (hbudget : 3 * s.baseDelayMs + 4 < 20000 * s.maxRetries) :
    ¬c.Refuses s.maxRetries s.baseDelayMs 0 := by
  have hwait := (hfair 0).2
  have helapsed := hcalm 0
  simp only [Circumstances.Refuses, Backoff.after, Backoff.create, seconds, milliseconds] at *
  omega

theorem ends_of_budget {operation : Nat → Except Error ResolvedSource}
    {a : Attempts ResolvedSource} (h : Retried c s.maxRetries s.baseDelayMs operation a)
    (hcalm : c.IsCalm) (hfair : c.IsFair s.maxRetries s.baseDelayMs)
    (hbudget : s.maxRetries ≤ 1 ∨ 3 * s.baseDelayMs + 4 < 20000 * s.maxRetries) :
    Settles (operation (a.count - 1)) ∨ a.count = max s.maxRetries 1 := by
  refine h.ends_of_calm hcalm hfair fun htwo _ => ?_
  rcases hbudget with hone | hbudget
  · omega
  · exact not_refuses_zero hcalm hfair hbudget

/-- The last reply settles the lookup, or no more attempts are allowed. -/
theorem ended_of_retried {a : Attempts ResolvedSource}
    (h : Retried c s.maxRetries s.baseDelayMs
      (fun n => readReply r sourceId identity (exchange n r)) a)
    (hends : Settles (readReply r sourceId identity (exchange (a.count - 1) r)) ∨
      a.count = max s.maxRetries 1) :
    Answers sourceId identity (exchange (a.count - 1) r) a.outcome ∨
      a.count = max s.maxRetries 1 ∧
        ∃ e, Fails r sourceId (exchange (a.count - 1) r) e ∧ a.outcome = .error e := by
  have houtcome := h.outcome
  rcases answers_or_fails r sourceId identity (exchange (a.count - 1) r) with
    ⟨x, hanswers⟩ | ⟨e, hfails⟩
  · rw [houtcome, readReply_of_answers hanswers]
    exact .inl hanswers
  · rw [readReply_of_fails hfails] at houtcome hends
    refine .inr ⟨hends.resolve_left ?_, e, hfails, houtcome⟩
    exact Unsettled.not_settles ⟨e, rfl, hfails.isRetryable⟩

/-- The first reply that settles the lookup is the last one asked for. -/
theorem count_of_answers {n k : Nat} {x outcome : Except Error ResolvedSource}
    (hk : k < max s.maxRetries 1) (hpos : 1 ≤ n)
    (hfailed : ∀ k, k + 1 < n → ∃ e, Fails r sourceId (exchange k r) e)
    (hended : Answers sourceId identity (exchange (n - 1) r) outcome ∨ n = max s.maxRetries 1)
    (hbefore : ∀ j < k, ∃ e, Fails r sourceId (exchange j r) e)
    (hanswers : Answers sourceId identity (exchange k r) x) : n = k + 1 := by
  rcases Nat.lt_trichotomy (n - 1) k with hlt | heq | hgt
  · obtain ⟨e, hfails⟩ := hbefore _ hlt
    rcases hended with hanswers' | hspent
    · exact absurd hfails hanswers'.not_fails
    · omega
  · omega
  · obtain ⟨e, hfails⟩ := hfailed k (by omega)
    exact absurd hfails hanswers.not_fails

theorem lookedUp_of_request (hr : s.request sourceId identity = .ok r) (hcalm : c.IsCalm)
    (hfair : c.IsFair s.maxRetries s.baseDelayMs)
    (hbudget : s.maxRetries ≤ 1 ∨ 3 * s.baseDelayMs + 4 < 20000 * s.maxRetries)
    (exchange : Nat → Http.Request → Http.Reply) :
    LookedUp s c sourceId identity exchange r (s.resolve c sourceId identity exchange) := by
  have hretried : Retried c s.maxRetries s.baseDelayMs
      (fun n => readReply r sourceId identity (exchange n r))
      (s.resolve c sourceId identity exchange) := by
    simp only [← attempt_eq hr]
    exact retried_retry _ _ _ _
  have hfailed : ∀ k, k + 1 < (s.resolve c sourceId identity exchange).count →
      ∃ e, Fails r sourceId (exchange k r) e :=
    fun k hk => fails_of_unsettled (hretried.unsettled k hk)
  have hended := ended_of_retried hretried (ends_of_budget hretried hcalm hfair hbudget)
  constructor
  case request => exact isRequest_of_request hr
  case asked =>
    intro exchange' hsame
    exact retry_congr fun k hk => by rw [attempt_eq hr, attempt_eq hr, hsame k hk]
  case bounds => exact ⟨hretried.pos, hretried.le⟩
  case failed => exact hfailed
  case ended => exact hended
  case settled =>
    intro k hk hbefore x hanswers
    have hcount := count_of_answers hk hretried.pos hfailed (hended.imp_right And.left) hbefore
      hanswers
    refine ⟨hcount, ?_⟩
    rw [hretried.outcome, hcount, Nat.add_sub_cancel, readReply_of_answers hanswers]
  case refused =>
    intro k hk status body hreply hclient hbelow
    by_contra hmore
    obtain ⟨e, hfails⟩ := hfailed k (by omega)
    rw [hreply] at hfails
    exact hfails.not_client hclient hbelow
  case notFound =>
    intro id hid
    rw [hid] at hended
    rcases hended with hanswers | ⟨-, e, hfails, he⟩
    · generalize exchange _ r = reply at hanswers ⊢
      cases hanswers with
      | missing body => exact ⟨rfl, body, rfl⟩
    · cases he
      cases hfails.isRetryable

theorem unasked_of_request {fault : Http.Fault}
    (hfault : s.request sourceId identity = .error fault)
    (hcalm : c.IsCalm) (hfair : c.IsFair s.maxRetries s.baseDelayMs)
    (hbudget : s.maxRetries ≤ 1 ∨ 3 * s.baseDelayMs + 4 < 20000 * s.maxRetries)
    (exchange : Nat → Http.Request → Http.Reply) :
    Unasked s c sourceId identity fault (s.resolve c sourceId identity exchange) := by
  have hretried := retried_retry c s.maxRetries s.baseDelayMs
    fun n => s.attempt sourceId identity (exchange n)
  have hends := ends_of_budget hretried hcalm hfair hbudget
  rw [← resolve] at hretried hends
  constructor
  case unasked =>
    intro exchange'
    exact retry_congr fun k _ => by rw [attempt_eq_error hfault, attempt_eq_error hfault]
  case count =>
    rw [attempt_eq_error hfault] at hends
    exact hends.resolve_left (Unsettled.not_settles ⟨_, rfl, rfl⟩)
  case outcome => rw [hretried.outcome, attempt_eq_error hfault]

/-- **A lookup against any behaviour of the other side.** All its requests are one and the same, and
the first reply that settles the lookup is the last one asked for; what comes of the lookup is what
that reply says. Only if there is none among as many requests as are allowed does it fail, as its
last request did. Where no request can be made none is, and the lookup fails for that. -/
theorem lookup_settles (hcalm : c.IsCalm) (hfair : c.IsFair s.maxRetries s.baseDelayMs)
    (hbudget : s.maxRetries ≤ 1 ∨ 3 * s.baseDelayMs + 4 < 20000 * s.maxRetries)
    (sourceId : String) (identity : Principal) (exchange : Nat → Http.Request → Http.Reply) :
    ((∃ r, s.request sourceId identity = .ok r) ↔ s.CanAsk sourceId identity) ∧
    (∀ r, s.request sourceId identity = .ok r →
      LookedUp s c sourceId identity exchange r (s.resolve c sourceId identity exchange)) ∧
    (∀ fault, s.request sourceId identity = .error fault →
      Unasked s c sourceId identity fault (s.resolve c sourceId identity exchange)) :=
  ⟨request_ok_iff_canAsk, fun _ hr => lookedUp_of_request hr hcalm hfair hbudget exchange,
    fun _ hfault => unasked_of_request hfault hcalm hfair hbudget exchange⟩

end Lookup

/-- What the service knows of a source. -/
def knownSource : Bytes := Utf8.encode
  "\x7b\"application_id\":\"9\",\"provider_type\":\"Amazon\",\"payload\":\"key\"\x7d"

theorem decodes_knownSource : Decodes knownSource "9" "Amazon" "key" :=
  ⟨[("application_id", some "9"), ("provider_type", some "Amazon"), ("payload", some "key")],
    by with_unfolding_all rfl, rfl, rfl, rfl⟩

/-- A service that is silent at first, then out of order, and then knows the source. -/
def recovering (n : Nat) (_ : Http.Request) : Http.Reply :=
  if n = 0 then .none
  else if n = 1 then .response 503 (some [])
  else .response 200 (some knownSource)

/-- The service answers the third request, which is the last. -/
theorem lookup_settles_recovering :
    Circumstances.late.IsCalm ∧ Circumstances.late.IsFair 3 250 ∧
      (CredentialService.mk "http://localhost:8000/api" 3 250).CanAsk "7" ⟨"1", some "2"⟩ ∧
      ∃ a, (CredentialService.mk "http://localhost:8000/api" 3 250).resolve .late "7"
          ⟨"1", some "2"⟩ recovering = a ∧ a.count = 3 ∧
        a.outcome = .ok ⟨⟨.known .aws, "key", "9"⟩, "9", .known .aws, ⟨"1", some "2"⟩⟩ := by
  have haddress : Url.Address.ofText? "http://localhost:8000/api/sources/7/authentication" =
      some ⟨"http", true, none, some (.name "localhost"), some 8000,
        .segments ["api", "sources", "7", "authentication"], none, none⟩ := by decide +kernel
  have hask : (CredentialService.mk "http://localhost:8000/api" 3 250).CanAsk "7" ⟨"1", some "2"⟩ :=
    ⟨_, haddress, rfl, by decide, by decide +kernel⟩
  obtain ⟨hiff, hlooked, -⟩ :=
    @lookup_settles ⟨"http://localhost:8000/api", 3, 250⟩ .late Circumstances.isCalm_late
      (Circumstances.isFair_late 3 250) (.inr (by decide)) "7" ⟨"1", some "2"⟩ recovering
  obtain ⟨r, hr⟩ := hiff.2 hask
  have hbefore : ∀ j < 2, ∃ e, Fails r "7" (recovering j r) e := by
    rintro (_ | _ | j) hj
    · exact ⟨_, .unanswered⟩
    · exact ⟨_, .unserved (by decide)⟩
    · omega
  obtain ⟨hcount, houtcome⟩ := (hlooked r hr).settled 2 (by decide) hbefore _
    (.resolved rfl decodes_knownSource)
  exact ⟨Circumstances.isCalm_late, Circumstances.isFair_late 3 250, hask, _, rfl, hcount, houtcome⟩

end CredentialService

end Availability

import Availability.Error
import Availability.Http.Exchange
import Availability.Json.Record
import Availability.Retry.Attempts
import Availability.Source

/-!
# The credential service

The credential service is asked for a source on behalf of the caller, and answers with the
credentials of the source. A request that does not get through or that the service fails to serve
is made again, up to a number of times and with growing pauses.

* `readReply_notFound_iff`: a source is not there exactly when the service says so.
-/

namespace Availability

/-- The credential service as the settings have it. -/
structure CredentialService where
  url : String
  maxRetries : Nat
  baseDelayMs : Nat
  deriving DecidableEq, Repr

namespace CredentialService

/-- The address of the credentials of a source. -/
def addressOf (s : CredentialService) (sourceId : String) : String :=
  Http.baseOf s.url ++ "/sources/" ++ sourceId ++ "/authentication"

/-- The headers that say on whose behalf the service is asked. -/
def headersOf (identity : Principal) : List (String × Bytes) :=
  ("x-org-id", Utf8.encode identity.orgId)
    :: (identity.accountNumber.map fun a => ("x-account-number", Utf8.encode a)).toList

/-- The request for a source. -/
def request (s : CredentialService) (sourceId : String) (identity : Principal) :
    Except Http.Fault Http.Request :=
  Http.Request.make "GET" (s.addressOf sourceId) (headersOf identity) []

/-- The form of the credentials in JSON. -/
def shape : Json.Shape :=
  ⟨"AuthenticationResponse",
    [⟨"application_id", .required⟩, ⟨"provider_type", .required⟩, ⟨"payload", .defaulted⟩]⟩

/-- The source of a record. -/
def sourceOf (identity : Principal) (r : Json.Record) : ResolvedSource :=
  ResolvedSource.make (ProviderTag.ofText (r.text "provider_type")) (r.text "application_id")
    (r.text "payload") identity

/-- Reads the body of a reply that all went well with. -/
def readBody (identity : Principal) : Option Bytes → Except Error ResolvedSource
  | none => .error (.http .unreadable)
  | some body =>
    match Json.Record.read shape body with
    | .ok r => .ok (sourceOf identity r)
    | .error _ => .error (.http .unreadable)

/-- Reads a reply. The text that comes with a refusal is taken for UTF-8, whatever character set the
reply names, and a byte order mark at its front stays. -/
def readReply (request : Http.Request) (sourceId : String) (identity : Principal) :
    Http.Reply → Except Error ResolvedSource
  | .none => .error (.http request.unanswered)
  | .response status body =>
    if status = Http.notFoundStatus then .error (.notFound sourceId)
    else if Http.isSuccess status then readBody identity body
    else .error (.lookup sourceId (some status) ((body.map Utf8.decodeLossy).getD ""))

theorem readReply_notFound_iff (request : Http.Request) (sourceId : String) (identity : Principal)
    (reply : Http.Reply) :
    readReply request sourceId identity reply = .error (.notFound sourceId) ↔
      ∃ body, reply = .response Http.notFoundStatus body := by
  cases reply with
  | none => simp [readReply]
  | response status body =>
    simp only [readReply, Http.Reply.response.injEq, exists_and_left, exists_eq', and_true]
    split
    · rename_i h
      simp [h]
    · rename_i h
      simp only [h, iff_false]
      split
      · cases body with
        | none => simp [readBody]
        | some b =>
          simp only [readBody]
          split <;> simp
      · simp

/-- One attempt, which gets a reply to its request if one can be made. -/
def attempt (s : CredentialService) (sourceId : String) (identity : Principal)
    (exchange : Http.Request → Http.Reply) : Except Error ResolvedSource :=
  match s.request sourceId identity with
  | .error fault => .error (.http fault)
  | .ok r => readReply r sourceId identity (exchange r)

/-- Asks for a source, as often as it takes and is allowed. `exchange n` answers the attempt of
number `n`, from zero. -/
def resolve (s : CredentialService) (circumstances : Circumstances) (sourceId : String)
    (identity : Principal) (exchange : Nat → Http.Request → Http.Reply) :
    Attempts ResolvedSource :=
  retry circumstances s.maxRetries s.baseDelayMs fun n => s.attempt sourceId identity (exchange n)

end CredentialService

end Availability

import Availability.Error
import Availability.Http.Exchange
import Availability.Json.Printer
import Availability.Source
import Availability.Text.Blank

/-!
# The probe gateway

The gateway checks credentials with a provider. It says that a source can be reached by a status
of success, and otherwise why it cannot.

* `readReply_ok_iff`: a source can be reached exactly when the gateway replies with success.
-/

namespace Availability.Gateway

/-- The address of the checks of a provider. -/
def addressOf (url : String) (p : Provider) : String := Http.baseOf url ++ "/" ++ p.name ++ "/check"

/-- What the gateway is told. -/
def bodyOf (a : Authentication) : Json.Value :=
  .object
    [("provider_type", .text a.providerTag.toText),
      ("source_application_id", .text a.applicationId),
      ("credentials", .text a.payload)]

/-- The request for a check. -/
def request (url : String) (p : Provider) (a : Authentication) : Except Http.Fault Http.Request :=
  Http.Request.make "POST" (addressOf url p) [("content-type", Utf8.encode "application/json")]
    (Utf8.encode (Json.write (bodyOf a)))

/-- A check that failed. -/
def failure (p : Provider) (details : String) : Error := .probe p.name details

/-- Reads a reply. The text that comes with a refusal is taken for UTF-8, whatever character set the
reply names, and a byte order mark at its front stays. -/
def readReply (p : Provider) (request : Http.Request) : Http.Reply → Except Error Unit
  | .none => .error (failure p request.unanswered.message)
  | .response status body =>
    if Http.isSuccess status then .ok ()
    else
      let text := Text.trim ((body.map Utf8.decodeLossy).getD "")
      .error (failure p ("gateway returned " ++ Http.statusText status ++ ": " ++ text))

theorem readReply_ok_iff (p : Provider) (request : Http.Request) (reply : Http.Reply) :
    readReply p request reply = .ok () ↔
      ∃ status body, reply = .response status body ∧ Http.isSuccess status = true := by
  cases reply with
  | none => simp [readReply]
  | response status body =>
    simp only [readReply]
    split
    · rename_i h
      simp [h]
    · rename_i h
      simp [h]

/-- Checks credentials. -/
def probe (url : String) (p : Provider) (a : Authentication)
    (exchange : Http.Request → Http.Reply) : Except Error Unit :=
  match request url p a with
  | .error fault => .error (failure p fault.message)
  | .ok r => readReply p r (exchange r)

end Availability.Gateway

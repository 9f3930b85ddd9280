import Availability.Status
import Availability.Outbound.Identifier
import Availability.Outbound.Timestamp

/-!
# Outbound messages

A result becomes a message on a topic: the caller and the kind of event go into its headers, the
result itself into its value. What sets two messages of one result apart is their `Stamp`.
-/

namespace Availability

/-- What a message gets when it is made: an identifier of its own and the time. -/
structure Stamp where
  id : Identifier
  createdAt : Timestamp
  deriving DecidableEq, Repr, Inhabited

/-- A message of the outbound stream. -/
structure OutboundMessage where
  id : Identifier
  topic : String
  headers : List (String × String)
  value : Bytes
  createdAt : Timestamp
  deriving DecidableEq, Repr, Inhabited

/-- The kind of event that every message is about. -/
def eventType : String := "availability_status"

namespace Principal

/-- The headers that carry a caller. -/
def headers (p : Principal) : List (String × String) :=
  ("x-org-id", p.orgId) :: (p.accountNumber.map fun a => ("x-account-number", a)).toList

end Principal

namespace ProbeResult

/-- The message of a result. -/
def toMessage (topic : String) (stamp : Stamp) (r : ProbeResult) : OutboundMessage :=
  { id := stamp.id
    topic := topic
    headers := ("event_type", eventType) :: r.identity.headers
    value := Utf8.encode (Json.write r.toJson)
    createdAt := stamp.createdAt }

end ProbeResult

end Availability

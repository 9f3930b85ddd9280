import Availability.Inbound.Lines
import Availability.Json.Record

/-!
# Requests

A message asks for the check of one source, which it names. A name of blank characters alone is
none.
-/

namespace Availability

/-- A request to check a source. -/
structure SourceRequest where
  sourceId : String
  deriving DecidableEq, Repr, Inhabited

namespace SourceRequest

/-- The form of a request in JSON. -/
def shape : Json.Shape := ⟨"SourceRequest", [⟨"source_id", .required⟩]⟩

/-- Reads a request. -/
def decode (payload : Bytes) : Except RequestFault SourceRequest :=
  match Json.Record.read shape payload with
  | .error failure => .error (.malformed failure)
  | .ok record =>
    let id := record.text "source_id"
    if Text.allBlank id then .error .emptySourceId else .ok ⟨id⟩

end SourceRequest

end Availability

import Availability.Source

/-!
# Availability results

What a check found out about a source: that its provider could be reached with its credentials, or
why it could not.
-/

namespace Availability

/-- Whether a source can be reached. -/
inductive Status where
  | available
  | unavailable
  deriving DecidableEq, Repr, Inhabited

/-- The name of a status. -/
def Status.name : Status → String
  | .available => "available"
  | .unavailable => "unavailable"

/-- What kind of resource the results of checks are about. -/
def resourceType : String := "Application"

/-- The result of one check. -/
structure ProbeResult where
  resourceId : String
  identity : Principal
  resourceType : String
  status : Status
  error : Option String
  deriving DecidableEq, Repr, Inhabited

namespace ProbeResult

/-- The result of a check that reached its source. -/
def available (source : ResolvedSource) : ProbeResult :=
  ⟨source.applicationId, source.identity, Availability.resourceType, .available, none⟩

/-- The result of a check that did not, and why. -/
def unavailable (source : ResolvedSource) (cause : String) : ProbeResult :=
  { available source with status := .unavailable, error := some cause }

/-- A result as the body of an outbound message. -/
def toJson (r : ProbeResult) : Json.Value :=
  .object <|
    [("resource_type", .text r.resourceType), ("resource_id", .text r.resourceId),
      ("status", .text r.status.name)]
      ++ (r.error.map fun e => ("error", Json.Value.text e)).toList

end ProbeResult

end Availability

import Availability.Http.Fault
import Availability.Json.Fault
import Availability.Settings.Fault

/-!
# Errors

Every way in which a part of the service fails, with its wording. An error is worth another
attempt when it may go away by itself: a request that did not get through, a file or connection
that broke, or a lookup that the other side failed to serve.
-/

namespace Availability

/-- Why a file or a connection cannot be used. -/
inductive StreamFault where
  | missing
  | notUtf8 (fault : Utf8.Fault)
  | other (details : String)
  deriving DecidableEq, Repr

/-- The wording of a fault. -/
def StreamFault.message : StreamFault → String
  | .missing => "No such file or directory (os error 2)"
  | .notUtf8 fault => fault.message
  | .other details => details

/-- Why a message is no request. -/
inductive RequestFault where
  | malformed (failure : Json.Failure)
  | emptySourceId
  | other (details : String)
  deriving DecidableEq, Repr

/-- The wording of a fault. -/
def RequestFault.message : RequestFault → String
  | .malformed failure => failure.message
  | .emptySourceId => "source_id is empty"
  | .other details => details

/-- A setting that has to be other than it is. -/
inductive SettingFault where
  | required (key : String)
  | notPositive (key : String)
  | other (details : String)
  deriving DecidableEq, Repr

/-- The wording of a fault. -/
def SettingFault.message : SettingFault → String
  | .required key => s!"{key} is required"
  | .notPositive key => s!"{key} must be greater than 0"
  | .other details => details

/-- A failure of a part of the service. -/
inductive Error where
  | config (fault : Settings.Fault)
  | http (fault : Http.Fault)
  | serialization (failure : Json.Failure)
  | stream (fault : StreamFault)
  | decode (fault : RequestFault)
  | notFound (sourceId : String)
  | lookup (sourceId : String) (status : Option Nat) (details : String)
  | probe (provider : String) (details : String)
  | transport (count : Nat) (details : String)
  | pipeline (details : String)
  | validation (fault : SettingFault)
  | internal (details : String)
  deriving DecidableEq, Repr

namespace Error

/-- The wording of a status that may be missing. -/
def statusText : Option Nat → String
  | some n => s!"Some({n})"
  | none => "None"

/-- The wording of an error. -/
def message : Error → String
  | .config fault => "configuration error: " ++ fault.message
  | .http fault => "HTTP request failed: " ++ fault.message
  | .serialization failure => "serialization error: " ++ failure.message
  | .stream fault => "io error: " ++ fault.message
  | .decode fault => "malformed message: " ++ fault.message
  | .notFound sourceId => s!"source {sourceId} not found"
  | .lookup sourceId status details =>
    s!"credential lookup for source {sourceId} failed (status " ++ statusText status ++ "): "
      ++ details
  | .probe provider details => s!"{provider} probe failed: {details}"
  | .transport count details => s!"outbound send of {count} messages failed: {details}"
  | .pipeline details => "pipeline error: " ++ details
  | .validation fault => "validation error: " ++ fault.message
  | .internal details => "internal error: " ++ details

/-- Whether another attempt may succeed. -/
def isRetryable : Error → Bool
  | .http _ => true
  | .stream _ => true
  | .lookup _ none _ => true
  | .lookup _ (some status) _ => 500 ≤ status
  | _ => false

/-- Whether the source is not there. -/
def isNotFound : Error → Bool
  | .notFound _ => true
  | _ => false

/-- A source that is not there will not appear by asking again. -/
theorem not_isRetryable_of_isNotFound {e : Error} (h : e.isNotFound = true) :
    e.isRetryable = false := by
  cases e <;> first | rfl | cases h

end Error

end Availability

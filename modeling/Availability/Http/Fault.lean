/-!
# What can go wrong with a request

Why a request over HTTP has no usable response.
-/

namespace Availability.Http

/-- Why a request has no usable response. -/
inductive Fault where
  /-- No request can be made of the address, which is given if it could be read, or of the
  headers. -/
  | unbuildable (url : Option String)
  /-- The request was not answered. -/
  | unanswered (url : String)
  /-- The body is not what was asked for. -/
  | unreadable
  deriving DecidableEq, Repr

/-- The wording of a fault. -/
def Fault.message : Fault → String
  | .unbuildable none => "builder error"
  | .unbuildable (some url) => s!"builder error for url ({url})"
  | .unanswered url => s!"error sending request for url ({url})"
  | .unreadable => "error decoding response body"

end Availability.Http

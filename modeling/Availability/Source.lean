import Availability.Principal
import Availability.Provider

/-!
# Resolved sources

What the credential service knows of a source, on behalf of the caller who asked about it.
-/

namespace Availability

/-- The credentials of a source. What they say is between the credential service and the
provider; here they are only passed on. -/
structure Authentication where
  providerTag : ProviderTag
  payload : String
  applicationId : String
  deriving DecidableEq, Repr, Inhabited

/-- A source that is ready to be checked. -/
structure ResolvedSource where
  authentication : Authentication
  applicationId : String
  providerTag : ProviderTag
  identity : Principal
  deriving DecidableEq, Repr, Inhabited

namespace ResolvedSource

/-- A source whose credentials name the same application and provider as the source itself. -/
def make (tag : ProviderTag) (applicationId payload : String) (identity : Principal) :
    ResolvedSource :=
  ⟨⟨tag, payload, applicationId⟩, applicationId, tag, identity⟩

end ResolvedSource

end Availability

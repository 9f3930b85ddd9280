/-!
# Cloud providers

`Provider` is one of the three providers that the service checks, each with a queue and a worker
of its own. `ProviderTag` is what the credential service says of a source: one of these, a source
without a provider, or a tag the service does not know.

* `ProviderTag.ofText_toText`: the tag of a provider's own name is that provider.
-/

namespace Availability

/-- A provider that the service checks. -/
inductive Provider where
  | aws
  | azure
  | gcp
  deriving DecidableEq, Repr, Inhabited

namespace Provider

/-- All providers, in the order in which they are reported. -/
def all : List Provider := [.aws, .azure, .gcp]

/-- The name of a provider. -/
def name : Provider → String
  | .aws => "aws"
  | .azure => "azure"
  | .gcp => "gcp"

theorem mem_all (p : Provider) : p ∈ all := by cases p <;> decide

theorem name_injective {p q : Provider} (h : p.name = q.name) : p = q := by
  cases p <;> cases q <;> first | rfl | (exact absurd h (by decide))

end Provider

/-- What the credential service says of the provider of a source. -/
inductive ProviderTag where
  | known (p : Provider)
  | noop
  | unknown
  deriving DecidableEq, Repr, Inhabited

namespace ProviderTag

/-- Reads a tag; the case of its ASCII letters does not count. -/
def ofText (s : String) : ProviderTag :=
  match String.ofList (s.toList.map Char.toLower) with
  | "aws" => .known .aws
  | "amazon" => .known .aws
  | "azure" => .known .azure
  | "gcp" => .known .gcp
  | "google" => .known .gcp
  | "noop" => .noop
  | _ => .unknown

/-- The name of a tag. -/
def toText : ProviderTag → String
  | .known p => p.name
  | .noop => "noop"
  | .unknown => "unknown"

/-- The provider that a tag names, if any. -/
def provider? : ProviderTag → Option Provider
  | .known p => some p
  | _ => none

theorem ofText_toText (t : ProviderTag) : ofText t.toText = t := by
  rcases t with p | _ | _
  · cases p <;> decide
  · decide
  · decide

end ProviderTag

end Availability

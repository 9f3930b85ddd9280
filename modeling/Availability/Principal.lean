import Availability.Json.Record
import Availability.Json.Printer

/-!
# Principals

The caller on whose behalf a source is checked. It travels with the request from the inbound
message to the headers of the outbound one.
-/

namespace Availability

/-- A caller: an organisation and, for some, an account. -/
structure Principal where
  orgId : String
  accountNumber : Option String
  deriving DecidableEq, Repr, Inhabited

namespace Principal

/-- The form of a principal in JSON. -/
def shape : Json.Shape :=
  ⟨"Principal", [⟨"org_id", .required⟩, ⟨"account_number", .optional⟩]⟩

/-- The principal of a record. -/
def ofRecord (r : Json.Record) : Principal := ⟨r.text "org_id", r.text? "account_number"⟩

/-- Reads a principal from JSON. -/
def read (s : Bytes) : Except Json.Failure Principal := (Json.Record.read shape s).map ofRecord

/-- A principal in JSON, without an account if it has none. -/
def toJson (p : Principal) : Json.Value :=
  .object <|
    ("org_id", .text p.orgId) ::
      (p.accountNumber.map fun a => ("account_number", Json.Value.text a)).toList

end Principal

end Availability

import Availability.Json.Printer
import Availability.Log.Event
import Availability.Outbound.Timestamp
import Availability.Settings.Config

/-!
# Log lines

The line that an entry of the log is written as, in JSON or to be read by people.
-/

namespace Availability.Log

namespace Entry

/-- An entry in JSON. -/
def toJson (time : Timestamp) (e : Entry) : Json.Value :=
  .object
    [("timestamp", .text time.toText), ("level", .text e.level.name),
      ("fields", .object (("message", .text e.message) :: e.fields)),
      ("target", .text e.origin.name)]

/-- A field as people read it. -/
def shownField (f : String × Json.Value) : String :=
  f.1 ++ ": " ++ match f.2 with
    | .text s => s
    | v => Json.write v

/-- The line of an entry, with its end. -/
def toLine (format : Settings.LogFormat) (time : Timestamp) (e : Entry) : String :=
  match format with
  | .json => Json.write (e.toJson time) ++ "\n"
  | .pretty =>
    "  " ++ time.toText ++ " " ++ e.level.name ++ " " ++ e.origin.name ++ ": "
      ++ ", ".intercalate (e.message :: e.fields.map shownField) ++ "\n"

end Entry

end Availability.Log

import Availability.Outbound.Message
import Availability.Json.Reader

/-!
# Outbound lines

Each message of the outbound stream is one line: a JSON object with the identifier, the topic, the
headers sorted by name, the value and the time. The value has to be JSON and is written anew, so
no line break within it survives.

* `toLine_of_ofLine?`: a line that reads as a message is the line of this message.
-/

namespace Availability

namespace OutboundMessage

/-- The headers as an object; the last of a name counts. -/
def headerObject (m : OutboundMessage) : Json.Value :=
  Json.Value.ofPairs (m.headers.map fun h => (h.1, .text h.2))

/-- A message as JSON, or why its value is none. -/
def toJson (m : OutboundMessage) : Except Json.Failure Json.Value := do
  let value ← Json.read m.value
  return .object
    [("id", .text m.id.toText), ("topic", .text m.topic), ("headers", m.headerObject),
      ("value", value), ("created_at", .text m.createdAt.toText)]

/-- The line of a message, with its end. -/
def toLine (m : OutboundMessage) : Except Json.Failure Bytes :=
  m.toJson.map fun v => Utf8.encode (Json.write v) ++ [10]

/-- The lines of a batch, or why the first message without a line has none. -/
def toLines (batch : List OutboundMessage) : Except Json.Failure Bytes :=
  (batch.mapM toLine).map List.flatten

/-- The message that a JSON object would be the line of. -/
def guess (v : Json.Value) : Option OutboundMessage := do
  let text (name : String) : Option String := match v.find? name with
    | some (.text s) => some s
    | _ => none
  let id ← (text "id").bind Identifier.ofText?
  let topic ← text "topic"
  let headers ← match v.find? "headers" with
    | some (.object ms) => ms.mapM fun m => match m.2 with
      | .text s => some (m.1, s)
      | _ => none
    | _ => none
  let value ← v.find? "value"
  let createdAt ← (text "created_at").bind Timestamp.ofText?
  return ⟨id, topic, headers, Utf8.encode (Json.write value), createdAt⟩

/-- Reads a line, with its end, of a message. -/
def ofLine? (line : Bytes) : Option OutboundMessage :=
  ((Json.read line).toOption.bind guess).filter fun m => m.toLine.toOption == some line

/-- Whether a line, with its end, is that of a message with an identifier drawn at random. -/
def isWellFormed (line : Bytes) : Bool :=
  match ofLine? line with
  | some m => m.id.isRandom
  | none => false

theorem toLine_of_ofLine? {line : Bytes} {m : OutboundMessage} (h : ofLine? line = some m) :
    m.toLine = .ok line := by
  unfold ofLine? at h
  have h' := (Option.filter_eq_some_iff.1 h).2
  rw [beq_iff_eq] at h'
  cases hl : m.toLine with
  | ok bytes =>
    rw [hl] at h'
    exact congrArg Except.ok (Option.some.inj h')
  | error f =>
    rw [hl] at h'
    cases h'

end OutboundMessage

end Availability

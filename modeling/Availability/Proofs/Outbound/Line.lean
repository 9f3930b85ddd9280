import Availability.Outbound.Line
import Availability.Proofs.Json.RoundTrip
import Availability.Proofs.Text.Lines

/-!
# What the lines of a batch say

Each message has one line, the text of one JSON object, and no line break is in it. The line of a
result says all that the result says, whatever the texts in it are.

* `toLines_eq_ok_iff`: the lines of a batch are those of its records.
* `ProbeResult.toJson_toMessage`, `ProbeResult.sorted_written`: the record of a result.
-/

namespace Availability

/-- The text of a value in bytes. -/
def Json.Value.bytes (v : Json.Value) : Bytes := Utf8.encode (Json.write v)

theorem Json.Value.newline_notMem_bytes (v : Json.Value) : 10 ∉ v.bytes :=
  Json.newline_notMem_write v

theorem Json.Value.newline_notMem_of_mem_map (vs : List Json.Value) :
    ∀ l ∈ vs.map Json.Value.bytes, 10 ∉ l := by
  intro l hl
  obtain ⟨v, -, rfl⟩ := List.mem_map.1 hl
  exact v.newline_notMem_bytes

theorem Json.Value.bytes_ne_nil {v : Json.Value} {depth : Nat} (h : v.fits depth = true) :
    v.bytes ≠ [] := by
  obtain ⟨b, t, hbytes, -⟩ := Json.writeValue_opens h
  rw [bytes, Json.write, Utf8.encode, String.toList_ofList]
  intro hnil
  cases hbytes.symm.trans hnil

theorem Json.Value.bytes_object (name : String) (v : Json.Value) (ms : Json.Members) :
    ∃ s, (Json.Value.object ((name, v) :: ms)).bytes = 0x7B :: s := by
  rw [bytes, Json.write, Utf8.encode, String.toList_ofList]
  exact ⟨_, rfl⟩

namespace OutboundMessage

theorem map_ok_inj {ε α : Type} {vs ws : List α}
    (h : vs.map (Except.ok : α → Except ε α) = ws.map .ok) : vs = ws :=
  (List.map_inj_right fun _ _ h => Except.ok.inj h).1 h

theorem toLine_eq (m : OutboundMessage) : m.toLine = m.toJson.map fun v => v.bytes ++ [10] := rfl

/-- The record of a message around what its value is read as. -/
def recordOf (m : OutboundMessage) (value : Json.Value) : Json.Value :=
  .object
    [("id", .text m.id.toText), ("topic", .text m.topic), ("headers", m.headerObject),
      ("value", value), ("created_at", .text m.createdAt.toText)]

theorem toJson_eq (m : OutboundMessage) : m.toJson = (Json.read m.value).map m.recordOf := by
  rw [toJson]
  cases Json.read m.value <;> rfl

theorem toLine_of_read {m : OutboundMessage} {v : Json.Value} (h : Json.read m.value = .ok v) :
    m.toLine = .ok ((m.recordOf v).bytes ++ [10]) := by
  rw [toLine_eq, toJson_eq, h]
  rfl

theorem toLine_of_read_error {m : OutboundMessage} {failure : Json.Failure}
    (h : Json.read m.value = .error failure) : m.toLine = .error failure := by
  rw [toLine_eq, toJson_eq, h]
  rfl

theorem mapM_toLine_eq_ok_iff {batch : List OutboundMessage} {ls : List Bytes} :
    batch.mapM toLine = .ok ls ↔
      ∃ records : List Json.Value, batch.map toJson = records.map .ok ∧
        ls = records.map fun v => v.bytes ++ [10] := by
  induction batch generalizing ls with
  | nil =>
    constructor
    · intro h
      cases h
      exact ⟨[], rfl, rfl⟩
    · rintro ⟨records, hrecords, rfl⟩
      cases records with
      | nil => rfl
      | cons v vs => cases hrecords
  | cons m batch ih =>
    rw [List.mapM_cons, toLine_eq]
    constructor
    · intro h
      cases hm : m.toJson with
      | error failure =>
        rw [hm] at h
        cases h
      | ok v =>
        cases hls : batch.mapM toLine with
        | error failure =>
          rw [hm, hls] at h
          cases h
        | ok ls' =>
          rw [hm, hls] at h
          cases h
          obtain ⟨records, hrecords, rfl⟩ := ih.1 hls
          exact ⟨v :: records, by rw [List.map_cons, hm, hrecords]; rfl, rfl⟩
    · rintro ⟨records, hrecords, rfl⟩
      cases records with
      | nil => cases hrecords
      | cons v vs =>
        obtain ⟨hm, hbatch⟩ := List.cons.inj hrecords
        rw [hm, ih.2 ⟨vs, hbatch, rfl⟩]
        rfl

/-- The lines of a batch are those of its records. -/
theorem toLines_eq_ok_iff {batch : List OutboundMessage} {bytes : Bytes} :
    toLines batch = .ok bytes ↔
      ∃ records : List Json.Value, batch.map toJson = records.map .ok ∧
        bytes = Lines.join (records.map Json.Value.bytes) := by
  have hjoin (records : List Json.Value) :
      (records.map fun v => v.bytes ++ [10]).flatten =
        Lines.join (records.map Json.Value.bytes) := by
    rw [Lines.join, List.flatMap_map]
    rfl
  rw [toLines]
  constructor
  · intro h
    cases hls : batch.mapM toLine with
    | error failure =>
      rw [hls] at h
      cases h
    | ok ls =>
      rw [hls] at h
      cases h
      obtain ⟨records, hrecords, rfl⟩ := mapM_toLine_eq_ok_iff.1 hls
      exact ⟨records, hrecords, hjoin records⟩
  · rintro ⟨records, hrecords, rfl⟩
    rw [mapM_toLine_eq_ok_iff.2 ⟨records, hrecords, rfl⟩]
    exact congrArg Except.ok (hjoin records)

end OutboundMessage

namespace ProbeResult

/-! ## The record of a result -/

/-- The headers of a result as they are read: what kind of event it is, and who asked. -/
def headerRecord (r : ProbeResult) : Json.Value :=
  .object <|
    ("event_type", .text "availability_status") ::
      (r.identity.accountNumber.map fun a => ("x-account-number", Json.Value.text a)).toList
        ++ [("x-org-id", .text r.identity.orgId)]

/-- The value of a result as it is read: what was checked, and what came of it. -/
def valueRecord (r : ProbeResult) : Json.Value :=
  .object <|
    (r.error.map fun e => ("error", Json.Value.text e)).toList
      ++ [("resource_id", .text r.resourceId), ("resource_type", .text r.resourceType),
        ("status", .text <| match r.status with
          | .available => "available"
          | .unavailable => "unavailable")]

/-- The record of a result as it is written. -/
def written (topic : String) (stamp : Stamp) (r : ProbeResult) : Json.Value :=
  .object
    [("id", .text stamp.id.toText), ("topic", .text topic),
      ("headers", (r.toMessage topic stamp).headerObject), ("value", r.toJson.sorted),
      ("created_at", .text stamp.createdAt.toText)]

/-- The record of a result as it is read: who asked, and what came of it. -/
def record (topic : String) (stamp : Stamp) (r : ProbeResult) : Json.Value :=
  .object
    [("created_at", .text stamp.createdAt.toText),
      ("headers", r.headerRecord),
      ("id", .text stamp.id.toText),
      ("topic", .text topic),
      ("value", r.valueRecord)]

theorem fits_toJson (r : ProbeResult) : r.toJson.fits Json.depthMax = true := by
  obtain ⟨_, _, _, _, error⟩ := r
  cases error <;> rfl

/-- The headers in the order of their names. -/
theorem headerObject_toMessage (topic : String) (stamp : Stamp) (r : ProbeResult) :
    (r.toMessage topic stamp).headerObject = r.headerRecord := by
  obtain ⟨_, ⟨_, account⟩, _, _, _⟩ := r
  cases account <;>
    simp only [OutboundMessage.headerObject, toMessage, Principal.headers, eventType,
      headerRecord, Json.Value.ofPairs, Json.Members.ofList, Json.Members.insert, Option.map_none,
      Option.map_some, Option.toList_none, Option.toList_some, List.map_cons, List.map_nil,
      List.foldl_cons, List.foldl_nil, List.cons_append, List.nil_append, String.reduceLT,
      String.reduceEq, ↓reduceIte]

/-- The members of a result in the order of their names. -/
theorem sorted_toJson (r : ProbeResult) : r.toJson.sorted = r.valueRecord := by
  obtain ⟨_, _, _, status, error⟩ := r
  cases status <;> cases error <;>
    simp only [toJson, Status.name, valueRecord, Json.Value.sorted, Json.sortedMembers,
      Json.Members.ofList, Json.Members.insert, Option.map_none, Option.map_some,
      Option.toList_none, Option.toList_some, List.foldl_cons, List.foldl_nil, List.cons_append,
      List.nil_append, List.append_nil, String.reduceLT, String.reduceEq, ↓reduceIte]

/-- What the value of the message of a result is read as. -/
theorem read_value_toMessage (topic : String) (stamp : Stamp) (r : ProbeResult) :
    Json.read (r.toMessage topic stamp).value = .ok r.valueRecord := by
  rw [toMessage, Json.read_write r.fits_toJson, sorted_toJson]

/-- What a message carries: a result, with its caller among the headers and the rest in the
value. -/
structure Carried (topic : String) (r : ProbeResult) (m : OutboundMessage) : Prop where
  topic_eq : m.topic = topic
  headers : m.headerObject = r.headerRecord
  value : Json.read m.value = .ok r.valueRecord

theorem carried_toMessage (topic : String) (stamp : Stamp) (r : ProbeResult) :
    Carried topic r (r.toMessage topic stamp) :=
  ⟨rfl, r.headerObject_toMessage topic stamp, r.read_value_toMessage topic stamp⟩

/-- A result always becomes a record. -/
theorem toJson_toMessage (topic : String) (stamp : Stamp) (r : ProbeResult) :
    (r.toMessage topic stamp).toJson = .ok (r.written topic stamp) := by
  rw [OutboundMessage.toJson_eq, read_value_toMessage, ← sorted_toJson]
  rfl

theorem fits_written (topic : String) (stamp : Stamp) (r : ProbeResult) :
    (r.written topic stamp).fits Json.depthMax = true := by
  rw [written, headerObject_toMessage, sorted_toJson]
  obtain ⟨_, ⟨_, account⟩, _, _, error⟩ := r
  cases account <;> cases error <;> rfl

theorem sorted_written (topic : String) (stamp : Stamp) (r : ProbeResult) :
    (r.written topic stamp).sorted = r.record topic stamp := by
  rw [written, headerObject_toMessage, sorted_toJson]
  obtain ⟨_, ⟨_, account⟩, _, _, error⟩ := r
  cases account <;> cases error <;>
    simp only [record, headerRecord, valueRecord, Json.Value.sorted, Json.sortedMembers,
      Json.Members.ofList, Json.Members.insert, Option.map_none, Option.map_some,
      Option.toList_none, Option.toList_some, List.foldl_cons, List.foldl_nil, List.cons_append,
      List.nil_append, String.reduceLT, String.reduceEq, ↓reduceIte]

/-- The line of a result is read as its record. -/
theorem read_bytes_written (topic : String) (stamp : Stamp) (r : ProbeResult) :
    Json.read (r.written topic stamp).bytes = .ok (r.record topic stamp) := by
  rw [Json.Value.bytes, Json.read_write (r.fits_written topic stamp), sorted_written]

end ProbeResult

end Availability

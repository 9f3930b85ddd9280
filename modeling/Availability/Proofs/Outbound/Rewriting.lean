import Availability.Proofs.Json.Normal
import Availability.Proofs.Outbound.Refusal

/-!
# How a value is rewritten

The line of a message does not repeat the bytes of its value: it has the normal form of the document
that they are. The headers are an object too, with each name once.

* `lineAround_eq`: the line of a message around its headers and its value.
* `writesHeaders`: what is written of the headers.
* `rewritten`, `sent_normal`: what is written of a value that is a document.
-/

namespace Availability

open Url (utf8 utf8_cons)

namespace OutboundMessage

/-! ## The line of a message -/

/-- The line of a message around the texts of its headers and of its value. -/
def lineAround (m : OutboundMessage) (headers value : Bytes) : Bytes :=
  Utf8.encode "\x7b\"id\":" ++ (Json.Value.text m.id.toText).bytes
    ++ Utf8.encode ",\"topic\":" ++ (Json.Value.text m.topic).bytes
    ++ Utf8.encode ",\"headers\":" ++ headers
    ++ Utf8.encode ",\"value\":" ++ value
    ++ Utf8.encode ",\"created_at\":" ++ (Json.Value.text m.createdAt.toText).bytes
    ++ Utf8.encode "\x7d\n"

theorem bytes_member (c : Char) (k : String) (v : Json.Value) (rest : List Char) :
    utf8 (c :: Json.writeText k ++ ':' :: Json.writeValue v ++ rest) =
      utf8 (c :: Json.writeText k ++ [':']) ++ (v.bytes ++ utf8 rest) := by
  rw [Json.Value.bytes, Json.encode_write, ← Json.utf8_append, ← Json.utf8_append]
  simp

theorem bytes_object_cons (k : String) (v : Json.Value) (ms : Json.Members) :
    (Json.Value.object ((k, v) :: ms)).bytes =
      utf8 ('{' :: Json.writeText k ++ [':']) ++ (v.bytes ++ utf8 (Json.writeMembers ms)) := by
  rw [← bytes_member, Json.Value.bytes, Json.encode_write]
  rfl

theorem utf8_writeMembers_cons (k : String) (v : Json.Value) (ms : Json.Members) :
    utf8 (Json.writeMembers ((k, v) :: ms)) =
      utf8 (',' :: Json.writeText k ++ [':']) ++ (v.bytes ++ utf8 (Json.writeMembers ms)) := by
  rw [← bytes_member]
  rfl

/-- The line of a message around its headers and its value. -/
theorem lineAround_eq (m : OutboundMessage) (value : Json.Value) :
    (m.recordOf value).bytes ++ [10] = m.lineAround m.headerObject.bytes value.bytes := by
  rw [recordOf, bytes_object_cons, utf8_writeMembers_cons, utf8_writeMembers_cons,
    utf8_writeMembers_cons, utf8_writeMembers_cons, lineAround]
  simp only [List.append_assoc]
  rfl

/-! ## Headers -/

theorem fits_headerObject (m : OutboundMessage) : m.headerObject.fits Json.depthMax = true := by
  refine Json.membersFit_iff.2 fun p hp => ?_
  obtain ⟨h, -, rfl⟩ := List.mem_map.1 (Json.Members.mem_ofList hp)
  exact Json.fits_text _ _

end OutboundMessage

namespace Sink

/-! ## What is sent -/

/-- Whether a message is sent as `line`: it has this line in every batch, and alone it is what any
writer is offered, and what is appended if that goes well. -/
structure SentAs (m : OutboundMessage) (line : Bytes) : Prop where
  toLine : m.toLine = .ok line
  offered : ∀ d out, Offered d out 1 line (send d out [m]).1 (send d out [m]).2
  stored : ∀ d out, (send d out [m]).1 = .ok () → (send d out [m]).2.stored = out.stored ++ line

theorem sentAs_of_read {m : OutboundMessage} {v : Json.Value} (h : Json.read m.value = .ok v) :
    SentAs m (m.lineAround m.headerObject.bytes v.bytes) := by
  rw [← m.lineAround_eq]
  have hline := OutboundMessage.toLine_of_read h
  have hlines : OutboundMessage.toLines [m] = .ok ((m.recordOf v).bytes ++ [10]) := by
    rw [OutboundMessage.toLines, List.mapM_cons, hline]
    exact congrArg Except.ok List.flatten_singleton
  refine ⟨hline, fun d out => send_of_toLines hlines d out, fun d out hok => ?_⟩
  obtain ⟨rest, hstored, hrest⟩ := (send_of_toLines hlines d out).stored
  rwa [hrest hok, List.append_nil] at hstored

/-- A text in the place of a value that denotes `v`. It denotes `n`, in which each name that comes
again in `v` is resolved to its last value. -/
structure Rewritten (v n : Json.Value) (text : Bytes) : Prop where
  denotes : Json.Denotes text n
  resolves : Json.Resolves v n
  compact : Json.Compact text
  /-- The text is written as itself. -/
  fixed : ∀ m : OutboundMessage, m.value = text →
    ∃ headers, SentAs m (m.lineAround headers text)
  /-- It is what any document is written as that resolves to the same. -/
  normal : ∀ (m : OutboundMessage) (v' w : Json.Value), Json.IsDocument m.value v' →
    Json.read m.value = .ok w → Json.Resolves v' n →
    ∃ headers, SentAs m (m.lineAround headers text)

/-- A text in the place of some headers: an object with each name once, in order, and its last
value. -/
def WritesHeaders (headers : List (String × String)) (text : Bytes) : Prop :=
  ∃ hs, Json.Denotes text (.object hs) ∧ Json.Ascending (hs.map Prod.fst) ∧
    ∀ name, hs.lookup name = (headers.reverse.lookup name).map .text

theorem writesHeaders (m : OutboundMessage) :
    WritesHeaders m.headers m.headerObject.bytes := by
  refine ⟨_, ?_, (Json.Members.inOrder_ofList (m.headers.map fun h => (h.1, .text h.2))).ascending,
    fun name => ?_⟩
  · rw [Json.Value.bytes, Json.encode_write]
    exact Json.denotes_write m.fits_headerObject
  · rw [Json.Members.lookup_ofList, ← List.map_reverse, Json.Members.lookup_map]

theorem rewritten {v : Json.Value} (hfits : v.fits Json.depthMax = true) :
    Rewritten v v.sorted v.sorted.bytes where
  denotes := by
    rw [Json.Value.bytes, Json.encode_write]
    exact Json.denotes_write (Json.fits_sorted hfits)
  resolves := Json.resolves_sorted v
  compact := by
    have hcompact := Json.compact_write (Json.fits_sorted hfits) .nil
    rwa [← Json.encode_write, List.append_nil] at hcompact
  fixed := fun m hm => ⟨_, sentAs_of_read (hm ▸ Json.read_write_sorted hfits)⟩
  normal := by
    intro m v' w hdoc hread hresolves
    obtain ⟨-, rfl⟩ := (Json.read_iff hdoc).1 hread
    rw [Json.resolves_iff.1 hresolves]
    exact ⟨_, sentAs_of_read hread⟩

/-- **Normal form.** The line of a message whose value is a document holds, in the place of the
value, a text of the same document: each name of an object is there once, with its last value, and
the names ascend, at every depth. The text has no white space but in its strings, and a message
whose value it is has it in its line again. The headers are an object of the same kind. -/
theorem sent_normal {m : OutboundMessage} {v w : Json.Value} (hdoc : Json.IsDocument m.value v)
    (hread : Json.read m.value = .ok w) :
    ∃ headers text n, SentAs m (m.lineAround headers text) ∧ Rewritten v n text ∧
      WritesHeaders m.headers headers := by
  obtain ⟨hfits, rfl⟩ := (Json.read_iff hdoc).1 hread
  exact ⟨_, _, _, sentAs_of_read hread, rewritten hfits, writesHeaders m⟩

/-- A message whose value has white space, escapes, and names that come again. -/
def untidy : OutboundMessage where
  id := ⟨0⟩
  topic := "status"
  headers := [("b", "1"), ("a", "2"), ("b", "3")]
  value := Utf8.encode
    " \x7b\"b\":1, \"\\u0061\":[ \x7b\"x\":-2,\"x\":3\x7d],\n\"b\":\"\\/\"\x7d "
  createdAt := ⟨0, 0⟩

/-- The object within the value. -/
def untidyItem : Json.Value := .object [("x", .int (-2)), ("x", .int 3)]

/-- What the value denotes. -/
def untidyValue : Json.Value :=
  .object [("b", .int 1), ("a", .array [untidyItem]), ("b", .text "/")]

theorem isDocument_untidy : Json.IsDocument untidy.value untidyValue := by
  have hblank : Json.White [0x20] := Json.white_of_skipSpace rfl
  have hbreak : Json.White [0x0A] := Json.white_of_skipSpace rfl
  have hnone : Json.White [] := Json.white_nil
  have hint {s : Bytes} {i : Int} (hs : s = utf8 (Json.writeInt i))
      (hlow : -0x8000000000000000 ≤ i) (hhigh : i ≤ 0xffffffffffffffff) :
      Json.Denotes s (.int i) := .integer (Json.isInteger_iff.2 hs) hlow hhigh
  have hb : Json.Spells (utf8 "b".toList) "b".toList := Json.spells_utf8 (by decide)
  have hx : Json.Spells (utf8 "x".toList) "x".toList := Json.spells_utf8 (by decide)
  have hcode : Json.IsCode [0x30, 0x30, 0x36, 0x31] 0x61 :=
    .digits (i := 0) (j := 0) (k := 6) (l := 1) (Or.inl (by decide)) (Or.inl (by decide))
      (Or.inl (by decide)) (Or.inl (by decide))
  have ha : Json.Spells [0x5C, 0x75, 0x30, 0x30, 0x36, 0x31] "a".toList :=
    .escape (.code hcode (by decide)) .nil
  have hslash : Json.Spells [0x5C, 0x2F] "/".toList := .escape (.letter (by decide)) .nil
  have hitem : Json.Denotes _ untidyItem :=
    .object (.more hnone hx hnone hnone (hint (s := [0x2D, 0x32]) rfl (by decide) (by decide)) hnone
      (.last hnone hx hnone hnone (hint (s := [0x33]) rfl (by decide) (by decide)) hnone))
  have hobject : Json.Denotes _ untidyValue :=
    .object (.more hnone hb hnone hnone (hint (s := [0x31]) rfl (by decide) (by decide)) hnone
      (.more hblank ha hnone hnone (.array (.last hblank hitem hnone)) hnone
        (.last hbreak hb hnone hnone (.text hslash) hnone)))
  obtain ⟨s, hs, hvalue⟩ : ∃ s, Json.IsDocument s untidyValue ∧ s = untidy.value :=
    ⟨_, .between hblank hobject hblank, rfl⟩
  rwa [← hvalue]

theorem sent_normal_untidy :
    Json.IsDocument untidy.value untidyValue ∧
    Json.read untidy.value = .ok untidyValue.sorted ∧
    ∃ headers text n, SentAs untidy (untidy.lineAround headers text) ∧
      Rewritten untidyValue n text ∧ WritesHeaders untidy.headers headers := by
  have hread : Json.read untidy.value = .ok untidyValue.sorted :=
    (Json.read_iff isDocument_untidy).2 ⟨by decide, rfl⟩
  exact ⟨isDocument_untidy, hread, sent_normal isDocument_untidy hread⟩

end Sink

end Availability

import Availability.Inbound.Request
import Availability.Proofs.Json.Record

/-!
# What a message asks for

A message is a request for a source exactly when it is an object that names the source once, or an
array of that name alone, and the name is not blank. The name is taken as it stands. Nothing else
that an object holds has a say, as long as it is well formed.

* `decode_of_gives`, `decode_of_not_gives`: what comes of a message, by the name that it gives.
* `decode_exact`: which messages are requests, and for what.
-/

namespace Availability.SourceRequest

open Json (Gives IsObjectOf gives_object_iff)
open Url (utf8)

theorem allBlank_iff (s : String) : Text.allBlank s = true ↔ Text.trim s = "" := by
  rw [Text.allBlank, List.all_eq_true, ← Text.trim_eq_nil_iff, Text.trim,
    String.ofList_eq_empty_iff]

theorem read_shape_iff {payload : Bytes} {record : Json.Record} :
    Json.Record.read shape payload = .ok record ↔
      ∃ id, Gives "source_id" payload id ∧ record = [("source_id", some id)] :=
  Json.read_single_iff

section

variable {payload payload' : Bytes} {id : String}

/-- A message that gives a name is a request for it, unless it is blank. -/
theorem decode_of_gives (h : Gives "source_id" payload id) :
    decode payload = if Text.trim id = "" then .error .emptySourceId else .ok ⟨id⟩ := by
  have hread : Json.Record.read shape payload = .ok [("source_id", some id)] :=
    read_shape_iff.2 ⟨id, h, rfl⟩
  have htext : Json.Record.text [("source_id", some id)] "source_id" = id := rfl
  simp only [decode, hread, htext, allBlank_iff]

theorem decode_of_not_gives (h : ∀ id, ¬ Gives "source_id" payload id) :
    ∃ failure, decode payload = .error (.malformed failure) := by
  cases hread : Json.Record.read shape payload with
  | error failure => exact ⟨failure, by simp only [decode, hread]⟩
  | ok record =>
    obtain ⟨id, hid, -⟩ := read_shape_iff.1 hread
    exact absurd hid (h id)

theorem decode_eq_ok_iff :
    decode payload = .ok ⟨id⟩ ↔ Gives "source_id" payload id ∧ Text.trim id ≠ "" := by
  constructor
  · intro h
    by_cases hsome : ∃ id', Gives "source_id" payload id'
    · obtain ⟨id', hgives⟩ := hsome
      rw [decode_of_gives hgives] at h
      split at h
      · cases h
      · next hblank =>
        cases h
        exact ⟨hgives, hblank⟩
    · obtain ⟨failure, hfailure⟩ := decode_of_not_gives fun id' hid' => hsome ⟨id', hid'⟩
      rw [hfailure] at h
      cases h
  · rintro ⟨hgives, hblank⟩
    rw [decode_of_gives hgives, if_neg hblank]

theorem decode_eq_empty_iff :
    decode payload = .error .emptySourceId ↔
      ∃ id, Gives "source_id" payload id ∧ Text.trim id = "" := by
  constructor
  · intro h
    by_cases hsome : ∃ id, Gives "source_id" payload id
    · obtain ⟨id, hgives⟩ := hsome
      rw [decode_of_gives hgives] at h
      split at h
      · next hblank => exact ⟨id, hgives, hblank⟩
      · cases h
    · obtain ⟨failure, hfailure⟩ := decode_of_not_gives fun id hid => hsome ⟨id, hid⟩
      rw [hfailure] at h
      cases h
  · rintro ⟨id, hgives, hblank⟩
    rw [decode_of_gives hgives, if_pos hblank]

theorem decode_malformed_iff :
    (∃ failure, decode payload = .error (.malformed failure)) ↔
      ∀ id, ¬ Gives "source_id" payload id := by
  constructor
  · rintro ⟨failure, hfailure⟩ id hgives
    rw [decode_of_gives hgives] at hfailure
    split at hfailure <;> cases hfailure
  · exact decode_of_not_gives

/-- Messages that give the same names come to the same. -/
theorem decode_congr (h : ∀ id, Gives "source_id" payload id ↔ Gives "source_id" payload' id) :
    (decode payload).toOption = (decode payload').toOption ∧
      (decode payload = .error .emptySourceId ↔ decode payload' = .error .emptySourceId) := by
  refine ⟨?_, by simp only [decode_eq_empty_iff, h]⟩
  by_cases hsome : ∃ id, Gives "source_id" payload id
  · obtain ⟨id, hgives⟩ := hsome
    rw [decode_of_gives hgives, decode_of_gives ((h id).1 hgives)]
  · obtain ⟨f, hf⟩ := decode_of_not_gives fun id hid => hsome ⟨id, hid⟩
    obtain ⟨f', hf'⟩ := decode_of_not_gives fun id hid => hsome ⟨id, (h id).2 hid⟩
    rw [hf, hf']
    rfl

end

/-- A message is a request for a source exactly when it gives its name and the name is not blank.
Every other message is refused, for a blank name or as malformed. Members of an object other than
those with the name of the field make no difference, nor does their order. -/
theorem decode_exact (payload : Bytes) :
    (∀ id, decode payload = .ok ⟨id⟩ ↔ Gives "source_id" payload id ∧ Text.trim id ≠ "") ∧
    (decode payload = .error .emptySourceId ↔
      ∃ id, Gives "source_id" payload id ∧ Text.trim id = "") ∧
    ((∃ failure, decode payload = .error (.malformed failure)) ↔
      ∀ id, ¬ Gives "source_id" payload id) ∧
    ∀ ms payload' ms', IsObjectOf payload ms → IsObjectOf payload' ms' →
      ms.filter (·.1 == "source_id") = ms'.filter (·.1 == "source_id") →
      (decode payload).toOption = (decode payload').toOption ∧
        (decode payload = .error .emptySourceId ↔ decode payload' = .error .emptySourceId) := by
  refine ⟨fun id => decode_eq_ok_iff, decode_eq_empty_iff, decode_malformed_iff, ?_⟩
  intro ms payload' ms' hobject hobject' hsame
  apply decode_congr
  intro id
  rw [gives_object_iff hobject, gives_object_iff hobject', hsame]

/-- A member that names source `17`, written without white space. -/
def sampleName : Bytes :=
  Json.memberBytes [] (utf8 "source_id".toList) [] [] (0x22 :: (utf8 "17".toList ++ [0x22])) []

theorem lists_sampleName :
    Json.Lists sampleName [("source_id", 0x22 :: (utf8 "17".toList ++ [0x22]))] :=
  .last Json.white_nil (Json.spells_utf8 (by decide)) Json.white_nil Json.white_nil
    (.text (Json.spells_utf8 (by decide)).quotable) Json.white_nil

/-- The object of that member alone asks for source `17`, and so does the one with an empty array
before it. -/
theorem decode_exact_member_before :
    decode (0x7B :: (sampleName ++ [0x7D])) = .ok ⟨"17"⟩ ∧
    (decode (0x7B :: ((Json.memberBytes [] (utf8 "a".toList) [] [] [0x5B, 0x5D] [] ++
      0x2C :: sampleName) ++ [0x7D]))).toOption = some ⟨"17"⟩ := by
  have hobject := IsObjectOf.members Json.white_nil lists_sampleName Json.white_nil
  have hname : Json.Spells (utf8 "a".toList) "a".toList := Json.spells_utf8 (by decide)
  have hmore := IsObjectOf.members Json.white_nil
    (.more Json.white_nil hname Json.white_nil Json.white_nil (.emptyArray Json.white_nil)
      Json.white_nil lists_sampleName) Json.white_nil
  have hgives : Gives "source_id" _ "17" := (gives_object_iff hobject).2
    ⟨_, rfl, .quoted (Json.spells_utf8 (by decide))⟩
  have hok := ((decode_exact _).1 "17").2 ⟨hgives, by decide⟩
  have hsame := ((decode_exact _).2.2.2 _ _ _ hobject hmore rfl).1
  rw [List.nil_append] at hok hsame
  refine ⟨hok, ?_⟩
  rw [hok] at hsame
  exact hsame.symm

end Availability.SourceRequest

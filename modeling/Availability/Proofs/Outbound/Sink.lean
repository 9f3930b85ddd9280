import Availability.Outbound.Sink
import Availability.Proofs.Outbound.Line

/-!
# What a sink leaves in its output

A batch that is sent appends its lines. Whether they stand on lines of their own also depends on
what the output held before: an earlier send that failed midway, or another program, may have left
a line unended, and the next batch goes on with it.

* `send_ok`: a batch that is sent appends the lines of its records and nothing else.
* `send_results`: results are sent whatever their texts are and however few bytes the writer takes
  at a time, and their lines say what they say.
* `sent_lines`: the lines of a batch that was sent, after any sends before it and before any after
  it; the first message has no line of its own exactly when a line was left unended before.
-/

namespace Availability.Sink

open Lines (ended unended resume join)

/-! ## Writing -/

/-- A writer that takes some bytes of every offer and never fails. -/
structure Discipline.Accepts (d : Discipline) : Prop where
  takes : ∀ calls stored offered, 0 < offered → ∃ n, d.write calls stored offered = .took (n + 1)
  flushes : ∀ calls stored, d.flush calls stored = none

variable {d : Discipline} {out : Output} {batch : List OutboundMessage}

theorem writeAll_ok {bytes : Bytes} (h : (writeAll d out bytes).1 = .ok ()) :
    (writeAll d out bytes).2.stored = out.stored ++ bytes := by
  fun_induction writeAll d out bytes with
  | case1 out => rw [List.append_nil]
  | case2 => cases h
  | case3 => cases h
  | case4 out b r n _ ih =>
    rw [ih h, List.append_assoc, List.take_succ_cons, List.cons_append, List.take_append_drop]

theorem Discipline.Accepts.writeAll (hd : d.Accepts) (out : Output) (bytes : Bytes) :
    (Sink.writeAll d out bytes).1 = .ok () := by
  fun_induction Sink.writeAll d out bytes with
  | case1 => rfl
  | case2 out b r details hwrite =>
    obtain ⟨n, hn⟩ := hd.takes out.calls out.stored.length (r.length + 1) (by omega)
    rw [hn] at hwrite
    cases hwrite
  | case3 out b r hwrite =>
    obtain ⟨n, hn⟩ := hd.takes out.calls out.stored.length (r.length + 1) (by omega)
    rw [hn] at hwrite
    cases hwrite
  | case4 _ _ _ _ _ ih => exact ih

theorem flush_stored (d : Discipline) (out : Output) : (flush d out).2.stored = out.stored := by
  unfold flush
  split <;> rfl

/-! ## Sending a batch -/

/-- A batch that is sent appends its lines. -/
theorem send_ok (h : (send d out batch).1 = .ok ()) :
    ∃ records : List Json.Value, batch.map OutboundMessage.toJson = records.map .ok ∧
      (send d out batch).2.stored = out.stored ++ join (records.map Json.Value.bytes) := by
  unfold send at h ⊢
  split at h
  · cases h
  · next bytes hbytes =>
    obtain ⟨records, hrecords, rfl⟩ := OutboundMessage.toLines_eq_ok_iff.1 hbytes
    refine ⟨records, hrecords, ?_⟩
    split at h
    · cases h
    · next out₁ hwrite =>
      have hstored := writeAll_ok (congrArg Prod.fst hwrite)
      have hflush := flush_stored d out₁
      rw [hwrite] at hstored
      split at h
      · cases h
      · next out₂ hout₂ =>
        rw [hout₂] at hflush
        exact hflush.trans hstored

/-- Whatever comes of a send, it only appends. -/
theorem send_stored (d : Discipline) (out : Output) (batch : List OutboundMessage) :
    ∃ bytes, (send d out batch).2.stored = out.stored ++ bytes := by
  unfold send
  split
  · exact ⟨[], (List.append_nil _).symm⟩
  · next bytes _ =>
    obtain ⟨n, hn⟩ := writeAll_stored d out bytes
    refine ⟨bytes.take n, ?_⟩
    split
    · next hwrite => rwa [hwrite] at hn
    · next out₁ hwrite =>
      have hflush := flush_stored d out₁
      rw [hwrite] at hn
      split
      · next hout₂ =>
        rw [hout₂] at hflush
        exact hflush.trans hn
      · next hout₂ =>
        rw [hout₂] at hflush
        exact hflush.trans hn

theorem Discipline.Accepts.send {records : List Json.Value} (hd : d.Accepts) (out : Output)
    (h : batch.map OutboundMessage.toJson = records.map .ok) :
    (Sink.send d out batch).1 = .ok () := by
  have hwrite := hd.writeAll out (join (records.map Json.Value.bytes))
  unfold Sink.send
  rw [OutboundMessage.toLines_eq_ok_iff.2 ⟨records, h, rfl⟩]
  simp only
  split
  · next hout => rw [hout] at hwrite; cases hwrite
  · rw [Sink.flush, hd.flushes]

/-! ## The lines of results -/

/-- **Lines say what the results say.** However few bytes the writer takes at a time, the results
are sent, and the bytes that this appends are one line for each of them, in order; each line is a
JSON object that is read as the record of its result, whatever characters are in the texts. -/
theorem send_results (topic : String) (results : List (Stamp × ProbeResult)) (hd : d.Accepts)
    (out : Output) :
    ∃ (out' : Output) (appended : Bytes) (ls : List Bytes),
      send d out (results.map fun p => p.2.toMessage topic p.1) = (.ok (), out') ∧
      out'.stored = out.stored ++ appended ∧
      appended.splitOn 10 = ls ++ [[]] ∧
      (∀ l ∈ ls, l ≠ []) ∧
      ls.map Json.read = results.map fun p => .ok (p.2.record topic p.1) := by
  have hrecords : (results.map fun p => p.2.toMessage topic p.1).map OutboundMessage.toJson =
      (results.map fun p => p.2.written topic p.1).map .ok := by
    simp only [List.map_map, Function.comp_def, ProbeResult.toJson_toMessage]
  have hok := hd.send out hrecords
  obtain ⟨records, hrecords', hstored⟩ := send_ok hok
  obtain ⟨out', hsend⟩ : ∃ out', send d out _ = (.ok (), out') := ⟨_, Prod.ext hok (Eq.refl _)⟩
  rw [hsend] at hstored
  obtain rfl := OutboundMessage.map_ok_inj (hrecords.symm.trans hrecords')
  have hfull : ∀ l ∈ (results.map fun p => p.2.written topic p.1).map Json.Value.bytes,
      l ≠ [] := by
    intro l hl
    simp only [List.map_map, List.mem_map, Function.comp_apply] at hl
    obtain ⟨p, -, rfl⟩ := hl
    exact Json.Value.bytes_ne_nil (p.2.fits_written topic p.1)
  have hsplit := Lines.splitOn_join (Json.Value.newline_notMem_of_mem_map
    (results.map fun p => p.2.written topic p.1)) []
  rw [List.append_nil] at hsplit
  have hread : ((results.map fun p => p.2.written topic p.1).map Json.Value.bytes).map Json.read =
      results.map fun p => .ok (p.2.record topic p.1) := by
    simp only [List.map_map, Function.comp_def, ProbeResult.read_bytes_written]
  exact ⟨out', join _, _, hsend, hstored, hsplit, hfull, hread⟩

/-- A writer that takes at most three bytes of an offer. -/
def Discipline.sipping : Discipline :=
  ⟨fun _ _ offered => .took (min 3 offered), fun _ _ => none⟩

theorem accepts_sipping : Discipline.sipping.Accepts := by
  refine ⟨fun _ _ offered h => ⟨min 3 offered - 1, ?_⟩, fun _ _ => rfl⟩
  exact congrArg Answer.took (by omega)

/-- Results with quotes, line breaks, controls and characters of four bytes in their texts. -/
def oddResults : List (Stamp × ProbeResult) :=
  [(⟨⟨1⟩, ⟨0, 0⟩⟩,
      ⟨"a\"b\\c", ⟨"o\n\u2028", some "\t\x01"⟩, "\x00/", .unavailable, some "\r\n𝄞"⟩),
    (⟨⟨2⟩, ⟨1, 5⟩⟩, ⟨"", ⟨"", none⟩, "Application", .available, none⟩)]

theorem send_results_sipping :
    Discipline.sipping.Accepts ∧
    ∃ (out' : Output) (appended : Bytes) (ls : List Bytes),
      send .sipping (.holding [0x7B]) (oddResults.map fun p => p.2.toMessage "s\"\n" p.1) =
        (.ok (), out') ∧
      out'.stored = [0x7B] ++ appended ∧
      appended.splitOn 10 = ls ++ [[]] ∧
      (∀ l ∈ ls, l ≠ []) ∧
      ls.map Json.read = oddResults.map fun p => .ok (p.2.record "s\"\n" p.1) :=
  ⟨accepts_sipping, send_results "s\"\n" oddResults accepts_sipping (.holding [0x7B])⟩

/-! ## Turn after turn -/

/-- A batch, and how the writer behaves while it is sent. -/
structure Turn where
  discipline : Discipline
  batch : List OutboundMessage

/-- The output after some turns. What is stored stays when the sink is opened anew. -/
def sendAll (out : Output) (turns : List Turn) : Output :=
  turns.foldl (fun out t => (send t.discipline out t.batch).2) out

theorem sendAll_singleton (out : Output) (t : Turn) :
    sendAll out [t] = (send t.discipline out t.batch).2 := rfl

theorem sendAll_append (out : Output) (before after : List Turn) :
    sendAll out (before ++ after) = sendAll (sendAll out before) after :=
  List.foldl_append

theorem sendAll_stored (out : Output) (turns : List Turn) :
    ∃ bytes, (sendAll out turns).stored = out.stored ++ bytes := by
  induction turns generalizing out with
  | nil => exact ⟨[], (List.append_nil _).symm⟩
  | cons t turns ih =>
    obtain ⟨sent, hsent⟩ := send_stored t.discipline out t.batch
    obtain ⟨bytes, hbytes⟩ := ih (send t.discipline out t.batch).2
    refine ⟨sent ++ bytes, ?_⟩
    rw [sendAll, List.foldl_cons, ← sendAll, hbytes, hsent, List.append_assoc]

/-- **Sent lines.** Whatever an output held, and whatever was sent to it before and after, a batch
that was sent has a line for each message, in order, and only the first of them has other bytes on
it: those of a line that was left unended before the batch. So each message has a line of its own
exactly when no line was left unended, or the batch is empty. A line that has nothing else on it is
read as the record of its message. -/
theorem sent_lines {out : Output} (before after : List Turn) {t : Turn}
    (h : (send t.discipline (sendAll out before) t.batch).1 = .ok ()) :
    ∃ (records : List Json.Value) (later : List Bytes),
      t.batch.map OutboundMessage.toJson = records.map .ok ∧
      ended (sendAll out (before ++ t :: after)).stored =
        ended (sendAll out before).stored
          ++ resume (unended (sendAll out before).stored) (records.map Json.Value.bytes)
          ++ later ∧
      (resume (unended (sendAll out before).stored) (records.map Json.Value.bytes) =
          records.map Json.Value.bytes ↔
        t.batch = [] ∨ unended (sendAll out before).stored = []) ∧
      ∀ v ∈ records, 10 ∉ v.bytes ∧
        (v.fits Json.depthMax = true → Json.read v.bytes = .ok v.sorted) := by
  obtain ⟨records, hrecords, hstored⟩ := send_ok h
  obtain ⟨more, hmore⟩ := sendAll_stored (send t.discipline (sendAll out before) t.batch).2 after
  have hfinal : (sendAll out (before ++ t :: after)).stored =
      (sendAll out before).stored ++ join (records.map Json.Value.bytes) ++ more := by
    rw [sendAll_append, ← hstored, ← hmore]
    rfl
  obtain ⟨later, hlater⟩ := Lines.ended_append_lines (sendAll out before).stored
    (Json.Value.newline_notMem_of_mem_map records) more
  have hempty : records.map Json.Value.bytes = [] ↔ t.batch = [] := by
    have hlength := congrArg List.length hrecords
    simp only [List.length_map] at hlength
    rw [List.map_eq_nil_iff, ← List.length_eq_zero_iff, ← List.length_eq_zero_iff, hlength]
  refine ⟨records, later, hrecords, by rw [hfinal, hlater], ?_, ?_⟩
  · rw [Lines.resume_eq_self_iff, hempty]
  · intro v _
    exact ⟨v.newline_notMem_bytes, fun hfits => Json.read_write hfits⟩

/-- A message with the number one for its value. -/
def note : OutboundMessage := ⟨⟨0⟩, "status", [], [0x31], ⟨0, 0⟩⟩

theorem toJson_note : ∃ ms, note.toJson = .ok (.object (("id", .text note.id.toText) :: ms)) := by
  have hread : Json.read note.value = .ok (.int 1) := Json.read_write (v := .int 1) (by decide)
  rw [OutboundMessage.toJson, hread]
  exact ⟨_, rfl⟩

theorem accepts_open : Discipline.open.Accepts := by
  refine ⟨fun _ _ offered h => ⟨offered - 1, ?_⟩, fun _ _ => rfl⟩
  exact congrArg Answer.took (by omega)

theorem sent_lines_settled :
    (send .open (sendAll (.holding [0x7B, 10]) []) [note]).1 = .ok () ∧
    ∃ (records : List Json.Value) (later : List Bytes),
      [note].map OutboundMessage.toJson = records.map .ok ∧
      ended (sendAll (.holding [0x7B, 10]) [⟨.open, [note]⟩]).stored =
        ended [0x7B, 10] ++ resume (unended [0x7B, 10]) (records.map Json.Value.bytes) ++ later ∧
      (resume (unended [0x7B, 10]) (records.map Json.Value.bytes) =
          records.map Json.Value.bytes ↔
        [note] = [] ∨ unended [0x7B, 10] = []) ∧
      ∀ v ∈ records, 10 ∉ v.bytes ∧
        (v.fits Json.depthMax = true → Json.read v.bytes = .ok v.sorted) := by
  obtain ⟨ms, hms⟩ := toJson_note
  have hbatch : [note].map OutboundMessage.toJson =
      [Json.Value.object (("id", .text note.id.toText) :: ms)].map .ok := by
    rw [List.map_singleton, hms]
    rfl
  have hsend := accepts_open.send (.holding [0x7B, 10]) hbatch
  exact ⟨hsend, sent_lines [] [] (t := ⟨.open, [note]⟩) hsend⟩

theorem read_two_braces (s : Bytes) : ∃ failure, Json.read (0x7B :: 0x7B :: s) = .error failure :=
  ⟨_, rfl⟩

/-- After the first byte of a record that an earlier send left, a message that is sent has no line
of its own, and the line that it is on is no JSON. -/
theorem sent_after_torn :
    (send .open (.holding [0x7B]) [note]).1 = .ok () ∧
    ∃ record : Json.Value, note.toJson = .ok record ∧
      ended (sendAll (.holding [0x7B]) [⟨.open, [note]⟩]).stored = [0x7B :: record.bytes] ∧
      record.bytes ≠ 0x7B :: record.bytes ∧
      ∃ failure, Json.read (0x7B :: record.bytes) = .error failure := by
  obtain ⟨ms, hms⟩ := toJson_note
  generalize hv : Json.Value.object (("id", .text note.id.toText) :: ms) = v at hms
  have hbatch : [note].map OutboundMessage.toJson = [v].map .ok := by
    rw [List.map_singleton, hms]
    rfl
  have hsend := accepts_open.send (.holding [0x7B]) hbatch
  obtain ⟨records, hrecords, hstored⟩ := send_ok hsend
  obtain rfl : records = [v] := OutboundMessage.map_ok_inj (hrecords.symm.trans hbatch)
  have hended : ended (sendAll (.holding [0x7B]) [⟨.open, [note]⟩]).stored = [0x7B :: v.bytes] := by
    have hline : ∀ l ∈ [0x7B :: v.bytes], 10 ∉ l := by
      intro l hl
      rw [List.mem_singleton.1 hl, List.mem_cons]
      rintro (h | h)
      · cases h
      · exact v.newline_notMem_bytes h
    -- what was left and the record are one line
    have hbytes : (Output.holding [0x7B]).stored ++ join ([v].map Json.Value.bytes) =
        join [0x7B :: v.bytes] ++ [] := by
      simp [join, Output.holding]
    rw [sendAll_singleton, hstored, hbytes]
    exact (Lines.ended_of_splitOn (Lines.splitOn_join hline [])).1
  obtain ⟨s, hs⟩ := Json.Value.bytes_object "id" (.text note.id.toText) ms
  rw [hv] at hs
  refine ⟨hsend, v, hms, hended, fun h => ?_, ?_⟩
  · have := congrArg List.length h
    simp at this
  · rw [hs]
    exact read_two_braces s

end Availability.Sink

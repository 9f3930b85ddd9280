import Availability.Proofs.Outbound.Sink
import Availability.Proofs.Results

/-!
# All of a batch or nothing of it

A message whose value is no JSON has no line, and then its batch has none: the writer is not called
at all. All other batches are offered as a whole, and what goes wrong then is the writer's doing. So
the sends that were refused can be struck out of any sequence of sends.

* `toLines_of_readable`, `toLines_of_first`: the lines of a batch, or why there are none.
* `writeAll_takes`: what a writer takes of an offer, bite after bite.
* `send_of_first`, `send_offered`: what a send comes to.
* `attempts_filter`: a refused send changes nothing for those after it.
-/

namespace Availability

/-! ## The first message without a line -/

namespace OutboundMessage

/-- Whether the value of a message is JSON. -/
def isReadable (m : OutboundMessage) : Bool := (Json.read m.value).isOk

theorem isReadable_iff {m : OutboundMessage} :
    m.isReadable = true ↔ ∃ v, Json.read m.value = .ok v := by
  unfold isReadable
  cases Json.read m.value <;> simp [Except.isOk, Except.toBool]

theorem isReadable_eq_false_iff {m : OutboundMessage} :
    m.isReadable = false ↔ ∃ failure, Json.read m.value = .error failure := by
  unfold isReadable
  cases Json.read m.value <;> simp [Except.isOk, Except.toBool]

theorem exists_lines {batch : List OutboundMessage} (h : ∀ m ∈ batch, m.isReadable = true) :
    ∃ lines : List Bytes, batch.map toLine = lines.map .ok ∧ batch.mapM toLine = .ok lines := by
  induction batch with
  | nil => exact ⟨[], rfl, rfl⟩
  | cons m batch ih =>
    obtain ⟨hm, hbatch⟩ := List.forall_mem_cons.1 h
    obtain ⟨v, hv⟩ := isReadable_iff.1 hm
    obtain ⟨lines, hlines, hall⟩ := ih hbatch
    have hline := toLine_of_read hv
    refine ⟨_ :: lines, by rw [List.map_cons, hline, hlines]; rfl, ?_⟩
    rw [List.mapM_cons, hline, hall]
    rfl

/-- A batch of which all values are JSON has a line for each message. -/
theorem toLines_of_readable {batch : List OutboundMessage}
    (h : ∀ m ∈ batch, m.isReadable = true) :
    ∃ lines : List Bytes, batch.map toLine = lines.map .ok ∧ toLines batch = .ok lines.flatten := by
  obtain ⟨lines, hlines, hall⟩ := exists_lines h
  exact ⟨lines, hlines, by rw [toLines, hall]; rfl⟩

/-- The first value that is no JSON is why a batch has no lines. -/
theorem toLines_of_first {before after : List OutboundMessage} {m : OutboundMessage}
    {failure : Json.Failure} (hbefore : ∀ l ∈ before, l.isReadable = true)
    (hm : Json.read m.value = .error failure) :
    toLines (before ++ m :: after) = .error failure := by
  obtain ⟨lines, -, hall⟩ := exists_lines hbefore
  rw [toLines, List.mapM_append, hall, List.mapM_cons, toLine_of_read_error hm]
  rfl

theorem exists_first {batch : List OutboundMessage} {m : OutboundMessage} (hm : m ∈ batch)
    (hunread : m.isReadable = false) :
    ∃ before first after failure, batch = before ++ first :: after ∧
      (∀ l ∈ before, l.isReadable = true) ∧ Json.read first.value = .error failure := by
  obtain ⟨first, hfirst⟩ := Option.isSome_iff_exists.1 <|
    List.find?_isSome (p := fun l => !l.isReadable).2
      ⟨m, hm, by simp only [hunread, Bool.not_false]⟩
  obtain ⟨hfails, before, after, hbatch, hbefore⟩ := List.find?_eq_some_iff_append.1 hfirst
  obtain ⟨failure, hfailure⟩ := isReadable_eq_false_iff.1 (by simpa using hfails)
  exact ⟨before, first, after, failure, hbatch, fun l hl => by simpa using hbefore l hl, hfailure⟩

/-- A line ends with the only line break in it. -/
theorem exists_body {m : OutboundMessage} {line : Bytes} (h : m.toLine = .ok line) :
    ∃ body, line = body ++ [10] ∧ 10 ∉ body := by
  obtain ⟨v, -, rfl⟩ := map_eq_ok h
  exact ⟨v.bytes, rfl, v.newline_notMem_bytes⟩

end OutboundMessage

namespace Sink

variable {d : Discipline} {out out' : Output} {bytes rest : Bytes}

/-! ## Offers -/

/-- What a writer takes of some bytes in one offer after another, until `rest` is left. Each offer
is all that is left. -/
inductive Takes (d : Discipline) : Output → Bytes → Output → Bytes → Prop where
  | none {out : Output} {bytes : Bytes} : Takes d out bytes out bytes
  | bite {out out' : Output} {bytes rest : Bytes} {n : Nat} :
      bytes ≠ [] → d.write out.calls out.stored.length bytes.length = .took (n + 1) →
      Takes d
        { out with stored := out.stored ++ bytes.take (n + 1), calls := out.calls + 1 }
        (bytes.drop (n + 1)) out' rest →
      Takes d out bytes out' rest

/-- How an offer fails: the writer refuses it, or takes nothing of it. -/
inductive Declines (d : Discipline) (out : Output) (offer : Bytes) : String → Prop where
  | refused {details : String} :
      d.write out.calls out.stored.length offer.length = .refused details →
      Declines d out offer details
  | zero : d.write out.calls out.stored.length offer.length = .took 0 →
      Declines d out offer "write zero"

/-- An output that was called once more. -/
def Output.called (out : Output) : Output := { out with calls := out.calls + 1 }

theorem Takes.stored (h : Takes d out bytes out' rest) :
    out'.stored ++ rest = out.stored ++ bytes := by
  induction h with
  | none => rfl
  | bite _ _ _ ih => rw [ih, List.append_assoc, List.take_append_drop]

/-- Bytes are offered until none is left or the writer declines. -/
theorem writeAll_takes (d : Discipline) (out : Output) (bytes : Bytes) :
    ∃ out' rest, Takes d out bytes out' rest ∧
      (rest = [] ∧ writeAll d out bytes = (.ok (), out') ∨
        rest ≠ [] ∧ ∃ details, Declines d out' rest details ∧
          writeAll d out bytes = (.error details, out'.called)) := by
  fun_induction writeAll d out bytes with
  | case1 out => exact ⟨out, [], .none, .inl ⟨rfl, rfl⟩⟩
  | case2 out b r details hwrite =>
    exact ⟨out, b :: r, .none, .inr ⟨List.cons_ne_nil _ _, details, .refused hwrite, rfl⟩⟩
  | case3 out b r hwrite =>
    exact ⟨out, b :: r, .none, .inr ⟨List.cons_ne_nil _ _, _, .zero hwrite, rfl⟩⟩
  | case4 out b r n hwrite ih =>
    obtain ⟨out', rest, htakes, hends⟩ := ih
    exact ⟨out', rest, .bite (List.cons_ne_nil _ _) hwrite htakes, hends⟩

/-- What comes of offering `bytes`, of `count` messages, and then flushing. -/
inductive Offered (d : Discipline) (out : Output) (count : Nat) (bytes : Bytes) :
    Except Error Unit → Output → Prop where
  | sent {out' : Output} :
      Takes d out bytes out' [] → d.flush out'.calls out'.stored.length = none →
      Offered d out count bytes (.ok ()) { out'.called with flushed := out'.stored.length }
  | unflushed {out' : Output} {details : String} :
      Takes d out bytes out' [] → d.flush out'.calls out'.stored.length = some details →
      Offered d out count bytes (.error (.transport count details)) out'.called
  | unwritten {out' : Output} {rest : Bytes} {details : String} :
      Takes d out bytes out' rest → rest ≠ [] → Declines d out' rest details →
      Offered d out count bytes (.error (.transport count details)) out'.called

/-- An offer appends a part from the front of what is offered: all of it if the send went well. -/
theorem Offered.stored {count : Nat} {reply : Except Error Unit}
    (h : Offered d out count bytes reply out') :
    ∃ rest, out'.stored ++ rest = out.stored ++ bytes ∧ (reply = .ok () → rest = []) := by
  cases h with
  | sent htakes => exact ⟨[], htakes.stored, fun _ => rfl⟩
  | unflushed htakes => exact ⟨[], htakes.stored, fun _ => rfl⟩
  | unwritten htakes => exact ⟨_, htakes.stored, nofun⟩

/-! ## One send -/

variable {batch : List OutboundMessage}

/-- The first value that is no JSON is why a send is refused. -/
theorem send_of_first {before after : List OutboundMessage} {m : OutboundMessage}
    {failure : Json.Failure} (hbefore : ∀ l ∈ before, l.isReadable = true)
    (hm : Json.read m.value = .error failure) (d : Discipline) (out : Output) :
    send d out (before ++ m :: after) = (.error (.serialization failure), out) := by
  rw [send, OutboundMessage.toLines_of_first hbefore hm]

-- good, broken, good: not even the first message is written
example : ∃ failure,
    send .open (.holding []) [note, { note with value := [0x7B, 0x7B] }, note] =
      (.error (.serialization failure), .holding []) :=
  ⟨_, rfl⟩

theorem send_of_toLines (h : OutboundMessage.toLines batch = .ok bytes) (d : Discipline)
    (out : Output) :
    Offered d out batch.length bytes (send d out batch).1 (send d out batch).2 := by
  obtain ⟨out', rest, htakes, ⟨rfl, hwrite⟩ | ⟨hrest, details, hdeclines, hwrite⟩⟩ :=
    writeAll_takes d out bytes
  · simp only [send, h, hwrite, flush]
    cases hflush : d.flush out'.calls out'.stored.length with
    | none => exact .sent htakes hflush
    | some details => exact .unflushed htakes hflush
  · simp only [send, h, hwrite]
    exact .unwritten htakes hrest hdeclines

/-- A batch of which all values are JSON is offered to the writer. -/
theorem send_offered (h : ∀ m ∈ batch, m.isReadable = true) (d : Discipline) (out : Output) :
    ∃ lines : List Bytes, batch.map OutboundMessage.toLine = lines.map .ok ∧
      Offered d out batch.length lines.flatten (send d out batch).1 (send d out batch).2 := by
  obtain ⟨lines, hlines, hall⟩ := OutboundMessage.toLines_of_readable h
  exact ⟨lines, hlines, send_of_toLines hall d out⟩

theorem Offered.ne_serialization {count : Nat} {reply : Except Error Unit}
    (h : Offered d out count bytes reply out') (failure : Json.Failure) :
    reply ≠ .error (.serialization failure) := by
  cases h <;> exact nofun

/-- What a send does with a batch: it refuses it because of the first value that is no JSON, and
then the output is as it was, or it offers all lines of it. -/
structure AllOrNothing (d : Discipline) (out : Output) (batch : List OutboundMessage) : Prop where
  refused_iff :
    (∃ failure, (send d out batch).1 = .error (.serialization failure)) ↔
      ∃ m ∈ batch, ∃ failure, Json.read m.value = .error failure
  refused : ∀ before m after failure, batch = before ++ m :: after →
    (∀ l ∈ before, ∃ v, Json.read l.value = .ok v) → Json.read m.value = .error failure →
    send d out batch = (.error (.serialization failure), out)
  offered : (∀ m ∈ batch, ∃ v, Json.read m.value = .ok v) →
    ∃ lines : List Bytes, batch.map OutboundMessage.toLine = lines.map .ok ∧
      (∀ l ∈ lines, ∃ body, l = body ++ [10] ∧ 10 ∉ body) ∧
      Offered d out batch.length lines.flatten (send d out batch).1 (send d out batch).2 ∧
      ∃ rest, (send d out batch).2.stored ++ rest = out.stored ++ lines.flatten ∧
        ((send d out batch).1 = .ok () → rest = [])

theorem allOrNothing (d : Discipline) (out : Output) (batch : List OutboundMessage) :
    AllOrNothing d out batch where
  refused_iff := by
    constructor
    · rintro ⟨failure, hfailure⟩
      cases hall : batch.all OutboundMessage.isReadable with
      | true =>
        obtain ⟨lines, -, hoffered⟩ := send_offered (List.all_eq_true.1 hall) d out
        exact absurd hfailure (hoffered.ne_serialization failure)
      | false =>
        obtain ⟨m, hm, hunread⟩ := List.all_eq_false.1 hall
        exact ⟨m, hm, OutboundMessage.isReadable_eq_false_iff.1 (Bool.eq_false_iff.2 hunread)⟩
    · rintro ⟨m, hm, hfailure⟩
      obtain ⟨before, first, after, failure, rfl, hbefore, hfirst⟩ :=
        OutboundMessage.exists_first hm (OutboundMessage.isReadable_eq_false_iff.2 hfailure)
      exact ⟨failure, congrArg Prod.fst (send_of_first hbefore hfirst d out)⟩
  refused := by
    rintro before m after failure rfl hbefore hm
    exact send_of_first (fun l hl => OutboundMessage.isReadable_iff.2 (hbefore l hl)) hm d out
  offered := by
    intro hall
    obtain ⟨lines, hlines, hoffered⟩ :=
      send_offered (fun m hm => OutboundMessage.isReadable_iff.2 (hall m hm)) d out
    refine ⟨lines, hlines, fun l hl => ?_, hoffered, hoffered.stored⟩
    obtain ⟨m, -, hm⟩ := List.mem_map.1 (hlines ▸ List.mem_map_of_mem hl)
    exact OutboundMessage.exists_body hm

/-! ## One send after another -/

/-- Whether all values of a turn's batch are JSON. -/
def Turn.isReadable (t : Turn) : Bool := t.batch.all OutboundMessage.isReadable

/-- Some turns, each with its reply and the output after it. -/
def attempts (out : Output) : List Turn → List (Turn × Except Error Unit × Output)
  | [] => []
  | t :: turns =>
    (t, send t.discipline out t.batch) :: attempts (send t.discipline out t.batch).2 turns

theorem Turn.send_of_not_isReadable {t : Turn} (h : t.isReadable = false) (out : Output) :
    (send t.discipline out t.batch).2 = out := by
  obtain ⟨m, hm, hunread⟩ := List.all_eq_false.1 h
  obtain ⟨before, first, after, failure, hbatch, hbefore, hfirst⟩ :=
    OutboundMessage.exists_first hm (Bool.eq_false_iff.2 hunread)
  rw [hbatch, send_of_first hbefore hfirst]

/-- The turns that are not refused go as if the refused ones had not been. -/
theorem attempts_filter (out : Output) (turns : List Turn) :
    (attempts out turns).filter (·.1.isReadable) = attempts out (turns.filter Turn.isReadable) := by
  induction turns generalizing out with
  | nil => rfl
  | cons t turns ih =>
    rw [attempts]
    cases ht : t.isReadable with
    | true =>
      rw [List.filter_cons_of_pos (p := Turn.isReadable) ht, attempts,
        List.filter_cons_of_pos (by exact ht), ih]
    | false =>
      have hskip : ¬t.isReadable = true := Bool.eq_false_iff.1 ht
      rw [List.filter_cons_of_neg (p := Turn.isReadable) hskip,
        List.filter_cons_of_neg (by exact hskip), ih, t.send_of_not_isReadable ht]

theorem sendAll_cons (out : Output) (t : Turn) (turns : List Turn) :
    sendAll out (t :: turns) = sendAll (send t.discipline out t.batch).2 turns := rfl

theorem sendAll_filter (out : Output) (turns : List Turn) :
    sendAll out (turns.filter Turn.isReadable) = sendAll out turns := by
  induction turns generalizing out with
  | nil => rfl
  | cons t turns ih =>
    rw [sendAll_cons]
    cases ht : t.isReadable with
    | true => rw [List.filter_cons_of_pos ht, sendAll_cons, ih]
    | false =>
      rw [List.filter_cons_of_neg (Bool.eq_false_iff.1 ht), t.send_of_not_isReadable ht, ih]

/-- **All or nothing.** A send is refused exactly when a value of its batch is no JSON, and the
error is that of the first such value; the writer is neither offered anything nor flushed then, so
the output stays, and all other sends of any sequence go as if this one had not been. A batch of
which all values are JSON is offered to the writer as one line for each message, in order; a writer
that declines or cannot flush is a transport error with the number of messages. -/
theorem sends_all_or_nothing :
    (∀ d out batch, AllOrNothing d out batch) ∧
    ∀ out turns,
      (attempts out turns).filter (·.1.isReadable) = attempts out (turns.filter Turn.isReadable) ∧
      sendAll out turns = sendAll out (turns.filter Turn.isReadable) :=
  ⟨allOrNothing, fun out turns => ⟨attempts_filter out turns, (sendAll_filter out turns).symm⟩⟩

end Sink

end Availability

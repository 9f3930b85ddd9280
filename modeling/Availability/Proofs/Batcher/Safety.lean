import Availability.Proofs.Batcher.Run

/-!
# What a batcher keeps

Everything a batcher takes off its queue goes to the sink or waits in the batch, in order and
unchanged, whatever the sink says and whenever the ticker goes off.

* `Run.conserved`: what was passed on, and after it what is pending, is what was taken.
* `Run.sizes`: how large a batch can be, in the batcher's hands and on its way to the sink.
* `Run.inPhase`: what the calls of the sink look like in each phase (`InPhase`).
* `Run.counted`: what the batcher has counted is what its calls and their answers come to.
* `Run.batching_safe`: all of it as one rule of the batcher (`Safe`).
-/

namespace Availability.Flow.Batcher

/-- The messages of the calls that the sink answered well, or of those that it refused. -/
def settled (ok : Bool) (calls : List SinkCall) (answers : List (Except Error Unit)) :
    List OutboundMessage :=
  ((calls.zip answers).filter fun x => x.2.isOk == ok).flatMap fun x => x.1.messages

theorem settled_snoc (ok : Bool) {calls : List SinkCall} {answers : List (Except Error Unit)}
    (c : SinkCall) (answer : Except Error Unit) (h : calls.length = answers.length) :
    settled ok (calls ++ [c]) (answers ++ [answer]) =
      settled ok calls answers ++ if answer.isOk = ok then c.messages else [] := by
  unfold settled
  rw [List.zip_append h, List.filter_append, List.flatMap_append]
  by_cases hok : answer.isOk = ok <;> simp [hok]

theorem settled_append_left (ok : Bool) {calls : List SinkCall}
    {answers : List (Except Error Unit)} (rest : List SinkCall)
    (h : answers.length ≤ calls.length) :
    settled ok (calls ++ rest) answers = settled ok calls answers := by
  unfold settled
  rw [show (calls ++ rest).zip answers = calls.zip answers from zipWith_append_left _ _ h]

theorem length_settled {calls : List SinkCall} {answers : List (Except Error Unit)}
    (h : calls.length = answers.length) :
    (settled true calls answers).length + (settled false calls answers).length =
      (calls.flatMap SinkCall.messages).length := by
  induction calls generalizing answers with
  | nil => simp [settled]
  | cons c calls ih =>
    cases answers with
    | nil => simp at h
    | cons answer answers =>
      have ih := ih (Nat.succ_inj.1 h)
      unfold settled at ih ⊢
      cases hok : answer.isOk <;> simp [hok] at ih ⊢ <;> omega

namespace Bench

variable {now : Nat} {topic : String} {batchSize period : Nat} {inbox : Queue ProbeResult}
  {es : List Event} {s t : Bench}

/-! ## Nothing is lost on the way -/

theorem Step.topic_eq {e : Event} (h : Step s e t) : t.batcher.topic = s.batcher.topic := by
  cases h with
  | answered => exact answered_topic ..
  | _ => rfl

theorem Step.limit_eq {e : Event} (h : Step s e t) :
    t.batcher.batch.limit = s.batcher.batch.limit := by
  cases h with
  | answered => exact congrArg Batch.limit (answered_batch ..)
  | _ => rfl

theorem Run.topic_eq (run : Run (start now topic batchSize period inbox) es s) :
    s.batcher.topic = topic :=
  run.kept (f := (·.batcher.topic)) Step.topic_eq

theorem Run.limit_eq (run : Run (start now topic batchSize period inbox) es s) :
    s.batcher.batch.limit = max batchSize 1 :=
  run.kept (f := (·.batcher.batch.limit)) Step.limit_eq

@[simp] theorem passed_launch (s : Bench) (messages : List OutboundMessage)
    (trigger : FlushTrigger) : (s.launch messages trigger).passed = s.passed ++ messages := by
  simp [passed]

@[simp] theorem pending_launch (s : Bench) (messages : List OutboundMessage)
    (trigger : FlushTrigger) : (s.launch messages trigger).pending = [] := rfl

/-- What a batcher has on its queue, in its batch and behind it. -/
structure Books (topic : String) (items : List ProbeResult) (es : List Event) (s : Bench) :
    Prop where
  taken_le : (stamps es).length ≤ (items ++ arrivals es).length
  kept : s.passed ++ s.pending = taken topic items es
  left : (∀ text, s.batcher.phase ≠ .crashed text) →
    s.inbox.items = (items ++ arrivals es).drop (stamps es).length

theorem Books.take {items : List ProbeResult} (h : Books topic items es s) {stamp : Stamp}
    {r : ProbeResult} {rest : List ProbeResult} (hphase : s.batcher.phase = .waiting)
    (hitems : s.inbox.items = r :: rest)
    (hkept : t.passed ++ t.pending = s.passed ++ s.pending ++ [r.toMessage topic stamp])
    (hleft : t.inbox.items = rest) :
    Books topic items (es ++ [.own (.receive stamp)]) t := by
  have hdrop : (items ++ arrivals es).drop (stamps es).length = r :: rest := by
    rw [← h.left (by simp [hphase]), hitems]
  have harr : arrivals (es ++ [.own (.receive stamp)]) = arrivals es := by
    simp [Event.arrival?]
  have hst : stamps (es ++ [.own (.receive stamp)]) = stamps es ++ [stamp] := by
    simp [Event.stamp?]
  refine ⟨?_, ?_, fun _ => ?_⟩
  · rw [harr, hst, List.length_append]
    exact length_lt_of_drop_eq_cons hdrop
  · rw [hkept, h.kept]
    simp only [taken, harr, hst]
    exact (zipWith_snoc_right _ stamp hdrop).symm
  · rw [harr, hst, List.length_append, hleft]
    exact (drop_succ_of_drop_eq_cons hdrop).symm

theorem Books.same {items : List ProbeResult} (h : Books topic items es s) {e : Event}
    (harr : e.arrival? = none) (hst : e.stamp? = none)
    (hkept : t.passed ++ t.pending = s.passed ++ s.pending)
    (hleft : (∀ text, t.batcher.phase ≠ .crashed text) →
      (∀ text, s.batcher.phase ≠ .crashed text) ∧ t.inbox.items = s.inbox.items) :
    Books topic items (es ++ [e]) t := by
  have harr : arrivals (es ++ [e]) = arrivals es := by simp [harr]
  have hst : stamps (es ++ [e]) = stamps es := by simp [hst]
  refine ⟨by rw [harr, hst]; exact h.taken_le, ?_, fun hcalm => ?_⟩
  · rw [hkept, h.kept]
    simp only [taken, harr, hst]
  · obtain ⟨hcalm, hitems⟩ := hleft hcalm
    rw [hitems, h.left hcalm, harr, hst]

theorem Books.arrive {items : List ProbeResult} (h : Books topic items es s) (r : ProbeResult) :
    Books topic items (es ++ [.arrive r]) { s with inbox := s.inbox.push r } := by
  have harr : items ++ arrivals (es ++ [.arrive r]) = items ++ arrivals es ++ [r] := by
    simp [Event.arrival?]
  have hst : stamps (es ++ [.arrive r]) = stamps es := by simp [Event.stamp?]
  refine ⟨?_, ?_, fun hcalm => ?_⟩
  · rw [harr, hst, List.length_append]
    exact Nat.le_add_right_of_le h.taken_le
  · simp only [taken, harr, hst]
    rw [zipWith_append_left _ _ h.taken_le]
    exact h.kept
  · rw [harr, hst, List.drop_append_of_le_length h.taken_le, ← h.left hcalm]
    rfl

/-- **Nothing is lost on the way.** What a batcher has taken off its queue it has passed on or
holds, in order; what it has not taken is still there, unless the batcher has crashed. -/
theorem Run.conserved (run : Run (start now topic batchSize period inbox) es s) :
    Books topic inbox.items es s := by
  induction run with
  | nil =>
    refine ⟨Nat.zero_le _, ?_, fun _ => (List.append_nil _).symm⟩
    exact (List.zipWith_nil_right).symm
  | snoc prev he ih =>
    -- the messages passed on and those pending grow together, by what is taken off the queue only
    have htopic := prev.topic_eq
    cases step_of_event? he with
    | gathered hphase hitems _ =>
      exact ih.take hphase hitems (by simp [gather, advance, passed, pending, htopic]) rfl
    | filled hphase hitems _ =>
      exact ih.take hphase hitems (by simp [advance, passed, pending, htopic]) rfl
    | idled hphase => exact ih.same rfl rfl rfl fun hcalm => ⟨hcalm, rfl⟩
    | flushed hphase =>
      exact ih.same rfl rfl (by simp [ticked, passed, pending]) fun _ => ⟨by simp [hphase], rfl⟩
    | finished hphase => exact ih.same rfl rfl rfl fun _ => ⟨by simp [hphase], rfl⟩
    | drained hphase =>
      exact ih.same rfl rfl (by simp [passed, pending]) fun _ => ⟨by simp [hphase], rfl⟩
    | answered hphase =>
      exact ih.same rfl rfl (by simp [passed, pending]) fun _ => ⟨by simp [hphase], rfl⟩
    | crashed => exact ih.same rfl rfl rfl fun hcalm => absurd rfl (hcalm _)
    | arrived => exact ih.arrive _
    | hungUp => exact ih.same rfl rfl rfl fun hcalm => ⟨hcalm, rfl⟩
    | elapsed => exact ih.same rfl rfl rfl fun hcalm => ⟨hcalm, rfl⟩

/-! ## Batches and their calls -/

/-- What a batch may be when the sink gets it. -/
structure Sized (limit : Nat) (c : SinkCall) : Prop where
  nonempty : c.messages ≠ []
  le : c.messages.length ≤ limit
  full : c.trigger = .full → c.messages.length = limit

/-- **How large a batch is.** Fewer messages than the limit are pending, and no call of the sink
gets an empty batch or one that exceeds it. -/
theorem Run.sizes (run : Run (start now topic batchSize period inbox) es s) :
    s.pending.length < max batchSize 1 ∧ ∀ c ∈ s.batcher.calls, Sized (max batchSize 1) c := by
  induction run with
  | nil => exact ⟨Nat.lt_of_lt_of_le Nat.zero_lt_one (Nat.le_max_right _ _), nofun⟩
  | @snoc es s u e prev he ih =>
    obtain ⟨hlt, hcalls⟩ := ih
    have hlimit := prev.limit_eq
    have hpos : 0 < max batchSize 1 := Nat.zero_lt_of_lt hlt
    cases step_of_event? he with
    | gathered _ _ hroom =>
      rw [hlimit] at hroom
      exact ⟨by simpa [gather, advance, pending] using hroom, hcalls⟩
    | @filled stamp r rest _ _ hfull =>
      rw [hlimit] at hfull
      refine ⟨hpos, ?_⟩
      simp only [launch_calls, List.mem_append, List.mem_singleton]
      rintro c (hc | rfl)
      · exact hcalls c hc
      · have hlen : (s.pending ++ [r.toMessage s.batcher.topic stamp]).length =
            max batchSize 1 := by
          rw [List.length_append, List.length_singleton]
          exact Nat.le_antisymm hlt hfull
        exact ⟨by simp, Nat.le_of_eq hlen, fun _ => hlen⟩
    | flushed _ _ hsome =>
      refine ⟨hpos, ?_⟩
      simp only [launch_calls, List.mem_append, List.mem_singleton]
      rintro c (hc | rfl)
      · exact hcalls c hc
      · exact ⟨hsome, Nat.le_of_lt hlt, by simp⟩
    | drained _ _ hsome =>
      refine ⟨hpos, ?_⟩
      simp only [launch_calls, List.mem_append, List.mem_singleton]
      rintro c (hc | rfl)
      · exact hcalls c hc
      · exact ⟨hsome, Nat.le_of_lt hlt, by simp⟩
    | answered => simpa [pending] using And.intro hlt hcalls
    | _ => exact ⟨hlt, hcalls⟩

/-- Calls that were all made before the end of the queue. -/
def Early (calls : List SinkCall) : Prop := ∀ c ∈ calls, c.trigger ≠ .shutdown

/-- What the calls look like in each phase, when so many of them have been answered. -/
inductive InPhase (answered : Nat) (s : Bench) : BatcherPhase → Prop where
  | waiting : s.batcher.calls.length = answered → Early s.batcher.calls →
      InPhase answered s .waiting
  | flushing {calls : List SinkCall} {time : Nat} {messages : List OutboundMessage}
      {trigger : FlushTrigger} :
      s.batcher.calls = calls ++ [⟨time, trigger, messages⟩] → calls.length = answered →
      Early calls → s.pending = [] → InPhase answered s (.flushing messages trigger)
  | ended {calls last : List SinkCall} :
      s.batcher.calls = calls ++ last → s.batcher.calls.length = answered → Early calls →
      s.pending = [] → (last = [] ∨ ∃ time messages, last = [⟨time, .shutdown, messages⟩]) →
      InPhase answered s .ended
  | crashed {calls last : List SinkCall} {text : String} :
      s.batcher.calls = calls ++ last → calls.length = answered → Early calls →
      s.pending = [] → last.length ≤ 1 → InPhase answered s (.crashed text)

theorem inPhase_start : InPhase 0 (start now topic batchSize period inbox)
    (start now topic batchSize period inbox).batcher.phase := by
  simp only [start, Batcher.start]
  split
  · exact .crashed (List.append_nil []).symm rfl nofun rfl (Nat.zero_le 1)
  · exact .waiting rfl nofun

theorem InPhase.same {n : Nat} (h : InPhase n s s.batcher.phase)
    (hcalls : t.batcher.calls = s.batcher.calls) (hpending : t.pending = s.pending)
    (hphase : t.batcher.phase = s.batcher.phase) : InPhase n t t.batcher.phase := by
  rw [hphase]
  generalize s.batcher.phase = phase at h
  cases h with
  | waiting hlen hearly => exact .waiting (hcalls ▸ hlen) (hcalls ▸ hearly)
  | flushing heq hlen hearly hnone =>
    exact .flushing (hcalls.trans heq) hlen hearly (hpending.trans hnone)
  | ended heq hlen hearly hnone hlast =>
    exact .ended (hcalls.trans heq) (hcalls ▸ hlen) hearly (hpending.trans hnone) hlast
  | crashed heq hlen hearly hnone hlast =>
    exact .crashed (hcalls.trans heq) hlen hearly (hpending.trans hnone) hlast

theorem Run.inPhase (run : Run (start now topic batchSize period inbox) es s) :
    InPhase (answers es).length s s.batcher.phase := by
  induction run with
  | nil => exact inPhase_start
  | @snoc es s u e _ he ih =>
    -- a call without an answer is there exactly while the batcher flushes
    have hsame : e.answer? = none → answers (es ++ [e]) = answers es := fun h => by
      simp [answers_snoc, h]
    cases step_of_event? he with
    | gathered hphase =>
      rw [hphase] at ih
      cases ih with
      | waiting hlen hearly =>
        rw [hsame rfl]
        simp only [gather, advance, hphase]
        exact .waiting hlen hearly
    | filled hphase =>
      rw [hphase] at ih
      cases ih with
      | waiting hlen hearly => rw [hsame rfl]; exact .flushing rfl hlen hearly rfl
    | idled => rw [hsame rfl]; exact ih.same rfl rfl rfl
    | flushed hphase =>
      rw [hphase] at ih
      cases ih with
      | waiting hlen hearly => rw [hsame rfl]; exact .flushing rfl hlen hearly rfl
    | finished hphase _ hnone =>
      rw [hphase] at ih
      cases ih with
      | waiting hlen hearly =>
        rw [hsame rfl]
        exact .ended (List.append_nil _).symm hlen hearly hnone (.inl rfl)
    | drained hphase =>
      rw [hphase] at ih
      cases ih with
      | waiting hlen hearly => rw [hsame rfl]; exact .flushing rfl hlen hearly rfl
    | @answered messages trigger answer hphase =>
      rw [hphase] at ih
      cases ih with
      | @flushing calls time _ _ heq hlen hearly hnone =>
        have hans : answers (es ++ [.own (.sent answer)]) = answers es ++ [answer] := by
          simp [answers_snoc, Event.answer?]
        have hall : s.batcher.calls.length = (answers es).length + 1 := by simp [heq, hlen]
        simp only [answered_phase, hans, List.length_append, List.length_singleton]
        split
        · rename_i hlast
          subst hlast
          exact .ended (by simpa using heq) (by simpa using hall) hearly
            (by simpa [pending] using hnone) (.inr ⟨_, _, rfl⟩)
        · rename_i hlast
          refine .waiting (by simpa using hall) ?_
          simp only [answered_calls, heq, Early, List.mem_append, List.mem_singleton]
          rintro c (hc | rfl)
          · exact hearly c hc
          · exact hlast
    | crashed hphase =>
      rw [hphase] at ih
      cases ih with
      | flushing heq hlen hearly hnone =>
        rw [hsame rfl]
        exact .crashed heq hlen hearly hnone (Nat.le_refl 1)
    | arrived => rw [hsame rfl]; exact ih.same rfl rfl rfl
    | hungUp => rw [hsame rfl]; exact ih.same rfl rfl rfl
    | elapsed => rw [hsame rfl]; exact ih.same rfl rfl rfl

/-! ## The end of the queue -/

theorem Step.atEnd {e : Event} (h : Step s e t) (hend : s.inbox.atEnd = true) :
    t.inbox.atEnd = true := by
  obtain ⟨hitems, hsenders⟩ : s.inbox.items = [] ∧ s.inbox.senders = 0 := by
    simpa [Queue.atEnd] using hend
  cases h with
  | gathered _ hfront => rw [hitems] at hfront; cases hfront
  | filled _ hfront => rw [hitems] at hfront; cases hfront
  | crashed => simp [Queue.atEnd, Queue.close, hsenders]
  | arrived hsome => exact absurd hsenders hsome
  | hungUp hsome => exact absurd hsenders hsome
  | _ => exact hend

/-- Only at the end of its queue a batcher makes a last call. -/
theorem Run.atEnd_of_shutdown (run : Run (start now topic batchSize period inbox) es s)
    {c : SinkCall} (hc : c ∈ s.batcher.calls) (hlast : c.trigger = .shutdown) :
    s.inbox.atEnd = true := by
  induction run generalizing c with
  | nil => cases hc
  | @snoc es s u e _ he ih =>
    have hstep := step_of_event? he
    have hmem : c ∈ s.batcher.calls ∨ s.inbox.atEnd = true := by
      cases hstep with
      | filled =>
        simp only [launch_calls, List.mem_append, List.mem_singleton] at hc
        rcases hc with hc | rfl
        · exact .inl hc
        · cases hlast
      | flushed =>
        simp only [launch_calls, List.mem_append, List.mem_singleton] at hc
        rcases hc with hc | rfl
        · exact .inl hc
        · cases hlast
      | drained _ hend => exact .inr hend
      | answered => exact .inl (by simpa using hc)
      | _ => exact .inl hc
    exact hstep.atEnd (hmem.elim (fun h => ih h hlast) id)

theorem Run.atEnd_of_ended (run : Run (start now topic batchSize period inbox) es s)
    (hended : s.batcher.phase = .ended) : s.inbox.atEnd = true := by
  induction run with
  | nil =>
    simp only [start, Batcher.start] at hended
    split at hended <;> cases hended
  | snoc prev he ih =>
    have hstep := step_of_event? he
    have hphases := prev.inPhase
    refine hstep.atEnd ?_
    cases hstep with
    | gathered hphase => exact absurd hended (by simp [gather, advance, hphase])
    | finished _ hend => exact hend
    | @answered _ trigger _ hphase =>
      rw [hphase] at hphases
      cases hphases with
      | flushing heq => ?_
      refine prev.atEnd_of_shutdown (heq ▸ List.mem_append_right _ (List.mem_singleton_self _)) ?_
      cases trigger with
      | shutdown => rfl
      | _ => simp at hended
    | idled => exact ih hended
    | arrived => exact ih hended
    | hungUp => exact ih hended
    | elapsed => exact ih hended
    | _ => cases hended

/-! ## What is counted -/

/-- What a batcher has counted, told from its calls and their answers. -/
structure Counted (calls : List SinkCall) (answers : List (Except Error Unit))
    (stats : BatcherStats) : Prop where
  full : stats.fullFlushes = calls.countP (·.trigger = .full)
  tick : stats.tickFlushes = calls.countP (·.trigger = .tick)
  shutdown : stats.shutdownFlushes = calls.countP (·.trigger = .shutdown)
  sent : stats.sent = (settled true calls answers).length
  lost : stats.lost = (settled false calls answers).length

theorem Counted.launch {calls : List SinkCall} {answers : List (Except Error Unit)}
    {stats : BatcherStats} (h : Counted calls answers stats) (hlen : calls.length = answers.length)
    (c : SinkCall) : Counted (calls ++ [c]) answers (stats.flushed c.trigger) := by
  obtain ⟨hfull, htick, hshutdown, hsent, hlost⟩ := h
  have hsettled : ∀ ok, settled ok (calls ++ [c]) answers = settled ok calls answers :=
    fun ok => settled_append_left ok [c] (Nat.le_of_eq hlen.symm)
  constructor
  · rw [List.countP_append, ← hfull]
    cases hc : c.trigger <;> simp [BatcherStats.flushed, hc]
  · rw [List.countP_append, ← htick]
    cases hc : c.trigger <;> simp [BatcherStats.flushed, hc]
  · rw [List.countP_append, ← hshutdown]
    cases hc : c.trigger <;> simp [BatcherStats.flushed, hc]
  · rw [hsettled, ← hsent]
    cases c.trigger <;> rfl
  · rw [hsettled, ← hlost]
    cases c.trigger <;> rfl

theorem Counted.answer {calls : List SinkCall} {answers : List (Except Error Unit)}
    {stats : BatcherStats} {c : SinkCall} (h : Counted (calls ++ [c]) answers stats)
    (hlen : calls.length = answers.length) (answer : Except Error Unit) :
    Counted (calls ++ [c]) (answers ++ [answer])
      { stats with
        sent := stats.sent + if answer.isOk = true then c.messages.length else 0
        lost := stats.lost + if answer.isOk = false then c.messages.length else 0 } := by
  obtain ⟨hfull, htick, hshutdown, hsent, hlost⟩ := h
  rw [settled_append_left _ _ (Nat.le_of_eq hlen.symm)] at hsent hlost
  refine ⟨hfull, htick, hshutdown, ?_, ?_⟩
  · rw [settled_snoc _ _ _ hlen, List.length_append, hsent]
    cases answer.isOk <;> rfl
  · rw [settled_snoc _ _ _ hlen, List.length_append, hlost]
    cases answer.isOk <;> rfl

/-- **What a batcher has counted** is what its calls and their answers come to. -/
theorem Run.counted (run : Run (start now topic batchSize period inbox) es s) :
    Counted s.batcher.calls (answers es) s.batcher.stats := by
  induction run with
  | nil => exact ⟨rfl, rfl, rfl, rfl, rfl⟩
  | @snoc es s u e prev he ih =>
    have hsame : e.answer? = none → answers (es ++ [e]) = answers es := fun h => by
      simp [answers_snoc, h]
    have hphases := prev.inPhase
    cases step_of_event? he with
    | filled hphase =>
      rw [hphase] at hphases
      cases hphases with
      | waiting hlen => rw [hsame rfl]; exact ih.launch hlen ⟨_, .full, _⟩
    | flushed hphase =>
      rw [hphase] at hphases
      cases hphases with
      | waiting hlen => rw [hsame rfl]; exact ih.launch hlen ⟨_, .tick, _⟩
    | drained hphase =>
      rw [hphase] at hphases
      cases hphases with
      | waiting hlen => rw [hsame rfl]; exact ih.launch hlen ⟨_, .shutdown, _⟩
    | @answered messages trigger answer hphase =>
      rw [hphase] at hphases
      cases hphases with
      | flushing heq hlen =>
        have hans : answers (es ++ [.own (.sent answer)]) = answers es ++ [answer] := by
          simp [answers_snoc, Event.answer?]
        rw [heq] at ih
        rw [hans]
        simp only [answered_calls, answered_stats, heq]
        exact ih.answer hlen answer
    | _ => rw [hsame rfl]; exact ih

/-! ## The batcher's rule -/

/-- The rule of a batcher over a queue that held `items` at the start, at any moment of a run. -/
structure Safe (topic : String) (batchSize : Nat) (items : List ProbeResult) (es : List Event)
    (s : Bench) : Prop where
  /-- The results taken so far are those that came first, as many as there are stamps. -/
  taken_le : (stamps es).length ≤ (items ++ arrivals es).length
  conserved : s.passed ++ s.pending = taken topic items es
  pending_lt : s.pending.length < max batchSize 1
  sized : ∀ c ∈ s.batcher.calls, Sized (max batchSize 1) c
  /-- A tick with nothing pending makes no call. -/
  idle_tick : ∀ t, s.event? (.own .tick) = some t → s.pending = [] →
    t.batcher.calls = s.batcher.calls
  /-- No call follows the one that is made at the end of the queue. -/
  last : ∀ c ∈ s.batcher.calls.dropLast, c.trigger ≠ .shutdown
  last_at_end : ∀ c ∈ s.batcher.calls, c.trigger = .shutdown → s.inbox.atEnd = true
  /-- A batcher that waits at the end of its queue can go on, and makes a last call if it has
  something to send. -/
  at_end : s.batcher.phase = .waiting → s.inbox.atEnd = true →
    ∃ t, s.event? (.own .drain) = some t ∧
      t.batcher.calls =
        s.batcher.calls ++ if s.pending = [] then [] else [⟨s.now, .shutdown, s.pending⟩]
  /-- Once the batcher has ended, its last call was all that the earlier calls had left. -/
  ended : s.batcher.phase = .ended → s.inbox.atEnd = true ∧ ∃ calls rest,
    Early calls ∧ calls.flatMap SinkCall.messages ++ rest = taken topic items es ∧
      ((rest = [] ∧ s.batcher.calls = calls) ∨
        (rest ≠ [] ∧ ∃ time, s.batcher.calls = calls ++ [⟨time, .shutdown, rest⟩]))
  flushes : s.batcher.stats.fullFlushes + s.batcher.stats.tickFlushes +
    s.batcher.stats.shutdownFlushes = s.batcher.calls.length
  sent : s.batcher.stats.sent = (settled true s.batcher.calls (answers es)).length
  lost : s.batcher.stats.lost = (settled false s.batcher.calls (answers es)).length
  accounted : s.batcher.phase = .ended → (answers es).length = s.batcher.calls.length ∧
    s.batcher.stats.sent + s.batcher.stats.lost = (stamps es).length

theorem countP_triggers (calls : List SinkCall) :
    calls.countP (·.trigger = .full) + calls.countP (·.trigger = .tick) +
      calls.countP (·.trigger = .shutdown) = calls.length := by
  induction calls with
  | nil => rfl
  | cons c calls ih =>
    simp only [List.countP_cons, List.length_cons]
    cases c.trigger <;> simp <;> omega

theorem event?_drain_at_end (hphase : s.batcher.phase = .waiting)
    (hend : s.inbox.atEnd = true) : ∃ t, s.event? (.own .drain) = some t ∧
      t.batcher.calls =
        s.batcher.calls ++ if s.pending = [] then [] else [⟨s.now, .shutdown, s.pending⟩] := by
  by_cases hnone : s.pending = []
  · refine ⟨{ s with batcher := { s.batcher with phase := .ended } }, ?_, by simp [hnone]⟩
    rw [pending] at hnone
    simp [event?, step?, hphase, hend, Batch.take, hnone]
  · refine ⟨s.launch s.pending .shutdown, ?_, by simp [hnone]⟩
    rw [pending] at hnone
    simp [event?, step?, hphase, hend, Batch.take, hnone, launch, pending]

theorem InPhase.last {n : Nat} (h : InPhase n s s.batcher.phase) :
    ∀ c ∈ s.batcher.calls.dropLast, c.trigger ≠ .shutdown := by
  have hshort : ∀ {calls last : List SinkCall}, s.batcher.calls = calls ++ last →
      Early calls → last.length ≤ 1 → ∀ c ∈ s.batcher.calls.dropLast, c.trigger ≠ .shutdown := by
    intro calls last heq hearly hlen c hc
    apply hearly
    rw [heq] at hc
    match last, hlen with
    | [], _ => exact (List.dropLast_sublist _).subset (by simpa using hc)
    | [_], _ => simpa using hc
  generalize s.batcher.phase = phase at h
  cases h with
  | waiting _ hearly => exact hshort (List.append_nil _).symm hearly (Nat.zero_le 1)
  | flushing heq _ hearly => exact hshort heq hearly (Nat.le_refl 1)
  | ended heq _ hearly _ hlast =>
    refine hshort heq hearly ?_
    rcases hlast with rfl | ⟨_, _, rfl⟩ <;> simp
  | crashed heq _ hearly _ hlen => exact hshort heq hearly hlen

/-- **The rule of the batcher**, in every state of every run. -/
theorem Run.batching_safe (run : Run (start now topic batchSize period inbox) es s) :
    Safe topic batchSize inbox.items es s := by
  obtain ⟨hle, hkept, -⟩ := run.conserved
  obtain ⟨hlt, hsized⟩ := run.sizes
  have hphases := run.inPhase
  obtain ⟨hfull, htick, hshutdown, hsent, hlost⟩ := run.counted
  refine
    { taken_le := hle, conserved := hkept, pending_lt := hlt, sized := hsized
      idle_tick := fun t ht hnone => ?_
      last := hphases.last
      last_at_end := fun c hc => run.atEnd_of_shutdown hc
      at_end := event?_drain_at_end
      ended := fun hphase => ?_
      flushes := by rw [hfull, htick, hshutdown]; exact countP_triggers _
      sent := hsent, lost := hlost
      accounted := fun hphase => ?_ }
  · cases step_of_event? ht with
    | idled => rfl
    | flushed _ _ hsome => exact absurd hnone hsome
  · rw [hphase] at hphases
    cases hphases with
    | @ended calls last heq _ hearly hnone hlast => ?_
    rw [hnone, List.append_nil, passed, heq, List.flatMap_append] at hkept
    refine ⟨run.atEnd_of_ended hphase, calls, _, hearly, hkept, ?_⟩
    rcases hlast with rfl | ⟨time, messages, rfl⟩
    · exact .inl ⟨rfl, by rw [heq, List.append_nil]⟩
    · have hmem : ⟨time, .shutdown, messages⟩ ∈ s.batcher.calls :=
        heq ▸ List.mem_append_right _ (List.mem_singleton_self _)
      exact .inr ⟨by simpa using (hsized _ hmem).nonempty, time, by simpa using heq⟩
  · rw [hphase] at hphases
    cases hphases with
    | ended _ hlen _ hnone _ => ?_
    refine ⟨hlen.symm, ?_⟩
    rw [hsent, hlost, length_settled hlen]
    have hlength := congrArg List.length hkept
    rw [hnone, List.append_nil] at hlength
    rw [← passed, hlength, taken, List.length_zipWith, Nat.min_eq_right hle]

/-- A full batch that the sink refuses, and one that goes out at the end of the queue. -/
theorem batching_safe_refused : ∃ es s, Run (start 0 "status" 2 5000 (.bounded 4 1)) es s ∧
    s.batcher.phase = .ended ∧ s.batcher.stats = ⟨1, 0, 1, 1, 2⟩ ∧ Safe "status" 2 [] es s := by
  have run : ∃ es s, Run (start 0 "status" 2 5000 (.bounded 4 1)) es s ∧
      s.batcher.phase = .ended ∧ s.batcher.stats = ⟨1, 0, 1, 1, 2⟩ :=
    ⟨[.arrive default, .arrive default, .own (.receive default), .arrive default,
        .own (.receive default), .hangUp, .own (.sent (.error (.transport 2 "refused"))),
        .own (.receive default), .own .drain, .own (.sent (.ok ()))], _,
      .cons rfl (.cons rfl (.cons rfl (.cons rfl (.cons rfl (.cons rfl (.cons rfl (.cons rfl
        (.cons rfl (.cons rfl .nil))))))))), rfl, rfl⟩
  obtain ⟨es, s, run, hended, hstats⟩ := run
  exact ⟨es, s, run, hended, hstats, run.batching_safe⟩

end Bench

end Availability.Flow.Batcher

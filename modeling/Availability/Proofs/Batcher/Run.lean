import Availability.Flow.Batcher
import Availability.Proofs.Sequences

/-!
# Runs of the batcher

A batcher at its bench with everything that can happen to it: its own moves, results that enter
the queue, senders that let go of it, time that goes by. `Bench.Run` says where a sequence of such
events leads; `Bench.Prompt` is a run on a clock that goes on only while the batcher waits.

* `Bench.Step`, `Bench.step_of_event?`: all that an event can do. A batch leaves the batcher by
  `Bench.launch` only.
* `arrivals`, `stamps`, `answers`: what the outside did in a run, read off its events alone, and
  `taken`: the messages of the results that the batcher took off the queue in it.
-/

namespace Availability.Flow.Batcher

/-- What can happen to a batcher at its bench. -/
inductive Event where
  | own (m : Move)
  /-- A result enters the queue. -/
  | arrive (r : ProbeResult)
  /-- A sender lets go of the queue. -/
  | hangUp
  | elapse (ms : Nat)

/-! ## Histories -/

def Event.arrival? : Event → Option ProbeResult
  | .arrive r => some r
  | _ => none

def Event.stamp? : Event → Option Stamp
  | .own (.receive stamp) => some stamp
  | _ => none

def Event.answer? : Event → Option (Except Error Unit)
  | .own (.sent answer) => some answer
  | _ => none

/-- The results that entered the queue. -/
def arrivals (es : List Event) : List ProbeResult := es.filterMap Event.arrival?

/-- The stamps of the results that were taken off the queue, one for each. -/
def stamps (es : List Event) : List Stamp := es.filterMap Event.stamp?

/-- What the sink said of its calls. -/
def answers (es : List Event) : List (Except Error Unit) := es.filterMap Event.answer?

@[simp] theorem arrivals_snoc (es : List Event) (e : Event) :
    arrivals (es ++ [e]) = arrivals es ++ e.arrival?.toList :=
  filterMap_snoc _ es e

@[simp] theorem stamps_snoc (es : List Event) (e : Event) :
    stamps (es ++ [e]) = stamps es ++ e.stamp?.toList :=
  filterMap_snoc _ es e

@[simp] theorem answers_snoc (es : List Event) (e : Event) :
    answers (es ++ [e]) = answers es ++ e.answer?.toList :=
  filterMap_snoc _ es e

/-- The messages of the results taken off a queue that held `items` at the start, in the order in
which they entered it. -/
def taken (topic : String) (items : List ProbeResult) (es : List Event) : List OutboundMessage :=
  List.zipWith (fun r stamp => r.toMessage topic stamp) (items ++ arrivals es) (stamps es)

namespace Bench

/-! ## What happens at a bench -/

/-- A batcher that starts at `now` on a queue. -/
def start (now : Nat) (topic : String) (batchSize period : Nat) (inbox : Queue ProbeResult) :
    Bench :=
  ⟨.start now topic batchSize period, inbox, now⟩

/-- Lets an event happen, if it can. A queue that every sender has let go of gets no more
results. -/
def event? (s : Bench) : Event → Option Bench
  | .own m => step? s m
  | .arrive r =>
    if s.inbox.senders = 0 then none
    else
      match s.inbox.offer r with
      | .entered q => some { s with inbox := q }
      | _ => none
  | .hangUp =>
    if s.inbox.senders = 0 then none else some { s with inbox := s.inbox.dropSender }
  | .elapse ms => some { s with now := s.now + ms }

/-- The events lead from one bench to another. -/
inductive Run (s : Bench) : List Event → Bench → Prop where
  | nil : Run s [] s
  | snoc {es : List Event} {t u : Bench} {e : Event} :
      Run s es t → t.event? e = some u → Run s (es ++ [e]) u

/-- Whether the batcher has something to do now that does not wait for an answer of the sink. -/
def isBusy (s : Bench) : Bool :=
  (step? s (.receive default)).isSome || (step? s .tick).isSome || (step? s .drain).isSome

/-- How the clock goes: it stands while the batcher has something to do, and does not pass the
ticker that the batcher waits for. How long the sink takes is left open. -/
def Allows (s : Bench) : Event → Prop
  | .elapse ms =>
    s.isBusy = false ∧ (s.batcher.phase = .waiting → s.now + ms ≤ s.batcher.ticker.due)
  | _ => True

/-- A run whose clock goes on only while the batcher waits, and no further than its ticker. -/
inductive Prompt (s : Bench) : List Event → Bench → Prop where
  | nil : Prompt s [] s
  | snoc {es : List Event} {t u : Bench} {e : Event} :
      Prompt s es t → t.event? e = some u → t.Allows e → Prompt s (es ++ [e]) u

theorem Prompt.run {s t : Bench} {es : List Event} (h : Prompt s es t) : Run s es t := by
  induction h with
  | nil => exact .nil
  | snoc _ he _ ih => exact .snoc ih he

theorem Run.append {s t u : Bench} {es fs : List Event} (h₁ : Run s es t) (h₂ : Run t fs u) :
    Run s (es ++ fs) u := by
  induction h₂ with
  | nil => rwa [List.append_nil]
  | snoc _ he ih =>
    rw [← List.append_assoc]
    exact .snoc ih he

theorem Run.cons {s t u : Bench} {e : Event} {es : List Event} (h : s.event? e = some t)
    (run : Run t es u) : Run s (e :: es) u :=
  Run.append (.snoc .nil h) run

theorem Prompt.cons {s t u : Bench} {e : Event} {es : List Event} (h : s.event? e = some t)
    (hallows : s.Allows e) (run : Prompt t es u) : Prompt s (e :: es) u := by
  induction run with
  | nil => exact .snoc .nil h hallows
  | snoc _ he ha ih => exact .snoc ih he ha

/-- The messages that went to the sink, over all calls. -/
def passed (s : Bench) : List OutboundMessage := s.batcher.calls.flatMap SinkCall.messages

/-- The messages that wait in the batch. -/
def pending (s : Bench) : List OutboundMessage := s.batcher.batch.items

/-- The batch is empty and some messages are on their way to the sink. -/
def launch (s : Bench) (messages : List OutboundMessage) (trigger : FlushTrigger) : Bench :=
  { s with
    batcher :=
      { s.batcher with batch := { s.batcher.batch with items := [] } }.flush s.now messages
        trigger }

section Launch

variable (s : Bench) (messages : List OutboundMessage) (trigger : FlushTrigger)

@[simp] theorem launch_phase :
    (s.launch messages trigger).batcher.phase = .flushing messages trigger := rfl

@[simp] theorem launch_calls :
    (s.launch messages trigger).batcher.calls = s.batcher.calls ++ [⟨s.now, trigger, messages⟩] :=
  rfl

@[simp] theorem launch_items : (s.launch messages trigger).batcher.batch.items = [] := rfl

end Launch

end Bench

/-! ## The steps of a batcher -/

section Answered

variable (b : Batcher) (now count : Nat) (trigger : FlushTrigger) (answer : Except Error Unit)

def answered : Batcher := (b.account count answer).resume now trigger

@[simp] theorem answered_calls : (b.answered now count trigger answer).calls = b.calls := by
  cases trigger <;> cases answer <;> rfl

@[simp] theorem answered_batch : (b.answered now count trigger answer).batch = b.batch := by
  cases trigger <;> cases answer <;> rfl

@[simp] theorem answered_topic : (b.answered now count trigger answer).topic = b.topic := by
  cases trigger <;> cases answer <;> rfl

@[simp] theorem answered_phase :
    (b.answered now count trigger answer).phase =
      if trigger = .shutdown then .ended else .waiting := by
  cases trigger <;> rfl

@[simp] theorem answered_ticker :
    (b.answered now count trigger answer).ticker =
      if trigger = .full then b.ticker.reset now else b.ticker := by
  cases trigger <;> cases answer <;> rfl

@[simp] theorem answered_stats :
    (b.answered now count trigger answer).stats =
      { b.stats with
        sent := b.stats.sent + if answer.isOk = true then count else 0
        lost := b.stats.lost + if answer.isOk = false then count else 0 } := by
  cases trigger <;> cases answer <;> rfl

end Answered

namespace Bench

/-- The bench after the front of its queue was taken away. -/
def advance (s : Bench) (rest : List ProbeResult) : Bench :=
  { s with inbox := { s.inbox with items := rest } }

def ticked (s : Bench) : Bench :=
  { s with batcher := { s.batcher with ticker := s.batcher.ticker.advance s.now } }

/-- The bench with another message in the batch. -/
def gather (s : Bench) (m : OutboundMessage) : Bench :=
  { s with
    batcher := { s.batcher with batch := { s.batcher.batch with items := s.pending ++ [m] } } }

/-- All that an event can do. -/
inductive Step (s : Bench) : Event → Bench → Prop where
  | gathered {stamp : Stamp} {r : ProbeResult} {rest : List ProbeResult} :
      s.batcher.phase = .waiting → s.inbox.items = r :: rest →
      s.pending.length + 1 < s.batcher.batch.limit →
      Step s (.own (.receive stamp))
        ((s.advance rest).gather (r.toMessage s.batcher.topic stamp))
  | filled {stamp : Stamp} {r : ProbeResult} {rest : List ProbeResult} :
      s.batcher.phase = .waiting → s.inbox.items = r :: rest →
      s.batcher.batch.limit ≤ s.pending.length + 1 →
      Step s (.own (.receive stamp))
        ((s.advance rest).launch (s.pending ++ [r.toMessage s.batcher.topic stamp]) .full)
  | idled :
      s.batcher.phase = .waiting → s.batcher.ticker.due ≤ s.now → s.pending = [] →
      Step s (.own .tick) s.ticked
  | flushed :
      s.batcher.phase = .waiting → s.batcher.ticker.due ≤ s.now → s.pending ≠ [] →
      Step s (.own .tick) (s.ticked.launch s.pending .tick)
  | finished :
      s.batcher.phase = .waiting → s.inbox.atEnd = true → s.pending = [] →
      Step s (.own .drain) { s with batcher := { s.batcher with phase := .ended } }
  | drained :
      s.batcher.phase = .waiting → s.inbox.atEnd = true → s.pending ≠ [] →
      Step s (.own .drain) (s.launch s.pending .shutdown)
  | answered {messages : List OutboundMessage} {trigger : FlushTrigger}
      {answer : Except Error Unit} :
      s.batcher.phase = .flushing messages trigger →
      Step s (.own (.sent answer))
        { s with batcher := s.batcher.answered s.now messages.length trigger answer }
  | crashed {messages : List OutboundMessage} {trigger : FlushTrigger} {text : String} :
      s.batcher.phase = .flushing messages trigger →
      Step s (.own (.crash text))
        { s with batcher := { s.batcher with phase := .crashed text }, inbox := s.inbox.close }
  | arrived {r : ProbeResult} :
      s.inbox.senders ≠ 0 → s.inbox.receiving = true →
      Step s (.arrive r) { s with inbox := s.inbox.push r }
  | hungUp :
      s.inbox.senders ≠ 0 → Step s .hangUp { s with inbox := s.inbox.dropSender }
  | elapsed {ms : Nat} : Step s (.elapse ms) { s with now := s.now + ms }

section

variable {s t : Bench}

theorem step_of_receive {stamp : Stamp} (h : step? s (.receive stamp) = some t) :
    Step s (.own (.receive stamp)) t := by
  simp only [step?] at h
  split at h
  · rename_i r inbox hphase hpop
    obtain ⟨rest, hitems, rfl⟩ : ∃ rest, s.inbox.items = r :: rest ∧
        inbox = { s.inbox with items := rest } := by
      unfold Queue.pop? at hpop
      split at hpop
      · cases hpop
      · rename_i rest hi
        cases hpop
        exact ⟨_, hi, rfl⟩
    by_cases hfull : s.batcher.batch.limit ≤ s.batcher.batch.items.length + 1
    · simp only [Batch.push, if_pos hfull] at h
      cases h
      exact .filled hphase hitems hfull
    · simp only [Batch.push, if_neg hfull] at h
      cases h
      exact .gathered hphase hitems (Nat.lt_of_not_le hfull)
  · cases h

theorem step_of_tick (h : step? s .tick = some t) : Step s (.own .tick) t := by
  simp only [step?] at h
  split at h
  · rename_i hphase
    split at h
    · rename_i hdue
      by_cases hempty : s.batcher.batch.items = []
      · simp only [Batch.take, hempty, List.isEmpty_nil, if_true] at h
        cases h
        exact .idled hphase hdue hempty
      · simp only [Batch.take, List.isEmpty_iff, hempty, if_false] at h
        cases h
        exact .flushed hphase hdue hempty
    · cases h
  · cases h

theorem step_of_drain (h : step? s .drain = some t) : Step s (.own .drain) t := by
  simp only [step?] at h
  split at h
  · rename_i hphase
    split at h
    · rename_i hend
      by_cases hempty : s.batcher.batch.items = []
      · simp only [Batch.take, hempty, List.isEmpty_nil, if_true] at h
        cases h
        exact .finished hphase hend hempty
      · simp only [Batch.take, List.isEmpty_iff, hempty, if_false] at h
        cases h
        exact .drained hphase hend hempty
    · cases h
  · cases h

theorem step_of_arrive {r : ProbeResult} (h : s.event? (.arrive r) = some t) :
    Step s (.arrive r) t := by
  simp only [event?] at h
  split at h
  · cases h
  · rename_i hsenders
    split at h
    · rename_i q hq
      obtain ⟨hopen, -, rfl⟩ := (Queue.offer_entered_iff _ _ _).1 hq
      cases h
      exact .arrived hsenders hopen
    · cases h

/-- An event that happens is one of the steps. -/
theorem step_of_event? {e : Event} (h : s.event? e = some t) : Step s e t := by
  cases e with
  | own m =>
    cases m with
    | receive stamp => exact step_of_receive h
    | tick => exact step_of_tick h
    | drain => exact step_of_drain h
    | sent answer =>
      simp only [event?, step?] at h
      split at h
      · rename_i hphase
        cases h
        exact .answered hphase
      · cases h
    | crash text =>
      simp only [event?, step?] at h
      split at h
      · rename_i hphase
        cases h
        exact .crashed hphase
      · cases h
  | arrive r => exact step_of_arrive h
  | hangUp =>
    simp only [event?] at h
    split at h
    · cases h
    · rename_i hsenders
      cases h
      exact .hungUp hsenders
  | elapse ms =>
    cases h
    exact .elapsed

theorem Step.at_work {m : Move} (h : Step s (.own m) t) : s.batcher.isOver = false := by
  cases h with
  | gathered hphase => simp [isOver, hphase]
  | filled hphase => simp [isOver, hphase]
  | idled hphase => simp [isOver, hphase]
  | flushed hphase => simp [isOver, hphase]
  | finished hphase => simp [isOver, hphase]
  | drained hphase => simp [isOver, hphase]
  | answered hphase => simp [isOver, hphase]
  | crashed hphase => simp [isOver, hphase]

/-- What no step changes is the same after a run. -/
theorem Run.kept {α : Type} {f : Bench → α} {es : List Event} (run : Run s es t)
    (h : ∀ {u v : Bench} {e : Event}, Step u e v → f v = f u) : f t = f s := by
  induction run with
  | nil => rfl
  | snoc _ he ih => rw [h (step_of_event? he), ih]

end

end Bench

end Availability.Flow.Batcher

import Availability.Proofs.Pipeline.Draining
import Availability.Proofs.Pipeline.Closing

/-!
# Work in flight

A pipeline takes in no more than it has room for. Whoever finds a queue full waits with one item in
hand, so the messages that were pulled and have neither been dropped nor gone to the sink are at
most as many as the queues, the hands and the batch can hold, however long the stream is and
whichever call hangs.

* `Queue.Sound`, `Run.sound`: no queue holds more than it was made for.
* `State.held`: what the stages hold; `Run.accounted`: every message pulled is accounted for.
* `Bounded`, `Run.in_flight_bounded`: how much is in flight, and that nothing is dropped for want
  of room.
-/

namespace Availability.Flow

open State

/-! ## Queues -/

/-- A queue holds no more than it was made for, and nothing once its receiver has let go. -/
def Queue.Sound {α : Type} (q : Queue α) : Prop :=
  q.items.length ≤ if q.receiving then q.capacity else 0

namespace Queue.Sound

variable {α : Type} {q : Queue α}

theorem push (hopen : q.receiving = true) (hroom : q.items.length < q.capacity) (x : α) :
    (q.push x).Sound := by
  simp only [Sound, Queue.push, hopen, if_true, List.length_append, List.length_singleton]
  omega

theorem tail (h : q.Sound) {x : α} {rest : List α} (hitems : q.items = x :: rest) :
    ({ q with items := rest } : Queue α).Sound := by
  simp only [Sound, hitems, List.length_cons] at h ⊢
  omega

theorem close (q : Queue α) : q.close.Sound := Nat.zero_le _

theorem length_le (h : q.Sound) : q.items.length ≤ q.capacity := by
  unfold Sound at h
  split at h <;> omega

theorem length_of_closed (h : q.Sound) (hclosed : q.receiving = false) : q.items.length = 0 := by
  simpa [Sound, hclosed] using h

end Queue.Sound

/-- No queue of the pipeline holds more than it was made for. -/
structure State.Sound (s : State) : Prop where
  queue : ∀ p, (s.queue p).Sound
  results : s.results.Sound

namespace State

variable {c : Settings} {s t : State} {m : Move}

theorem sound_start (c : Settings) : Sound (start c) := by
  refine ⟨fun p => ?_, ?_⟩
  · cases p <;> exact Nat.zero_le _
  · simp only [start]
    split <;> exact Nat.zero_le _

theorem Sound.putBench (h : Sound s) {p : Provider} {b : Worker.Bench} (hin : b.inbox.Sound)
    (hout : b.outbox.Sound) : Sound (s.putBench p b) :=
  ⟨forall_putBench s b (P := fun _ queue _ => queue.Sound) hin fun q _ => h.queue q, hout⟩

theorem Sound.intake_finish (h : Sound s) (phase : IntakePhase) :
    Sound { s with intake := s.intake.finish phase } := by
  refine ⟨fun p => ?_, h.results⟩
  have hqueue : ({ s with intake := s.intake.finish phase } : State).queue p =
      (s.queue p).dropSender := PerProvider.get_map _ _ _
  rw [hqueue]
  exact h.queue p

theorem Sound.step (h : Sound s) (hstep : Step s m t) : Sound t := by
  cases hstep with
  | intake hi =>
    cases hi with
    | @entered p source _ _ hopen hroom =>
      refine ⟨fun q => ?_, h.results⟩
      show ((s.intake.router.queues.set p ((s.queue p).push source)).get q).Sound
      by_cases hqp : q = p
      · subst hqp
        rw [PerProvider.get_set_same]
        exact .push hopen hroom source
      · rw [PerProvider.get_set_other _ _ hqp]
        exact h.queue q
    | streamEnded => exact h.intake_finish _
    | stopped => exact h.intake_finish _
    | crashed => exact h.intake_finish _
    | _ => exact ⟨h.queue, h.results⟩
  | @worker p _ _ hb =>
    cases hb with
    | took _ hitems => exact h.putBench ((h.queue p).tail hitems) h.results
    | probed => exact h.putBench (h.queue p) h.results
    | crashed => exact h.putBench (.close _) h.results
    | entered _ hopen hroom => exact h.putBench (h.queue p) (.push hopen hroom _)
    | refused => exact h.putBench (h.queue p) h.results
    | finished => exact h.putBench (.close _) h.results
  | batcher hb =>
    cases hb with
    | gathered _ hitems => exact ⟨h.queue, h.results.tail hitems⟩
    | filled _ hitems => exact ⟨h.queue, h.results.tail hitems⟩
    | crashed => exact ⟨h.queue, .close _⟩
    | _ => exact ⟨h.queue, h.results⟩
  | coordinator hc =>
    obtain ⟨_, _, rfl⟩ := coordinatorStep?_frame hc
    exact ⟨h.queue, h.results⟩
  | signal => exact ⟨h.queue, h.results⟩
  | elapse => exact ⟨h.queue, h.results⟩

end State

/-- **No queue holds more than it was made for**, at every moment of every run. -/
theorem Run.sound {c : Settings} {ms : List State.Move} {s : State}
    (run : Run (State.start c) ms s) : State.Sound s :=
  run.induction (motive := fun _ s => State.Sound s) (sound_start c)
    fun _ _ _ _ _ h hm => h.step (step_of_step? hm)

/-! ## Where the messages are -/

/-- How many messages the intake has in hand. The one that a crash took with it counts. -/
def Intake.held (i : Intake) : Nat :=
  if i.isCrashed then 1 else i.router.current.toList.length

/-- How many messages a worker has in hand. One that crashed counts for all that it can have taken
with it. -/
def Worker.held (capacity : Nat) (w : Worker) : Nat :=
  if w.isCrashed then capacity + 1 else w.probing.length + w.offering.length

/-- How many messages wait in the batch. A batcher that crashed counts for all that it can have
taken with it. -/
def Batcher.held (capacity : Nat) (b : Batcher) : Nat :=
  (if b.isCrashed then capacity else 0) + b.batch.items.length

namespace State

/-- How many messages the stages and their queues hold. -/
def held (c : Settings) (s : State) : Nat :=
  s.intake.held + s.intake.queued + s.workers.sum (Worker.held c.capacity) +
    s.results.items.length + s.batcher.held c.capacity

/-- How many results the workers could not put on the result queue. -/
def lost (s : State) : Nat := s.workers.sum fun w => w.stats.lost

/-- How many of the messages pulled are accounted for. -/
def accounted (c : Settings) (s : State) : Nat :=
  s.intake.stats.dropped + s.lost + s.passed.length + s.held c

end State

theorem Intake.held_of_running {i : Intake} (h : i.phase = .running) :
    i.held = i.router.current.toList.length := by
  simp [held, isCrashed, h]

theorem Intake.held_settle {i : Intake} (h : i.phase = .running) (r : Router) (v : Verdict) :
    (i.settle r v).held = 0 :=
  held_of_running h

/-- What the intake takes in it drops, puts into a queue, or has in hand. -/
theorem Intake.Step.held_eq {i j : Intake} {m : Intake.Move} (h : Intake.Step i m j) :
    j.stats.received + (i.stats.dropped + i.held + i.queued) =
      i.stats.received + (j.stats.dropped + j.held + j.queued) := by
  have hbefore := held_of_running h.running
  cases h with
  | malformed hready =>
    obtain ⟨hphase, hnone⟩ := phase_of_isListening hready
    have hafter := held_settle (i := i.receive) hphase i.router .malformed
    rw [hnone] at hbefore
    rw [hafter, hbefore]
    simp only [settle, receive, queued, Router.settle, Verdict.isRouted, Option.toList_none,
      List.length_nil, Bool.false_eq_true, if_false]
    omega
  | @asked m request hready =>
    obtain ⟨hphase, hnone⟩ := phase_of_isListening hready
    have hafter : Intake.held
        { i.receive with router := i.router.proceed (.resolving request m.identity) } = 1 :=
      held_of_running hphase
    rw [hnone] at hbefore
    rw [hafter, hbefore]
    simp only [receive, queued, Router.proceed, Option.toList_none, List.length_nil]
    omega
  | streamEnded hready =>
    rw [(phase_of_isListening hready).2] at hbefore
    rw [hbefore]
    rfl
  | stopped hready =>
    rw [(phase_of_isListening hready).2] at hbefore
    rw [hbefore]
    rfl
  | @dropped _ _ v _ hphase hcurrent _ hdropped =>
    have hafter := held_settle hphase i.router v
    rw [hcurrent] at hbefore
    rw [hafter, hbefore]
    simp only [settle, queued, Router.settle, hdropped, Option.toList_some, List.length_singleton,
      Bool.false_eq_true, if_false]
  | @resolved _ _ p source hphase hcurrent =>
    have hafter : (i.hold (.sending p source)).held = 1 := held_of_running hphase
    rw [hcurrent] at hbefore
    rw [hafter, hbefore]
    rfl
  | crashed _ hcurrent =>
    rw [hcurrent] at hbefore
    rw [hbefore]
    rfl
  | @entered p source hphase hcurrent =>
    have hafter : (i.enqueue p source).held = 0 := held_settle hphase _ _
    have hqueued := i.queued_enqueue p source
    rw [hcurrent] at hbefore
    rw [hafter, hbefore, hqueued]
    simp only [enqueue, settle, Verdict.isRouted, Option.toList_some, List.length_singleton,
      if_true]
    omega
  | refused hphase hcurrent =>
    have hafter := held_settle hphase i.router .queueClosed
    rw [hcurrent] at hbefore
    rw [hafter, hbefore]
    simp only [settle, queued, Router.settle, Verdict.isRouted, Option.toList_some,
      List.length_singleton, Bool.false_eq_true, if_false]

/-- What a worker takes it puts on the result queue, loses, or has in hand, unless it crashes. -/
theorem Worker.Step.held_eq {b b' : Worker.Bench} {m : Worker.Move} (h : Worker.Step b m b')
    {capacity : Nat} (hfits : b.inbox.items.length ≤ capacity) :
    b.worker.stats.lost + b.inbox.items.length + b.worker.held capacity + b.outbox.items.length =
        b'.worker.stats.lost + b'.inbox.items.length + b'.worker.held capacity +
          b'.outbox.items.length ∨
      b'.worker.isCrashed = true ∧
        b.worker.stats.lost + b.inbox.items.length + b.worker.held capacity +
            b.outbox.items.length ≤
          b'.worker.stats.lost + b'.inbox.items.length + b'.worker.held capacity +
            b'.outbox.items.length := by
  cases h with
  | took hphase hitems =>
    left
    simp only [held, isCrashed, probing, offering, begin, hphase, hitems, List.length_cons,
      List.length_nil, Bool.false_eq_true, if_false]
    omega
  | probed hphase =>
    left
    simp [held, isCrashed, probing, offering, record, hphase]
  | crashed hphase =>
    right
    refine ⟨rfl, ?_⟩
    simp only [held, isCrashed, probing, offering, Bench.leave, turn, Queue.close,
      Queue.dropSender, hphase, List.length_cons, List.length_nil, Bool.false_eq_true, if_false,
      if_true]
    omega
  | entered hphase =>
    left
    simp only [held, isCrashed, probing, offering, turn, hphase, Queue.items_push,
      List.length_append, List.length_cons, List.length_nil, Bool.false_eq_true, if_false]
    omega
  | refused hphase =>
    left
    simp only [held, isCrashed, probing, offering, lose, hphase, List.length_cons,
      List.length_nil, Bool.false_eq_true, if_false]
    omega
  | finished hphase hend =>
    left
    have hitems : b.inbox.items = [] := by
      simp only [Queue.atEnd, Bool.and_eq_true, List.isEmpty_iff] at hend
      exact hend.1
    simp [held, isCrashed, probing, offering, Bench.leave, turn, Queue.close, Queue.dropSender,
      hphase, hitems]

theorem Batcher.held_of_calm {b : Batcher} (capacity : Nat) (h : b.isCrashed = false) :
    b.held capacity = b.batch.items.length := by
  simp [held, h]

theorem Batcher.Bench.held_launch (b : Batcher.Bench) (messages : List OutboundMessage)
    (trigger : FlushTrigger) (capacity : Nat) :
    (b.launch messages trigger).batcher.held capacity = 0 :=
  held_of_calm capacity rfl

/-- What the batcher takes it passes to the sink or keeps in the batch, unless it crashes. -/
theorem Batcher.Bench.Step.held_eq {b b' : Batcher.Bench} {m : Batcher.Move}
    (h : Batcher.Bench.Step b (.own m) b') {capacity : Nat}
    (hfits : b.inbox.items.length ≤ capacity) :
    b.passed.length + b.inbox.items.length + b.batcher.held capacity =
        b'.passed.length + b'.inbox.items.length + b'.batcher.held capacity ∨
      b'.batcher.isCrashed = true ∧
        b.passed.length + b.inbox.items.length + b.batcher.held capacity ≤
          b'.passed.length + b'.inbox.items.length + b'.batcher.held capacity := by
  have hbefore : b.batcher.held capacity = b.pending.length :=
    held_of_calm capacity (isCrashed_of_at_work h.at_work)
  cases h with
  | @gathered stamp r rest hphase hitems =>
    left
    have hafter : ((b.advance rest).gather (r.toMessage b.batcher.topic stamp)).batcher.held
        capacity = (b.pending ++ [r.toMessage b.batcher.topic stamp]).length :=
      held_of_calm capacity (by simp [isCrashed, gather, advance, hphase])
    rw [hbefore, hafter, hitems, List.length_append, List.length_singleton, List.length_cons]
    simp only [passed, gather, advance]
    omega
  | filled _ hitems =>
    left
    rw [hbefore, held_launch, passed_launch, hitems]
    simp only [List.length_append, List.length_cons, List.length_nil]
    simp only [passed, launch, advance]
    omega
  | idled hphase =>
    left
    have hafter : b.ticked.batcher.held capacity = b.pending.length :=
      held_of_calm capacity (by simp [isCrashed, ticked, hphase])
    rw [hbefore, hafter]
    rfl
  | flushed =>
    left
    rw [hbefore, held_launch, passed_launch, List.length_append]
    simp only [passed, launch, ticked]
    omega
  | finished =>
    left
    rw [hbefore, held_of_calm capacity rfl]
    rfl
  | drained =>
    left
    rw [hbefore, held_launch, passed_launch, List.length_append]
    simp only [launch]
    omega
  | @answered messages trigger answer hphase =>
    left
    have hcalm : (b.batcher.answered b.now messages.length trigger answer).isCrashed = false := by
      cases trigger <;> rfl
    rw [hbefore, held_of_calm capacity hcalm, answered_batch]
    simp only [passed, pending, answered_calls]
  | crashed =>
    right
    refine ⟨rfl, ?_⟩
    rw [hbefore]
    simp only [held, isCrashed, passed, pending, Queue.close, List.length_nil, if_true]
    omega

/-! ## Every message is accounted for -/

namespace State

variable {c : Settings} {s t : State} {m : Move}

theorem held_putBench (c : Settings) (s : State) (p : Provider) (b : Worker.Bench) :
    (s.putBench p b).held c + ((s.queue p).items.length + (s.workers.get p).held c.capacity +
      s.results.items.length) =
    s.held c + (b.inbox.items.length + b.worker.held c.capacity + b.outbox.items.length) := by
  have hworkers := s.workers.sum_set (Worker.held c.capacity) p b.worker
  have hqueues := s.intake.router.queues.sum_set (fun q => q.items.length) p b.inbox
  have hintake : (s.putBench p b).intake.held = s.intake.held := rfl
  simp only [held, hintake, Intake.queued, queue] at hqueues ⊢
  simp only [putBench]
  omega

/-- **What is pulled is accounted for**: every move keeps the account, and only a crash makes it
say too much. -/
theorem Step.accounted (h : Step s m t) (sound : Sound s) (fitted : Fitted c s) :
    t.intake.stats.received + s.accounted c = s.intake.stats.received + t.accounted c ∨
      ¬ t.Calm ∧
        t.intake.stats.received + s.accounted c ≤ s.intake.stats.received + t.accounted c := by
  cases h with
  | intake hi =>
    left
    have heq := hi.held_eq
    simp only [accounted, held, lost, passed, batcherBench]
    omega
  | @worker p _ b hb =>
    have hfits := (sound.queue p).length_le
    rw [fitted.queue] at hfits
    have hput := s.held_putBench c p b
    have hlost := s.workers.sum_set (fun w => w.stats.lost) p b.worker
    have hpassed : (s.putBench p b).passed = s.passed := rfl
    simp only [accounted, hpassed, lost]
    obtain heq | ⟨hcrashed, hle⟩ := hb.held_eq hfits
    · left
      simp only [bench] at heq
      simp only [putBench] at hput ⊢
      omega
    · right
      refine ⟨fun hcalm => ?_, ?_⟩
      · have hworker := hcalm.worker p
        rw [workers_putBench_same, hcrashed] at hworker
        cases hworker
      · simp only [bench] at hle
        simp only [putBench] at hput ⊢
        omega
  | @batcher _ b hb =>
    have hfits := sound.results.length_le
    rw [fitted.results] at hfits
    have hpassed : (s.putBatcherBench b).passed = b.passed := rfl
    have hbefore : s.passed = s.batcherBench.passed := rfl
    simp only [accounted, hpassed, hbefore, lost, held]
    obtain heq | ⟨hcrashed, hle⟩ := hb.held_eq hfits
    · left
      simp only [putBatcherBench]
      simp only [batcherBench] at heq ⊢
      omega
    · right
      refine ⟨fun hcalm => ?_, ?_⟩
      · have hbatcher : b.batcher.isCrashed = false := hcalm.batcher
        rw [hcrashed] at hbatcher
        cases hbatcher
      · simp only [putBatcherBench]
        simp only [batcherBench] at hle ⊢
        omega
  | coordinator hc =>
    obtain ⟨_, _, rfl⟩ := coordinatorStep?_frame hc
    exact .inl rfl
  | signal => exact .inl rfl
  | elapse => exact .inl rfl

end State

section

variable {c : Settings} {ms : List State.Move} {s : State}

/-- **Every message pulled is accounted for**, at every moment of every run. -/
theorem Run.accounted (run : Run (State.start c) ms s) :
    s.intake.stats.received ≤ s.accounted c ∧
      (s.Calm → s.intake.stats.received = s.accounted c) := by
  refine run.induction (motive := fun _ s => s.intake.stats.received ≤ s.accounted c ∧
    (s.Calm → s.intake.stats.received = s.accounted c)) ⟨Nat.zero_le _, fun hcalm => ?_⟩
    fun ms s m t run ⟨hle, hexact⟩ hm => ?_
  · have hbatcher := Batcher.held_of_calm c.capacity hcalm.batcher
    simp only [State.accounted, held, hbatcher, items_results_start]
    rfl
  · have hstep := step_of_step? hm
    obtain heq | ⟨hcrashed, hmore⟩ := hstep.accounted run.sound run.fitted
    · refine ⟨by omega, fun hcalm => ?_⟩
      have hexact := hexact (hstep.calm hcalm)
      omega
    · exact ⟨by omega, fun hcalm => absurd hcalm hcrashed⟩

/-- The hands of the stages, their queues and the batch hold only so much. -/
theorem Run.held_le (run : Run (State.start c) ms s) :
    s.held c ≤ 4 * c.capacity + max c.batchSize 1 + 3 := by
  have sound := run.sound
  have fitted := run.fitted
  have wired := run.wired
  have hintake : s.intake.held ≤ 1 := by
    unfold Intake.held
    cases s.intake.router.current <;> split <;> simp
  have hworker : ∀ p, (s.queue p).items.length + (s.workers.get p).held c.capacity ≤
      c.capacity + 1 := by
    intro p
    have hlen := (sound.queue p).length_le
    rw [fitted.queue] at hlen
    unfold Worker.held
    split
    · rename_i hcrashed
      have hclosed : (s.queue p).receiving = false := by
        rw [wired.queue_receiving, Worker.isOver_of_isCrashed hcrashed]
        rfl
      have hnone := (sound.queue p).length_of_closed hclosed
      omega
    · have hhand : (s.workers.get p).probing.length + (s.workers.get p).offering.length ≤ 1 := by
        unfold Worker.probing Worker.offering
        cases (s.workers.get p).phase <;> simp
      omega
  have hbatcher : s.results.items.length + s.batcher.held c.capacity <
      c.capacity + max c.batchSize 1 := by
    obtain ⟨es, proj⟩ := run.projected
    have hpending : s.batcher.batch.items.length < max c.batchSize 1 := proj.run.sizes.1
    have hlen := sound.results.length_le
    rw [fitted.results] at hlen
    unfold Batcher.held
    split
    · rename_i hcrashed
      have hclosed : s.results.receiving = false := by
        rw [wired.results_receiving, hcrashed]
        rfl
      have hnone := sound.results.length_of_closed hclosed
      omega
    · omega
  have haws := hworker .aws
  have hazure := hworker .azure
  have hgcp := hworker .gcp
  simp only [queue, PerProvider.get] at haws hazure hgcp
  simp only [held, Intake.queued, PerProvider.sum]
  omega

end

/-! ## Nothing is dropped for want of room -/

namespace State

variable {s t : State} {m : Move}

/-- The router does nothing with a source in hand but put it into its queue, if there is room. -/
theorem Step.of_sending (h : Step s m t) {p : Provider} {source : ResolvedSource}
    (hcurrent : s.intake.router.current = some (.sending p source))
    (hopen : (s.queue p).receiving = true) :
    ((∀ k, m ≠ .intake k) ∧ t.intake.router.current = some (.sending p source)) ∨
      m = .intake .enqueue ∧ (s.queue p).items.length < (s.queue p).capacity ∧
        (t.queue p).items = (s.queue p).items ++ [source] := by
  cases h with
  | intake hi =>
    cases hi with
    | malformed hready => simp [(Intake.phase_of_isListening hready).2] at hcurrent
    | asked hready => simp [(Intake.phase_of_isListening hready).2] at hcurrent
    | streamEnded hready => simp [(Intake.phase_of_isListening hready).2] at hcurrent
    | stopped hready => simp [(Intake.phase_of_isListening hready).2] at hcurrent
    | dropped _ hother => cases hcurrent.symm.trans hother
    | resolved _ hother => cases hcurrent.symm.trans hother
    | crashed _ hother => cases hcurrent.symm.trans hother
    | entered _ hother _ hroom =>
      cases hcurrent.symm.trans hother
      exact .inr ⟨rfl, hroom, congrArg Queue.items (PerProvider.get_set_same _ _ _)⟩
    | refused _ hother hclosed =>
      cases hcurrent.symm.trans hother
      cases hopen.symm.trans hclosed
  | coordinator hc =>
    obtain ⟨_, _, rfl⟩ := coordinatorStep?_frame hc
    exact .inl ⟨fun _ h => (by cases h), hcurrent⟩
  | _ => exact .inl ⟨fun _ h => (by cases h), hcurrent⟩

/-- A worker does nothing with a result in hand but put it on the result queue, if there is
room. -/
theorem Step.of_offering (h : Step s m t) {p : Provider} {r : ProbeResult}
    (hphase : (s.workers.get p).phase = .offering r) (hopen : s.results.receiving = true) :
    ((∀ k, m ≠ .worker p k) ∧ (t.workers.get p).phase = .offering r) ∨
      m = .worker p .offer ∧ s.results.items.length < s.results.capacity ∧
        t.results.items = s.results.items ++ [r] := by
  cases h with
  | @worker q _ b hb =>
    by_cases hqp : p = q
    · subst hqp
      cases hb with
      | took hother => cases hphase.symm.trans hother
      | probed hother => cases hphase.symm.trans hother
      | crashed hother => cases hphase.symm.trans hother
      | finished hother => cases hphase.symm.trans hother
      | entered hother _ hroom =>
        cases hphase.symm.trans hother
        exact .inr ⟨rfl, hroom, rfl⟩
      | refused _ hclosed => cases hopen.symm.trans hclosed
    · refine .inl ⟨fun k heq => ?_, ?_⟩
      · cases heq
        exact hqp rfl
      · rw [workers_putBench_other _ _ hqp]
        exact hphase
  | coordinator hc =>
    obtain ⟨_, _, rfl⟩ := coordinatorStep?_frame hc
    exact .inl ⟨fun _ h => (by cases h), hphase⟩
  | _ => exact .inl ⟨fun _ h => (by cases h), hphase⟩

end State

section

variable {c : Settings} {ms : List State.Move} {s : State}

/-- A queue refuses a source only because its worker has crashed. -/
theorem Run.crashed_of_queueClosed (run : Run (State.start c) ms s)
    (hrefused : .queueClosed ∈ s.intake.router.verdicts) :
    ∃ p, (s.workers.get p).isCrashed = true := by
  revert hrefused
  refine run.induction (motive := fun _ s => .queueClosed ∈ s.intake.router.verdicts →
    ∃ p, (s.workers.get p).isCrashed = true) (fun h => absurd h List.not_mem_nil)
    fun ms s m t run ih hm hrefused => ?_
  have hstep := step_of_step? hm
  -- a worker that has crashed stays so
  have stays : (∃ p, (s.workers.get p).isCrashed = true) →
      ∃ p, (t.workers.get p).isCrashed = true := by
    rintro ⟨p, hp⟩
    refine ⟨p, Bool.of_not_eq_false fun hcalm => ?_⟩
    rw [hstep.worker_calm hcalm] at hp
    cases hp
  cases hstep with
  | intake hi =>
    obtain ⟨vs, hverdicts, -, hclosed⟩ := hi.verdicts
    rw [hverdicts, List.mem_append] at hrefused
    rcases hrefused with hbefore | hnew
    · exact ih hbefore
    · obtain ⟨p, source, -, hrefuses⟩ := hclosed hnew
      refine ⟨p, Bool.of_not_eq_false fun hcalm => ?_⟩
      have hopen := run.wired.queue_open hcalm (by simp [Intake.isOver, hi.running])
      cases hopen.symm.trans hrefuses
  | coordinator hc =>
    obtain ⟨_, _, rfl⟩ := coordinatorStep?_frame hc
    exact ih hrefused
  | _ => exact stays (ih hrefused)

/-- How much is in flight in a pipeline, and what becomes of it. A batch size of zero counts as
one. -/
structure Bounded (c : Settings) (ms : List State.Move) (s : State) : Prop where
  /-- The bound. A result that finds the batcher crashed is given up by its worker. -/
  in_flight : (History.of ms).pulled.length ≤
    s.intake.stats.dropped + s.lost + s.passed.length +
      (4 * c.capacity + max c.batchSize 1 + 3)
  /-- What is in flight is in the hands of a stage, on a queue or in the batch. -/
  exact : s.Calm → (History.of ms).pulled.length =
    s.intake.stats.dropped + s.passed.length + s.held c
  queue : ∀ p, (s.queue p).items.length ≤ c.capacity
  results : s.results.items.length ≤ c.capacity
  /-- A source is put into its queue once there is room, and waits until then. -/
  router : ∀ p source, s.intake.router.current = some (.sending p source) →
    (s.workers.get p).isCrashed = false → ∀ m t, s.step? m = some t →
      ((∀ k, m ≠ .intake k) ∧ t.intake.router.current = some (.sending p source)) ∨
      m = .intake .enqueue ∧ (s.queue p).items.length < c.capacity ∧
        (t.queue p).items = (s.queue p).items ++ [source]
  closed : .queueClosed ∈ s.intake.router.verdicts → ∃ p, (s.workers.get p).isCrashed = true
  /-- So it is with a result. -/
  worker : ∀ p r, (s.workers.get p).phase = .offering r → s.batcher.isCrashed = false →
    ∀ m t, s.step? m = some t →
      ((∀ k, m ≠ .worker p k) ∧ (t.workers.get p).phase = .offering r) ∨
      m = .worker p .offer ∧ s.results.items.length < c.capacity ∧
        t.results.items = s.results.items ++ [r]
  lost : s.batcher.isCrashed = false → s.lost = 0

/-- **Work in flight is bounded**, at every moment of every run, and nothing is dropped because a
queue is full. -/
theorem Run.in_flight_bounded (run : Run (State.start c) ms s) : Bounded c ms s := by
  have sound := run.sound
  have fitted := run.fitted
  have wired := run.wired
  have hreceived := run.ledger.received
  obtain ⟨hle, hexact⟩ := run.accounted
  have hheld := run.held_le
  have hlost : s.batcher.isCrashed = false → s.lost = 0 := by
    intro hcalm
    simp only [State.lost, PerProvider.sum]
    have haws := (run.lined .aws).lost hcalm
    have hazure := (run.lined .azure).lost hcalm
    have hgcp := (run.lined .gcp).lost hcalm
    simp only [PerProvider.get] at haws hazure hgcp
    omega
  refine
    { in_flight := ?_
      exact := fun hcalm => ?_
      queue := fun p => ?_
      results := ?_
      router := fun p source hcurrent hcalm m t hm => ?_
      closed := run.crashed_of_queueClosed
      worker := fun p r hphase hcalm m t hm => ?_
      lost := hlost }
  · simp only [State.accounted] at hle
    omega
  · have hexact := hexact hcalm
    simp only [State.accounted, hlost hcalm.batcher] at hexact
    omega
  · rw [← fitted.queue p]
    exact (sound.queue p).length_le
  · rw [← fitted.results]
    exact sound.results.length_le
  · have hrunning : s.intake.isOver = false := by
      refine Bool.eq_false_iff.2 fun hover => ?_
      cases hcurrent.symm.trans (run.ledger.emptied hover)
    rw [← fitted.queue p]
    exact (step_of_step? hm).of_sending hcurrent (wired.queue_open hcalm hrunning)
  · rw [← fitted.results]
    exact (step_of_step? hm).of_offering hphase (by rw [wired.results_receiving, hcalm]; rfl)

end

/-- The sink hangs with the first message, and every place behind it fills up: as many messages as
there can be are in flight. -/
theorem in_flight_bounded_full : ∃ ms s,
    Run (State.start ⟨1, 1, 60000, 2, "status"⟩) ms s ∧ s.Calm ∧
    (History.of ms).pulled.length =
      s.intake.stats.dropped + s.lost + s.passed.length + (4 * 1 + max 1 1 + 3) ∧
    Bounded ⟨1, 1, 60000, 2, "status"⟩ ms s := by
  let source (p : Provider) := ResolvedSource.make (.known p) "5" "key" ⟨"7", none⟩
  let ms : List State.Move :=
    [.intake (.pull sampleMessage), .intake (.lookup (.ok (source .aws))), .intake .enqueue,
    .worker .aws .take, .worker .aws (.probed (.ok ())), .worker .aws .offer,
    .batcher (.receive default),
    .intake (.pull sampleMessage), .intake (.lookup (.ok (source .aws))), .intake .enqueue,
    .worker .aws .take, .worker .aws (.probed (.ok ())), .worker .aws .offer,
    .intake (.pull sampleMessage), .intake (.lookup (.ok (source .aws))), .intake .enqueue,
    .worker .aws .take, .worker .aws (.probed (.ok ())),
    .intake (.pull sampleMessage), .intake (.lookup (.ok (source .aws))), .intake .enqueue,
    .intake (.pull sampleMessage), .intake (.lookup (.ok (source .azure))), .intake .enqueue,
    .worker .azure .take, .worker .azure (.probed (.ok ())),
    .intake (.pull sampleMessage), .intake (.lookup (.ok (source .azure))), .intake .enqueue,
    .intake (.pull sampleMessage), .intake (.lookup (.ok (source .gcp))), .intake .enqueue,
    .worker .gcp .take, .worker .gcp (.probed (.ok ())),
    .intake (.pull sampleMessage), .intake (.lookup (.ok (source .gcp))), .intake .enqueue,
    .intake (.pull sampleMessage), .intake (.lookup (.ok (source .gcp)))]
  have hend : ((ms.foldlM State.step? (.start ⟨1, 1, 60000, 2, "status"⟩)).map fun s =>
      (s.failure?.isNone, s.intake.stats.dropped + s.lost + s.passed.length)) =
      some (true, 1) := by decide +kernel
  obtain ⟨s, hs, hobserved⟩ := Option.map_eq_some_iff.1 hend
  obtain ⟨hcalm, hgone⟩ := Prod.mk.inj hobserved
  have run := Run.of_foldlM hs
  exact ⟨ms, s, run, (failure?_eq_none_iff s).1 (Option.isNone_iff_eq_none.1 hcalm),
    by rw [hgone]; rfl, run.in_flight_bounded⟩

end Availability.Flow

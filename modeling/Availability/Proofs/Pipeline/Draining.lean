import Availability.Proofs.Pipeline.Closing
import Availability.Proofs.Pipeline.Shutdown

/-!
# A drain comes to its end

Stages wait for each other in one direction only: the router for room that a worker makes, a
worker for room that the batcher makes, and the batcher for nobody but the sink. So once the intake
takes in nothing more, some stage can go on until all have come to an end, whichever of them crash
on the way; and whatever is still on its way has only so many stages left to cross.

* `Outside`: how the calls of the stages may end.
* `State.effort`: how much is left to do; `Step.effort_lt`: every step of a drain makes it less.
* `canAdvance_of_not_allOver`: a stage can go on as long as one has not come to its end.
* `DrainsOut`, `Run.drains_out`: a drain takes at most `effort` steps, and leaves no stage at work.
-/

namespace Availability.Flow

open State

/-! ## Calls that end -/

/-- How the calls of the stages may end. -/
structure Outside where
  lookup : SourceRequest → Principal → Outcome ResolvedSource → Prop
  probe : Provider → ResolvedSource → Outcome Unit → Prop
  sink : List OutboundMessage → Outcome Unit → Prop

namespace Outside

/-- Every call ends, with a result or by a crash. -/
structure Answers (outside : Outside) : Prop where
  lookup : ∀ request identity, ∃ o, outside.lookup request identity o
  probe : ∀ p source, ∃ o, outside.probe p source o
  sink : ∀ messages, ∃ o, outside.sink messages o

/-- The moves by which a drain goes on: all of the stages, but an empty tick, and the end of the
drain, but not by its deadline. Calls end as the outside lets them. -/
def Advances (outside : Outside) (s : State) : State.Move → Prop
  | .intake (.lookup answer) => ∃ request identity,
    s.intake.router.current = some (.resolving request identity) ∧
      outside.lookup request identity (.result answer)
  | .intake (.crash text) => ∃ request identity,
    s.intake.router.current = some (.resolving request identity) ∧
      outside.lookup request identity (.crash text)
  | .intake _ => True
  | .worker p (.probed answer) => ∃ source,
    (s.workers.get p).phase = .probing source ∧ outside.probe p source (.result answer)
  | .worker p (.crash text) => ∃ source,
    (s.workers.get p).phase = .probing source ∧ outside.probe p source (.crash text)
  | .worker _ _ => True
  | .batcher (.sent answer) => ∃ messages trigger,
    s.batcher.phase = .flushing messages trigger ∧ outside.sink messages (.result answer)
  | .batcher (.crash text) => ∃ messages trigger,
    s.batcher.phase = .flushing messages trigger ∧ outside.sink messages (.crash text)
  | .batcher .tick => s.batcherBench.pending ≠ []
  | .batcher _ => True
  | .coordinator .finish => True
  | _ => False

end Outside

namespace State

/-- The moves that a drain takes no notice of. -/
def Idles (s : State) : Move → Prop
  | .signal => True
  | .elapse _ => True
  | .batcher .tick => s.batcherBench.pending = []
  | _ => False

end State

/-- What can happen from one state to another without the drain being given up on, and by how many
moves it went on. -/
inductive Drain (outside : Outside) : State → Nat → State → Prop where
  | nil (s : State) : Drain outside s 0 s
  | advance {s t u : State} {m : State.Move} {n : Nat} :
      s.step? m = some t → outside.Advances s m → Drain outside t n u → Drain outside s (n + 1) u
  | idle {s t u : State} {m : State.Move} {n : Nat} :
      s.step? m = some t → s.Idles m → Drain outside t n u → Drain outside s n u

/-! ## What is left to do -/

/-- The sum of a number for each provider. -/
def PerProvider.sum {α : Type} (f : α → Nat) (x : PerProvider α) : Nat :=
  f x.aws + f x.azure + f x.gcp

theorem PerProvider.sum_set {α : Type} (f : α → Nat) (x : PerProvider α) (p : Provider) (a : α) :
    (x.set p a).sum f + f (x.get p) = x.sum f + f a := by
  cases p <;> simp only [sum, set, get] <;> omega

/-- How many sources wait in the queues of the providers. -/
def Intake.queued (i : Intake) : Nat := i.router.queues.sum fun q => q.items.length

/-- How much the intake has to do. A message that is looked up counts 9, a source in hand 8, in a
queue 6 and in a probe 6, a result in hand 5, on the result queue 3 and in the batch 2: always more
than what it turns into next and the stage that waits again. -/
def Intake.effort (i : Intake) : Nat :=
  if i.isOver then 0
  else
    match i.router.current with
    | some (.resolving _ _) => 9
    | some (.sending _ _) => 8
    | _ => 1

def Worker.effort (w : Worker) : Nat :=
  match w.phase with
  | .waiting => 1
  | .probing _ => 6
  | .offering _ => 5
  | _ => 0

def Batcher.effort (b : Batcher) : Nat :=
  2 * b.batch.items.length +
    match b.phase with
    | .waiting => 1
    | .flushing _ _ => 2
    | _ => 0

def Coordinator.effort (c : Coordinator) : Nat :=
  match c.phase with
  | .done _ => 0
  | _ => 1

/-- How much a pipeline has to do that takes in nothing more. -/
def State.effort (s : State) : Nat :=
  s.intake.effort + 6 * s.intake.queued + s.workers.sum Worker.effort +
    3 * s.results.items.length + s.batcher.effort + s.coordinator.effort

theorem Intake.effort_of_running {i : Intake} (h : i.phase = .running) :
    i.effort = match i.router.current with
      | some (.resolving _ _) => 9
      | some (.sending _ _) => 8
      | _ => 1 := by
  simp [effort, isOver, h]

theorem Intake.effort_settle {i : Intake} (h : i.phase = .running) (r : Router) (v : Verdict) :
    (i.settle r v).effort = 1 :=
  effort_of_running h

theorem Intake.queued_enqueue (i : Intake) (p : Provider) (source : ResolvedSource) :
    (i.enqueue p source).queued = i.queued + 1 := by
  have hsum := PerProvider.sum_set (fun q : Queue ResolvedSource => q.items.length)
    i.router.queues p ((i.router.queues.get p).push source)
  simp only [Queue.items_push, List.length_append, List.length_singleton] at hsum
  simp only [queued, enqueue, settle, Router.settle]
  omega

theorem Intake.Step.effort_lt {i j : Intake} {m : Intake.Move} (h : Intake.Step i m j)
    (hcancelled : i.cancelled = true) :
    j.effort + 6 * j.queued < i.effort + 6 * i.queued := by
  have hbefore := effort_of_running h.running
  cases h with
  | malformed _ hno => simp [hno] at hcancelled
  | asked _ hno => simp [hno] at hcancelled
  | streamEnded _ hno => simp [hno] at hcancelled
  | stopped hready =>
    simp only [(phase_of_isListening hready).2] at hbefore
    have hafter : (i.finish .ended).effort = 0 := rfl
    have hqueued : (i.finish .ended).queued = i.queued := rfl
    omega
  | @dropped _ _ v _ hphase hcurrent =>
    simp only [hcurrent] at hbefore
    have hafter := effort_settle hphase i.router v
    have hqueued : (i.settle i.router v).queued = i.queued := rfl
    omega
  | @resolved _ _ p source hphase hcurrent =>
    simp only [hcurrent] at hbefore
    have hafter : (i.hold (.sending p source)).effort = 8 := effort_of_running hphase
    have hqueued : (i.hold (.sending p source)).queued = i.queued := rfl
    omega
  | @crashed _ _ text _ hcurrent =>
    simp only [hcurrent] at hbefore
    have hafter : (i.finish (.crashed text)).effort = 0 := rfl
    have hqueued : (i.finish (.crashed text)).queued = i.queued := rfl
    omega
  | @entered p source hphase hcurrent =>
    simp only [hcurrent] at hbefore
    have hafter : (i.enqueue p source).effort = 1 := effort_settle hphase _ _
    have hqueued := i.queued_enqueue p source
    omega
  | refused hphase hcurrent =>
    simp only [hcurrent] at hbefore
    have hafter := effort_settle hphase i.router .queueClosed
    have hqueued : (i.settle i.router .queueClosed).queued = i.queued := rfl
    omega

theorem Worker.Step.effort_lt {b b' : Worker.Bench} {m : Worker.Move} (h : Worker.Step b m b') :
    6 * b'.inbox.items.length + b'.worker.effort + 3 * b'.outbox.items.length <
      6 * b.inbox.items.length + b.worker.effort + 3 * b.outbox.items.length := by
  cases h with
  | took hphase hitems =>
    simp only [Worker.effort, Worker.begin, hphase, hitems, List.length_cons]
    omega
  | probed hphase => simp [Worker.effort, Worker.record, hphase]
  | crashed hphase =>
    simp only [Worker.effort, Bench.leave, Worker.turn, Queue.close, Queue.dropSender, hphase,
      List.length_nil]
    omega
  | entered hphase =>
    simp only [Worker.effort, Worker.turn, hphase, Queue.items_push, List.length_append,
      List.length_singleton]
    omega
  | refused hphase => simp [Worker.effort, Worker.lose, hphase]
  | finished hphase =>
    simp only [Worker.effort, Bench.leave, Worker.turn, Queue.close, Queue.dropSender, hphase,
      List.length_nil]
    omega

theorem Batcher.Bench.Step.effort_lt {b b' : Batcher.Bench} {m : Batcher.Move}
    (h : Batcher.Bench.Step b (.own m) b') (hm : m = .tick → b.pending ≠ []) :
    3 * b'.inbox.items.length + b'.batcher.effort <
      3 * b.inbox.items.length + b.batcher.effort := by
  have hsome : b.pending ≠ [] → 0 < b.batcher.batch.items.length := List.length_pos_iff.2
  cases h with
  | gathered hphase hitems =>
    simp only [Batcher.effort, gather, pending, Bench.advance, hphase, hitems, List.length_append,
      List.length_cons, List.length_nil]
    omega
  | filled hphase hitems =>
    simp only [Batcher.effort, launch_phase, launch_items, hphase, hitems, List.length_cons,
      List.length_nil]
    simp only [launch, Bench.advance]
    omega
  | idled _ _ hnone => exact absurd hnone (hm rfl)
  | flushed hphase _ hpending =>
    have hsome := hsome hpending
    simp only [Batcher.effort, launch_phase, launch_items, hphase, List.length_nil]
    simp only [launch, ticked]
    omega
  | finished hphase => simp [Batcher.effort, hphase]
  | drained hphase _ hpending =>
    have hsome := hsome hpending
    simp only [Batcher.effort, launch_phase, launch_items, hphase, List.length_nil]
    simp only [launch]
    omega
  | @answered _ trigger _ hphase =>
    by_cases hlast : trigger = .shutdown <;> simp [Batcher.effort, hphase, hlast]
  | crashed hphase =>
    simp only [Batcher.effort, Queue.close, hphase, List.length_nil]
    omega

namespace State

variable {outside : Outside} {s t : State} {m : Move}

theorem effort_putBench (s : State) (p : Provider) (b : Worker.Bench) :
    (s.putBench p b).effort + (6 * (s.queue p).items.length + (s.workers.get p).effort +
      3 * s.results.items.length) =
    s.effort + (6 * b.inbox.items.length + b.worker.effort + 3 * b.outbox.items.length) := by
  have hworkers := s.workers.sum_set Worker.effort p b.worker
  have hqueues := s.intake.router.queues.sum_set (fun q => q.items.length) p b.inbox
  have hintake : (s.putBench p b).intake.effort = s.intake.effort := rfl
  simp only [effort, hintake, Intake.queued, queue] at hqueues ⊢
  simp only [putBench]
  omega

/-- **A drain gets on**: each move by which it does leaves less to do. -/
theorem Step.effort_lt (h : Step s m t) (hadvances : outside.Advances s m)
    (hcancelled : s.intake.cancelled = true) : t.effort < s.effort := by
  cases h with
  | intake hi =>
    have hless := hi.effort_lt hcancelled
    simp only [effort]
    omega
  | @worker p _ b hb =>
    have hless := hb.effort_lt
    have hput := s.effort_putBench p b
    simp only [bench] at hless
    omega
  | @batcher m b hb =>
    have hless := hb.effort_lt fun hm => by subst hm; exact hadvances
    simp only [batcherBench] at hless
    simp only [effort, putBatcherBench]
    omega
  | @coordinator k _ hc =>
    cases coordinatorStep?_eq_some_iff.1 hc with
    | finished hphase =>
      simp only [effort, endWith, Coordinator.effort, hphase]
      omega
    | _ => exact hadvances.elim
  | signal => exact hadvances.elim
  | elapse => exact hadvances.elim

/-- What a drain takes no notice of leaves as much to do as there was. -/
theorem Step.effort_eq (h : Step s m t) (hidles : s.Idles m) : t.effort = s.effort := by
  cases h with
  | batcher hb =>
    cases hb with
    | idled => rfl
    | flushed _ _ hpending => exact absurd hidles hpending
    | _ => exact hidles.elim
  | signal => rfl
  | elapse => rfl
  | _ => exact hidles.elim

/-! ## A stage can go on -/

/-- What the queues were made for, and that the router holds no message it is done with. -/
structure Fitted (c : Settings) (s : State) : Prop where
  queue : ∀ p, (s.queue p).capacity = c.capacity
  results : s.results.capacity = c.capacity
  current : ∀ v, s.intake.router.current ≠ some (.finished v)

theorem fitted_start (c : Settings) : Fitted c (start c) := by
  refine ⟨fun p => ?_, ?_, fun v => nofun⟩
  · cases p <;> rfl
  · simp only [start]
    split <;> rfl

theorem Fitted.putBench {c : Settings} (h : Fitted c s) {p : Provider} {b : Worker.Bench}
    (hin : b.inbox.capacity = (s.queue p).capacity)
    (hout : b.outbox.capacity = s.results.capacity) : Fitted c (s.putBench p b) := by
  refine ⟨?_, hout.trans h.results, h.current⟩
  exact forall_putBench s b (P := fun _ queue _ => queue.capacity = c.capacity)
    (hin.trans (h.queue p)) fun q _ => h.queue q

theorem Fitted.step {c : Settings} (h : Fitted c s) (hstep : Step s m t) : Fitted c t := by
  cases hstep with
  | intake hi =>
    cases hi with
    | @entered p source _ _ _ _ =>
      refine ⟨fun q => ?_, h.results, nofun⟩
      by_cases hqp : q = p
      · subst hqp
        exact (congrArg Queue.capacity (PerProvider.get_set_same _ _ _)).trans (h.queue q)
      · exact (congrArg Queue.capacity (PerProvider.get_set_other _ _ hqp)).trans (h.queue q)
    | streamEnded =>
      exact ⟨fun q => (congrArg Queue.capacity (PerProvider.get_map _ _ _)).trans (h.queue q),
        h.results, nofun⟩
    | stopped =>
      exact ⟨fun q => (congrArg Queue.capacity (PerProvider.get_map _ _ _)).trans (h.queue q),
        h.results, nofun⟩
    | crashed =>
      exact ⟨fun q => (congrArg Queue.capacity (PerProvider.get_map _ _ _)).trans (h.queue q),
        h.results, nofun⟩
    | _ => exact ⟨h.queue, h.results, nofun⟩
  | worker hb => cases hb <;> exact h.putBench rfl rfl
  | batcher hb => cases hb <;> exact ⟨h.queue, h.results, h.current⟩
  | coordinator hc =>
    obtain ⟨_, _, rfl⟩ := coordinatorStep?_frame hc
    exact ⟨h.queue, h.results, h.current⟩
  | signal => exact ⟨h.queue, h.results, h.current⟩
  | elapse => exact ⟨h.queue, h.results, h.current⟩

/-- A move by which the drain goes on is possible. -/
def CanAdvance (outside : Outside) (s : State) : Prop :=
  ∃ m, outside.Advances s m ∧ (s.step? m).isSome = true

section

variable (hanswers : outside.Answers)
include hanswers

theorem canAdvance_of_resolving {request : SourceRequest} {identity : Principal}
    (hphase : s.intake.phase = .running)
    (hcurrent : s.intake.router.current = some (.resolving request identity)) :
    CanAdvance outside s := by
  obtain ⟨o, ho⟩ := hanswers.lookup request identity
  cases o with
  | result answer =>
    refine ⟨.intake (.lookup answer), ⟨request, identity, hcurrent, ho⟩, ?_⟩
    simp [step?, Intake.step?, Intake.isOver, hphase, Router.step?, hcurrent]
  | crash text =>
    refine ⟨.intake (.crash text), ⟨request, identity, hcurrent, ho⟩, ?_⟩
    simp [step?, Intake.step?, hphase, hcurrent]

theorem canAdvance_of_probing {p : Provider} {source : ResolvedSource}
    (hphase : (s.workers.get p).phase = .probing source) : CanAdvance outside s := by
  obtain ⟨o, ho⟩ := hanswers.probe p source
  cases o with
  | result answer =>
    refine ⟨.worker p (.probed answer), ⟨source, hphase, ho⟩, ?_⟩
    simp [step?, Worker.step?, bench, hphase]
  | crash text =>
    refine ⟨.worker p (.crash text), ⟨source, hphase, ho⟩, ?_⟩
    simp [step?, Worker.step?, bench, hphase]

theorem canAdvance_of_flushing {messages : List OutboundMessage} {trigger : FlushTrigger}
    (hphase : s.batcher.phase = .flushing messages trigger) : CanAdvance outside s := by
  obtain ⟨o, ho⟩ := hanswers.sink messages
  cases o with
  | result answer =>
    refine ⟨.batcher (.sent answer), ⟨messages, trigger, hphase, ho⟩, ?_⟩
    simp [step?, Batcher.step?, batcherBench, hphase]
  | crash text =>
    refine ⟨.batcher (.crash text), ⟨messages, trigger, hphase, ho⟩, ?_⟩
    simp [step?, Batcher.step?, batcherBench, hphase]

/-- A batcher at work goes on when a result waits for it, or its queue is at its end. -/
theorem canAdvance_of_batcher (hwork : s.batcher.isOver = false)
    (h : s.results.items ≠ [] ∨ s.results.senders = 0) : CanAdvance outside s := by
  cases hphase : s.batcher.phase with
  | waiting =>
    cases hitems : s.results.items with
    | cons r rest =>
      refine ⟨.batcher (.receive default), trivial, ?_⟩
      simp only [step?, Batcher.step?, batcherBench, hphase, Queue.pop?, hitems, Option.isSome_map]
      split <;> rfl
    | nil =>
      have hsenders := h.resolve_left fun hne => hne hitems
      have hend : s.results.atEnd = true := by simp [Queue.atEnd, hitems, hsenders]
      refine ⟨.batcher .drain, trivial, ?_⟩
      simp only [step?, Batcher.step?, batcherBench, hphase, if_pos hend, Option.isSome_map]
      split <;> rfl
  | flushing => exact canAdvance_of_flushing hanswers hphase
  | ended => simp [Batcher.isOver, hphase] at hwork
  | crashed => simp [Batcher.isOver, hphase] at hwork

/-- A worker at work goes on when a source waits for it, or the intake is over. If it waits for
room itself, the batcher goes on. -/
theorem canAdvance_of_worker {c : Settings} (wired : Wired s) (fitted : Fitted c s)
    (hcapacity : 1 ≤ c.capacity) {p : Provider} (hwork : (s.workers.get p).isOver = false)
    (h : (s.queue p).items ≠ [] ∨ s.intake.isOver = true) : CanAdvance outside s := by
  cases hphase : (s.workers.get p).phase with
  | waiting =>
    cases hitems : (s.queue p).items with
    | cons source rest =>
      refine ⟨.worker p .take, trivial, ?_⟩
      simp [step?, Worker.step?, bench, hphase, Queue.pop?, hitems]
    | nil =>
      have hover := h.resolve_left fun hne => hne hitems
      have hsenders : (s.queue p).senders = 0 := by rw [wired.queue_senders, if_pos hover]
      refine ⟨.worker p .finish, trivial, ?_⟩
      simp [step?, Worker.step?, bench, hphase, Queue.atEnd, hitems, hsenders]
  | probing => exact canAdvance_of_probing hanswers hphase
  | offering r =>
    cases hoffer : s.results.offer r with
    | entered q =>
      refine ⟨.worker p .offer, trivial, ?_⟩
      simp [step?, Worker.step?, bench, hphase, hoffer]
    | refused =>
      refine ⟨.worker p .offer, trivial, ?_⟩
      simp [step?, Worker.step?, bench, hphase, hoffer]
    | waits =>
      obtain ⟨hopen, hfull⟩ := (Queue.offer_waits_iff _ _).1 hoffer
      rw [fitted.results] at hfull
      have hitems : s.results.items ≠ [] := List.length_pos_iff.1 (by omega)
      -- the batcher has neither crashed nor ended, since this worker still holds its queue
      have hbatcher : s.batcher.isOver = false := by
        rw [wired.results_receiving, Bool.not_eq_true'] at hopen
        refine Bool.eq_false_iff.2 fun hover => ?_
        have hnone := wired.batcher_last (.inl (Batcher.ended_of_over hover hopen))
        have hsome := atWork_pos hwork
        omega
      exact canAdvance_of_batcher hanswers hbatcher (.inl hitems)
  | ended => simp [Worker.isOver, hphase] at hwork
  | crashed => simp [Worker.isOver, hphase] at hwork

/-- An intake at work that has been told to stop goes on. If the router waits for room, the worker
does. -/
theorem canAdvance_of_intake {c : Settings} (wired : Wired s) (fitted : Fitted c s)
    (hcapacity : 1 ≤ c.capacity) (hcancelled : s.intake.cancelled = true)
    (hwork : s.intake.isOver = false) : CanAdvance outside s := by
  cases hcurrent : s.intake.router.current with
  | none =>
    refine ⟨.intake .stop, trivial, ?_⟩
    simp [step?, Intake.step?, Intake.isListening, hwork, hcurrent, hcancelled]
  | some dispatch =>
    cases dispatch with
    | resolving =>
      exact canAdvance_of_resolving hanswers (Intake.phase_of_not_isOver hwork) hcurrent
    | finished v => exact absurd hcurrent (fitted.current v)
    | sending p source =>
      cases hoffer : (s.queue p).offer source with
      | entered q =>
        refine ⟨.intake .enqueue, trivial, ?_⟩
        rw [queue] at hoffer
        simp [step?, Intake.step?, hwork, Router.step?, hcurrent, hoffer]
      | refused =>
        refine ⟨.intake .enqueue, trivial, ?_⟩
        rw [queue] at hoffer
        simp [step?, Intake.step?, hwork, Router.step?, hcurrent, hoffer]
      | waits =>
        -- a full queue that is still open has a worker with something to take
        obtain ⟨hopen, hfull⟩ := (Queue.offer_waits_iff _ _).1 hoffer
        rw [fitted.queue] at hfull
        have hitems : (s.queue p).items ≠ [] := List.length_pos_iff.1 (by omega)
        rw [wired.queue_receiving, Bool.not_eq_true'] at hopen
        exact canAdvance_of_worker hanswers wired fitted hcapacity hopen (.inl hitems)

/-- **A drain has no deadlock**: as long as a stage is at work, one can go on. -/
theorem canAdvance_of_not_allOver {c : Settings} (wired : Wired s) (fitted : Fitted c s)
    (hcapacity : 1 ≤ c.capacity) (hcancelled : s.intake.cancelled = true)
    (hwork : s.allOver = false) : CanAdvance outside s := by
  by_cases hintake : s.intake.isOver = true
  · by_cases hworkers : ∀ p, (s.workers.get p).isOver = true
    · have hsenders : s.results.senders = 0 :=
        wired.results_senders.trans ((atWork_eq_zero_iff s).2 hworkers)
      have hbatcher : s.batcher.isOver = false := by
        refine Bool.eq_false_iff.2 fun hbatcher => ?_
        rw [(allOver_iff s).2 ⟨hintake, hworkers, hbatcher⟩] at hwork
        cases hwork
      exact canAdvance_of_batcher hanswers hbatcher (.inr hsenders)
    · obtain ⟨p, hp⟩ := Classical.not_forall.1 hworkers
      exact canAdvance_of_worker hanswers wired fitted hcapacity (Bool.eq_false_iff.2 hp)
        (.inr hintake)
  · exact canAdvance_of_intake hanswers wired fitted hcapacity hcancelled
      (Bool.eq_false_iff.2 hintake)

end

end State

/-- The capacity of the queues, at every moment of every run. -/
theorem Run.fitted {c : Settings} {ms : List State.Move} {s : State}
    (run : Run (State.start c) ms s) : Fitted c s :=
  run.induction (motive := fun _ s => Fitted c s) (fitted_start c)
    fun _ _ _ _ _ h hm => h.step (step_of_step? hm)

/-- The intake has been told to stop once the drain has begun. -/
theorem Run.cancelled {c : Settings} {ms : List State.Move} {s : State}
    (run : Run (State.start c) ms s) (hbegun : s.coordinator.phase ≠ .watching) :
    s.intake.cancelled = true := by
  have steered := run.steered
  generalize s.coordinator.phase = phase at steered hbegun
  cases steered with
  | watching => exact absurd rfl hbegun
  | _ => assumption

/-! ## The end of a drain -/

section

variable {outside : Outside} {s t : State} {n : Nat}

theorem Drain.run (drain : Drain outside s n t) : ∃ ms, Run s ms t := by
  induction drain with
  | nil s => exact ⟨[], .nil s⟩
  | advance hm _ _ ih =>
    obtain ⟨ms, run⟩ := ih
    exact ⟨_, .cons hm run⟩
  | idle hm _ _ ih =>
    obtain ⟨ms, run⟩ := ih
    exact ⟨_, .cons hm run⟩

theorem State.Step.cancelled {m : State.Move} (h : Step s m t)
    (hcancelled : s.intake.cancelled = true) : t.intake.cancelled = true := by
  obtain ⟨k, rfl, hk⟩ | ⟨-, -, hsame⟩ := h.coordinator_cases
  · cases hk with
    | sawSignal => rfl
    | sawExit => rfl
    | _ => exact hcancelled
  · exact hsame.trans hcancelled

/-- **A drain takes so many moves** and no more. -/
theorem Drain.bounded (drain : Drain outside s n t) (hcancelled : s.intake.cancelled = true) :
    n + t.effort ≤ s.effort := by
  -- the intake takes in nothing more, or there would be no end to what is left
  induction drain with
  | nil => omega
  | advance hm hadvances _ ih =>
    have hstep := step_of_step? hm
    have hless := hstep.effort_lt hadvances hcancelled
    have hrest := ih (hstep.cancelled hcancelled)
    omega
  | idle hm hidles _ ih =>
    have hstep := step_of_step? hm
    have hsame := hstep.effort_eq hidles
    have hrest := ih (hstep.cancelled hcancelled)
    omega

theorem Drain.cancelled (drain : Drain outside s n t) (hcancelled : s.intake.cancelled = true) :
    t.intake.cancelled = true := by
  induction drain with
  | nil => exact hcancelled
  | advance hm _ _ ih => exact ih ((step_of_step? hm).cancelled hcancelled)
  | idle hm _ _ ih => exact ih ((step_of_step? hm).cancelled hcancelled)

theorem State.drained_congr (reason : Reason) (hintake : t.intake = s.intake)
    (hworkers : t.workers = s.workers) (hbatcher : t.batcher = s.batcher) :
    t.drained reason = s.drained reason := by
  simp only [drained, failure?, report, hintake, hworkers, hbatcher]

/-- A drain that is not given up on lasts until it comes to what its stages came to. -/
theorem Drain.lasts (drain : Drain outside s n t) {reason : Reason} {deadline : Nat}
    (hphase : s.coordinator.phase = .draining reason deadline) :
    t.coordinator.phase = .draining reason deadline ∨ t.result? = some (t.drained reason) := by
  induction drain with
  | nil => exact .inl hphase
  | @advance s u t m _ hm hadvances rest ih =>
    obtain ⟨k, rfl, hk⟩ | ⟨-, hsame, -⟩ := (step_of_step? hm).coordinator_cases
    · cases hk with
      | @finished reason' _ hphase' hover =>
        obtain ⟨rfl, -⟩ := CoordinatorPhase.draining.inj (hphase.symm.trans hphase')
        obtain ⟨ms, run⟩ := rest.run
        obtain ⟨hintake, hworkers, hbatcher⟩ := quiet_of_done run rfl hover
        refine .inr ((result?_of_done run rfl).trans (congrArg some ?_))
        exact (drained_congr reason hintake hworkers hbatcher).symm
      | _ => exact hadvances.elim
    · exact ih (by rw [hsame, hphase])
  | @idle s u t m _ hm hidles _ ih =>
    obtain ⟨k, rfl, -⟩ | ⟨-, hsame, -⟩ := (step_of_step? hm).coordinator_cases
    · exact hidles.elim
    · exact ih (by rw [hsame, hphase])

end

/-- A drain comes to its end from `s` on, if it is given the time. -/
structure DrainsOut (outside : Outside) (s : State) : Prop where
  goes_on : s.allOver = false → CanAdvance outside s
  bounded : ∀ n t, Drain outside s n t → n + t.effort ≤ s.effort
  leaves_none : ∀ n t, Drain outside s n t → ¬ CanAdvance outside t →
    t.allOver = true ∧ ∃ r, t.result? = some r
  /-- It then returns what the stages came to, as if there were no deadline. -/
  returns : ∀ reason deadline, s.coordinator.phase = .draining reason deadline → ∀ n t,
    Drain outside s n t → ¬ CanAdvance outside t → t.result? = some (t.drained reason)

/-- **A drain comes to its end** from every state of every run, when all calls come back. -/
theorem Run.drains_out {c : Settings} {ms : List State.Move} {s : State} {outside : Outside}
    (run : Run (State.start c) ms s) (hbegun : s.coordinator.phase ≠ .watching)
    (hcapacity : 1 ≤ c.capacity) (hanswers : outside.Answers) : DrainsOut outside s := by
  have hcancelled := run.cancelled hbegun
  -- once all stages are over the coordinator itself goes on
  have finish_can : ∀ t : State, t.allOver = true → ∀ reason deadline,
      t.coordinator.phase = .draining reason deadline → CanAdvance outside t := by
    intro t hover reason deadline hphase
    have hstep := coordinatorStep?_eq_some_iff.2 (.finished hphase hover)
    exact ⟨.coordinator .finish, trivial, Option.isSome_iff_exists.2 ⟨_, hstep⟩⟩
  have leaves_none : ∀ n t, Drain outside s n t → ¬ CanAdvance outside t → t.allOver = true := by
    intro n t drain hstuck
    obtain ⟨more, rest⟩ := drain.run
    have after := run.append rest
    by_cases hover : t.allOver = true
    · exact hover
    · exact absurd (canAdvance_of_not_allOver hanswers after.wired after.fitted hcapacity
        (drain.cancelled hcancelled) (Bool.eq_false_iff.2 hover)) hstuck
  refine ⟨canAdvance_of_not_allOver hanswers run.wired run.fitted hcapacity hcancelled,
    fun n t drain => drain.bounded hcancelled, fun n t drain hstuck => ?_,
    fun reason deadline hphase n t drain hstuck => ?_⟩
  · have hover := leaves_none n t drain hstuck
    refine ⟨hover, ?_⟩
    obtain ⟨more, rest⟩ := drain.run
    have steered := (run.append rest).steered
    cases hphase : t.coordinator.phase with
    | watching =>
      rw [hphase] at steered
      cases steered with
      | watching _ _ hno =>
        rw [drain.cancelled hcancelled] at hno
        cases hno
    | draining reason deadline => exact absurd (finish_can t hover reason deadline hphase) hstuck
    | done r => exact ⟨r, by simp [result?, hphase]⟩
  · rcases drain.lasts hphase with hstill | hresult
    · exact absurd (finish_can t (leaves_none n t drain hstuck) _ _ hstill) hstuck
    · exact hresult

theorem drains_out_blocked : ∃ (outside : Outside) (ms : List State.Move) (s : State),
    Run (State.start ⟨1, 100, 60000, 2, "status"⟩) ms s ∧ s.coordinator.phase ≠ .watching ∧
      outside.Answers ∧ (∃ p source, s.intake.router.current = some (.sending p source) ∧
        (s.queue p).offer source = .waits) ∧ DrainsOut outside s := by
  obtain ⟨ms, s, prompt, -, ⟨deadline, hphase⟩, hwaits⟩ := exists_blocked_run
  have hbegun : s.coordinator.phase ≠ .watching := by simp [hphase]
  let outside : Outside :=
    { lookup := fun _ identity o =>
        o = .result (.ok (.make (.known .aws) "5" "key" identity))
      probe := fun _ _ o => o = .result (.ok ()) ∨ o = .result (.error (.probe "aws" "refused"))
      sink := fun _ o => o = .result (.ok ()) ∨ o = .crash "closed" }
  have hanswers : outside.Answers :=
    ⟨fun _ _ => ⟨_, rfl⟩, fun _ _ => ⟨_, .inl rfl⟩, fun _ => ⟨_, .inl rfl⟩⟩
  exact ⟨outside, ms, s, prompt.run, hbegun, hanswers, hwaits,
    prompt.run.drains_out hbegun (by decide) hanswers⟩

end Availability.Flow

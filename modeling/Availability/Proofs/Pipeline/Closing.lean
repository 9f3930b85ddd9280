import Availability.Proofs.Pipeline.Ending

/-!
# Queues close after their producers

A queue closes when the stages at one of its ends come to an end, and they do so in order: the
router lets go of the providers' queues when the intake is over, a worker ends after that, and the
batcher after all workers. So as long as nothing crashes, whoever has something to put into a queue
finds it open, whenever and however the pipeline is shut down.

* `Run.tallied`: what a pipeline counts as dropped are the verdicts of its router.
* `Orderly`, `Run.closes_in_order`: which queues are closed, and that none refuses anything.
-/

namespace Availability.Flow

open Measurement (touched)

/-! ## What is counted as dropped -/

theorem Verdict.counter_eq_dropped_iff (v : Verdict) (reason : DropReason) :
    v.counter = .requestsDropped reason ↔ v.dropReason? = some reason := by
  cases v <;> simp [counter, dropReason?]

theorem touched_append (c : Counter) (xs ys : List Measurement) :
    touched c (xs ++ ys) = (touched c xs || touched c ys) :=
  List.any_append

theorem touched_append_other {c : Counter} {xs ys : List Measurement} (h : touched c ys = false) :
    touched c (xs ++ ys) = touched c xs := by
  rw [touched_append, h, Bool.or_false]

/-- All that is counted as dropped, the router has counted, once for each of its verdicts. -/
structure State.Tallied (s : State) : Prop where
  router : s.intake.router.measurements =
    s.intake.router.verdicts.map fun v => .count v.counter 1
  worker : ∀ p reason, touched (.requestsDropped reason) (s.workers.get p).measurements = false
  batcher : ∀ reason, touched (.requestsDropped reason) s.batcher.measurements = false

/-- What a move of the intake adds to the verdicts. It is `queueClosed` only when a queue refuses
what the router holds for it. -/
theorem Intake.Step.verdicts {i j : Intake} {m : Intake.Move} (h : Intake.Step i m j) :
    ∃ vs : List Verdict, j.router.verdicts = i.router.verdicts ++ vs ∧
      j.router.measurements =
        i.router.measurements ++ vs.map (fun v => .count v.counter 1) ∧
      (.queueClosed ∈ vs → ∃ p source, i.router.current = some (.sending p source) ∧
        (i.router.queues.get p).receiving = false) := by
  cases h with
  | malformed => exact ⟨[.malformed], rfl, rfl, by simp⟩
  | dropped _ _ hfinished =>
    refine ⟨[_], rfl, rfl, fun hclosed => ?_⟩
    obtain rfl := List.mem_singleton.1 hclosed
    unfold Dispatch.ofLookup at hfinished
    split at hfinished
    · split at hfinished <;> cases hfinished
    · split at hfinished <;> cases hfinished
  | entered => exact ⟨[.routed _], rfl, rfl, by simp⟩
  | refused _ hcurrent hclosed =>
    exact ⟨[.queueClosed], rfl, rfl, fun _ => ⟨_, _, hcurrent, hclosed⟩⟩
  | _ => exact ⟨[], (List.append_nil _).symm, (List.append_nil _).symm, by simp⟩

namespace State

variable {s t : State}

theorem tallied_start (c : Settings) : Tallied (start c) where
  router := rfl
  worker p _ := by cases p <;> rfl
  batcher _ := rfl

theorem touched_answered (b : Batcher) (now count : Nat) (trigger : FlushTrigger)
    (answer : Except Error Unit) (reason : DropReason) :
    touched (.requestsDropped reason) (b.answered now count trigger answer).measurements =
      touched (.requestsDropped reason) b.measurements := by
  cases trigger <;> cases answer <;>
    simp [Batcher.answered, Batcher.account, Batcher.resume, touched]

theorem Tallied.step (h : Tallied s) {m : Move} (hstep : Step s m t) : Tallied t := by
  obtain ⟨hrouter, hworker, hbatcher⟩ := h
  cases hstep with
  | intake hi =>
    obtain ⟨vs, hverdicts, hmeasurements, -⟩ := hi.verdicts
    refine ⟨?_, hworker, hbatcher⟩
    rw [hmeasurements, hverdicts, hrouter, List.map_append]
  | @worker p m b hb =>
    refine ⟨hrouter, ?_, hbatcher⟩
    refine forall_putBench s b (P := fun _ _ worker => ∀ reason,
      touched (.requestsDropped reason) worker.measurements = false) ?_ fun q _ => hworker q
    have hworker := hworker p
    intro reason
    cases hb with
    | probed => exact (touched_append_other rfl).trans (hworker reason)
    | refused => exact (touched_append_other rfl).trans (hworker reason)
    | _ => exact hworker reason
  | batcher hb =>
    refine ⟨hrouter, hworker, fun reason => ?_⟩
    have hbatcher := hbatcher reason
    cases hb with
    | filled => exact (touched_append_other rfl).trans hbatcher
    | flushed => exact (touched_append_other rfl).trans hbatcher
    | drained => exact (touched_append_other rfl).trans hbatcher
    | answered => exact (touched_answered ..).trans hbatcher
    | _ => exact hbatcher
  | coordinator hc =>
    obtain ⟨_, _, rfl⟩ := coordinatorStep?_frame hc
    exact ⟨hrouter, hworker, hbatcher⟩
  | signal => exact ⟨hrouter, hworker, hbatcher⟩
  | elapse => exact ⟨hrouter, hworker, hbatcher⟩

/-- A reason is counted exactly when a message was dropped for it. -/
theorem Tallied.touched_dropped_iff (h : Tallied s) (reason : DropReason) :
    touched (.requestsDropped reason) s.measurements = true ↔
      ∃ v ∈ s.intake.router.verdicts, v.dropReason? = some reason := by
  have hworkers : touched (.requestsDropped reason)
      (s.workers.toList.flatMap Worker.measurements) = false := by
    simp only [PerProvider.toList, List.flatMap_cons, List.flatMap_nil, List.append_nil,
      touched_append, Bool.or_eq_false_iff]
    exact ⟨h.worker .aws reason, h.worker .azure reason, h.worker .gcp reason⟩
  simp only [measurements, touched_append, hworkers, h.batcher, Bool.or_false, h.router]
  simp [touched, Verdict.counter_eq_dropped_iff]

end State

open State

/-- **What a pipeline counts as dropped**, at every moment of every run. -/
theorem Run.tallied {c : Settings} {ms : List State.Move} {s : State}
    (run : Run (State.start c) ms s) : Tallied s :=
  run.induction (motive := fun _ s => Tallied s) (tallied_start c)
    fun _ _ _ _ _ h hm => h.step (step_of_step? hm)

/-! ## Nothing is refused -/

/-- As long as nothing crashes, the router finds the queues open. -/
theorem Run.never_closed {c : Settings} {ms : List State.Move} {s : State}
    (run : Run (State.start c) ms s) (hcalm : s.Calm) :
    .queueClosed ∉ s.intake.router.verdicts := by
  revert hcalm
  refine run.induction (motive := fun _ s => s.Calm → .queueClosed ∉ s.intake.router.verdicts)
    (fun _ => List.not_mem_nil) fun ms s m t run ih hm hcalm => ?_
  have hstep := step_of_step? hm
  have hbefore := hstep.calm hcalm
  have ih := ih hbefore
  cases hstep with
  | intake hi =>
    obtain ⟨vs, hverdicts, -, hclosed⟩ := hi.verdicts
    rw [hverdicts, List.mem_append]
    rintro (hmem | hmem)
    · exact ih hmem
    · obtain ⟨p, source, -, hrefuses⟩ := hclosed hmem
      have hopen := run.wired.queue_open (hbefore.worker p) (by simp [Intake.isOver, hi.running])
      rw [show (s.queue p).receiving = false from hrefuses] at hopen
      cases hopen
  | coordinator hc =>
    obtain ⟨_, _, rfl⟩ := coordinatorStep?_frame hc
    exact ih
  | _ => exact ih

/-- Which queues are closed, and what this means for those who put something into them. A batcher
that has come to an end has let go of its queue. -/
structure Orderly (s : State) : Prop where
  provider_queue : ∀ p, (s.queue p).receiving = false ∨ (s.queue p).senders = 0 →
    s.intake.isOver = true
  result_queue : s.results.receiving = false ∨ s.batcher.isOver = true ∨ s.results.senders = 0 →
    ∀ p, (s.workers.get p).isOver = true
  /-- No queue refuses what the router or a worker offers it. -/
  router_accepted : s.intake.isOver = false → ∀ p source, (s.queue p).offer source ≠ .refused
  worker_accepted : ∀ p, (s.workers.get p).isOver = false → ∀ r, s.results.offer r ≠ .refused
  never_closed : .queueClosed ∉ s.intake.router.verdicts
  never_counted : touched (.requestsDropped .queueClosed) s.measurements = false
  never_lost : ∀ p, (s.workers.get p).stats.lost = 0

/-- **Queues close after their producers**, at every moment of every run in which nothing has
crashed. -/
theorem Run.closes_in_order {c : Settings} {ms : List State.Move} {s : State}
    (run : Run (State.start c) ms s) (hcalm : s.Calm) : Orderly s := by
  have wired := run.wired
  have hqueue : ∀ p, (s.queue p).receiving = false → s.intake.isOver = true := by
    intro p hclosed
    rw [wired.queue_receiving, Bool.not_eq_false'] at hclosed
    exact wired.worker_ended p (Worker.ended_of_over hclosed (hcalm.worker p))
  have hopen : s.results.receiving = true := by simp [wired.results_receiving, hcalm.batcher]
  -- the batcher ends, and the last sender is gone, only after all workers
  have hresults : s.batcher.isOver = true ∨ s.results.senders = 0 → s.atWork = 0 := by
    rintro (hover | hnone)
    · exact wired.batcher_last (.inl (Batcher.ended_of_over hover hcalm.batcher))
    · exact wired.results_senders.symm.trans hnone
  have hverdicts := run.never_closed hcalm
  refine
    { provider_queue := fun p hclosed => ?_
      result_queue := fun hclosed => ?_
      router_accepted := fun hrunning p source hrefused => ?_
      worker_accepted := fun p _ r hrefused => ?_
      never_closed := hverdicts
      never_counted := ?_
      never_lost := fun p => (run.lined p).lost hcalm.batcher }
  · rcases hclosed with hclosed | hnone
    · exact hqueue p hclosed
    · rw [wired.queue_senders] at hnone
      by_cases hover : s.intake.isOver = true
      · exact hover
      · simp [hover] at hnone
  · apply (atWork_eq_zero_iff s).1
    rcases hclosed with hclosed | hclosed
    · rw [hopen] at hclosed
      cases hclosed
    · exact hresults hclosed
  · have hover := hqueue p ((Queue.offer_refused_iff _ _).1 hrefused)
    rw [hrunning] at hover
    cases hover
  · have hclosed := (Queue.offer_refused_iff _ _).1 hrefused
    rw [hopen] at hclosed
    cases hclosed
  · rw [Bool.eq_false_iff]
    intro htouched
    obtain ⟨v, hv, hreason⟩ := (run.tallied.touched_dropped_iff _).1 htouched
    obtain rfl : v = .queueClosed := by cases v <;> simp_all [Verdict.dropReason?]
    exact hverdicts hv

/-- The signal comes while the router waits for room: the queue is full, and the probe of what the
worker took from it has not come back. -/
theorem exists_blocked_run : ∃ ms s,
    Prompt (State.start ⟨1, 100, 60000, 2, "status"⟩) ms s ∧ s.Calm ∧
      (∃ deadline, s.coordinator.phase = .draining .signal deadline) ∧
      ∃ p source, s.intake.router.current = some (.sending p source) ∧
        (s.queue p).offer source = .waits := by
  let source := ResolvedSource.make (.known .aws) "5" "key" ⟨"7", none⟩
  exact ⟨[.intake (.pull sampleMessage), .intake (.lookup (.ok source)), .intake .enqueue,
    .worker .aws .take, .intake (.pull sampleMessage), .intake (.lookup (.ok source)),
    .intake .enqueue, .intake (.pull sampleMessage), .intake (.lookup (.ok source)), .signal,
    .coordinator .seeSignal], _,
    .cons (step?_pull rfl decode_sampleMessage) (by simp) (.cons rfl (by simp)
      (.cons rfl (by simp) (.cons rfl (by simp)
      (.cons (step?_pull rfl decode_sampleMessage) (by simp) (.cons rfl (by simp)
      (.cons rfl (by simp) (.cons (step?_pull rfl decode_sampleMessage) (by simp)
      (.cons rfl (by simp) (.cons rfl (by simp) (.cons rfl (by simp) (.nil _))))))))))),
    ⟨rfl, fun p => by cases p <;> rfl, rfl⟩, ⟨_, rfl⟩, .aws, source, rfl, rfl⟩

theorem closes_in_order_blocked : ∃ ms s,
    Run (State.start ⟨1, 100, 60000, 2, "status"⟩) ms s ∧ s.Calm ∧
      (∃ p source, s.intake.router.current = some (.sending p source) ∧
        (s.queue p).offer source = .waits) ∧ Orderly s := by
  obtain ⟨ms, s, prompt, hcalm, -, hwaits⟩ := exists_blocked_run
  exact ⟨ms, s, prompt.run, hcalm, hwaits, prompt.run.closes_in_order hcalm⟩

end Availability.Flow

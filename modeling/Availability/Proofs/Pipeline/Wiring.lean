import Availability.Proofs.Pipeline.Steps

/-!
# Which ends of the queues are held

A queue closes only by its holders letting go. `Wired` says who holds what, at every moment of
every run, whatever crashes: the router holds every provider's queue until the intake is over,
each worker holds both its queues until it is over, the batcher holds the result queue until it
crashes. A stage that ends, ends after those before it.

* `Run.wired`: the wiring of every state of every run.
* `Calm`: no stage has crashed so far; `Step.worker_calm` and its like: a stage that crashed stays
  so.
* `Wired.queue_open`: a queue refuses nothing before the intake is over, unless its worker crashed.
-/

namespace Availability.Flow

def Intake.isCrashed (i : Intake) : Bool :=
  match i.phase with
  | .crashed _ => true
  | _ => false

def Worker.isCrashed (w : Worker) : Bool :=
  match w.phase with
  | .crashed _ => true
  | _ => false

def Batcher.isCrashed (b : Batcher) : Bool :=
  match b.phase with
  | .crashed _ => true
  | _ => false

theorem Worker.isCrashed_of_at_work {w : Worker} (h : w.isOver = false) :
    w.isCrashed = false := by
  unfold isOver at h
  unfold isCrashed
  cases hphase : w.phase <;> simp_all

theorem Batcher.isCrashed_of_at_work {b : Batcher} (h : b.isOver = false) :
    b.isCrashed = false := by
  unfold isOver at h
  unfold isCrashed
  cases hphase : b.phase <;> simp_all

theorem Worker.isOver_of_isCrashed {w : Worker} (h : w.isCrashed = true) : w.isOver = true := by
  unfold isCrashed at h
  unfold isOver
  cases hphase : w.phase <;> simp_all

theorem Worker.ended_of_over {w : Worker} (hover : w.isOver = true) (hcalm : w.isCrashed = false) :
    w.phase = .ended := by
  unfold isOver at hover
  unfold isCrashed at hcalm
  cases hphase : w.phase <;> simp_all

theorem Batcher.ended_of_over {b : Batcher} (hover : b.isOver = true)
    (hcalm : b.isCrashed = false) : b.phase = .ended := by
  unfold isOver at hover
  unfold isCrashed at hcalm
  cases hphase : b.phase <;> simp_all

namespace State

/-- How many workers are not over. -/
def atWork (s : State) : Nat := s.workers.toList.countP fun w => !w.isOver

/-- Who holds which end of which queue. -/
structure Wired (s : State) : Prop where
  queue_senders : ∀ p, (s.queue p).senders = if s.intake.isOver then 0 else 1
  queue_receiving : ∀ p, (s.queue p).receiving = !(s.workers.get p).isOver
  results_senders : s.results.senders = s.atWork
  results_receiving : s.results.receiving = !s.batcher.isCrashed
  worker_ended : ∀ p, (s.workers.get p).phase = .ended → s.intake.isOver = true
  batcher_last : s.batcher.phase = .ended ∨ (∃ messages,
    s.batcher.phase = .flushing messages .shutdown) → s.atWork = 0

theorem atWork_eq_zero_iff (s : State) :
    s.atWork = 0 ↔ ∀ p, (s.workers.get p).isOver = true := by
  simp only [atWork, List.countP_eq_zero, PerProvider.toList]
  constructor
  · intro h p
    cases p <;> simpa [PerProvider.get] using h _ (by simp)
  · intro h w hw
    simp only [List.mem_cons, List.not_mem_nil, or_false] at hw
    rcases hw with rfl | rfl | rfl
    · simp [show s.workers.aws.isOver = true from h .aws]
    · simp [show s.workers.azure.isOver = true from h .azure]
    · simp [show s.workers.gcp.isOver = true from h .gcp]

theorem atWork_set_over (s : State) (p : Provider) {w : Worker}
    (h : (s.workers.get p).isOver = false) (hw : w.isOver = true) :
    ({ s with workers := s.workers.set p w } : State).atWork = s.atWork - 1 := by
  simp only [atWork, PerProvider.toList]
  cases p with
  | aws =>
    simp only [PerProvider.get] at h
    simp [PerProvider.set, List.countP_cons, h, hw]
  | azure =>
    simp only [PerProvider.get] at h
    simp [PerProvider.set, List.countP_cons, h, hw]
  | gcp =>
    simp only [PerProvider.get] at h
    simp [PerProvider.set, List.countP_cons, h, hw]
    omega

theorem atWork_set_same (s : State) (p : Provider) {w : Worker}
    (h : w.isOver = (s.workers.get p).isOver) :
    ({ s with workers := s.workers.set p w } : State).atWork = s.atWork := by
  cases p <;> simp only [PerProvider.get] at h <;>
    simp [atWork, PerProvider.toList, PerProvider.set, List.countP_cons, h]

theorem atWork_pos {s : State} {p : Provider} (h : (s.workers.get p).isOver = false) :
    0 < s.atWork := by
  refine Nat.pos_of_ne_zero fun hzero => ?_
  have hover := (atWork_eq_zero_iff s).1 hzero p
  rw [h] at hover
  cases hover

/-! ## What keeps the wiring -/

/-- Two queues whose ends are held alike. -/
def SameEnds {α : Type} (q q' : Queue α) : Prop :=
  q'.senders = q.senders ∧ q'.receiving = q.receiving

theorem batcher_start (c : Settings) :
    (Batcher.start 0 c.topic c.batchSize c.tickMs).phase = .waiting ∨
      ∃ text, (Batcher.start 0 c.topic c.batchSize c.tickMs).phase = .crashed text := by
  simp only [Batcher.start]
  split
  · exact .inr ⟨_, rfl⟩
  · exact .inl rfl

theorem wired_start (c : Settings) : Wired (start c) := by
  refine ⟨?_, ?_, ?_, ?_, ?_, ?_⟩
  · intro p
    simp [start, queue, Intake.bounded, Router.bounded, Queue.bounded, Intake.isOver]
  · intro p
    simp [start, queue, Intake.bounded, Router.bounded, Queue.bounded, Worker.idle, Worker.isOver]
  · simp only [start]
    split <;> rfl
  · rcases batcher_start c with hphase | ⟨text, hphase⟩ <;>
      simp [start, Batcher.isOver, Batcher.isCrashed, hphase, Queue.bounded, Queue.close]
  · intro p hended
    simp [start, Worker.idle] at hended
  · intro hlast
    rcases batcher_start c with hphase | ⟨text, hphase⟩ <;> simp [start, hphase] at hlast

section

variable {s : State} {p : Provider}

theorem Wired.intake (h : Wired s) {i : Intake} (hphase : i.phase = s.intake.phase)
    (hends : ∀ p, SameEnds (s.queue p) (i.router.queues.get p)) :
    Wired { s with intake := i } := by
  have hover : i.isOver = s.intake.isOver := by simp only [Intake.isOver, hphase]
  obtain ⟨hqs, hqr, hrs, hrr, hwe, hbe⟩ := h
  refine ⟨fun p => ?_, fun p => ?_, hrs, hrr, fun p hp => ?_, hbe⟩
  · rw [show (queue { s with intake := i } p).senders = (s.queue p).senders from (hends p).1, hqs]
    simp only [hover]
  · exact (hends p).2.trans (hqr p)
  · exact hover.trans (hwe p hp)

theorem Wired.intake_finish (h : Wired s) (hrunning : s.intake.phase = .running)
    {phase : IntakePhase} (hphase : phase ≠ .running) :
    Wired { s with intake := s.intake.finish phase } := by
  obtain ⟨hqs, hqr, hrs, hrr, hwe, hbe⟩ := h
  have hover : (s.intake.finish phase).isOver = true := by
    cases phase <;> first | rfl | exact absurd rfl hphase
  have hqueue : ∀ p, queue { s with intake := s.intake.finish phase } p =
      (s.queue p).dropSender := fun p => PerProvider.get_map _ _ _
  refine ⟨fun p => ?_, fun p => ?_, hrs, hrr, fun _ _ => hover, hbe⟩
  · have hone : (s.queue p).senders = 1 := by rw [hqs]; simp [Intake.isOver, hrunning]
    rw [hqueue, if_pos hover]
    simp only [Queue.dropSender, hone]
  · rw [hqueue]
    exact hqr p

theorem Wired.worker (h : Wired s) {b : Worker.Bench} (hwas : (s.workers.get p).isOver = false)
    (hover : b.worker.isOver = false) (hin : SameEnds (s.queue p) b.inbox)
    (hout : SameEnds s.results b.outbox) : Wired (s.putBench p b) := by
  obtain ⟨hqs, hqr, hrs, hrr, hwe, hbe⟩ := h
  have hwork : (s.putBench p b).atWork = s.atWork := atWork_set_same s p (hover.trans hwas.symm)
  refine ⟨?_, ?_, ?_, ?_, ?_, fun hended => ?_⟩
  · exact forall_putBench s b (P := fun _ queue _ =>
      queue.senders = if s.intake.isOver then 0 else 1) (hin.1.trans (hqs p)) fun q _ => hqs q
  · refine forall_putBench s b (P := fun _ queue worker => queue.receiving = !worker.isOver) ?_
      fun q _ => hqr q
    rw [hin.2, hqr, hwas, hover]
  · exact hout.1.trans (hrs.trans hwork.symm)
  · exact hout.2.trans hrr
  · refine forall_putBench s b (P := fun _ _ worker =>
      worker.phase = .ended → s.intake.isOver = true) (fun hended => ?_) fun q _ => hwe q
    simp [Worker.isOver, hended] at hover
  · exact hwork.trans (hbe hended)

theorem Wired.worker_leave (h : Wired s) (hwas : (s.workers.get p).isOver = false)
    {phase : WorkerPhase} (hover : ((s.workers.get p).turn phase).isOver = true)
    (hended : phase = .ended → s.intake.isOver = true) :
    Wired (s.putBench p ((s.bench p).leave phase)) := by
  obtain ⟨hqs, hqr, hrs, hrr, hwe, hbe⟩ := h
  have hwork : (s.putBench p ((s.bench p).leave phase)).atWork = s.atWork - 1 :=
    atWork_set_over s p hwas hover
  refine ⟨?_, ?_, ?_, hrr, ?_, fun hb => ?_⟩
  · exact forall_putBench s _ (P := fun _ queue _ =>
      queue.senders = if s.intake.isOver then 0 else 1) (hqs p) fun q _ => hqs q
  · exact forall_putBench s _ (P := fun _ queue worker => queue.receiving = !worker.isOver)
      (congrArg (!·) hover).symm fun q _ => hqr q
  · rw [hwork, ← hrs]
    rfl
  · exact forall_putBench s _ (P := fun _ _ worker =>
      worker.phase = .ended → s.intake.isOver = true) hended fun q _ => hwe q
  · rw [hwork, hbe hb]

theorem Wired.batcher (h : Wired s) {b : Batcher.Bench}
    (hcrashed : b.batcher.isCrashed = s.batcher.isCrashed) (hin : SameEnds s.results b.inbox)
    (hlast : b.batcher.phase = .ended ∨ (∃ messages,
      b.batcher.phase = .flushing messages .shutdown) → s.atWork = 0) :
    Wired (s.putBatcherBench b) := by
  obtain ⟨hqs, hqr, hrs, hrr, hwe, -⟩ := h
  exact ⟨hqs, hqr, hin.1.trans hrs, hin.2.trans (hrr.trans (congrArg (!·) hcrashed.symm)), hwe,
    hlast⟩

/-- **The wiring is kept** by every move. -/
theorem Wired.step (h : Wired s) {m : Move} {t : State} (hstep : Step s m t) : Wired t := by
  cases hstep with
  | @intake m i hi =>
    have hsame : ∀ p, SameEnds (s.queue p) (s.queue p) := fun _ => ⟨rfl, rfl⟩
    cases hi with
    | streamEnded hready => exact h.intake_finish (Intake.phase_of_isListening hready).1 (by simp)
    | stopped hready => exact h.intake_finish (Intake.phase_of_isListening hready).1 (by simp)
    | crashed hphase => exact h.intake_finish hphase (by simp)
    | @entered q source =>
      refine h.intake rfl fun p => ?_
      simp only [Intake.enqueue, Intake.settle, Router.settle]
      by_cases hpq : p = q
      · subst hpq
        rw [PerProvider.get_set_same]
        exact ⟨rfl, rfl⟩
      · rw [PerProvider.get_set_other _ _ hpq]
        exact ⟨rfl, rfl⟩
    | _ => exact h.intake rfl hsame
  | @worker p m b hb =>
    have hwas : (s.workers.get p).isOver = false := hb.at_work
    cases hb with
    | took => exact h.worker hwas rfl ⟨rfl, rfl⟩ ⟨rfl, rfl⟩
    | probed => exact h.worker hwas rfl ⟨rfl, rfl⟩ ⟨rfl, rfl⟩
    | crashed => exact h.worker_leave hwas rfl (by simp)
    | entered => exact h.worker hwas rfl ⟨rfl, rfl⟩ ⟨rfl, rfl⟩
    | refused => exact h.worker hwas rfl ⟨rfl, rfl⟩ ⟨rfl, rfl⟩
    | finished _ hend =>
      -- a queue at its end has no sender left, so the intake is over
      refine h.worker_leave hwas rfl fun _ => ?_
      have hsenders : (s.queue p).senders = 0 := by
        simp only [Queue.atEnd, Bool.and_eq_true, beq_iff_eq] at hend
        exact hend.2
      rw [h.queue_senders] at hsenders
      cases hover : s.intake.isOver with
      | true => rfl
      | false => simp [hover] at hsenders
  | @batcher m b hb =>
    have hcalm : s.batcher.isCrashed = false := Batcher.isCrashed_of_at_work hb.at_work
    have hzero : s.results.atEnd = true → s.atWork = 0 := by
      intro hend
      simp only [Queue.atEnd, Bool.and_eq_true, beq_iff_eq] at hend
      exact h.results_senders.symm.trans hend.2
    cases hb with
    | gathered => exact h.batcher rfl ⟨rfl, rfl⟩ h.batcher_last
    | filled => exact h.batcher hcalm.symm ⟨rfl, rfl⟩ (by simp)
    | idled => exact h.batcher rfl ⟨rfl, rfl⟩ h.batcher_last
    | flushed => exact h.batcher hcalm.symm ⟨rfl, rfl⟩ (by simp)
    | finished _ hend =>
      exact h.batcher hcalm.symm ⟨rfl, rfl⟩ fun _ => hzero hend
    | drained _ hend =>
      exact h.batcher hcalm.symm ⟨rfl, rfl⟩ fun _ => hzero hend
    | @answered messages trigger _ hphase =>
      refine h.batcher ?_ ⟨rfl, rfl⟩ fun hlast => h.batcher_last (.inr ⟨messages, ?_⟩)
      · rw [hcalm]
        cases trigger <;> rfl
      · rw [show s.batcher.phase = _ from hphase]
        cases trigger <;> first | rfl | simp at hlast
    | crashed =>
      obtain ⟨hqs, hqr, hrs, hrr, hwe, -⟩ := h
      exact ⟨hqs, hqr, hrs, rfl, hwe, by simp [putBatcherBench]⟩
  | coordinator hc =>
    obtain ⟨cancelled, _, rfl⟩ := coordinatorStep?_frame hc
    have h := h.intake (i := { s.intake with cancelled := cancelled }) rfl fun _ => ⟨rfl, rfl⟩
    exact ⟨h.1, h.2, h.3, h.4, h.5, h.6⟩
  | signal => exact ⟨h.1, h.2, h.3, h.4, h.5, h.6⟩
  | elapse => exact ⟨h.1, h.2, h.3, h.4, h.5, h.6⟩

end

end State

open State

/-- **The wiring**, at every moment of every run. -/
theorem Run.wired {c : Settings} {ms : List State.Move} {s : State}
    (run : Run (State.start c) ms s) : Wired s :=
  run.induction (motive := fun _ s => Wired s) (wired_start c)
    fun _ _ _ _ _ h hm => h.step (step_of_step? hm)

/-! ## Crashes -/

namespace State

variable {s t : State} {m : Move}

/-- No stage has crashed so far. -/
structure Calm (s : State) : Prop where
  intake : s.intake.isCrashed = false
  worker : ∀ p, (s.workers.get p).isCrashed = false
  batcher : s.batcher.isCrashed = false

theorem Step.intake_calm (h : Step s m t) (hcalm : t.intake.isCrashed = false) :
    s.intake.isCrashed = false := by
  cases h with
  | intake hi => simp [Intake.isCrashed, hi.running]
  | coordinator hc =>
    obtain ⟨_, _, rfl⟩ := coordinatorStep?_frame hc
    exact hcalm
  | _ => exact hcalm

theorem Step.worker_calm (h : Step s m t) {p : Provider}
    (hcalm : (t.workers.get p).isCrashed = false) : (s.workers.get p).isCrashed = false := by
  cases h with
  | @worker q m b hb =>
    by_cases hpq : p = q
    · subst hpq
      exact Worker.isCrashed_of_at_work hb.at_work
    · rw [workers_putBench_other _ _ hpq] at hcalm
      exact hcalm
  | coordinator hc =>
    obtain ⟨_, _, rfl⟩ := coordinatorStep?_frame hc
    exact hcalm
  | _ => exact hcalm

theorem Step.batcher_calm (h : Step s m t) (hcalm : t.batcher.isCrashed = false) :
    s.batcher.isCrashed = false := by
  cases h with
  | batcher hb => exact Batcher.isCrashed_of_at_work hb.at_work
  | coordinator hc =>
    obtain ⟨_, _, rfl⟩ := coordinatorStep?_frame hc
    exact hcalm
  | _ => exact hcalm

theorem Step.calm (h : Step s m t) (hcalm : t.Calm) : s.Calm :=
  ⟨h.intake_calm hcalm.intake, fun p => h.worker_calm (hcalm.worker p),
    h.batcher_calm hcalm.batcher⟩

/-- The coordinator finds no failure exactly when no stage has crashed. -/
theorem failure?_eq_none_iff (s : State) : s.failure? = none ↔ s.Calm := by
  simp only [failure?, Option.orElse_eq_orElse, Option.orElse_eq_or, Option.or_eq_none_iff]
  constructor
  · rintro ⟨hi, ha, hz, hg, hb⟩
    refine ⟨?_, fun p => ?_, ?_⟩
    · unfold Intake.isCrashed
      cases hphase : s.intake.phase <;> simp_all
    · unfold Worker.isCrashed
      cases p
      · cases hphase : (s.workers.get .aws).phase <;> simp_all
      · cases hphase : (s.workers.get .azure).phase <;> simp_all
      · cases hphase : (s.workers.get .gcp).phase <;> simp_all
    · unfold Batcher.isCrashed
      cases hphase : s.batcher.phase <;> simp_all
  · rintro ⟨hi, hw, hb⟩
    have hworker : ∀ p text, (s.workers.get p).phase ≠ .crashed text := by
      intro p text hphase
      simpa [Worker.isCrashed, hphase] using hw p
    refine ⟨?_, ?_, ?_, ?_, ?_⟩
    · unfold Intake.isCrashed at hi
      cases hphase : s.intake.phase <;> simp_all
    · cases hphase : (s.workers.get .aws).phase <;> simp_all
    · cases hphase : (s.workers.get .azure).phase <;> simp_all
    · cases hphase : (s.workers.get .gcp).phase <;> simp_all
    · unfold Batcher.isCrashed at hb
      cases hphase : s.batcher.phase <;> simp_all

/-- A worker whose intake is at work keeps its queue open, unless it crashes. -/
theorem Wired.queue_open (h : Wired s) {p : Provider} (hcalm : (s.workers.get p).isCrashed = false)
    (hrunning : s.intake.isOver = false) : (s.queue p).receiving = true := by
  rw [h.queue_receiving]
  cases hover : (s.workers.get p).isOver with
  | false => rfl
  | true =>
    have hover := h.worker_ended p (Worker.ended_of_over hover hcalm)
    rw [hrunning] at hover
    cases hover

end State

/-- A batcher crashes only with the sink, and lets go of what is on its queue. -/
theorem Batcher.Bench.Step.of_isCrashed {b b' : Batcher.Bench} {m : Batcher.Move}
    (h : Batcher.Bench.Step b (.own m) b') (hcrashed : b'.batcher.isCrashed = true) :
    (∃ text, m = .crash text) ∧ b'.inbox.items = [] := by
  cases h with
  | gathered hphase => simp [isCrashed, gather, Bench.advance, hphase] at hcrashed
  | idled hphase => simp [isCrashed, ticked, hphase] at hcrashed
  | answered => cases ‹FlushTrigger› <;> simp [isCrashed] at hcrashed
  | crashed => exact ⟨⟨_, rfl⟩, rfl⟩
  | _ => simp [isCrashed] at hcrashed

section

variable {s t : State} {ms : List State.Move}

/-- A batcher that has not crashed later had not crashed before. -/
theorem Run.batcher_calm (run : Run t ms s) (hcalm : s.batcher.isCrashed = false) :
    t.batcher.isCrashed = false := by
  induction run with
  | nil => exact hcalm
  | cons hm _ ih => exact (step_of_step? hm).batcher_calm (ih hcalm)

theorem Run.not_crashed (run : Run t ms s) (hcalm : t.batcher.isCrashed = false)
    (hsink : ∀ text, .batcher (.crash text) ∉ ms) : s.batcher.isCrashed = false := by
  induction run with
  | nil => exact hcalm
  | @cons t u s m ms hm _ ih =>
    refine ih ?_ fun text hmem => hsink text (List.mem_cons_of_mem _ hmem)
    cases step_of_step? hm with
    | batcher hb =>
      refine Bool.eq_false_iff.2 fun hcrashed => ?_
      obtain ⟨⟨text, rfl⟩, -⟩ := hb.of_isCrashed hcrashed
      exact hsink text List.mem_cons_self
    | coordinator hc =>
      obtain ⟨_, _, rfl⟩ := coordinatorStep?_frame hc
      exact hcalm
    | _ => exact hcalm

end

end Availability.Flow

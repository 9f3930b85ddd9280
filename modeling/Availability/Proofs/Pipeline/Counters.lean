import Availability.Proofs.Pipeline.Closing

/-!
# What the counters come to

The counters of the metrics go up elsewhere than the numbers that a stage keeps of itself: the
router counts a message and the intake sees afterwards what became of it, the observer of a worker
counts a probe by its status, the batcher counts a flush before the sink has answered.

* `totals_verdicts`: what some counters come to together, over the verdicts of a router.
* `Worker.Measured`, `Batcher.Measured`: the counters of a stage against its own numbers.
* `Run.measured`: they agree at every moment of every run, whatever crashes.
* `Measured.total_sent` and its like: what each counter of a pipeline comes to.
-/

namespace Availability

namespace Measurement

/-- What some counters come to together. -/
def totals (cs : List Counter) (ms : List Measurement) : Nat :=
  cs.foldr (fun c n => total c ms + n) 0

/-- Whether a measurement says what became of a message. -/
def isOutcome : Measurement → Bool
  | .count (.requestsRouted _) _ => true
  | .count (.requestsDropped _) _ => true
  | _ => false

theorem samples_append (p : Provider) (xs ys : List Measurement) :
    samples p (xs ++ ys) = samples p xs + samples p ys :=
  List.count_append

end Measurement

namespace Flow

open Measurement (total totals samples isOutcome total_append samples_append)

/-! ## The router -/

section Verdicts

variable (vs : List Verdict)

theorem total_verdicts (c : Counter) :
    total c (vs.map fun v => .count v.counter 1) = vs.countP (·.counter = c) := by
  induction vs with
  | nil => rfl
  | cons v vs ih =>
    rw [List.map_cons, total, ih, List.countP_cons, Nat.add_comm]
    by_cases h : v.counter = c <;> simp [Measurement.amount, h]

theorem countP_counter_cons (c : Counter) (cs : List Counter) (h : c ∉ cs) :
    vs.countP (·.counter ∈ c :: cs) = vs.countP (·.counter = c) + vs.countP (·.counter ∈ cs) := by
  induction vs with
  | nil => rfl
  | cons v vs ih =>
    simp only [List.countP_cons, ih]
    by_cases hc : v.counter = c
    · subst hc
      simp [h]
      omega
    · simp [hc]
      omega

theorem totals_congr {cs : List Counter} {xs ys : List Measurement}
    (h : ∀ c ∈ cs, total c xs = total c ys) : totals cs xs = totals cs ys := by
  induction cs with
  | nil => rfl
  | cons c cs ih =>
    have hrest := ih fun k hk => h k (List.mem_cons_of_mem _ hk)
    simp only [totals, List.foldr_cons] at hrest ⊢
    rw [h c List.mem_cons_self, hrest]

/-- Counters that are all different count each verdict at most once. -/
theorem totals_verdicts {cs : List Counter} (h : cs.Nodup) :
    totals cs (vs.map fun v => .count v.counter 1) = vs.countP (·.counter ∈ cs) := by
  induction cs with
  | nil => simp [totals]
  | cons c cs ih =>
    obtain ⟨hnew, hrest⟩ := List.nodup_cons.1 h
    rw [countP_counter_cons vs c cs hnew, ← ih hrest, ← total_verdicts]
    rfl

end Verdicts

theorem Verdict.isRouted_iff (v : Verdict) :
    v.isRouted = true ↔ v.counter ∈ Provider.all.map Counter.requestsRouted := by
  cases v with
  | routed p => cases p <;> decide
  | _ => decide

theorem Verdict.not_isRouted_iff (v : Verdict) :
    (!v.isRouted) = true ↔ v.counter ∈ DropReason.all.map Counter.requestsDropped := by
  cases v <;> simp [isRouted, counter, DropReason.all]

/-- What the intake has counted are the verdicts of its router. -/
structure Intake.Measured (i : Intake) : Prop where
  routed : i.stats.routed = i.router.verdicts.countP (·.isRouted)
  dropped : i.stats.dropped = i.router.verdicts.countP (!·.isRouted)

namespace Intake.Measured

variable {i j : Intake}

theorem settle (h : Measured i) {r : Router} (hsame : r.verdicts = i.router.verdicts)
    (v : Verdict) : Measured (i.settle r v) := by
  obtain ⟨hrouted, hdropped⟩ := h
  constructor
  · simp only [Intake.settle, Router.settle, hsame, hrouted, List.countP_append]
    cases v <;> rfl
  · simp only [Intake.settle, Router.settle, hsame, hdropped, List.countP_append]
    cases v <;> rfl

theorem step (h : Measured i) {m : Intake.Move} (hstep : Intake.Step i m j) : Measured j := by
  cases hstep with
  | malformed => exact Measured.settle (i := i.receive) ⟨h.1, h.2⟩ rfl _
  | dropped => exact h.settle rfl _
  | @entered p source =>
    exact h.settle (r := { i.router with
      queues := i.router.queues.set p ((i.router.queues.get p).push source) }) rfl (.routed p)
  | refused => exact h.settle rfl _
  | _ => exact ⟨h.1, h.2⟩

end Intake.Measured

/-! ## The workers -/

theorem count_statuses (events : List Status) :
    events.count .available + events.count .unavailable = events.length := by
  induction events with
  | nil => rfl
  | cons status events ih =>
    simp only [List.count_cons, List.length_cons]
    cases status <;> simp <;> omega

/-- What the counters of a worker ought to say, by what it told its observer and what it lost. -/
def Worker.tally (w : Worker) : Counter → Nat
  | .resultsSent p status => if p = w.provider then w.events.count status else 0
  | .resultsLost => w.stats.lost
  | _ => 0

/-- The counters of a worker against its own numbers. -/
structure Worker.Measured (w : Worker) : Prop where
  counters : ∀ c, total c w.measurements = w.tally c
  samples : ∀ p, samples p w.measurements = if p = w.provider then w.stats.processed else 0
  processed : w.stats.processed = w.events.length
  unavailable : w.stats.unavailable = w.events.count .unavailable
  outcomes : ∀ m ∈ w.measurements, m.isOutcome = false

namespace Worker

variable {w : Worker}

theorem Measured.record (h : w.Measured) (r : ProbeResult) : (w.record r).Measured := by
  obtain ⟨hcounters, hsamples, hprocessed, hunavailable, houtcomes⟩ := h
  refine ⟨fun c => ?_, fun p => ?_, ?_, ?_, ?_⟩
  · rw [Worker.record, total_append, hcounters]
    cases c with
    | resultsSent p status =>
      by_cases hp : p = w.provider
      · subst hp
        by_cases hr : r.status = status <;> simp [total, Measurement.amount, tally, hr]
      · simp [total, Measurement.amount, tally, hp, Ne.symm hp]
    | _ => rfl
  · rw [Worker.record, samples_append, hsamples]
    by_cases hp : p = w.provider
    · simp [Measurement.samples, hp]
    · simp [Measurement.samples, hp, Ne.symm hp]
  · simp [Worker.record, hprocessed]
  · simp only [Worker.record, hunavailable, List.count_append, List.count_singleton]
    cases r.status <;> rfl
  · rw [Worker.record]
    exact List.forall_mem_append.2 ⟨houtcomes, by simp [isOutcome]⟩

theorem Measured.lose (h : w.Measured) : w.lose.Measured := by
  obtain ⟨hcounters, hsamples, hprocessed, hunavailable, houtcomes⟩ := h
  refine ⟨fun c => ?_, fun p => ?_, hprocessed, hunavailable, ?_⟩
  · rw [Worker.lose, total_append, hcounters]
    cases c <;> simp [total, Measurement.amount, tally]
  · rw [Worker.lose, samples_append, hsamples]
    simp [Measurement.samples]
  · rw [Worker.lose]
    exact List.forall_mem_append.2 ⟨houtcomes, by simp [isOutcome]⟩

theorem Measured.step {b b' : Bench} {m : Move} (h : b.worker.Measured) (hstep : Step b m b') :
    b'.worker.Measured := by
  cases hstep with
  | probed => exact h.record _
  | refused => exact h.lose
  | _ => exact ⟨h.1, h.2, h.3, h.4, h.5⟩

theorem Step.provider_eq {b b' : Bench} {m : Move} (h : Step b m b') :
    b'.worker.provider = b.worker.provider := by
  cases h <;> rfl

end Worker

/-! ## The batcher -/

/-- How often a batch went out for a reason. -/
def BatcherStats.flushes (stats : BatcherStats) : FlushTrigger → Nat
  | .full => stats.fullFlushes
  | .tick => stats.tickFlushes
  | .shutdown => stats.shutdownFlushes

theorem BatcherStats.flushes_flushed (stats : BatcherStats) (trigger t : FlushTrigger) :
    (stats.flushed trigger).flushes t = stats.flushes t + if trigger = t then 1 else 0 := by
  cases trigger <;> cases t <;> rfl

/-- The calls of the sink that it has not answered. -/
def Batcher.unanswered (b : Batcher) : Nat :=
  match b.phase with
  | .flushing _ _ => 1
  | _ => 0

/-- What the counters of a batcher ought to say, by its own numbers and the answers of the sink. -/
def Batcher.tally (answers : List (Except Error Unit)) (b : Batcher) : Counter → Nat
  | .batchFlushes trigger => b.stats.flushes trigger
  | .batchSendFailures => answers.countP (!·.isOk)
  | .resultsLost => b.stats.lost
  | _ => 0

/-- The counters of a batcher against its own numbers and the answers of the sink. -/
structure Batcher.Measured (answers : List (Except Error Unit)) (b : Batcher) : Prop where
  counters : ∀ c, total c b.measurements = b.tally answers c
  samples : ∀ p, samples p b.measurements = 0
  calls : b.isCrashed = false → b.calls.length = answers.length + b.unanswered
  outcomes : ∀ m ∈ b.measurements, m.isOutcome = false

namespace Batcher

variable {answers : List (Except Error Unit)} {b : Batcher}

theorem Measured.launch {s : Bench} (h : s.batcher.Measured answers)
    (hphase : s.batcher.phase = .waiting) (messages : List OutboundMessage)
    (trigger : FlushTrigger) : (s.launch messages trigger).batcher.Measured answers := by
  have hmeasurements : (s.launch messages trigger).batcher.measurements =
      s.batcher.measurements ++ [.count (.batchFlushes trigger) 1] := rfl
  have hstats : (s.launch messages trigger).batcher.stats = s.batcher.stats.flushed trigger := rfl
  obtain ⟨hcounters, hsamples, hcalls, houtcomes⟩ := h
  refine ⟨fun c => ?_, fun p => ?_, fun _ => ?_, ?_⟩
  · rw [hmeasurements, total_append, hcounters]
    cases c with
    | batchFlushes t =>
      simp only [tally, hstats, BatcherStats.flushes_flushed, total, Measurement.amount,
        Counter.batchFlushes.injEq, Nat.add_zero]
    | resultsLost => cases trigger <;> rfl
    | _ => rfl
  · rw [hmeasurements, samples_append, hsamples]
    simp [Measurement.samples]
  · have hcalls := hcalls (by simp [isCrashed, hphase])
    simp only [unanswered, hphase] at hcalls
    simp [unanswered, hcalls]
  · rw [hmeasurements]
    exact List.forall_mem_append.2 ⟨houtcomes, by simp [isOutcome]⟩

theorem answered_measurements (b : Batcher) (now count : Nat) (trigger : FlushTrigger)
    (answer : Except Error Unit) :
    (b.answered now count trigger answer).measurements = b.measurements ++
      if answer.isOk = true then []
      else [.count .batchSendFailures 1, .count .resultsLost count] := by
  cases trigger <;> cases answer <;> simp [answered, account, resume, Except.isOk, Except.toBool]

theorem Measured.answered (h : b.Measured answers) {messages : List OutboundMessage}
    {trigger : FlushTrigger} (hphase : b.phase = .flushing messages trigger) (now : Nat)
    (answer : Except Error Unit) :
    (b.answered now messages.length trigger answer).Measured (answers ++ [answer]) := by
  obtain ⟨hcounters, hsamples, hcalls, houtcomes⟩ := h
  refine ⟨fun c => ?_, fun p => ?_, fun _ => ?_, ?_⟩
  · rw [answered_measurements, total_append, hcounters]
    cases c with
    | batchSendFailures => cases hok : answer.isOk <;> simp [tally, total, Measurement.amount, hok]
    | resultsLost => cases hok : answer.isOk <;> simp [tally, total, Measurement.amount, hok]
    | batchFlushes t =>
      cases hok : answer.isOk <;> cases t <;>
        simp [tally, total, Measurement.amount, BatcherStats.flushes]
    | _ => cases hok : answer.isOk <;> simp [tally, total, Measurement.amount]
  · rw [answered_measurements, samples_append, hsamples]
    cases hok : answer.isOk <;> simp [Measurement.samples]
  · have hcalls := hcalls (by simp [isCrashed, hphase])
    simp only [unanswered, hphase] at hcalls
    simp only [answered_calls, hcalls, unanswered, answered_phase, List.length_append]
    cases trigger <;> rfl
  · rw [answered_measurements]
    refine List.forall_mem_append.2 ⟨houtcomes, ?_⟩
    split
    · simp
    · simp [isOutcome]

theorem Measured.congr {b' : Batcher} (h : b.Measured answers)
    (hmeasurements : b'.measurements = b.measurements) (hstats : b'.stats = b.stats)
    (hcalls : b'.calls = b.calls)
    (hopen : b'.isCrashed = false → b.isCrashed = false ∧ b'.unanswered = b.unanswered) :
    b'.Measured answers := by
  refine ⟨fun c => ?_, fun p => ?_, fun hcalm => ?_, ?_⟩
  · rw [hmeasurements, h.counters c]
    cases c <;> simp only [tally, hstats]
  · rw [hmeasurements]
    exact h.samples p
  · obtain ⟨hbefore, hsame⟩ := hopen hcalm
    rw [hcalls, hsame]
    exact h.calls hbefore
  · rw [hmeasurements]
    exact h.outcomes

end Batcher

/-! ## The pipeline -/

/-- What the sink said of a call. -/
def State.Move.sinkAnswer? : State.Move → Option (Except Error Unit)
  | .batcher (.sent answer) => some answer
  | _ => none

/-- What the sink said of its calls in a run, in their order. -/
def sinkAnswers (ms : List State.Move) : List (Except Error Unit) :=
  ms.filterMap State.Move.sinkAnswer?

theorem sinkAnswers_snoc {m : State.Move} (h : m.sinkAnswer? = none) (ms : List State.Move) :
    sinkAnswers (ms ++ [m]) = sinkAnswers ms := by
  rw [sinkAnswers, filterMap_snoc, h]
  exact List.append_nil _

theorem Batcher.Measured.step {ms : List State.Move} {b b' : Batcher.Bench} {m : Batcher.Move}
    (h : b.batcher.Measured (sinkAnswers ms)) (hstep : Batcher.Bench.Step b (.own m) b') :
    b'.batcher.Measured (sinkAnswers (ms ++ [.batcher m])) := by
  cases hstep with
  | gathered hphase =>
    rw [sinkAnswers_snoc rfl]
    exact h.congr rfl rfl rfl fun hcalm => ⟨hcalm, rfl⟩
  | @filled _ _ rest hphase =>
    rw [sinkAnswers_snoc rfl]
    exact Measured.launch (s := b.advance rest) h hphase _ _
  | idled hphase =>
    rw [sinkAnswers_snoc rfl]
    exact h.congr rfl rfl rfl fun hcalm => ⟨hcalm, rfl⟩
  | flushed hphase =>
    rw [sinkAnswers_snoc rfl]
    have hticked : b.ticked.batcher.Measured (sinkAnswers ms) :=
      h.congr rfl rfl rfl fun hcalm => ⟨hcalm, rfl⟩
    exact hticked.launch hphase _ _
  | finished hphase =>
    rw [sinkAnswers_snoc rfl]
    exact h.congr rfl rfl rfl fun _ => by simp [isCrashed, unanswered, hphase]
  | drained hphase =>
    rw [sinkAnswers_snoc rfl]
    exact h.launch hphase _ _
  | @answered messages trigger answer hphase =>
    rw [sinkAnswers, filterMap_snoc]
    exact Measured.answered h hphase _ answer
  | crashed =>
    rw [sinkAnswers_snoc rfl]
    exact h.congr rfl rfl rfl fun hcalm => by simp [isCrashed] at hcalm

namespace State

variable {s t : State} {ms : List Move}

/-- The counters of every stage against its own numbers. -/
structure Measured (ms : List Move) (s : State) : Prop where
  intake : s.intake.Measured
  worker : ∀ p, (s.workers.get p).provider = p ∧ (s.workers.get p).Measured
  batcher : s.batcher.Measured (sinkAnswers ms)

theorem measured_start (c : Settings) : Measured [] (start c) where
  intake := ⟨rfl, rfl⟩
  worker p := by
    have hidle : (start c).workers.get p = .idle p := PerProvider.get_make _ _
    rw [hidle]
    refine ⟨rfl, ⟨fun c => ?_, fun q => ?_, rfl, rfl, fun _ hm => absurd hm List.not_mem_nil⟩⟩
    · cases c with
      | resultsSent q status => exact (ite_self 0).symm
      | _ => rfl
    · exact (ite_self 0).symm
  batcher := by
    refine ⟨fun c => ?_, fun _ => rfl, fun _ => ?_, fun _ hm => absurd hm List.not_mem_nil⟩
    · cases c with
      | batchFlushes t => cases t <;> rfl
      | _ => rfl
    · rcases batcher_start c with hphase | ⟨text, hphase⟩ <;>
        simp [start, Batcher.unanswered, hphase, sinkAnswers] <;> rfl

theorem Measured.step (h : Measured ms s) {m : Move} (hstep : Step s m t) :
    Measured (ms ++ [m]) t := by
  obtain ⟨hintake, hworker, hbatcher⟩ := h
  have hkept : m.sinkAnswer? = none → s.batcher.Measured (sinkAnswers (ms ++ [m])) := by
    intro hnone
    rw [sinkAnswers_snoc hnone]
    exact hbatcher
  cases hstep with
  | intake hi => exact ⟨hintake.step hi, hworker, hkept rfl⟩
  | worker hb =>
    refine ⟨⟨hintake.1, hintake.2⟩, ?_, hkept rfl⟩
    refine forall_putBench s _ (P := fun q _ w => w.provider = q ∧ w.Measured) ?_ fun q _ =>
      hworker q
    exact ⟨hb.provider_eq.trans (hworker _).1, (hworker _).2.step hb⟩
  | batcher hb => exact ⟨hintake, hworker, hbatcher.step hb⟩
  | coordinator hc =>
    obtain ⟨_, _, rfl⟩ := coordinatorStep?_frame hc
    exact ⟨⟨hintake.1, hintake.2⟩, hworker, hkept rfl⟩
  | signal => exact ⟨hintake, hworker, hkept rfl⟩
  | elapse => exact ⟨hintake, hworker, hkept rfl⟩

end State

open State

/-- **The counters of every stage**, at every moment of every run. -/
theorem Run.measured {c : Settings} {ms : List State.Move} {s : State}
    (run : Run (State.start c) ms s) : Measured ms s :=
  run.induction (motive := Measured) (measured_start c)
    fun _ _ _ _ _ h hm => h.step (step_of_step? hm)

section

variable {c : Settings} {ms : List State.Move} {s : State}

namespace State

/-- What the pipeline has counted as having become of its messages. -/
def outcomes (s : State) : List Measurement := s.measurements.filter Measurement.isOutcome

theorem isOutcome_verdict (v : Verdict) (n : Nat) : isOutcome (.count v.counter n) = true := by
  cases v <;> rfl

theorem Measured.total_measurements (h : Measured ms s) (tallied : Tallied s) (k : Counter) :
    total k s.measurements = s.intake.router.verdicts.countP (·.counter = k) +
      ((s.workers.get .aws).tally k + (s.workers.get .azure).tally k +
        (s.workers.get .gcp).tally k) + s.batcher.tally (sinkAnswers ms) k := by
  have hworkers : total k (s.workers.toList.flatMap Worker.measurements) =
      (s.workers.get .aws).tally k + (s.workers.get .azure).tally k +
        (s.workers.get .gcp).tally k := by
    rw [← (h.worker .aws).2.counters, ← (h.worker .azure).2.counters,
      ← (h.worker .gcp).2.counters]
    simp only [PerProvider.toList, List.flatMap_cons, List.flatMap_nil, List.append_nil,
      total_append, PerProvider.get, Nat.add_assoc]
  rw [measurements, total_append, total_append, hworkers, h.batcher.counters, tallied.router,
    total_verdicts]

theorem Measured.total_outcome (h : Measured ms s) (tallied : Tallied s) {k : Counter}
    (hk : isOutcome (.count k 1) = true) :
    total k s.measurements =
      total k (s.intake.router.verdicts.map fun v => .count v.counter 1) := by
  rw [h.total_measurements tallied, total_verdicts]
  cases k <;> first | rfl | simp [isOutcome] at hk

theorem Measured.totals_routed (h : Measured ms s) (tallied : Tallied s) :
    totals (Provider.all.map .requestsRouted) s.measurements = s.intake.stats.routed := by
  have houtcome : ∀ k ∈ Provider.all.map Counter.requestsRouted, isOutcome (.count k 1) = true := by
    decide
  rw [totals_congr fun k hk => h.total_outcome tallied (houtcome k hk),
    totals_verdicts _ (by decide), h.intake.routed]
  exact List.countP_congr fun v _ => by simpa using (Verdict.isRouted_iff v).symm

theorem Measured.totals_dropped (h : Measured ms s) (tallied : Tallied s) :
    totals (DropReason.all.map .requestsDropped) s.measurements = s.intake.stats.dropped := by
  have houtcome : ∀ k ∈ DropReason.all.map Counter.requestsDropped,
      isOutcome (.count k 1) = true := by decide
  rw [totals_congr fun k hk => h.total_outcome tallied (houtcome k hk),
    totals_verdicts _ (by decide), h.intake.dropped]
  exact List.countP_congr fun v _ => by simpa using (Verdict.not_isRouted_iff v).symm

theorem countP_counter_eq_zero {k : Counter} (hk : isOutcome (.count k 1) = false)
    (vs : List Verdict) : vs.countP (·.counter = k) = 0 := by
  rw [List.countP_eq_zero]
  intro v _ hv
  rw [← of_decide_eq_true hv, isOutcome_verdict] at hk
  cases hk

theorem Measured.total_sent (h : Measured ms s) (tallied : Tallied s) (p : Provider)
    (status : Status) : total (.resultsSent p status) s.measurements =
      (s.workers.get p).events.count status := by
  rw [h.total_measurements tallied, countP_counter_eq_zero rfl]
  cases p <;> simp [Worker.tally, Batcher.tally, (h.worker _).1]

theorem Measured.total_flushes (h : Measured ms s) (tallied : Tallied s)
    (trigger : FlushTrigger) :
    total (.batchFlushes trigger) s.measurements = s.batcher.stats.flushes trigger := by
  rw [h.total_measurements tallied, countP_counter_eq_zero rfl]
  simp [Worker.tally, Batcher.tally]

theorem Measured.total_failures (h : Measured ms s) (tallied : Tallied s) :
    total .batchSendFailures s.measurements = (sinkAnswers ms).countP (!·.isOk) := by
  rw [h.total_measurements tallied, countP_counter_eq_zero rfl]
  simp [Worker.tally, Batcher.tally]

theorem Measured.total_lost (h : Measured ms s) (tallied : Tallied s) :
    total .resultsLost s.measurements = s.batcher.stats.lost +
      ((s.workers.get .aws).stats.lost + (s.workers.get .azure).stats.lost +
        (s.workers.get .gcp).stats.lost) := by
  rw [h.total_measurements tallied, countP_counter_eq_zero rfl]
  simp only [Worker.tally, Batcher.tally]
  omega

theorem Measured.samples_measurements (h : Measured ms s) (tallied : Tallied s) (p : Provider) :
    samples p s.measurements = (s.workers.get p).stats.processed := by
  have hrouter : ∀ vs : List Verdict, samples p (vs.map fun v => .count v.counter 1) = 0 := by
    intro vs
    simp [samples, List.count_eq_zero]
  have hworker : ∀ q, samples p (s.workers.get q).measurements =
      if p = q then (s.workers.get q).stats.processed else 0 := by
    intro q
    obtain ⟨hprovider, hmeasured⟩ := h.worker q
    rw [hmeasured.samples, hprovider]
  rw [measurements, samples_append, samples_append, tallied.router, hrouter, h.batcher.samples]
  simp only [PerProvider.toList, List.flatMap_cons, List.flatMap_nil, List.append_nil,
    samples_append, ← show s.workers.get .aws = s.workers.aws from rfl,
    ← show s.workers.get .azure = s.workers.azure from rfl,
    ← show s.workers.get .gcp = s.workers.gcp from rfl, hworker]
  cases p <;> simp

theorem Measured.outcomes_eq (h : Measured ms s) (tallied : Tallied s) :
    s.outcomes = s.intake.router.verdicts.map fun v => .count v.counter 1 := by
  have hrouter : s.intake.router.measurements.filter isOutcome = s.intake.router.measurements := by
    rw [List.filter_eq_self, tallied.router]
    intro m hm
    obtain ⟨v, -, rfl⟩ := List.mem_map.1 hm
    exact isOutcome_verdict v 1
  have hworkers : (s.workers.toList.flatMap Worker.measurements).filter isOutcome = [] := by
    rw [List.filter_eq_nil_iff]
    intro m hm
    obtain ⟨w, hw, hm⟩ := List.mem_flatMap.1 hm
    simp only [PerProvider.toList, List.mem_cons, List.not_mem_nil, or_false] at hw
    rcases hw with rfl | rfl | rfl
    · simp [(h.worker .aws).2.outcomes m hm]
    · simp [(h.worker .azure).2.outcomes m hm]
    · simp [(h.worker .gcp).2.outcomes m hm]
  have hbatcher : s.batcher.measurements.filter isOutcome = [] := by
    rw [List.filter_eq_nil_iff]
    intro m hm
    simp [h.batcher.outcomes m hm]
  rw [outcomes, measurements, List.filter_append, List.filter_append, hrouter, hworkers, hbatcher,
    List.append_nil, List.append_nil, tallied.router]

end State

end

end Flow

end Availability

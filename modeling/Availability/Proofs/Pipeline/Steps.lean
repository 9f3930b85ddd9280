import Availability.Flow.Pipeline
import Availability.Proofs.Batcher.Run

/-!
# The steps of the stages

All that a move can do, one case for each way in which it can go: `Intake.Step`, `Worker.Step`,
and `State.Step` for a whole pipeline. Whatever is said of every run goes through these.

* `Intake.step_of_step?`, `Worker.step_of_step?`, `State.step_of_step?`: a move that is made is one
  of the steps.
* `State.CoordinatorStep`: the steps of the coordinator, which makes no other moves.
* `Run.induction`: what holds at the start and is kept by every move holds after every run.
-/

namespace Availability.Flow

/-! ## The intake -/

namespace Intake

/-- The intake after its router is done with a message. -/
def settle (i : Intake) (r : Router) (v : Verdict) : Intake :=
  { i with
    router := r.settle v
    stats :=
      { i.stats with
        routed := i.stats.routed + if v.isRouted then 1 else 0
        dropped := i.stats.dropped + if v.isRouted then 0 else 1 } }

theorem follow_settle {i : Intake} {r : Router} (v : Verdict)
    (h : r.verdicts = i.router.verdicts) : i.follow (r.settle v) = i.settle r v := by
  unfold follow settle
  have hnew : (r.settle v).verdicts.drop i.router.verdicts.length = [v] := by
    simp [Router.settle, h]
  simp only [hnew]
  cases v <;> rfl

theorem follow_same {i : Intake} {r : Router} (h : r.verdicts = i.router.verdicts) :
    i.follow r = { i with router := r } := by
  simp [follow, h]

def receive (i : Intake) : Intake :=
  { i with stats := { i.stats with received := i.stats.received + 1 } }

def hold (i : Intake) (d : Dispatch) : Intake :=
  { i with router := { i.router with current := some d } }

/-- The intake with an item put into a queue. -/
def enqueue (i : Intake) (p : Provider) (source : ResolvedSource) : Intake :=
  i.settle
    { i.router with queues := i.router.queues.set p ((i.router.queues.get p).push source) }
    (.routed p)

/-- All that a move of the intake can do. -/
inductive Step (i : Intake) : Move → Intake → Prop where
  | malformed {m : InboundMessage} {fault : RequestFault} :
      i.isListening = true → i.cancelled = false → SourceRequest.decode m.payload = .error fault →
      Step i (.pull m) (i.receive.settle i.router .malformed)
  | asked {m : InboundMessage} {request : SourceRequest} :
      i.isListening = true → i.cancelled = false → SourceRequest.decode m.payload = .ok request →
      Step i (.pull m)
        { i.receive with router := i.router.proceed (.resolving request m.identity) }
  | streamEnded : i.isListening = true → i.cancelled = false →
      Step i .streamEnds (i.finish .ended)
  | stopped : i.isListening = true → i.cancelled = true → Step i .stop (i.finish .ended)
  | dropped {request : SourceRequest} {identity : Principal} {v : Verdict}
      {answer : Except Error ResolvedSource} :
      i.phase = .running → i.router.current = some (.resolving request identity) →
      Dispatch.ofLookup answer = .finished v → v.isRouted = false →
      Step i (.lookup answer) (i.settle i.router v)
  | resolved {request : SourceRequest} {identity : Principal} {p : Provider}
      {source : ResolvedSource} :
      i.phase = .running → i.router.current = some (.resolving request identity) →
      source.providerTag = .known p →
      Step i (.lookup (.ok source)) (i.hold (.sending p source))
  | crashed {request : SourceRequest} {identity : Principal} {text : String} :
      i.phase = .running → i.router.current = some (.resolving request identity) →
      Step i (.crash text) (i.finish (.crashed text))
  | entered {p : Provider} {source : ResolvedSource} :
      i.phase = .running → i.router.current = some (.sending p source) →
      (i.router.queues.get p).receiving = true →
      (i.router.queues.get p).items.length < (i.router.queues.get p).capacity →
      Step i .enqueue (i.enqueue p source)
  | refused {p : Provider} {source : ResolvedSource} :
      i.phase = .running → i.router.current = some (.sending p source) →
      (i.router.queues.get p).receiving = false →
      Step i .enqueue (i.settle i.router .queueClosed)

theorem phase_of_not_isOver {i : Intake} (h : i.isOver = false) : i.phase = .running := by
  unfold isOver at h
  split at h
  · assumption
  · cases h

theorem phase_of_isListening {i : Intake} (h : i.isListening = true) :
    i.phase = .running ∧ i.router.current = none := by
  simp only [isListening, Bool.and_eq_true, Bool.not_eq_true', Option.isNone_iff_eq_none] at h
  exact ⟨phase_of_not_isOver h.1, h.2⟩

section

variable {i j : Intake}

theorem step_of_pull {m : InboundMessage} (h : i.step? (.pull m) = some j) :
    Step i (.pull m) j := by
  simp only [step?] at h
  split at h
  · rename_i hready
    simp only [Bool.and_eq_true, Bool.not_eq_true'] at hready
    obtain ⟨hlistening, hcancelled⟩ := hready
    simp only [Router.step?, (phase_of_isListening hlistening).2, Option.map_some,
      Option.some.injEq] at h
    cases hdecode : SourceRequest.decode m.payload with
    | error fault =>
      simp only [Dispatch.start, hdecode, Router.proceed] at h
      obtain rfl := (follow_settle (i := i.receive) .malformed rfl).symm.trans h
      exact .malformed hlistening hcancelled hdecode
    | ok request =>
      simp only [Dispatch.start, hdecode] at h
      obtain rfl := (follow_same (i := i.receive)
        (r := i.router.proceed (.resolving request m.identity)) rfl).symm.trans h
      exact .asked hlistening hcancelled hdecode
  · cases h

theorem isRouted_of_ofLookup {answer : Except Error ResolvedSource} {v : Verdict}
    (h : Dispatch.ofLookup answer = .finished v) : v.isRouted = false := by
  unfold Dispatch.ofLookup at h
  split at h
  · cases h
    split <;> rfl
  · split at h <;> cases h <;> rfl

theorem ofLookup_ne_resolving (answer : Except Error ResolvedSource) (request : SourceRequest)
    (identity : Principal) : Dispatch.ofLookup answer ≠ .resolving request identity := by
  unfold Dispatch.ofLookup
  split
  · nofun
  · split <;> nofun

theorem step_of_lookup {answer : Except Error ResolvedSource}
    (h : i.step? (.lookup answer) = some j) : Step i (.lookup answer) j := by
  simp only [step?] at h
  split at h
  · cases h
  · rename_i hover
    have hphase := phase_of_not_isOver (Bool.eq_false_iff.2 hover)
    simp only [Router.step?] at h
    split at h
    · rename_i hcurrent
      simp only [Option.map_some, Option.some.injEq] at h
      cases hnext : Dispatch.ofLookup answer with
      | finished v =>
        rw [hnext, Router.proceed, follow_settle v rfl] at h
        obtain rfl := h
        exact .dropped hphase hcurrent hnext (isRouted_of_ofLookup hnext)
      | resolving => exact absurd hnext (ofLookup_ne_resolving _ _ _)
      | sending p source =>
        obtain ⟨rfl, htag⟩ := (Dispatch.ofLookup_sending_iff _ _ _).1 hnext
        simp only [hnext, Router.proceed] at h
        obtain rfl := (follow_same (i := i) (r := (i.hold (.sending p source)).router)
          rfl).symm.trans h
        exact .resolved hphase hcurrent htag
    · cases h

theorem step_of_enqueue (h : i.step? .enqueue = some j) : Step i .enqueue j := by
  simp only [step?] at h
  split at h
  · cases h
  · rename_i hover
    have hphase := phase_of_not_isOver (Bool.eq_false_iff.2 hover)
    simp only [Router.step?] at h
    split at h
    · rename_i p source hcurrent
      split at h
      · rename_i q hq
        obtain ⟨hopen, hroom, rfl⟩ := (Queue.offer_entered_iff _ _ _).1 hq
        simp only [Option.map_some, Option.some.injEq] at h
        obtain rfl := (follow_settle (i := i) (r := { i.router with
          queues := i.router.queues.set p ((i.router.queues.get p).push source) })
          (.routed p) rfl).symm.trans h
        exact .entered hphase hcurrent hopen hroom
      · rename_i hq
        rw [Option.map_some, follow_settle _ rfl] at h
        cases h
        exact .refused hphase hcurrent ((Queue.offer_refused_iff _ _).1 hq)
      · cases h
    · cases h

/-- A move of the intake that is made is one of its steps. -/
theorem step_of_step? {m : Move} (h : i.step? m = some j) : Step i m j := by
  cases m with
  | pull m => exact step_of_pull h
  | lookup answer => exact step_of_lookup h
  | enqueue => exact step_of_enqueue h
  | streamEnds =>
    simp only [step?] at h
    split at h
    · rename_i hready
      simp only [Bool.and_eq_true, Bool.not_eq_true'] at hready
      cases h
      exact .streamEnded hready.1 hready.2
    · cases h
  | stop =>
    simp only [step?] at h
    split at h
    · rename_i hready
      simp only [Bool.and_eq_true] at hready
      cases h
      exact .stopped hready.1 hready.2
    · cases h
  | crash text =>
    simp only [step?] at h
    split at h
    · rename_i hphase hcurrent
      cases h
      exact .crashed hphase hcurrent
    · cases h

theorem Step.running {m : Move} (h : Step i m j) : i.phase = .running := by
  cases h with
  | malformed hready => exact (phase_of_isListening hready).1
  | asked hready => exact (phase_of_isListening hready).1
  | streamEnded hready => exact (phase_of_isListening hready).1
  | stopped hready => exact (phase_of_isListening hready).1
  | dropped hphase => exact hphase
  | resolved hphase => exact hphase
  | crashed hphase => exact hphase
  | entered hphase => exact hphase
  | refused hphase => exact hphase

end

end Intake

/-! ## The workers -/

namespace Worker

def turn (w : Worker) (phase : WorkerPhase) : Worker := { w with phase := phase }

/-- The worker once it has begun to probe a source. -/
def begin (w : Worker) (source : ResolvedSource) : Worker :=
  { w with phase := .probing source, probed := w.probed ++ [source.authentication] }

/-- A worker that has come to an end lets go of the queues on both its sides. -/
def Bench.leave (b : Bench) (phase : WorkerPhase) : Bench :=
  ⟨b.worker.turn phase, b.inbox.close, b.outbox.dropSender⟩

/-- All that a move of a worker can do. -/
inductive Step (b : Bench) : Move → Bench → Prop where
  | took {source : ResolvedSource} {rest : List ResolvedSource} :
      b.worker.phase = .waiting → b.inbox.items = source :: rest →
      Step b .take
        { b with worker := b.worker.begin source, inbox := { b.inbox with items := rest } }
  | probed {source : ResolvedSource} {answer : Except Error Unit} :
      b.worker.phase = .probing source →
      Step b (.probed answer) { b with worker := b.worker.record (resultOf source answer) }
  | crashed {source : ResolvedSource} {text : String} :
      b.worker.phase = .probing source → Step b (.crash text) (b.leave (.crashed text))
  | entered {r : ProbeResult} :
      b.worker.phase = .offering r → b.outbox.receiving = true →
      b.outbox.items.length < b.outbox.capacity →
      Step b .offer { b with worker := b.worker.turn .waiting, outbox := b.outbox.push r }
  | refused {r : ProbeResult} :
      b.worker.phase = .offering r → b.outbox.receiving = false →
      Step b .offer { b with worker := b.worker.lose }
  | finished :
      b.worker.phase = .waiting → b.inbox.atEnd = true → Step b .finish (b.leave .ended)

/-- A move of a worker that is made is one of its steps. -/
theorem step_of_step? {b b' : Bench} {m : Move} (h : step? b m = some b') : Step b m b' := by
  cases m with
  | take =>
    simp only [step?] at h
    split at h
    · rename_i source inbox hphase hpop
      unfold Queue.pop? at hpop
      split at hpop
      · cases hpop
      · rename_i hitems
        cases hpop
        cases h
        exact .took hphase hitems
    · cases h
  | probed answer =>
    simp only [step?] at h
    split at h
    · rename_i hphase
      cases h
      exact .probed hphase
    · cases h
  | crash text =>
    simp only [step?] at h
    split at h
    · rename_i hphase
      cases h
      exact .crashed hphase
    · cases h
  | offer =>
    simp only [step?] at h
    split at h
    · rename_i r hphase
      split at h
      · rename_i q hq
        obtain ⟨hopen, hroom, rfl⟩ := (Queue.offer_entered_iff _ _ _).1 hq
        cases h
        exact .entered hphase hopen hroom
      · rename_i hq
        cases h
        exact .refused hphase ((Queue.offer_refused_iff _ _).1 hq)
      · cases h
    · cases h
  | finish =>
    simp only [step?] at h
    split at h
    · rename_i hphase
      split at h
      · rename_i hend
        cases h
        exact .finished hphase hend
      · cases h
    · cases h

theorem Step.at_work {b b' : Bench} {m : Move} (h : Step b m b') : b.worker.isOver = false := by
  cases h with
  | took hphase => simp [isOver, hphase]
  | probed hphase => simp [isOver, hphase]
  | crashed hphase => simp [isOver, hphase]
  | entered hphase => simp [isOver, hphase]
  | refused hphase => simp [isOver, hphase]
  | finished hphase => simp [isOver, hphase]

end Worker

/-! ## The pipeline -/

namespace State

/-- All that a move of a pipeline can do. -/
inductive Step (s : State) : Move → State → Prop where
  | intake {m : Intake.Move} {i : Intake} :
      Intake.Step s.intake m i → Step s (.intake m) { s with intake := i }
  | worker {p : Provider} {m : Worker.Move} {b : Worker.Bench} :
      Worker.Step (s.bench p) m b → Step s (.worker p m) (s.putBench p b)
  | batcher {m : Batcher.Move} {b : Batcher.Bench} :
      Batcher.Bench.Step s.batcherBench (.own m) b → Step s (.batcher m) (s.putBatcherBench b)
  | coordinator {m : CoordinatorMove} {t : State} :
      s.coordinatorStep? m = some t → Step s (.coordinator m) t
  | signal : Step s .signal { s with signalled := true }
  | elapse {ms : Nat} : Step s (.elapse ms) { s with now := s.now + ms }

/-- A move of a pipeline that is made is one of its steps. -/
theorem step_of_step? {s t : State} {m : Move} (h : s.step? m = some t) : Step s m t := by
  cases m with
  | intake m =>
    obtain ⟨i, hi, rfl⟩ := Option.map_eq_some_iff.1 h
    exact .intake (Intake.step_of_step? hi)
  | worker p m =>
    obtain ⟨b, hb, rfl⟩ := Option.map_eq_some_iff.1 h
    exact .worker (Worker.step_of_step? hb)
  | batcher m =>
    obtain ⟨b, hb, rfl⟩ := Option.map_eq_some_iff.1 h
    exact .batcher (Batcher.Bench.step_of_event? (e := .own m) hb)
  | coordinator m => exact .coordinator h
  | signal =>
    cases h
    exact .signal
  | elapse ms =>
    cases h
    exact .elapse

section Coordinator

variable {s t : State}

/-- Whether there is a reason to begin to drain. -/
def triggered (s : State) : Reason → Prop
  | .signal => s.signalled = true
  | .consumerExited => s.intake.isOver = true

/-- All that a move of the coordinator can do. -/
inductive CoordinatorStep (s : State) : CoordinatorMove → State → Prop where
  | sawSignal : s.coordinator.phase = .watching → s.triggered .signal →
      CoordinatorStep s .seeSignal (s.beginDrain .signal)
  | sawExit : s.coordinator.phase = .watching → s.triggered .consumerExited →
      CoordinatorStep s .seeExit (s.beginDrain .consumerExited)
  | finished {reason : Reason} {deadline : Nat} :
      s.coordinator.phase = .draining reason deadline → s.allOver = true →
      CoordinatorStep s .finish (s.endWith (s.drained reason))
  | gaveUp {reason : Reason} {deadline : Nat} :
      s.coordinator.phase = .draining reason deadline → deadline ≤ s.now → s.allOver = false →
      CoordinatorStep s .giveUp (s.endWith (.error s.overdue))

theorem coordinatorStep?_eq_some_iff {k : CoordinatorMove} :
    s.coordinatorStep? k = some t ↔ CoordinatorStep s k t := by
  constructor
  · intro h
    cases k with
    | seeSignal =>
      simp only [coordinatorStep?] at h
      split at h
      · rename_i hphase
        split at h
        · rename_i hsignalled
          cases h
          exact .sawSignal hphase hsignalled
        · cases h
      · cases h
    | seeExit =>
      simp only [coordinatorStep?] at h
      split at h
      · rename_i hphase
        split at h
        · rename_i hover
          cases h
          exact .sawExit hphase hover
        · cases h
      · cases h
    | finish =>
      simp only [coordinatorStep?] at h
      split at h
      · rename_i hphase
        split at h
        · rename_i hover
          cases h
          exact .finished hphase hover
        · cases h
      · cases h
    | giveUp =>
      simp only [coordinatorStep?] at h
      split at h
      · rename_i hphase
        split at h
        · rename_i hlate
          simp only [Bool.and_eq_true, decide_eq_true_eq, Bool.not_eq_true'] at hlate
          cases h
          exact .gaveUp hphase hlate.1 hlate.2
        · cases h
      · cases h
  · intro h
    cases h with
    | sawSignal hphase hsignalled =>
      simp only [triggered] at hsignalled
      simp [coordinatorStep?, hphase, hsignalled]
    | sawExit hphase hover =>
      simp only [triggered] at hover
      simp [coordinatorStep?, hphase, hover]
    | finished hphase hover => simp [coordinatorStep?, hphase, hover]
    | gaveUp hphase hlate hover => simp [coordinatorStep?, hphase, hlate, hover]

theorem CoordinatorStep.not_done {k : CoordinatorMove} (h : CoordinatorStep s k t)
    (r : Except Error Report) : s.coordinator.phase ≠ .done r := by
  cases h with
  | sawSignal hphase => simp [hphase]
  | sawExit hphase => simp [hphase]
  | finished hphase => simp [hphase]
  | gaveUp hphase => simp [hphase]

end Coordinator

/-- The coordinator leaves the stages alone, apart from telling the intake to stop. -/
theorem coordinatorStep?_frame {s t : State} {m : CoordinatorMove}
    (h : s.coordinatorStep? m = some t) : ∃ cancelled c,
      t = { s with intake := { s.intake with cancelled := cancelled }, coordinator := c } := by
  cases m <;> simp only [coordinatorStep?] at h <;> split at h <;> try cases h
  all_goals
    split at h <;> cases h
    exact ⟨_, _, rfl⟩

section Bench

variable (s : State) (p : Provider) (b : Worker.Bench)

@[simp] theorem queue_putBench_same : (s.putBench p b).queue p = b.inbox :=
  PerProvider.get_set_same _ _ _

@[simp] theorem workers_putBench_same : (s.putBench p b).workers.get p = b.worker :=
  PerProvider.get_set_same _ _ _

variable {p} {q : Provider}

theorem queue_putBench_other (h : q ≠ p) : (s.putBench p b).queue q = s.queue q :=
  PerProvider.get_set_other _ _ h

theorem workers_putBench_other (h : q ≠ p) :
    (s.putBench p b).workers.get q = s.workers.get q :=
  PerProvider.get_set_other _ _ h

/-- What holds of the bench that is put back, and of the others as they were, holds of all. -/
theorem forall_putBench {P : Provider → Queue ResolvedSource → Worker → Prop}
    (hsame : P p b.inbox b.worker) (hother : ∀ q, q ≠ p → P q (s.queue q) (s.workers.get q))
    (q : Provider) : P q ((s.putBench p b).queue q) ((s.putBench p b).workers.get q) := by
  by_cases hqp : q = p
  · subst hqp
    rw [queue_putBench_same, workers_putBench_same]
    exact hsame
  · rw [queue_putBench_other _ _ hqp, workers_putBench_other _ _ hqp]
    exact hother q hqp

end Bench

end State

/-! ## Runs -/

theorem Run.snoc {s t u : State} {ms : List State.Move} {m : State.Move} (run : Run s ms t)
    (h : t.step? m = some u) : Run s (ms ++ [m]) u :=
  run.append (.cons h (.nil u))

theorem Run.of_append {s u : State} {xs ys : List State.Move} (run : Run s (xs ++ ys) u) :
    ∃ t, Run s xs t ∧ Run t ys u := by
  induction xs generalizing s with
  | nil => exact ⟨s, .nil s, run⟩
  | cons m xs ih =>
    cases run with
    | cons hm rest =>
      obtain ⟨t, before, after⟩ := ih rest
      exact ⟨t, .cons hm before, after⟩

/-- The moves decide where a run leads. -/
theorem Run.unique {s t u : State} {ms : List State.Move} (run : Run s ms t) (other : Run s ms u) :
    t = u := by
  induction run with
  | nil =>
    cases other
    rfl
  | cons hm _ ih =>
    cases other with
    | cons hm' rest =>
      cases hm.symm.trans hm'
      exact ih rest

theorem Run.of_foldlM {s t : State} {ms : List State.Move} (h : ms.foldlM State.step? s = some t) :
    Run s ms t := by
  induction ms generalizing s with
  | nil =>
    cases h
    exact .nil _
  | cons m ms ih =>
    obtain ⟨u, hm, rest⟩ := Option.bind_eq_some_iff.1 h
    exact .cons hm (ih rest)

/-- What holds at the start and is kept by every move, whatever came before, holds after every
run. -/
theorem Run.induction {s : State} {motive : List State.Move → State → Prop}
    (start : motive [] s)
    (step : ∀ ms t m u, Run s ms t → motive ms t → t.step? m = some u → motive (ms ++ [m]) u)
    {ms : List State.Move} {t : State} (run : Run s ms t) : motive ms t := by
  have after : ∀ {t u : State} {more : List State.Move}, Run t more u →
      ∀ before, Run s before t → motive before t → motive (before ++ more) u := by
    intro t u more rest
    induction rest with
    | nil => intro before _ h; rwa [List.append_nil]
    | @cons t v u m ms hm _ ih =>
      intro before reached h
      rw [← List.singleton_append, ← List.append_assoc]
      exact ih _ (reached.snoc hm) (step _ _ _ _ reached h hm)
  exact after run [] (.nil s) start

end Availability.Flow

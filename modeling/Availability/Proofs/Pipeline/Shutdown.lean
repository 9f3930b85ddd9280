import Availability.Proofs.Pipeline.Ending

/-!
# How a pipeline is shut down

The coordinator watches until the signal is given or the intake has come to an end, begins to
drain, and stops when all stages have come to an end or the deadline has come. It does nothing
else, and each of these once.

* `Run.steered`: the coordinator at every moment of every run, one case for each way in which it
  can have come to its phase (`Steered`).
* `Prompt.timely`: on a prompt clock the drain begins when it is triggered and stops by its
  deadline.
* `Supervised`, `Run.supervised`: the rule of the shutdown as a whole.
-/

namespace Availability.Flow

namespace State

variable {s t u : State} {m : Move}

/-! ## What a move leaves as it is -/

/-- The settings never change, and a reason to drain does not go away. -/
theorem Step.settings_eq (h : Step s m t) : t.settings = s.settings := by
  cases h with
  | coordinator hc =>
    obtain ⟨_, _, rfl⟩ := coordinatorStep?_frame hc
    rfl
  | _ => rfl

theorem Step.triggered (h : Step s m t) {reason : Reason} (htriggered : s.triggered reason) :
    t.triggered reason := by
  cases h with
  | intake hi =>
    cases reason with
    | signal => exact htriggered
    | consumerExited => simp [State.triggered, Intake.isOver, hi.running] at htriggered
  | signal =>
    cases reason with
    | signal => rfl
    | consumerExited => exact htriggered
  | coordinator hc =>
    obtain ⟨_, _, rfl⟩ := coordinatorStep?_frame hc
    cases reason <;> exact htriggered
  | _ => cases reason <;> exact htriggered

/-- A move is one of the coordinator or leaves it alone. -/
theorem Step.coordinator_cases (h : Step s m t) :
    (∃ k, m = .coordinator k ∧ CoordinatorStep s k t) ∨
      ((∀ k, m ≠ .coordinator k) ∧ t.coordinator = s.coordinator ∧
        t.intake.cancelled = s.intake.cancelled) := by
  cases h with
  | coordinator hc => exact .inl ⟨_, rfl, coordinatorStep?_eq_some_iff.1 hc⟩
  | intake hi => cases hi <;> exact .inr ⟨nofun, rfl, rfl⟩
  | _ => exact .inr ⟨nofun, rfl, rfl⟩

/-! ## The phases of the coordinator -/

/-- The reason for which a move begins the drain, if it does. -/
def Move.seen? : Move → Option Reason
  | .coordinator .seeSignal => some .signal
  | .coordinator .seeExit => some .consumerExited
  | _ => none

/-- The reasons for which a run has begun to drain. -/
def seen (ms : List Move) : List Reason := ms.filterMap Move.seen?

/-- How the coordinator can have come to its phase. -/
inductive Steered (ms : List Move) (s : State) : CoordinatorPhase → Prop where
  | watching : seen ms = [] → s.coordinator.published = [.running] →
      s.intake.cancelled = false → Steered ms s .watching
  | draining {reason : Reason} {deadline : Nat} :
      seen ms = [reason] → s.triggered reason →
      s.coordinator.published = [.running, .draining] → s.intake.cancelled = true →
      Steered ms s (.draining reason deadline)
  | overdue {reason : Reason} :
      seen ms = [reason] → s.triggered reason →
      s.coordinator.published = [.running, .draining, .stopped] → s.intake.cancelled = true →
      Steered ms s (.done (.error s.overdue))
  | drained {reason : Reason} :
      seen ms = [reason] → s.triggered reason →
      s.coordinator.published = [.running, .draining, .stopped] → s.intake.cancelled = true →
      s.allOver = true → Steered ms s (.done (s.drained reason))

theorem Steered.other {ms : List Move} (h : Steered ms s s.coordinator.phase) (hstep : Step s m t)
    (hm : ∀ k, m ≠ .coordinator k) (hsame : t.coordinator = s.coordinator)
    (hcancelled : t.intake.cancelled = s.intake.cancelled) :
    Steered (ms ++ [m]) t t.coordinator.phase := by
  have hseen : seen (ms ++ [m]) = seen ms := by
    rw [seen, filterMap_snoc]
    cases m with
    | coordinator k => exact absurd rfl (hm k)
    | _ => exact List.append_nil _
  have hphase : t.coordinator.phase = s.coordinator.phase := by rw [hsame]
  rw [hphase]
  generalize s.coordinator.phase = phase at h
  cases h with
  | watching hnone hpublished hno =>
    exact .watching (hseen.trans hnone) (hsame ▸ hpublished) (hcancelled.trans hno)
  | draining hone htriggered hpublished hyes =>
    exact .draining (hseen.trans hone) (hstep.triggered htriggered) (hsame ▸ hpublished)
      (hcancelled.trans hyes)
  | overdue hone htriggered hpublished hyes =>
    have hsettings : s.overdue = t.overdue := by rw [State.overdue, ← hstep.settings_eq]; rfl
    rw [hsettings]
    exact .overdue (hseen.trans hone) (hstep.triggered htriggered) (hsame ▸ hpublished)
      (hcancelled.trans hyes)
  | drained hone htriggered hpublished hyes hover =>
    -- what the drain came to is still there to be read off the stages
    obtain ⟨k, rfl, -⟩ | ⟨_, _, rfl⟩ := hstep.of_allOver hover
    · exact absurd rfl (hm k)
    · exact .drained (hseen.trans hone) (hstep.triggered htriggered) hpublished hyes hover

theorem Steered.coordinator {ms : List Move} {k : CoordinatorMove}
    (h : Steered ms s s.coordinator.phase) (hstep : CoordinatorStep s k t) :
    Steered (ms ++ [.coordinator k]) t t.coordinator.phase := by
  have hseen : seen (ms ++ [.coordinator k]) =
      seen ms ++ (Move.seen? (.coordinator k)).toList := filterMap_snoc _ _ _
  cases hstep with
  | sawSignal hphase htriggered =>
    rw [hphase] at h
    cases h with
    | watching hnone hpublished =>
      exact .draining (hseen.trans (by rw [hnone]; rfl)) htriggered
        (by rw [beginDrain, hpublished]; rfl) rfl
  | sawExit hphase htriggered =>
    rw [hphase] at h
    cases h with
    | watching hnone hpublished =>
      exact .draining (hseen.trans (by rw [hnone]; rfl)) htriggered
        (by rw [beginDrain, hpublished]; rfl) rfl
  | @finished reason _ hphase hover =>
    rw [hphase] at h
    cases h with
    | draining hone htriggered hpublished hyes =>
      have hstill : (s.endWith (s.drained reason)).triggered reason := by
        cases reason <;> exact htriggered
      refine .drained (hseen.trans ?_) hstill ?_ hyes hover
      · rw [hone]; rfl
      · rw [endWith, hpublished]; rfl
  | @gaveUp reason _ hphase =>
    rw [hphase] at h
    cases h with
    | draining hone htriggered hpublished hyes =>
      have hstill : (s.endWith (.error s.overdue)).triggered reason := by
        cases reason <;> exact htriggered
      refine .overdue (hseen.trans ?_) hstill ?_ hyes
      · rw [hone]; rfl
      · rw [endWith, hpublished]; rfl

end State

open State

/-- **How the coordinator came to its phase**, at every moment of every run. -/
theorem Run.steered {c : Settings} {ms : List State.Move} {s : State}
    (run : Run (State.start c) ms s) : Steered ms s s.coordinator.phase := by
  refine run.induction (motive := fun ms s => Steered ms s s.coordinator.phase)
    (.watching rfl rfl rfl) fun ms s m t _ ih hm => ?_
  have hstep := step_of_step? hm
  obtain ⟨k, rfl, hk⟩ | ⟨hother, hsame, hcancelled⟩ := hstep.coordinator_cases
  · exact ih.coordinator hk
  · exact ih.other hstep hother hsame hcancelled

/-! ## What the shutdown comes to -/

namespace State

variable {s t u : State} {m : Move}

theorem internal_of_failure? {e : Error} (h : s.failure? = some e) :
    ∃ text, e = .internal text := by
  simp only [failure?, Option.orElse_eq_orElse, Option.orElse_eq_or, Option.or_eq_some_iff] at h
  rcases h with h | ⟨-, h | ⟨-, h | ⟨-, h | ⟨-, h⟩⟩⟩⟩
  all_goals
    split at h <;> cases h
    exact ⟨_, rfl⟩

theorem drained_ok_iff {reason : Reason} : (∃ report, s.drained reason = .ok report) ↔ s.Calm := by
  rw [← failure?_eq_none_iff]
  unfold drained
  cases s.failure? <;> simp

theorem drained_internal_iff {reason : Reason} :
    (∃ text, s.drained reason = .error (.internal text)) ↔ ¬ s.Calm := by
  rw [← failure?_eq_none_iff]
  unfold drained
  cases hfailure : s.failure? with
  | none => simp
  | some e =>
    obtain ⟨text, rfl⟩ := internal_of_failure? hfailure
    simp

theorem drained_ne_pipeline {reason : Reason} (text : String) :
    s.drained reason ≠ .error (.pipeline text) := by
  unfold drained
  cases hfailure : s.failure? with
  | none => simp
  | some e =>
    obtain ⟨text, rfl⟩ := internal_of_failure? hfailure
    simp

theorem reason_of_drained {reason : Reason} {report : Report}
    (h : s.drained reason = .ok report) : report.reason = reason := by
  unfold drained at h
  split at h
  · cases h
  · cases h
    rfl

/-- What the pipeline comes to when it stops at `s`, and that it has stopped then. -/
structure Stop (s t : State) (r : Except Error Report) : Prop where
  overdue : (∃ text, r = .error (.pipeline text)) ↔ s.allOver = false
  failed : (∃ text, r = .error (.internal text)) ↔ s.allOver = true ∧ ¬ s.Calm
  reported : (∃ report, r = .ok report) ↔ s.allOver = true ∧ s.Calm
  /-- Nothing is looked up, probed or sent any more, unless the stages were given up on. -/
  quiet : s.allOver = true → ∀ ms u, Run t ms u →
    u.intake = t.intake ∧ u.workers = t.workers ∧ u.batcher = t.batcher

theorem phase_of_result? {r : Except Error Report} (h : s.result? = some r) :
    s.coordinator.phase = .done r := by
  unfold result? at h
  split at h
  · cases h
    assumption
  · cases h

theorem quiet_of_done {r : Except Error Report} {ms : List Move} (run : Run s ms u)
    (hdone : s.result? = some r) (hover : s.allOver = true) :
    u.intake = s.intake ∧ u.workers = s.workers ∧ u.batcher = s.batcher := by
  induction run with
  | nil => exact ⟨rfl, rfl, rfl⟩
  | @cons s t u m ms hm _ ih =>
    obtain ⟨k, rfl, hk⟩ | ⟨_, _, rfl⟩ := (step_of_step? hm).of_allOver hover
    · exact absurd (phase_of_result? hdone) ((coordinatorStep?_eq_some_iff.1 hk).not_done r)
    · exact ih hdone hover

theorem result?_of_done {r : Except Error Report} {ms : List Move} (run : Run s ms u)
    (hdone : s.result? = some r) : u.result? = some r := by
  induction run with
  | nil => exact hdone
  | @cons s t u m ms hm _ ih =>
    apply ih
    obtain ⟨k, rfl, hk⟩ | ⟨-, hsame, -⟩ := (step_of_step? hm).coordinator_cases
    · exact absurd (phase_of_result? hdone) (hk.not_done r)
    · rw [result?, hsame]
      exact hdone

/-- The pipeline stops by a move of the coordinator that finds all stages over or comes late. -/
theorem Step.stop (h : Step s m t) {r : Except Error Report} (hnone : s.result? = none)
    (hdone : t.result? = some r) :
    (∃ reason, s.allOver = true ∧ r = s.drained reason ∧ t = s.endWith r) ∨
      ∃ reason deadline, s.coordinator.phase = .draining reason deadline ∧ deadline ≤ s.now ∧
        s.allOver = false ∧ r = .error s.overdue := by
  cases h with
  | coordinator hc =>
    cases coordinatorStep?_eq_some_iff.1 hc with
    | sawSignal => cases hdone
    | sawExit => cases hdone
    | finished hphase hover =>
      cases hdone
      exact .inl ⟨_, hover, rfl, rfl⟩
    | gaveUp hphase hlate hover =>
      cases hdone
      exact .inr ⟨_, _, hphase, hlate, hover, rfl⟩
  | _ => exact absurd (hnone.symm.trans hdone) (by simp)

theorem Step.stops (h : Step s m t) {r : Except Error Report} (hnone : s.result? = none)
    (hdone : t.result? = some r) : Stop s t r := by
  obtain ⟨reason, hover, rfl, rfl⟩ | ⟨_, _, -, -, hover, rfl⟩ := h.stop hnone hdone
  · refine ⟨?_, ?_, ?_, fun _ ms u run => quiet_of_done run hdone hover⟩
    · simp [hover, drained_ne_pipeline]
    · simp [hover, drained_internal_iff]
    · simp [hover, drained_ok_iff]
  · refine ⟨?_, ?_, ?_, fun hall => ?_⟩
    · simp [hover, State.overdue]
    · simp [hover, State.overdue]
    · simp [hover]
    · rw [hover] at hall
      cases hall

/-! ## The clock -/

/-- The moment by which a drain that begins now must be over. -/
def limit (s : State) : Nat := s.now + s.settings.shutdownTimeoutSecs * 1000

theorem isBusy_of_coordinator {k : CoordinatorMove} (h : s.coordinatorStep? k = some t) :
    s.isBusy = true := by
  have hcan : (s.step? (.coordinator k)).isSome = true := by
    rw [show s.step? (.coordinator k) = some t from h]
    rfl
  cases k <;> simp [isBusy, hcan]

theorem untilTimer?_le_deadline {reason : Reason} {deadline : Nat}
    (h : s.coordinator.phase = .draining reason deadline) :
    ∃ n, s.untilTimer? = some n ∧ n ≤ deadline - s.now := by
  simp only [untilTimer?, h]
  split
  · rename_i hdeadline
    cases hdeadline
    exact ⟨_, rfl, Nat.min_le_right _ _⟩
  · rename_i hdeadline
    cases hdeadline
  · exact ⟨_, rfl, Nat.le_refl _⟩

theorem Step.now_eq (h : Step s m t) (hm : ∀ n, m ≠ .elapse n) : t.now = s.now := by
  cases h with
  | coordinator hc =>
    obtain ⟨_, _, rfl⟩ := coordinatorStep?_frame hc
    rfl
  | elapse => exact absurd rfl (hm _)
  | _ => rfl

/-- Whenever there is a reason to drain, the coordinator begins at once. -/
theorem begins_of_triggered (hphase : s.coordinator.phase = .watching) {reason : Reason}
    (h : s.triggered reason) : ∃ k, s.coordinatorStep? k = some (s.beginDrain reason) := by
  cases reason with
  | signal => exact ⟨_, coordinatorStep?_eq_some_iff.2 (.sawSignal hphase h)⟩
  | consumerExited => exact ⟨_, coordinatorStep?_eq_some_iff.2 (.sawExit hphase h)⟩

theorem ends_of_draining {reason : Reason} {deadline : Nat}
    (hphase : s.coordinator.phase = .draining reason deadline)
    (h : s.allOver = true ∨ deadline ≤ s.now) :
    ∃ k r, s.coordinatorStep? k = some (s.endWith r) := by
  by_cases hover : s.allOver = true
  · exact ⟨_, _, coordinatorStep?_eq_some_iff.2 (.finished hphase hover)⟩
  · have hlate := h.resolve_left hover
    exact ⟨_, _, coordinatorStep?_eq_some_iff.2 (.gaveUp hphase hlate (Bool.eq_false_iff.2 hover))⟩

/-- The drain begins at the moment it is triggered, and is over by `limit`. -/
structure Timely (limit : Nat) (s : State) : Prop where
  watching : s.coordinator.phase = .watching → s.limit = limit ∧ ∃ reason, s.triggered reason
  draining : ∀ reason deadline, s.coordinator.phase = .draining reason deadline →
    deadline = limit ∧ s.now ≤ limit

theorem Timely.elapse {limit n : Nat} (h : Timely limit s) (hidle : s.isBusy = false)
    (htimer : ∀ d, s.untilTimer? = some d → n ≤ d) :
    Timely limit { s with now := s.now + n } := by
  constructor
  · intro (hphase : s.coordinator.phase = .watching)
    obtain ⟨-, reason, htriggered⟩ := h.watching hphase
    obtain ⟨k, hk⟩ := begins_of_triggered hphase htriggered
    rw [isBusy_of_coordinator hk] at hidle
    cases hidle
  · intro reason deadline (hphase : s.coordinator.phase = .draining reason deadline)
    obtain ⟨rfl, hnow⟩ := h.draining reason deadline hphase
    obtain ⟨d, hd, hle⟩ := untilTimer?_le_deadline hphase
    have hn := htimer d hd
    refine ⟨rfl, ?_⟩
    show s.now + n ≤ deadline
    omega

theorem Timely.beginDrain {limit : Nat} (h : Timely limit s)
    (hphase : s.coordinator.phase = .watching) (reason : Reason) :
    Timely limit (s.beginDrain reason) := by
  obtain ⟨rfl, -⟩ := h.watching hphase
  refine ⟨nofun, fun _ _ hdraining => ?_⟩
  cases hdraining
  exact ⟨rfl, Nat.le_add_right _ _⟩

theorem Timely.now_le {limit : Nat} (h : Timely limit s) (hnone : s.result? = none) :
    s.now ≤ limit := by
  cases hphase : s.coordinator.phase with
  | watching =>
    obtain ⟨rfl, -⟩ := h.watching hphase
    exact Nat.le_add_right _ _
  | draining reason deadline => exact (h.draining reason deadline hphase).2
  | done r => simp [result?, hphase] at hnone

/-- The coordinator gives up on the stages at the limit and no earlier. -/
theorem Timely.overdue {limit : Nat} {text : String} (h : Timely limit s) (hstep : Step s m t)
    (hnone : s.result? = none) (hdone : t.result? = some (.error (.pipeline text))) :
    s.now = limit := by
  obtain ⟨reason, -, hdrained, -⟩ | ⟨reason, deadline, hphase, hlate, -⟩ := hstep.stop hnone hdone
  · exact absurd hdrained.symm (drained_ne_pipeline text)
  · obtain ⟨rfl, hnow⟩ := h.draining reason deadline hphase
    exact Nat.le_antisymm hnow hlate

theorem Timely.step {limit : Nat} (h : Timely limit s) (hstep : Step s m t)
    (hclock : ∀ n, m = .elapse n → s.isBusy = false ∧ ∀ d, s.untilTimer? = some d → n ≤ d) :
    Timely limit t := by
  cases hstep with
  | elapse =>
    obtain ⟨hidle, htimer⟩ := hclock _ rfl
    exact h.elapse hidle htimer
  | coordinator hc =>
    cases coordinatorStep?_eq_some_iff.1 hc with
    | sawSignal hphase => exact h.beginDrain hphase .signal
    | sawExit hphase => exact h.beginDrain hphase .consumerExited
    | finished => exact ⟨nofun, nofun⟩
    | gaveUp => exact ⟨nofun, nofun⟩
  | intake hi =>
    have hstep := Step.intake hi
    refine ⟨fun hphase => ?_, h.draining⟩
    obtain ⟨hlimit, reason, htriggered⟩ := h.watching hphase
    exact ⟨hlimit, reason, hstep.triggered htriggered⟩
  | signal =>
    refine ⟨fun hphase => ?_, h.draining⟩
    exact ⟨(h.watching hphase).1, .signal, rfl⟩
  | worker => exact ⟨h.watching, h.draining⟩
  | batcher => exact ⟨h.watching, h.draining⟩

end State

/-- **The drain is prompt**: after it was triggered at `t`, the time does not go beyond its limit
before the pipeline has stopped. -/
theorem Prompt.timely {ms : List State.Move} {limit : Nat} {t s : State} (prompt : Prompt t ms s)
    (h : Timely limit t) : Timely limit s := by
  induction prompt with
  | nil => exact h
  | cons hm hclock _ ih => exact ih (h.step (step_of_step? hm) hclock)

/-! ## The rule of the shutdown -/

/-- What is said by a phase of the coordinator, and before. -/
def CoordinatorPhase.said : CoordinatorPhase → List Stage
  | .watching => [.running]
  | .draining _ _ => [.running, .draining]
  | .done _ => [.running, .draining, .stopped]

/-- How a pipeline is shut down, at a moment of a run. -/
structure Supervised (c : Settings) (ms : List State.Move) (s : State) : Prop where
  published : s.coordinator.published = s.coordinator.phase.said
  triggered : .draining ∈ s.coordinator.published → s.signalled = true ∨ s.intake.isOver = true
  reason : ∀ report, s.result? = some (.ok report) →
    (report.reason = .consumerExited ↔ .coordinator .seeExit ∈ ms)
  begins : s.coordinator.phase = .watching → ∀ reason, s.triggered reason →
    ∃ k, s.step? (.coordinator k) = some (s.beginDrain reason)
  ends : ∀ reason deadline, s.coordinator.phase = .draining reason deadline →
    s.allOver = true ∨ deadline ≤ s.now → ∃ k r, s.step? (.coordinator k) = some (s.endWith r)
  stops : ∀ m t r, s.step? m = some t → s.result? = none → t.result? = some r → Stop s t r
  /-- When the drain was triggered at `t` and the clock has been prompt since, the pipeline stops
  by the limit, and gives up on its stages no earlier. -/
  timely : ∀ before t after, ms = before ++ after → Run (State.start c) before t →
    t.coordinator.phase = .watching → ∀ reason, t.triggered reason → Prompt t after s →
      s.result? = none → s.now ≤ t.now + c.shutdownTimeoutSecs * 1000 ∧
        ∀ m u text, s.step? m = some u → u.result? = some (.error (.pipeline text)) →
          s.now = t.now + c.shutdownTimeoutSecs * 1000

theorem seeExit_mem_iff {ms : List State.Move} :
    .coordinator .seeExit ∈ ms ↔ .consumerExited ∈ seen ms := by
  simp only [seen, List.mem_filterMap]
  constructor
  · intro hmem
    exact ⟨_, hmem, rfl⟩
  · rintro ⟨m, hmem, hseen⟩
    unfold Move.seen? at hseen
    split at hseen <;> cases hseen
    exact hmem

theorem Run.settings_eq {c : Settings} {ms : List State.Move} {s : State}
    (run : Run (State.start c) ms s) : s.settings = c :=
  run.induction (motive := fun _ s => s.settings = c) rfl
    fun _ _ _ _ _ h hm => (step_of_step? hm).settings_eq.trans h

/-- **How a pipeline is shut down**, at every moment of every run. -/
theorem Run.supervised {c : Settings} {ms : List State.Move} {s : State}
    (run : Run (State.start c) ms s) : Supervised c ms s := by
  have steered := run.steered
  refine ⟨?_, ?_, ?_, ?_, ?_, ?_, ?_⟩
  · generalize s.coordinator.phase = phase at steered
    cases steered <;> assumption
  · intro hsaid
    generalize s.coordinator.phase = phase at steered
    cases steered with
    | watching _ hpublished => simp [hpublished] at hsaid
    | @draining reason _ _ htriggered => cases reason <;> simp_all [State.triggered]
    | @overdue reason _ htriggered => cases reason <;> simp_all [State.triggered]
    | @drained reason _ htriggered => cases reason <;> simp_all [State.triggered]
  · intro report hresult
    have hphase := phase_of_result? hresult
    rw [seeExit_mem_iff]
    generalize s.coordinator.phase = phase at steered hphase
    cases steered with
    | drained hone =>
      have hreason := reason_of_drained (CoordinatorPhase.done.inj hphase)
      rw [hone, List.mem_singleton, hreason, eq_comm]
    | _ => cases hphase
  · exact fun hphase reason htriggered => begins_of_triggered hphase htriggered
  · exact fun reason deadline hphase h => ends_of_draining hphase h
  · exact fun m t r hm hnone hdone => (step_of_step? hm).stops hnone hdone
  · rintro before t after - hbefore hphase reason htriggered prompt hnone
    have timely : Timely t.limit s := by
      refine prompt.timely ⟨fun _ => ⟨rfl, reason, htriggered⟩, fun _ _ hdraining => ?_⟩
      rw [hphase] at hdraining
      cases hdraining
    rw [State.limit, hbefore.settings_eq] at timely
    exact ⟨timely.now_le hnone, fun m u text hm hdone =>
      timely.overdue (step_of_step? hm) hnone hdone⟩

/-! ## A run that is given up on -/

theorem State.step?_giveUp {s : State} {reason : Reason} {deadline : Nat}
    (hphase : s.coordinator.phase = .draining reason deadline) (hlate : deadline ≤ s.now)
    (hover : s.allOver = false) :
    s.step? (.coordinator .giveUp) = some (s.endWith (.error s.overdue)) :=
  coordinatorStep?_eq_some_iff.2 (.gaveUp hphase hlate hover)

theorem Prompt.wait {s u : State} {n d : Nat} {ms : List State.Move} (hidle : s.isBusy = false)
    (htimer : s.untilTimer? = some d) (hn : n ≤ d) (h : Prompt { s with now := s.now + n } ms u) :
    Prompt s (.elapse n :: ms) u := by
  refine .cons rfl (fun _ hm => ?_) h
  cases hm
  refine ⟨hidle, fun d' hd' => ?_⟩
  cases htimer.symm.trans hd'
  exact hn

/-- The probe of one provider never comes back. The result of another waits in the batch when the
signal is given, and still does when the coordinator gives up. -/
theorem exists_abandoned_run : ∃ before t after s,
    Prompt (State.start ⟨1, 100, 60000, 2, "status"⟩) before t ∧ t.signalled = true ∧
      t.coordinator.phase = .watching ∧ t.batcherBench.pending.length = 1 ∧
      Prompt t after s ∧ (∀ text, .batcher (.crash text) ∉ before ++ after) ∧ s.Calm ∧
      s.batcher.calls = [] ∧ s.result? = some (.error s.overdue) := by
  let stuck := ResolvedSource.make (.known .aws) "5" "key" ⟨"7", none⟩
  let healthy := ResolvedSource.make (.known .azure) "6" "key" ⟨"7", none⟩
  exact ⟨[.intake (.pull sampleMessage), .intake (.lookup (.ok stuck)), .intake .enqueue,
    .worker .aws .take, .intake (.pull sampleMessage), .intake (.lookup (.ok healthy)),
    .intake .enqueue, .worker .azure .take, .worker .azure (.probed (.ok ())),
    .worker .azure .offer, .batcher (.receive default), .signal], _,
    [.coordinator .seeSignal, .intake .stop, .worker .azure .finish, .worker .gcp .finish,
    .elapse 2000, .coordinator .giveUp], _,
    .cons (step?_pull rfl decode_sampleMessage) (by simp) (.cons rfl (by simp)
      (.cons rfl (by simp) (.cons rfl (by simp)
      (.cons (step?_pull rfl decode_sampleMessage) (by simp) (.cons rfl (by simp)
      (.cons rfl (by simp) (.cons rfl (by simp) (.cons rfl (by simp) (.cons rfl (by simp)
      (.cons rfl (by simp) (.cons rfl (by simp) (.nil _)))))))))))), rfl, rfl, rfl,
    .cons rfl (by simp) (.cons rfl (by simp) (.cons rfl (by simp) (.cons rfl (by simp)
      (.wait rfl rfl (by decide) (.cons (step?_giveUp rfl (by decide) rfl) (by simp)
      (.nil _)))))), by simp,
    ⟨rfl, fun p => by cases p <;> rfl, rfl⟩, rfl, rfl⟩

theorem supervised_abandoned : ∃ ms s,
    Run (State.start ⟨1, 100, 60000, 2, "status"⟩) ms s ∧ s.result? = some (.error s.overdue) ∧
      Supervised ⟨1, 100, 60000, 2, "status"⟩ ms s := by
  obtain ⟨before, t, after, s, hbefore, -, -, -, hafter, -, -, -, hresult⟩ := exists_abandoned_run
  have run := hbefore.run.append hafter.run
  exact ⟨before ++ after, s, run, hresult, run.supervised⟩

end Availability.Flow

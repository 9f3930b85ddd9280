import Availability.Proofs.Pipeline.Counters

/-!
# The counters and the report

What a pipeline counts for its metrics, and what it reports at its end, are counted at different
places and tell the same story: each message once, as routed or as dropped, each probe by its
status, each batch by what made it go out.

* `Run.outcomes_since`: when the intake pulls a message, those before it have been counted.
* `Run.length_requests`: the requests of a provider are the messages counted as routed to it.
* `Corroborated`, `Run.corroborated`: the counters of a run against its report.
-/

namespace Availability.Flow

open Measurement (total totals samples)
open State

section

variable {c : Settings} {ms : List State.Move} {s : State}

/-! ## A message is counted once -/

theorem History.pulled_foldl (h : History) (ms : List State.Move) :
    h.pulled <+: (ms.foldl note h).pulled := by
  induction ms generalizing h with
  | nil => exact List.prefix_refl _
  | cons m ms ih =>
    refine List.IsPrefix.trans ?_ (ih (h.note m))
    unfold note
    split <;> simp

theorem Run.verdicts_isPrefix {t u : State} (run : Run t ms u) :
    t.intake.router.verdicts <+: u.intake.router.verdicts := by
  induction run with
  | nil => exact List.prefix_refl _
  | cons hm _ ih =>
    refine List.IsPrefix.trans ?_ ih
    cases step_of_step? hm with
    | intake hi =>
      obtain ⟨vs, hverdicts, -⟩ := hi.verdicts
      rw [hverdicts]
      exact List.prefix_append _ _
    | coordinator hc =>
      obtain ⟨_, _, rfl⟩ := coordinatorStep?_frame hc
      exact List.prefix_refl _
    | _ => exact List.prefix_refl _

/-- The router has counted each message pulled so far, unless it has the last of them in hand. -/
theorem Run.length_outcomes (run : Run (State.start c) ms s)
    (hcalm : s.intake.isCrashed = false) (hnone : s.intake.router.current = none) :
    s.outcomes.length = (History.of ms).pulled.length := by
  obtain ⟨hrouted, hdropped⟩ := run.measured.intake
  have hsettled := run.ledger.settled hcalm
  have hboth := List.length_eq_countP_add_countP (p := Verdict.isRouted)
    (l := s.intake.router.verdicts)
  simp only [Bool.not_eq_true] at hboth
  rw [run.ledger.received, hrouted, hdropped, hnone] at hsettled
  rw [run.measured.outcomes_eq run.tallied, List.length_map, hsettled]
  simpa using hboth

/-- The messages of a provider that the router has put into its queue, and the one it holds. -/
def Intake.addressed (i : Intake) (p : Provider) : Nat :=
  i.router.verdicts.countP (·.counter = .requestsRouted p) + (i.router.holding p).length

theorem Intake.addressed_settle (i : Intake) (r : Router) (v : Verdict) (p : Provider) :
    (i.settle r v).addressed p = r.verdicts.countP (·.counter = .requestsRouted p) +
      if v.counter = .requestsRouted p then 1 else 0 := by
  simp only [addressed, settle, Router.settle, Router.holding, List.countP_append,
    List.countP_singleton, List.length_nil, Nat.add_zero, decide_eq_true_eq]

theorem Intake.addressed_of_empty {i j : Intake} {p : Provider}
    (hverdicts : j.router.verdicts = i.router.verdicts) (hi : i.router.holding p = [])
    (hj : j.router.holding p = []) : i.addressed p = j.addressed p := by
  simp only [addressed, hverdicts, hi, hj]

theorem Intake.addressed_settled {i : Intake} {p : Provider} {v : Verdict}
    (hi : i.router.holding p = []) (hv : v.counter ≠ .requestsRouted p) :
    i.addressed p = (i.settle i.router v).addressed p := by
  rw [addressed_settle, if_neg hv, addressed, hi]
  rfl

theorem Intake.Step.addressed {i j : Intake} {m : Intake.Move} (hstep : Intake.Step i m j)
    {h : History} (ledger : Ledger h i True)
    (hopen : ∀ p, (i.router.queues.get p).receiving = true) (p : Provider)
    (ih : (h.requests p).length = i.addressed p) :
    ((h.note (.intake m)).requests p).length = j.addressed p := by
  have hempty : i.isListening = true → i.router.holding p = [] := fun hready => by
    simp [Router.holding, (Intake.phase_of_isListening hready).2]
  -- a request is made when the credential service answers, and enters its queue later
  cases hstep with
  | malformed hready => exact ih.trans (addressed_settled (hempty hready) (by rintro ⟨⟩))
  | asked hready => exact ih.trans (addressed_of_empty rfl (hempty hready) rfl)
  | streamEnded hready => exact ih.trans (addressed_of_empty rfl (hempty hready) rfl)
  | stopped hready => exact ih.trans (addressed_of_empty rfl (hempty hready) rfl)
  | @dropped _ _ v answer _ hcurrent hfinished hdropped =>
    have hcounter : v.counter ≠ .requestsRouted p := by
      cases v <;> simp_all [Verdict.counter, Verdict.isRouted]
    have hrequests : (h.note (.intake (.lookup answer))).requests p = h.requests p := by
      simp [History.requests, History.note, h.request?_of_dropped hfinished]
    rw [hrequests]
    exact ih.trans (addressed_settled (by simp [Router.holding, hcurrent]) hcounter)
  | @resolved _ _ q source _ hcurrent htag =>
    obtain ⟨message, hlast, -⟩ := ledger.asked _ _ hcurrent
    have hbefore : i.router.holding p = [] := by simp [Router.holding, hcurrent]
    simp only [Intake.addressed, hbefore, List.length_nil, Nat.add_zero] at ih
    simp only [Intake.addressed, Intake.hold, Router.holding, History.requests, History.note,
      h.request?_of_known hlast htag, Option.toList_some, List.filter_append, List.length_append]
    by_cases hqp : q = p <;> simp_all [History.requests]
  | crashed _ hcurrent =>
    exact ih.trans (addressed_of_empty rfl (by simp [Router.holding, hcurrent]) rfl)
  | @entered q source _ hcurrent =>
    refine ih.trans ?_
    rw [Intake.enqueue, addressed_settle]
    by_cases hqp : q = p <;> simp [Intake.addressed, Router.holding, hcurrent, Verdict.counter, hqp]
  | @refused q _ _ _ hclosed =>
    rw [hopen q] at hclosed
    cases hclosed

/-- As long as no worker crashes, a provider's requests are the messages in its queue or beyond it,
and the one that the router holds for it. -/
theorem Run.length_requests (run : Run (State.start c) ms s)
    (hcalm : ∀ p, (s.workers.get p).isCrashed = false) (p : Provider) :
    ((History.of ms).requests p).length = s.intake.addressed p := by
  revert hcalm
  refine run.induction (motive := fun ms s => (∀ p, (s.workers.get p).isCrashed = false) →
    ((History.of ms).requests p).length = s.intake.addressed p) (fun _ => rfl)
    fun ms s m t run ih hm hcalm => ?_
  have hstep := step_of_step? hm
  have hbefore : ∀ p, (s.workers.get p).isCrashed = false := fun q => hstep.worker_calm (hcalm q)
  have ih := ih hbefore
  rw [History.of_snoc]
  cases hstep with
  | intake hi =>
    have hrunning : s.intake.isOver = false := by simp [Intake.isOver, hi.running]
    exact hi.addressed (run.ledger.congr rfl rfl rfl rfl rfl fun _ => hbefore)
      (fun q => run.wired.queue_open (hbefore q) hrunning) p ih
  | worker hb => cases hb <;> exact ih
  | batcher hb => cases hb <;> exact ih
  | coordinator hc =>
    obtain ⟨_, _, rfl⟩ := coordinatorStep?_frame hc
    exact ih
  | signal => exact ih
  | elapse => exact ih

/-! ## The report -/

/-- The counters of a run against its report. -/
structure Corroborated (c : Settings) (ms : List State.Move) (s : State) (report : Report) :
    Prop where
  routed : totals (Provider.all.map .requestsRouted) s.measurements = report.intake.routed
  processed : ∀ p,
    total (.requestsRouted p) s.measurements = (report.workers.get p).processed
  dropped : totals (DropReason.all.map .requestsDropped) s.measurements = report.intake.dropped
  /-- Every message pulled was counted as routed or as dropped, once, before the next was. -/
  once : s.outcomes.length = (History.of ms).pulled.length
  each : ∀ before m after t, ms = before ++ .intake (.pull m) :: after →
    Run (.start c) before t → t.outcomes.length = (History.of before).pulled.length ∧
      ∃ (v : Verdict) (rest : List Measurement),
        s.outcomes = t.outcomes ++ .count v.counter 1 :: rest
  unavailable : ∀ p,
    total (.resultsSent p .unavailable) s.measurements = (report.workers.get p).unavailable
  available : ∀ p, total (.resultsSent p .available) s.measurements +
    (report.workers.get p).unavailable = (report.workers.get p).processed
  samples : ∀ p, samples p s.measurements = (report.workers.get p).processed
  flushes : ∀ trigger,
    total (.batchFlushes trigger) s.measurements = report.batcher.flushes trigger
  /-- The sink has answered every call, and a failure was counted for each that it refused. -/
  answered : (sinkAnswers ms).length = s.batcher.calls.length
  failures : total .batchSendFailures s.measurements = (sinkAnswers ms).countP (!·.isOk)
  lost : total .resultsLost s.measurements = report.batcher.lost +
    (report.workers.aws.lost + report.workers.azure.lost + report.workers.gcp.lost)

/-- When the intake pulls a message, it has counted all that it pulled before. -/
theorem Run.outcomes_since {before after : List State.Move} {m : InboundMessage} {t : State}
    (run : Run (State.start c) ms s) (hms : ms = before ++ .intake (.pull m) :: after)
    (reached : Run (State.start c) before t) :
    t.outcomes.length = (History.of before).pulled.length ∧
      (History.of before).pulled.length < (History.of ms).pulled.length ∧
      ∃ vs : List Verdict, s.outcomes = t.outcomes ++ vs.map fun v => .count v.counter 1 := by
  subst hms
  obtain ⟨t', reached', rest⟩ := run.of_append
  obtain rfl := reached.unique reached'
  have hready : t.intake.isListening = true := by
    cases rest with
    | cons hm _ =>
      cases step_of_step? hm with
      | intake hi => cases hi <;> assumption
  obtain ⟨hrunning, hnone⟩ := Intake.phase_of_isListening hready
  refine ⟨reached.length_outcomes (by simp [Intake.isCrashed, hrunning]) hnone, ?_, ?_⟩
  · have hgrows :=
      (((History.of before).note (.intake (.pull m))).pulled_foldl after).length_le
    rw [History.of_append]
    simp only [History.note, List.length_append, List.length_singleton] at hgrows
    exact hgrows
  · obtain ⟨vs, hvs⟩ := rest.verdicts_isPrefix
    refine ⟨vs, ?_⟩
    rw [run.measured.outcomes_eq run.tallied, reached.measured.outcomes_eq reached.tallied, ← hvs,
      List.map_append]

/-- **The counters and the report agree**, in every run that gives one. -/
theorem Run.corroborated {report : Report} (run : Run (State.start c) ms s)
    (hresult : s.result? = some (.ok report)) : Corroborated c ms s report := by
  obtain ⟨hover, hcalm, reason, rfl⟩ := run.finished hresult
  obtain ⟨hintake, -, hbatcher⟩ := (allOver_iff s).1 hover
  have measured := run.measured
  have complete := run.complete hover hcalm
  have hnone := run.ledger.emptied hintake
  have hended : s.batcher.phase = .ended := Batcher.ended_of_over hbatcher hcalm.batcher
  have honce := run.length_outcomes hcalm.intake hnone
  have hworkers : ∀ p, ((s.report reason).workers.get p) = (s.workers.get p).stats :=
    fun p => PerProvider.get_map _ _ _
  refine
    { routed := ?_, processed := fun p => ?_, dropped := ?_, once := honce
      each := fun before m after t hms reached => ?_
      unavailable := fun p => ?_, available := fun p => ?_, samples := fun p => ?_
      flushes := fun trigger => ?_, answered := ?_, failures := ?_, lost := ?_ }
  · exact measured.totals_routed run.tallied
  · rw [hworkers, complete.processed, run.length_requests hcalm.worker,
      measured.total_outcome run.tallied rfl, total_verdicts]
    simp [Intake.addressed, Router.holding, hnone]
  · exact measured.totals_dropped run.tallied
  · obtain ⟨hlength, hlt, vs, hvs⟩ := run.outcomes_since hms reached
    refine ⟨hlength, ?_⟩
    cases vs with
    | nil =>
      have hsame := congrArg List.length hvs
      simp only [List.map_nil, List.append_nil] at hsame
      omega
    | cons v vs => exact ⟨v, _, hvs⟩
  · rw [hworkers, measured.total_sent run.tallied, (measured.worker p).2.unavailable]
  · rw [hworkers, measured.total_sent run.tallied, (measured.worker p).2.unavailable,
      (measured.worker p).2.processed, count_statuses]
  · rw [hworkers, measured.samples_measurements run.tallied]
  · exact measured.total_flushes run.tallied trigger
  · have hcalls := measured.batcher.calls hcalm.batcher
    simp only [Batcher.unanswered, hended, Nat.add_zero] at hcalls
    exact hcalls.symm
  · exact measured.total_failures run.tallied
  · exact measured.total_lost run.tallied

end

/-- One message is dropped, the probe of the other fails, and the sink refuses its result. -/
theorem exists_mixed_run : ∃ ms s,
    Run (State.start ⟨1, 1, 5000, 30, "status"⟩) ms s ∧
      s.result? = some (.ok ⟨.consumerExited, ⟨2, 1, 1⟩, ⟨⟨1, 1, 0⟩, ⟨0, 0, 0⟩, ⟨0, 0, 0⟩⟩,
        ⟨1, 0, 0, 0, 1⟩⟩) := by
  let source (tag : ProviderTag) := ResolvedSource.make tag "5" "key" ⟨"7", none⟩
  exact ⟨[.intake (.pull sampleMessage), .intake (.lookup (.ok (source .noop))),
    .intake (.pull sampleMessage), .intake (.lookup (.ok (source (.known .aws)))), .intake .enqueue,
    .worker .aws .take, .worker .aws (.probed (.error (.probe "aws" "refused"))),
    .worker .aws .offer, .batcher (.receive default),
    .batcher (.sent (.error (.transport 1 "closed"))), .intake .streamEnds, .worker .aws .finish,
    .worker .azure .finish, .worker .gcp .finish, .batcher .drain, .coordinator .seeExit,
    .coordinator .finish], _,
    .cons (step?_pull rfl decode_sampleMessage) (.cons rfl
      (.cons (step?_pull rfl decode_sampleMessage) (.cons rfl (.cons rfl (.cons rfl (.cons rfl
      (.cons rfl (.cons rfl (.cons rfl (.cons rfl (.cons rfl (.cons rfl (.cons rfl (.cons rfl
      (.cons rfl (.cons rfl (.nil _))))))))))))))))), rfl⟩

theorem corroborated_mixed : ∃ ms s report,
    Run (State.start ⟨1, 1, 5000, 30, "status"⟩) ms s ∧ s.result? = some (.ok report) ∧
      report.intake.dropped = 1 ∧ report.batcher.lost = 1 ∧
      Corroborated ⟨1, 1, 5000, 30, "status"⟩ ms s report := by
  obtain ⟨ms, s, run, hresult⟩ := exists_mixed_run
  exact ⟨ms, s, _, run, hresult, rfl, rfl, run.corroborated hresult⟩

end Availability.Flow

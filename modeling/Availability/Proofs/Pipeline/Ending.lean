import Availability.Proofs.Pipeline.Delivery

/-!
# The end of a run

A pipeline that gives a report has stopped: every stage has come to an end, none has crashed, and
the report is what they have counted. Then every request has been checked and every result has
gone to the sink.

* `Run.finished`: what a report says of the stages.
* `Complete`, `Run.complete`: nothing is left anywhere in a pipeline that has stopped.
-/

namespace Availability.Flow

open State

namespace State

variable {s t : State} {m : Move}

structure Finished (s : State) (report : Report) : Prop where
  stopped : s.allOver = true
  calm : s.Calm
  reported : ∃ reason, report = s.report reason

theorem allOver_iff (s : State) : s.allOver = true ↔
    s.intake.isOver = true ∧ (∀ p, (s.workers.get p).isOver = true) ∧ s.batcher.isOver = true := by
  simp only [allOver, Bool.and_eq_true, PerProvider.all_eq_true_iff, and_assoc]

theorem finished_of_coordinatorStep? {m : CoordinatorMove} {report : Report}
    (h : s.coordinatorStep? m = some t) (hresult : t.result? = some (.ok report)) :
    Finished t report := by
  cases coordinatorStep?_eq_some_iff.1 h with
  | sawSignal => cases hresult
  | sawExit => cases hresult
  | gaveUp => cases hresult
  | @finished reason _ _ hover =>
    have hdrained : s.drained reason = .ok report := Option.some.inj hresult
    unfold drained at hdrained
    split at hdrained
    · cases hdrained
    · rename_i hnone
      cases hdrained
      have hcalm := (failure?_eq_none_iff s).1 hnone
      exact ⟨hover, ⟨hcalm.1, hcalm.2, hcalm.3⟩, reason, rfl⟩

/-- Once all stages have come to an end they do nothing more. -/
theorem Step.of_allOver (h : Step s m t) (hover : s.allOver = true) :
    (∃ k, m = .coordinator k ∧ s.coordinatorStep? k = some t) ∨
      ∃ signalled now, t = { s with signalled := signalled, now := now } := by
  obtain ⟨hintake, hworkers, hbatcher⟩ := (allOver_iff s).1 hover
  cases h with
  | intake hi => simp [Intake.isOver, hi.running] at hintake
  | @worker p _ _ hb =>
    have hwork : (s.workers.get p).isOver = false := hb.at_work
    simp [hworkers p] at hwork
  | batcher hb =>
    have hwork : s.batcher.isOver = false := hb.at_work
    simp [hbatcher] at hwork
  | coordinator hc => exact .inl ⟨_, rfl, hc⟩
  | signal => exact .inr ⟨_, _, rfl⟩
  | elapse => exact .inr ⟨_, _, rfl⟩

theorem Finished.step {report : Report} (hfinished : Finished s report) (h : Step s m t)
    (hsame : t.coordinator = s.coordinator) : Finished t report := by
  obtain ⟨hover, hcalm, reason, rfl⟩ := hfinished
  obtain ⟨k, rfl, hk⟩ | ⟨_, _, rfl⟩ := h.of_allOver hover
  · obtain ⟨_, _, rfl⟩ := coordinatorStep?_frame hk
    exact ⟨hover, ⟨hcalm.1, hcalm.2, hcalm.3⟩, reason, rfl⟩
  · exact ⟨hover, ⟨hcalm.1, hcalm.2, hcalm.3⟩, reason, rfl⟩

end State

/-- **A report is given only at the end**, without a crash, and says what the stages counted. -/
theorem Run.finished {c : Settings} {ms : List State.Move} {s : State} {report : Report}
    (run : Run (State.start c) ms s) (hresult : s.result? = some (.ok report)) :
    Finished s report := by
  revert hresult
  refine run.induction (motive := fun _ s => s.result? = some (.ok report) → Finished s report)
    (fun hresult => by cases hresult) fun ms s m t _ ih hm hresult => ?_
  have hstep := step_of_step? hm
  cases hstep with
  | coordinator hc => exact finished_of_coordinatorStep? hc hresult
  | _ => exact (ih hresult).step (step_of_step? hm) rfl

/-! ## Nothing is left -/

/-- What a pipeline has done that has stopped without a crash. -/
structure Complete (h : History) (s : State) : Prop where
  answered : ∀ p, (h.answers.get p).length = (h.requests p).length
  entered : ∀ p, h.enteredOf p = h.checks p
  probed : ∀ p, (s.workers.get p).probed = (h.requests p).map (·.source.authentication)
  processed : ∀ p, (s.workers.get p).stats.processed = (h.requests p).length
  lost : ∀ p, (s.workers.get p).stats.lost = 0
  delivered : (s.delivered h).map Prod.fst = h.entered
  batched : s.batcher.stats.sent + s.batcher.stats.lost = h.entered.length
  routed : s.intake.stats.routed = h.routed.length
  received : s.intake.stats.received = h.pulled.length
  settled : s.intake.stats.received = s.intake.stats.routed + s.intake.stats.dropped

theorem Line.complete {h : History} {p : Provider} {w : Worker} {waiting : List ResolvedSource}
    {whole : Prop} (line : Line h p w waiting whole) (hended : w.phase = .ended) (hw : whole) :
    (h.answers.get p).length = (h.requests p).length ∧ h.enteredOf p = h.checks p ∧
      w.probed = (h.requests p).map (·.source.authentication) := by
  have hcalm : w.isCrashed = false := by simp [Worker.isCrashed, hended]
  have hanswers := Nat.le_antisymm line.answered_le (line.ended hended)
  have hoffering : w.offering = [] := by simp [Worker.offering, hended]
  have hprobing : w.probing = [] := by simp [Worker.probing, hended]
  refine ⟨hanswers, ?_, ?_⟩
  · have hlen := congrArg List.length (line.offered hw)
    rw [hoffering, List.append_nil, List.length_map, List.length_map] at hlen
    exact line.entered.eq_of_length hlen.symm
  · rw [line.probed hcalm, hprobing, List.length_nil, Nat.add_zero, hanswers, List.take_length]

/-- **Nothing is left** in a pipeline that has stopped without a crash. -/
theorem Run.complete {c : Settings} {ms : List State.Move} {s : State}
    (run : Run (State.start c) ms s) (hover : s.allOver = true) (hcalm : s.Calm) :
    Complete (.of ms) s := by
  obtain ⟨hintake, hworkers, hbatcher⟩ := (allOver_iff s).1 hover
  have hended : ∀ p, (s.workers.get p).phase = .ended := fun p =>
    Worker.ended_of_over (hworkers p) (hcalm.worker p)
  have hlast : s.batcher.phase = .ended := Batcher.ended_of_over hbatcher hcalm.batcher
  have ledger := run.ledger
  obtain ⟨es, proj⟩ := run.projected
  obtain ⟨hdelivered, hbatched⟩ := proj.delivered_all hlast
  have hnone := ledger.emptied hintake
  have hsettled := ledger.settled hcalm.intake
  have hrouted := ledger.routed hcalm.worker
  have lines := fun p => (run.lined p).complete (hended p) hcalm.batcher
  exact
    { answered := fun p => (lines p).1
      entered := fun p => (lines p).2.1
      probed := fun p => (lines p).2.2
      processed := fun p => (run.lined p).processed.trans (lines p).1
      lost := fun p => (run.lined p).lost hcalm.batcher
      delivered := hdelivered
      batched := hbatched
      routed := by simpa [Router.inHand, hnone] using hrouted.symm
      received := ledger.received
      settled := by simpa [hnone] using hsettled }

/-! ## A run to its end -/

namespace State

theorem step?_pull {s : State} {m : InboundMessage} {request : SourceRequest}
    (hready : (s.intake.isListening && !s.intake.cancelled) = true)
    (hdecode : SourceRequest.decode m.payload = .ok request) :
    s.step? (.intake (.pull m)) = some
      { s with
        intake :=
          { s.intake.receive with
            router := s.intake.router.proceed (.resolving request m.identity) } } := by
  have hboth := hready
  simp only [Bool.and_eq_true] at hboth
  have hnone := (Intake.phase_of_isListening hboth.1).2
  simp only [step?, Intake.step?, if_pos hready, Router.step?, hnone, Option.map_some,
    Dispatch.start, hdecode]
  exact congrArg (fun i => some { s with intake := i })
    (Intake.follow_same (i := s.intake.receive)
      (r := s.intake.router.proceed (.resolving request m.identity)) rfl)

end State

/-- A message that asks for the source `1`. -/
def sampleMessage : InboundMessage :=
  ⟨[123, 34, 115, 111, 117, 114, 99, 101, 95, 105, 100, 34, 58, 34, 49, 34, 125], ⟨"7", none⟩⟩

theorem decode_sampleMessage : SourceRequest.decode sampleMessage.payload = .ok ⟨"1"⟩ := by
  with_unfolding_all rfl

/-- The same request twice: the first probe succeeds, the second fails, and the sink refuses the
batch of both results. -/
theorem exists_finished_run : ∃ ms s,
    Run (State.start ⟨1, 2, 5000, 30, "status"⟩) ms s ∧
      s.result? = some (.ok ⟨.consumerExited, ⟨2, 2, 0⟩, ⟨⟨2, 1, 0⟩, ⟨0, 0, 0⟩, ⟨0, 0, 0⟩⟩,
        ⟨1, 0, 0, 0, 2⟩⟩) := by
  have hdecode := decode_sampleMessage
  let source := ResolvedSource.make (.known .aws) "5" "key" ⟨"7", none⟩
  exact ⟨[.intake (.pull sampleMessage), .intake (.lookup (.ok source)), .intake .enqueue,
    .intake (.pull sampleMessage), .worker .aws .take, .intake (.lookup (.ok source)),
    .intake .enqueue, .worker .aws (.probed (.ok ())), .worker .aws .offer, .intake .streamEnds,
    .worker .aws .take, .batcher (.receive default),
    .worker .aws (.probed (.error (.probe "aws" "refused"))), .worker .aws .offer,
    .batcher (.receive default), .batcher (.sent (.error (.transport 2 "closed"))),
    .worker .aws .finish, .worker .azure .finish, .worker .gcp .finish, .batcher .drain,
    .coordinator .seeExit, .coordinator .finish], _,
    .cons (step?_pull rfl hdecode) (.cons rfl (.cons rfl (.cons (step?_pull rfl hdecode)
      (.cons rfl (.cons rfl (.cons rfl (.cons rfl (.cons rfl (.cons rfl (.cons rfl (.cons rfl
      (.cons rfl (.cons rfl (.cons rfl (.cons rfl (.cons rfl (.cons rfl (.cons rfl (.cons rfl
      (.cons rfl (.cons rfl (.nil _)))))))))))))))))))))), rfl⟩

end Availability.Flow

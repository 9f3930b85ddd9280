import Availability.Proofs.Pipeline.Ending

/-!
# The order of a provider's results

Results of different providers overtake each other, those of one provider do not: whatever the
other providers do on the result queue and whenever a batch goes out, they reach the sink in the
order in which the intake pulled the messages that asked for them.

* `InOrder`: the order of what went to the sink.
* `Run.results_in_order`: it is kept at every moment of every run, even one in which stages crash.
-/

namespace Availability.Flow

open State

/-- How the results of each provider went to the sink. -/
structure InOrder (c : Settings) (h : History) (s : State) : Prop where
  /-- What went to the sink, over all its calls, are the messages of the checks delivered. -/
  passed : s.passed = (s.delivered h).map (messageOf c.topic)
  /-- The requests are in the order in which the intake pulled their messages. -/
  pulled : (h.routed.map Request.message).Sublist h.pulled
  /-- A provider's requests are checked in their order. -/
  checked : ∀ p, (h.checks p).map Check.request <+: h.requests p
  /-- A provider's results go to the sink in the order of its requests. -/
  delivered : ∀ p, s.deliveredOf h p <+: h.checks p
  /-- A pipeline that has given a report has left none of them out. -/
  whole : ∀ report, s.result? = some (.ok report) → ∀ p,
    s.deliveredOf h p = h.checks p ∧ (h.checks p).map Check.request = h.requests p

/-- **The results of each provider stay in order**, from the messages that asked for them to the
sink, at every moment of every run. -/
theorem Run.results_in_order {c : Settings} {ms : List State.Move} {s : State}
    (run : Run (State.start c) ms s) : InOrder c (.of ms) s := by
  obtain ⟨es, proj⟩ := run.projected
  refine ⟨proj.passed_eq, run.ledger.chosen, fun p => History.map_request_checks_isPrefix,
    fun p => ?_, fun report hresult p => ?_⟩
  · exact ((delivered_isPrefix _ s).filter _).trans (run.lined p).entered
  · have hfinished := run.finished hresult
    have complete := run.complete hfinished.stopped hfinished.calm
    refine ⟨?_, History.map_request_checks (complete.answered p)⟩
    rw [deliveredOf, complete.delivered]
    exact complete.entered p

/-- One request twice, with a probe that fails and a sink that refuses the batch. -/
theorem results_in_order_duplicate : ∃ ms s report,
    Run (State.start ⟨1, 2, 5000, 30, "status"⟩) ms s ∧ s.result? = some (.ok report) ∧
      report.batcher.lost = 2 ∧ InOrder ⟨1, 2, 5000, 30, "status"⟩ (.of ms) s := by
  obtain ⟨ms, s, run, hresult⟩ := exists_finished_run
  exact ⟨ms, s, _, run, hresult, rfl, run.results_in_order⟩

end Availability.Flow

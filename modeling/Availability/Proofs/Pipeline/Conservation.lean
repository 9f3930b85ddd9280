import Availability.Proofs.Outbound.Line
import Availability.Proofs.Pipeline.Callers
import Availability.Proofs.Pipeline.Ending

/-!
# What goes in comes out

Every message that the credential service gives a provider becomes one message to the sink, and
nothing else does: none is lost or made twice on the way through four queues, three workers and
the batch, however the stages take turns, and the numbers of the report add up.

* `perm_of_requests`: lists with the same requests for every provider are the same up to order.
* `Conserved`, `Run.fan_out_fan_in`: what a report stands for.
-/

namespace Availability.Flow

open State

theorem perm_by_provider (rs : List Request) :
    (rs.filter (·.provider = .aws) ++ (rs.filter (·.provider = .azure) ++
      rs.filter (·.provider = .gcp))).Perm rs := by
  induction rs with
  | nil => exact .nil
  | cons r rs ih =>
    cases hp : r.provider with
    | aws => simpa [hp] using ih
    | azure =>
      simp only [List.filter_cons, hp, reduceCtorEq, decide_false, decide_true, if_true]
      exact List.perm_middle.trans (ih.cons r)
    | gcp =>
      simp only [List.filter_cons, hp, reduceCtorEq, decide_false, decide_true, if_true]
      rw [← List.append_assoc]
      refine List.perm_middle.trans ?_
      rw [List.append_assoc]
      exact ih.cons r

/-- Lists with the same requests for every provider are the same up to order. -/
theorem perm_of_requests {rs rs' : List Request}
    (h : ∀ p, rs.filter (·.provider = p) = rs'.filter (·.provider = p)) : rs.Perm rs' := by
  refine (perm_by_provider rs).symm.trans ?_
  rw [h, h, h]
  exact perm_by_provider rs'

/-- What the report of a run stands for. -/
structure Conserved (c : Settings) (ms : List State.Move) (s : State) (report : Report) :
    Prop where
  /-- What went to the sink, over all its calls, are the messages of the checks delivered. -/
  passed : s.passed = (s.delivered (.of ms)).map (messageOf c.topic)
  /-- The headers of a message carry the caller, and its value carries the application and what came
  of the probe. -/
  carried : ∀ d ∈ s.delivered (.of ms), ProbeResult.Carried c.topic d.1.result (messageOf c.topic d)
  /-- They are one for each request, and a request that comes twice is checked twice. -/
  one_to_one : ((s.delivered (.of ms)).map (·.1.request)).Perm (History.of ms).routed
  /-- The requests are among the messages that the intake pulled, each at most once, and there is
  one for each source that the credential service said to be of a provider. -/
  pulled : ((History.of ms).routed.map Request.message).Sublist (History.of ms).pulled
  classified : (History.of ms).routed.map Request.source = classified ms
  known : ∀ r ∈ (History.of ms).routed, r.source.providerTag = .known r.provider
  /-- The probes of a provider were made with its requests, one for each and in their order. -/
  probed : ∀ p, (s.workers.get p).probed =
    ((History.of ms).requests p).map (·.source.authentication)
  /-- Each request is delivered with the answer of its own probe. -/
  checked : ∀ p, ((History.of ms).answers.get p).length = ((History.of ms).requests p).length ∧
    s.deliveredOf (.of ms) p =
      List.zipWith Check.mk ((History.of ms).requests p) ((History.of ms).answers.get p)
  /-- A message says what came of that probe, for the application and the caller of the source. -/
  outcome : ∀ d ∈ s.delivered (.of ms), d.1.result =
    match d.1.answer with
    | .ok () =>
      ⟨d.1.request.source.applicationId, d.1.request.source.identity, "Application", .available,
        none⟩
    | .error e =>
      ⟨d.1.request.source.applicationId, d.1.request.source.identity, "Application", .unavailable,
        some e.message⟩
  /-- That is the caller of its own message, if lookups are answered for the caller who asks. -/
  caller : ∀ resolver : Resolver, resolver.KeepsCaller → AnsweredBy resolver (.start c) ms →
    ∀ d ∈ s.delivered (.of ms), d.1.result.identity = d.1.request.message.identity
  received : report.intake.received = (History.of ms).pulled.length
  settled : report.intake.received = report.intake.routed + report.intake.dropped
  routed : report.intake.routed = (History.of ms).routed.length
  processed : report.intake.routed =
    report.workers.aws.processed + report.workers.azure.processed + report.workers.gcp.processed
  lost : ∀ p, (report.workers.get p).lost = 0
  batched : report.intake.routed = report.batcher.sent + report.batcher.lost

theorem Complete.perm {h : History} {s : State} (complete : Complete h s) :
    ((s.delivered h).map (·.1.request)).Perm h.routed := by
  have hentered : (s.delivered h).map (·.1.request) = h.entered.map Check.request := by
    rw [← complete.delivered, List.map_map]
    rfl
  rw [hentered]
  refine perm_of_requests fun p => ?_
  rw [List.filter_map]
  exact (congrArg (List.map Check.request) (complete.entered p)).trans
    (History.map_request_checks (complete.answered p))

theorem Complete.processed_sum {h : History} {s : State} (complete : Complete h s) :
    h.routed.length = (s.workers.get .aws).stats.processed +
      (s.workers.get .azure).stats.processed + (s.workers.get .gcp).stats.processed := by
  have hlen := (perm_by_provider h.routed).length_eq
  simp only [List.length_append] at hlen
  rw [complete.processed, complete.processed, complete.processed, Nat.add_assoc]
  exact hlen.symm

theorem Complete.batched_sum {h : History} {s : State} (complete : Complete h s) :
    h.routed.length = s.batcher.stats.sent + s.batcher.stats.lost := by
  have hlen := complete.perm.length_eq
  rw [List.length_map, ← List.length_map (f := Prod.fst), complete.delivered] at hlen
  exact hlen.symm.trans complete.batched.symm

/-- **What goes in comes out.** A report stands for one message to the sink for each request, with
the outcome of its own probe, and its numbers add up. -/
theorem Run.fan_out_fan_in {c : Settings} {ms : List State.Move} {s : State} {report : Report}
    (run : Run (State.start c) ms s) (hresult : s.result? = some (.ok report)) :
    Conserved c ms s report := by
  obtain ⟨hover, hcalm, reason, rfl⟩ := run.finished hresult
  obtain ⟨es, proj⟩ := run.projected
  have complete := run.complete hover hcalm
  exact
    { passed := proj.passed_eq
      carried := fun d _ => d.1.result.carried_toMessage c.topic d.2
      one_to_one := complete.perm
      pulled := run.ledger.chosen
      classified := run.routed_eq
      known := run.ledger.known
      probed := complete.probed
      checked := fun p => by
        refine ⟨complete.answered p, ?_⟩
        rw [deliveredOf, complete.delivered]
        exact complete.entered p
      outcome := fun d _ => d.1.result_eq
      caller := fun resolver hkeeps hanswered d hd => by
        have hmem : d.1.request ∈ (History.of ms).routed :=
          complete.perm.mem_iff.1 (List.mem_map_of_mem hd)
        rw [← run.caller_kept hkeeps hanswered _ hmem, d.1.result_eq]
        cases d.1.answer <;> rfl
      received := complete.received
      settled := complete.settled
      routed := complete.routed
      processed := complete.routed.trans complete.processed_sum
      lost := fun p => by
        rw [State.report, PerProvider.get_map]
        exact complete.lost p
      batched := complete.routed.trans complete.batched_sum }

/-- One request twice, with a probe that fails and a sink that refuses the batch. -/
theorem fan_out_fan_in_duplicate : ∃ ms s report,
    Run (State.start ⟨1, 2, 5000, 30, "status"⟩) ms s ∧ s.result? = some (.ok report) ∧
      report.intake.routed = 2 ∧ report.batcher.lost = 2 ∧
      Conserved ⟨1, 2, 5000, 30, "status"⟩ ms s report := by
  obtain ⟨ms, s, run, hresult⟩ := exists_finished_run
  exact ⟨ms, s, _, run, hresult, rfl, rfl, run.fan_out_fan_in hresult⟩

end Availability.Flow

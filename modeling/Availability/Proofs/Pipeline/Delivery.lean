import Availability.Proofs.Batcher.Safety
import Availability.Proofs.Pipeline.Line

/-!
# What the batcher sees of a pipeline

A run of a pipeline is a run of its batcher, in which the results of the workers enter the queue
and the workers let go of it one after the other. So what is known of batchers holds in pipelines.

* `Run.projected`: the run of the batcher in a run of the pipeline.
* `State.delivered`: the checks whose messages went to the sink; `Projected.passed_eq`: these
  messages, in order.
-/

namespace Availability.Flow

namespace State

/-- What the batcher sees of a run. Results that are refused never arrive. -/
structure Projected (c : Settings) (h : History) (s : State) (es : List Batcher.Event) :
    Prop where
  run : Batcher.Bench.Run (.start 0 c.topic c.batchSize c.tickMs (start c).results) es
    s.batcherBench
  stamps : Batcher.stamps es = h.stamps
  arrived : Batcher.arrivals es <+: h.entered.map Check.result
  whole : s.batcher.isCrashed = false → Batcher.arrivals es = h.entered.map Check.result

variable {c : Settings} {h h' : History} {s t : State} {es : List Batcher.Event}

theorem projected_start (c : Settings) : Projected c .empty (start c) [] where
  run := .nil
  stamps := rfl
  arrived := List.prefix_refl _
  whole _ := rfl

theorem Projected.same (proj : Projected c h s es) (hbench : t.batcherBench = s.batcherBench)
    (hstamps : h'.stamps = h.stamps) (hentered : h'.entered = h.entered) :
    Projected c h' t es := by
  obtain ⟨hrun, hst, harr, hwhole⟩ := proj
  have hbatcher : t.batcher = s.batcher := congrArg Batcher.Bench.batcher hbench
  refine ⟨hbench ▸ hrun, hst.trans hstamps.symm, ?_, fun hcalm => ?_⟩
  · rw [hentered]; exact harr
  · rw [hentered]; exact hwhole (hbatcher ▸ hcalm)

theorem Projected.event (proj : Projected c h s es) {e : Batcher.Event}
    (he : s.batcherBench.event? e = some t.batcherBench) (harrival : e.arrival? = none)
    (hstamps : h'.stamps = h.stamps ++ e.stamp?.toList) (hentered : h'.entered = h.entered)
    (hcalm : t.batcher.isCrashed = false → s.batcher.isCrashed = false) :
    Projected c h' t (es ++ [e]) := by
  obtain ⟨hrun, hst, harr, hwhole⟩ := proj
  have hsame : Batcher.arrivals (es ++ [e]) = Batcher.arrivals es := by simp [harrival]
  refine ⟨.snoc hrun he, ?_, ?_, fun hc => ?_⟩
  · rw [Batcher.stamps_snoc, hst, hstamps]
  · rw [hsame, hentered]; exact harr
  · rw [hsame, hentered]; exact hwhole (hcalm hc)

theorem Projected.arrive (proj : Projected c h s es) {k : Check}
    (he : s.batcherBench.event? (.arrive k.result) = some t.batcherBench)
    (hstamps : h'.stamps = h.stamps) (hentered : h'.entered = h.entered ++ [k])
    (hcalm : s.batcher.isCrashed = false) : Projected c h' t (es ++ [.arrive k.result]) := by
  obtain ⟨hrun, hst, -, hwhole⟩ := proj
  have hall : Batcher.arrivals (es ++ [.arrive k.result]) = h'.entered.map Check.result := by
    rw [Batcher.arrivals_snoc, hwhole hcalm, hentered, List.map_append]
    rfl
  refine ⟨.snoc hrun he, ?_, ?_, fun _ => hall⟩
  · rw [Batcher.stamps_snoc, hst, hstamps]
    simp [Batcher.Event.stamp?]
  · exact ⟨[], by rw [List.append_nil, hall]⟩

theorem event?_hangUp (wired : Wired s) {p : Provider} (hwork : (s.workers.get p).isOver = false)
    (phase : WorkerPhase) : s.batcherBench.event? .hangUp =
      some (s.putBench p ((s.bench p).leave phase)).batcherBench := by
  have hsenders : s.results.senders ≠ 0 := by
    rw [wired.results_senders]
    exact Nat.pos_iff_ne_zero.1 (atWork_pos hwork)
  exact if_neg hsenders

theorem event?_arrive (wired : Wired s) {p : Provider} (hwork : (s.workers.get p).isOver = false)
    {r : ProbeResult} (hopen : s.results.receiving = true)
    (hroom : s.results.items.length < s.results.capacity) {b : Worker.Bench}
    (hb : b.outbox = s.results.push r) :
    s.batcherBench.event? (.arrive r) = some (s.putBench p b).batcherBench := by
  have hsenders : s.results.senders ≠ 0 := by
    rw [wired.results_senders]
    exact Nat.pos_iff_ne_zero.1 (atWork_pos hwork)
  have hoffer : s.results.offer r = .entered (s.results.push r) :=
    (Queue.offer_entered_iff _ _ _).2 ⟨hopen, hroom, rfl⟩
  simp only [Batcher.Bench.event?, batcherBench, if_neg hsenders, hoffer, putBench, hb]

theorem Projected.batcher (proj : Projected c h s es) {m : Batcher.Move} {b : Batcher.Bench}
    (hm : Batcher.step? s.batcherBench m = some b) :
    Projected c (h.note (.batcher m)) (s.putBatcherBench b) (es ++ [.own m]) := by
  have hstep := Batcher.Bench.step_of_event? (e := .own m) hm
  have hcalm : s.batcher.isCrashed = false := Batcher.isCrashed_of_at_work hstep.at_work
  have hbench : (s.putBatcherBench b).batcherBench = b := by
    have hnow : b.now = s.now := by cases hstep <;> rfl
    simp only [batcherBench, putBatcherBench, ← hnow]
  refine proj.event (hbench.symm ▸ hm) rfl ?_ ?_ fun _ => hcalm
  · cases m <;> first | rfl | exact (List.append_nil _).symm
  · cases m <;> rfl

theorem Projected.worker (proj : Projected c h s es) (wired : Wired s) (lined : Lined h s)
    {p : Provider} {m : Worker.Move} {b : Worker.Bench} (hstep : Worker.Step (s.bench p) m b) :
    ∃ es, Projected c (h.note (.worker p m)) (s.putBench p b) es := by
  have hwork : (s.workers.get p).isOver = false := hstep.at_work
  cases hstep with
  | took => exact ⟨es, proj.same rfl rfl rfl⟩
  | probed => exact ⟨es, proj.same rfl rfl rfl⟩
  | @crashed _ text =>
    exact ⟨_, proj.event (event?_hangUp wired hwork _) rfl (List.append_nil _).symm rfl id⟩
  | finished =>
    exact ⟨_, proj.event (event?_hangUp wired hwork _) rfl (List.append_nil _).symm rfl id⟩
  | entered hphase hopen hroom =>
    have hcalm : s.batcher.isCrashed = false := by
      have hreceiving := wired.results_receiving
      rw [show s.results.receiving = true from hopen] at hreceiving
      simpa using hreceiving.symm
    obtain ⟨k, hnext, rfl, -⟩ := (lined p).offer_next hphase hcalm
    refine ⟨_, proj.arrive (event?_arrive wired hwork hopen hroom rfl) rfl ?_ hcalm⟩
    simp [History.note, hnext]
  | refused _ hclosed =>
    -- only a batcher that crashed has let go of the queue, so nothing arrives any more
    have hcrashed : s.batcher.isCrashed = true := by
      have hreceiving := wired.results_receiving
      rw [show s.results.receiving = false from hclosed] at hreceiving
      simpa using hreceiving.symm
    refine ⟨es, proj.run, proj.stamps, proj.arrived.trans ?_, fun hcalm => ?_⟩
    · simp only [History.note, List.map_append]
      exact List.prefix_append _ _
    · rw [show s.batcher.isCrashed = false from hcalm] at hcrashed
      cases hcrashed

end State

open State

/-- **What the batcher sees** of a run of the pipeline is a run of the batcher. -/
theorem Run.projected {c : Settings} {ms : List State.Move} {s : State}
    (run : Run (State.start c) ms s) : ∃ es, Projected c (.of ms) s es := by
  refine run.induction (motive := fun ms s => ∃ es, Projected c (.of ms) s es)
    ⟨[], projected_start c⟩ fun ms s m t run ⟨es, proj⟩ hm => ?_
  rw [History.of_snoc]
  cases step_of_step? hm with
  | intake hi => cases hi <;> exact ⟨es, proj.same rfl rfl rfl⟩
  | worker hb => exact proj.worker run.wired run.lined hb
  | batcher =>
    obtain ⟨b, hb, hafter⟩ := Option.map_eq_some_iff.1 hm
    exact ⟨_, hafter ▸ proj.batcher hb⟩
  | coordinator hc =>
    obtain ⟨_, _, rfl⟩ := coordinatorStep?_frame hc
    exact ⟨es, proj.same rfl rfl rfl⟩
  | signal => exact ⟨es, proj.same rfl rfl rfl⟩
  | elapse => exact ⟨_, proj.event (e := .elapse _) rfl rfl (List.append_nil _).symm rfl id⟩

/-! ## What went to the sink -/

namespace State

/-- The messages that went to the sink, over all its calls. -/
def passed (s : State) : List OutboundMessage := s.batcherBench.passed

/-- The checks whose messages went to the sink, and the stamps of these messages. -/
def delivered (h : History) (s : State) : List (Check × Stamp) :=
  (h.entered.zip h.stamps).take s.passed.length

/-- The message of a check that got a stamp. -/
def messageOf (topic : String) (d : Check × Stamp) : OutboundMessage :=
  d.1.result.toMessage topic d.2

variable {c : Settings} {h : History} {s : State} {es : List Batcher.Event}

theorem items_results_start (c : Settings) : (start c).results.items = [] := by
  simp only [start]
  split <;> rfl

theorem Projected.passed_pending (proj : Projected c h s es) :
    s.passed ++ s.batcherBench.pending = (h.entered.zip h.stamps).map (messageOf c.topic) := by
  obtain ⟨hle, hkept, -⟩ := proj.run.conserved
  obtain ⟨rest, hrest⟩ := proj.arrived
  rw [items_results_start, List.nil_append] at hle
  rw [Batcher.taken, items_results_start, List.nil_append] at hkept
  rw [passed, hkept, ← zipWith_append_left _ rest hle, hrest, proj.stamps, List.zipWith_map_left,
    List.zip, List.map_zipWith]
  rfl

/-- **The messages that went to the sink** are those of the first checks that entered the result
queue, in order. -/
theorem Projected.passed_eq (proj : Projected c h s es) :
    s.passed = (s.delivered h).map (messageOf c.topic) := by
  have hall := congrArg (List.take s.passed.length) proj.passed_pending
  rw [List.take_left, ← List.map_take] at hall
  exact hall

theorem delivered_isPrefix (h : History) (s : State) :
    (s.delivered h).map Prod.fst <+: h.entered := by
  have htake := List.take_prefix s.passed.length (h.entered.zip h.stamps)
  exact (htake.map Prod.fst).trans (map_fst_zip_isPrefix _ _)

/-- The checks of a provider whose messages went to the sink, in the order in which they did. -/
def deliveredOf (h : History) (s : State) (p : Provider) : List Check :=
  ((s.delivered h).map Prod.fst).filter fun k => k.request.provider = p

/-- Once the batcher has ended, nothing is left on the result queue or in the batch. -/
theorem Projected.delivered_all (proj : Projected c h s es) (hended : s.batcher.phase = .ended) :
    (s.delivered h).map Prod.fst = h.entered ∧
      s.batcher.stats.sent + s.batcher.stats.lost = h.entered.length := by
  have hcalm : s.batcher.isCrashed = false := by simp [Batcher.isCrashed, hended]
  have hstamps : h.stamps.length = h.entered.length := by
    have hle := proj.run.conserved.taken_le
    have hleft := proj.run.conserved.left (by simp [batcherBench, hended])
    have hend := proj.run.atEnd_of_ended hended
    have hitems : s.batcherBench.inbox.items = [] := by
      simp only [Queue.atEnd, Bool.and_eq_true, List.isEmpty_iff] at hend
      exact hend.1
    rw [items_results_start, List.nil_append, proj.whole hcalm, proj.stamps] at hle hleft
    rw [hitems] at hleft
    have hge := List.drop_eq_nil_iff.1 hleft.symm
    rw [List.length_map] at hle hge
    exact Nat.le_antisymm hle hge
  -- the batch is empty too, so every message that was made has gone to the sink
  have hpassed : s.passed.length = h.entered.length := by
    have hnone : s.batcherBench.pending = [] := by
      have hphases := proj.run.inPhase
      rw [show s.batcherBench.batcher.phase = _ from hended] at hphases
      cases hphases with
      | ended _ _ _ hnone _ => exact hnone
    have hlen := congrArg List.length proj.passed_pending
    rw [hnone, List.append_nil, List.length_map, List.length_zip, hstamps, Nat.min_self] at hlen
    exact hlen
  constructor
  · have hle : (h.entered.zip h.stamps).length ≤ h.entered.length := by
      rw [List.length_zip]
      exact Nat.min_le_left _ _
    rw [delivered, hpassed, List.take_of_length_le hle]
    exact List.map_fst_zip (Nat.le_of_eq hstamps.symm)
  · have haccounted := (proj.run.batching_safe.accounted hended).2
    rw [proj.stamps, hstamps] at haccounted
    exact haccounted

end State

end Availability.Flow

import Availability.Proofs.Pipeline.Capacity
import Availability.Proofs.Pipeline.Handover

/-!
# A provider that does not answer

The intake serves all providers, so a source that waits for room in the queue of one holds up the
others. A worker whose probe does not come back has one source in hand, and its queue takes as many
more as it has room for. Up to that many requests for its provider, the others are served as if it
were not there.

* `State.Rests`: the pipeline waits for nothing but the ticker, the stream, the clock and one probe.
* `Isolated`, `Run.isolated`: what then has come of the requests for the other providers.
-/

namespace Availability.Flow

open State

namespace State

/-- What comes from elsewhere while the probe of `x` is out: the ticker goes off, the stream goes
on, the signal is given, time goes by or runs out, and the probe itself ends. -/
def Awaits (x : Provider) : Move → Prop
  | .batcher .tick => True
  | .intake (.pull _) => True
  | .intake .streamEnds => True
  | .worker p (.probed _) => p = x
  | .worker p (.crash _) => p = x
  | .coordinator .giveUp => True
  | .signal => True
  | .elapse _ => True
  | _ => False

/-- Nothing else can happen: no stage can go on, and no call but the probe of `x` is out. -/
def Rests (x : Provider) (s : State) : Prop := ∀ m t, s.step? m = some t → Awaits x m

variable {x : Provider} {s : State} {m : Move}

theorem Rests.step?_eq_none (h : s.Rests x) (hm : ¬ Awaits x m) : s.step? m = none := by
  cases hstep : s.step? m with
  | none => rfl
  | some t => exact absurd (h m t hstep) hm

/-- At rest the sink is not busy, and a batcher at work has taken all results. -/
theorem Rests.batcher (h : s.Rests x) (hcalm : s.batcher.isCrashed = false) :
    s.batcher.phase = .ended ∨ s.batcher.phase = .waiting ∧ s.results.items = [] := by
  cases hphase : s.batcher.phase with
  | waiting =>
    cases hitems : s.results.items with
    | nil => exact .inr ⟨rfl, rfl⟩
    | cons r rest =>
      have hnone := h.step?_eq_none (m := .batcher (.receive default)) id
      simp only [step?, Batcher.step?, batcherBench, hphase, Queue.pop?, hitems] at hnone
      split at hnone <;> cases hnone
  | flushing =>
    have hnone := h.step?_eq_none (m := .batcher (.sent (.ok ()))) id
    simp [step?, Batcher.step?, batcherBench, hphase] at hnone
  | ended => exact .inl rfl
  | crashed => simp [Batcher.isCrashed, hphase] at hcalm

/-- At rest a worker has nothing in hand, if its probes come back and the result queue has room. -/
theorem Rests.worker (h : s.Rests x) {p : Provider} (hp : p ≠ x)
    (hcalm : (s.workers.get p).isCrashed = false) (hroom : ∀ r, s.results.offer r ≠ .waits) :
    (s.workers.get p).phase = .ended ∨
      (s.workers.get p).phase = .waiting ∧ (s.queue p).items = [] := by
  cases hphase : (s.workers.get p).phase with
  | waiting =>
    cases hitems : (s.queue p).items with
    | nil => exact .inr ⟨rfl, rfl⟩
    | cons source rest =>
      have hnone := h.step?_eq_none (m := .worker p .take) id
      simp [step?, Worker.step?, bench, hphase, Queue.pop?, hitems] at hnone
  | probing =>
    have hnone := h.step?_eq_none (m := .worker p (.probed (.ok ()))) hp
    simp [step?, Worker.step?, bench, hphase] at hnone
  | offering r =>
    have hnone := h.step?_eq_none (m := .worker p .offer) id
    cases hoffer : s.results.offer r with
    | entered => simp [step?, Worker.step?, bench, hphase, hoffer] at hnone
    | refused => simp [step?, Worker.step?, bench, hphase, hoffer] at hnone
    | waits => exact absurd hoffer (hroom r)
  | ended => exact .inl rfl
  | crashed => simp [Worker.isCrashed, hphase] at hcalm

/-- At rest the intake has nothing in hand, unless its source waits for room. -/
theorem Rests.intake (h : s.Rests x) (hrunning : s.intake.isOver = false) {d : Dispatch}
    (hcurrent : s.intake.router.current = some d) (hpending : ∀ v, d ≠ .finished v) :
    ∃ p source, d = .sending p source ∧ (s.queue p).offer source = .waits := by
  cases d with
  | resolving =>
    have hnone := h.step?_eq_none (m := .intake (.lookup (.error (.internal "")))) id
    simp [step?, Intake.step?, hrunning, Router.step?, hcurrent] at hnone
  | finished v => exact absurd rfl (hpending v)
  | sending p source =>
    have hnone := h.step?_eq_none (m := .intake .enqueue) id
    refine ⟨p, source, rfl, ?_⟩
    cases hoffer : (s.queue p).offer source with
    | waits => rfl
    | entered =>
      rw [queue] at hoffer
      simp [step?, Intake.step?, hrunning, Router.step?, hcurrent, hoffer] at hnone
    | refused =>
      rw [queue] at hoffer
      simp [step?, Intake.step?, hrunning, Router.step?, hcurrent, hoffer] at hnone

end State

theorem History.answers_foldl {x : Provider} {ms : List State.Move}
    (h : ∀ answer, .worker x (.probed answer) ∉ ms) (history : History) :
    (ms.foldl note history).answers.get x = history.answers.get x := by
  induction ms generalizing history with
  | nil => rfl
  | cons m ms ih =>
    have hrest := ih (fun answer hmem => h answer (List.mem_cons_of_mem m hmem)) (history.note m)
    rw [List.foldl_cons, hrest]
    unfold note
    split
    · rfl
    · rfl
    · rename_i p answer
      by_cases hpx : x = p
      · subst hpx
        exact absurd List.mem_cons_self (h answer)
      · exact PerProvider.get_set_other _ _ hpx
    · rfl
    · rfl
    · rfl

section

variable {c : Settings} {ms : List State.Move} {s : State} {x : Provider}

/-- **Room in the queue of a provider that does not answer**: when the router waits for it, the
worker has not taken anything yet, and can. -/
theorem Run.take_of_waits (run : Run (State.start c) ms s) (hcapacity : 1 ≤ c.capacity)
    (hcalm : s.Calm) (hstuck : ∀ answer, .worker x (.probed answer) ∉ ms)
    (hfew : ((History.of ms).requests x).length ≤ c.capacity + 1) {source : ResolvedSource}
    (hcurrent : s.intake.router.current = some (.sending x source))
    (hwaits : (s.queue x).offer source = .waits) : (s.step? (.worker x .take)).isSome = true := by
  obtain ⟨hopen, hfull⟩ := (Queue.offer_waits_iff _ _).1 hwaits
  rw [run.fitted.queue] at hfull
  have hnone : (History.of ms).answers.get x = [] := by
    rw [History.of, History.answers_foldl hstuck]
    cases x <;> rfl
  -- all requests are still in the line: in the router's hand, in the queue or in the probe
  have hline := congrArg List.length ((run.lined x).unanswered (hcalm.worker x))
  have hholding : s.intake.router.holding x = [source] := by simp [Router.holding, hcurrent]
  rw [hnone, List.length_nil, List.drop_zero, List.length_map, awaiting, hholding] at hline
  simp only [List.length_append, List.length_singleton] at hline
  have hprobing : (s.workers.get x).probing.length = 0 := by omega
  have hoffering : (s.workers.get x).offering = [] := by
    have hoffered := congrArg List.length ((run.lined x).offered hcalm.batcher)
    rw [History.checks, hnone, List.zipWith_nil_right] at hoffered
    simp only [List.length_append, List.map_nil, List.length_nil] at hoffered
    exact List.length_eq_zero_iff.1 (by omega)
  have hwork : (s.workers.get x).isOver = false := by
    rw [run.wired.queue_receiving] at hopen
    simpa using hopen
  obtain ⟨front, rest, hitems⟩ := List.exists_cons_of_length_pos
    (show 0 < (s.queue x).items.length by omega)
  cases hphase : (s.workers.get x).phase with
  | waiting => simp [step?, Worker.step?, bench, hphase, Queue.pop?, hitems]
  | probing => simp [Worker.probing, hphase] at hprobing
  | offering => simp [Worker.offering, hphase] at hoffering
  | ended => simp [Worker.isOver, hphase] at hwork
  | crashed => simp [Worker.isOver, hphase] at hwork

/-- At rest the result queue is empty. -/
theorem Run.results_of_rests (run : Run (State.start c) ms s) (hcalm : s.Calm)
    (hrests : s.Rests x) : s.results.items = [] := by
  rcases hrests.batcher hcalm.batcher with hended | ⟨-, hitems⟩
  · exact run.items_of_ended hended
  · exact hitems

/-- At rest another provider has nothing left to do. -/
theorem Run.idle_of_rests (run : Run (State.start c) ms s) (hcapacity : 1 ≤ c.capacity)
    (hcalm : s.Calm) (hrests : s.Rests x) {p : Provider} (hp : p ≠ x) :
    (s.queue p).items = [] ∧ (s.workers.get p).probing = [] ∧ (s.workers.get p).offering = [] := by
  have hroom : ∀ r, s.results.offer r ≠ .waits := by
    intro r hwaits
    have hfull := ((Queue.offer_waits_iff _ _).1 hwaits).2
    rw [run.fitted.results, run.results_of_rests hcalm hrests, List.length_nil] at hfull
    omega
  rcases hrests.worker hp (hcalm.worker p) hroom with hended | ⟨hphase, hitems⟩
  · have hclosed : (s.queue p).receiving = false := by
      rw [run.wired.queue_receiving]
      simp [Worker.isOver, hended]
    refine ⟨List.length_eq_zero_iff.1 ((run.sound.queue p).length_of_closed hclosed), ?_⟩
    simp [Worker.probing, Worker.offering, hended]
  · simp [Worker.probing, Worker.offering, hphase, hitems]

/-- At rest the intake has nothing in hand: the only queue without room would be that of `x`. -/
theorem Run.current_of_rests (run : Run (State.start c) ms s) (hcapacity : 1 ≤ c.capacity)
    (hcalm : s.Calm) (hstuck : ∀ answer, .worker x (.probed answer) ∉ ms)
    (hfew : ((History.of ms).requests x).length ≤ c.capacity + 1) (hrests : s.Rests x) :
    s.intake.router.current = none := by
  cases hcurrent : s.intake.router.current with
  | none => rfl
  | some d =>
    exfalso
    have hrunning : s.intake.isOver = false := by
      refine Bool.eq_false_iff.2 fun hover => ?_
      cases hcurrent.symm.trans (run.ledger.emptied hover)
    have hpending : ∀ v, d ≠ .finished v := by
      rintro v rfl
      exact run.fitted.current v hcurrent
    obtain ⟨p, source, rfl, hwaits⟩ := hrests.intake hrunning hcurrent hpending
    by_cases hp : p = x
    · subst hp
      have hcan := run.take_of_waits hcapacity hcalm hstuck hfew hcurrent hwaits
      rw [hrests.step?_eq_none id] at hcan
      cases hcan
    · have hfull := ((Queue.offer_waits_iff _ _).1 hwaits).2
      have hitems := (run.idle_of_rests hcapacity hcalm hrests hp).1
      rw [run.fitted.queue, hitems, List.length_nil] at hfull
      omega

end

/-- What a provider `x` that does not answer means for the others. -/
structure Isolated (c : Settings) (x : Provider) (ms : List State.Move) (s : State) : Prop where
  /-- The intake does not wait for it in vain. -/
  goes_on : ∀ source, s.intake.router.current = some (.sending x source) →
    (s.queue x).offer source = .waits → (s.step? (.worker x .take)).isSome = true
  /-- At rest every message that was pulled has been settled. -/
  settled : s.Rests x → s.intake.router.current = none ∧
    (History.of ms).pulled.length = (History.of ms).routed.length + s.intake.stats.dropped
  /-- Each of those for another provider has been checked, and its result has been put on the
  result queue. -/
  checked : s.Rests x → ∀ p, p ≠ x →
    ((History.of ms).enteredOf p).map Check.request = (History.of ms).requests p
  /-- The message of every such result has gone to the sink, or is in the batch. -/
  handed : s.Rests x → ∃ stamps, stamps.length = (History.of ms).entered.length ∧
    s.passed ++ s.batcherBench.pending =
      ((History.of ms).entered.zip stamps).map (messageOf c.topic)

/-- **A provider that does not answer leaves the others alone**, as long as no more requests come
for it than its worker and its queue can hold. -/
theorem Run.isolated {c : Settings} {ms : List State.Move} {s : State} {x : Provider}
    (run : Run (State.start c) ms s) (hcapacity : 1 ≤ c.capacity) (hcalm : s.Calm)
    (hstuck : ∀ answer, .worker x (.probed answer) ∉ ms)
    (hfew : ((History.of ms).requests x).length ≤ c.capacity + 1) : Isolated c x ms s := by
  refine ⟨fun source => run.take_of_waits hcapacity hcalm hstuck hfew, fun hrests => ?_,
    fun hrests p hp => ?_, fun hrests => ?_⟩
  · have hnone := run.current_of_rests hcapacity hcalm hstuck hfew hrests
    have ledger := run.ledger
    have hsettled := ledger.settled hcalm.intake
    have hrouted := ledger.routed hcalm.worker
    have hreceived := ledger.received
    simp only [hnone, Option.toList_none, List.length_nil, Router.inHand] at hsettled hrouted
    exact ⟨hnone, by omega⟩
  · have hnone := run.current_of_rests hcapacity hcalm hstuck hfew hrests
    obtain ⟨hitems, hprobing, hoffering⟩ := run.idle_of_rests hcapacity hcalm hrests hp
    have line := run.lined p
    have hunanswered := line.unanswered (hcalm.worker p)
    have hholding : s.intake.router.holding p = [] := by simp [Router.holding, hnone]
    rw [awaiting, hitems, hprobing, hholding, List.append_nil, List.append_nil,
      List.map_eq_nil_iff, List.drop_eq_nil_iff] at hunanswered
    have hoffered := congrArg List.length (line.offered hcalm.batcher)
    rw [hoffering, List.append_nil, List.length_map, List.length_map] at hoffered
    rw [line.entered.eq_of_length hoffered.symm]
    exact History.map_request_checks (Nat.le_antisymm line.answered_le hunanswered)
  · have hitems := run.items_eq hcalm.batcher
    rw [run.results_of_rests hcalm hrests] at hitems
    have hdrop := List.drop_eq_nil_iff.1 (List.map_eq_nil_iff.1 hitems.symm)
    obtain ⟨es, proj⟩ := run.projected
    exact ⟨_, Nat.le_antisymm run.stamps_le hdrop, proj.passed_pending⟩

/-- One provider does not answer, and gets as many requests as its worker and its queue can hold.
The router waits for room until the worker has taken the first. The request for another provider is
served, and then the pipeline rests. -/
theorem isolated_served : ∃ before t after s,
    Run (State.start ⟨1, 100, 60000, 2, "status"⟩) before t ∧
      (∃ source, t.intake.router.current = some (.sending .aws source) ∧
        (t.queue .aws).offer source = .waits) ∧
      Run t after s ∧ s.Calm ∧ (∀ answer, .worker .aws (.probed answer) ∉ before ++ after) ∧
      ((History.of (before ++ after)).requests .aws).length = 1 + 1 ∧ s.Rests .aws ∧
      s.batcherBench.pending.length = 1 ∧
      Isolated ⟨1, 100, 60000, 2, "status"⟩ .aws before t ∧
      Isolated ⟨1, 100, 60000, 2, "status"⟩ .aws (before ++ after) s := by
  let stuck := ResolvedSource.make (.known .aws) "5" "key" ⟨"7", none⟩
  let healthy := ResolvedSource.make (.known .azure) "6" "key" ⟨"7", none⟩
  let before : List State.Move :=
    [.intake (.pull sampleMessage), .intake (.lookup (.ok stuck)), .intake .enqueue,
    .intake (.pull sampleMessage), .intake (.lookup (.ok stuck))]
  let after : List State.Move :=
    [.worker .aws .take, .intake .enqueue, .intake (.pull sampleMessage),
    .intake (.lookup (.ok healthy)), .intake .enqueue, .worker .azure .take,
    .worker .azure (.probed (.ok ())), .worker .azure .offer, .batcher (.receive default)]
  have hruns : ∃ t s, Run (State.start ⟨1, 100, 60000, 2, "status"⟩) before t ∧
      (∃ source, t.intake.router.current = some (.sending .aws source) ∧
        (t.queue .aws).offer source = .waits) ∧ t.Calm ∧ Run t after s ∧ s.Calm ∧
      s.Rests .aws ∧ s.batcherBench.pending.length = 1 :=
    ⟨_, _, .cons (step?_pull rfl decode_sampleMessage) (.cons rfl (.cons rfl
      (.cons (step?_pull rfl decode_sampleMessage) (.cons rfl (.nil _))))), ⟨stuck, rfl, rfl⟩,
      ⟨rfl, fun p => by cases p <;> rfl, rfl⟩,
      .cons rfl (.cons rfl (.cons (step?_pull rfl decode_sampleMessage) (.cons rfl (.cons rfl
        (.cons rfl (.cons rfl (.cons rfl (.cons rfl (.nil _))))))))),
      ⟨rfl, fun p => by cases p <;> rfl, rfl⟩, fun m t h => by
        cases m with
        | intake m => cases m <;> trivial
        | worker p m => cases p <;> cases m <;> trivial
        | batcher m => cases m <;> trivial
        | coordinator m => cases m <;> trivial
        | signal => trivial
        | elapse => trivial, rfl⟩
  obtain ⟨t, s, first, hwaits, hcalm, rest, hcalm', hrests, hpending⟩ := hruns
  have hstuck : ∀ answer, .worker .aws (.probed answer) ∉ before ++ after := by
    simp [before, after]
  have hstuck' : ∀ answer, .worker .aws (.probed answer) ∉ before := by simp [before]
  exact ⟨before, t, after, s, first, hwaits, rest, hcalm', hstuck, rfl, hrests, hpending,
    first.isolated (by decide) hcalm hstuck' (by decide),
    (first.append rest).isolated (by decide) hcalm' hstuck (by decide)⟩

end Availability.Flow

import Availability.Proofs.Batcher.Timing
import Availability.Proofs.Pipeline.Shutdown
import Availability.Service

/-!
# What a shutdown still hands over

When a shutdown is triggered, some results wait for the sink, on the result queue or in the batch.
A drain that comes to its end of itself hands them all over. One that is cut short does so when
there was time for the ticker to go off once more, the time the sink took not counted; otherwise
they are given up together with the stages.

* `State.HandedOver`: what waited for the sink at one moment has gone to it by another.
* `Prompt.pace`: by when the results that have come to the batcher go on.
* `Run.handed_over`: when a shutdown hands everything over.
* `not_always_handed_over`: a valid configuration under which it does not.
-/

namespace Availability.Flow

namespace State

variable {c : Settings} {s t u : State} {m : Move}

/-- The messages of results, with a stamp for each. -/
def stamped (topic : String) (rs : List ProbeResult) (stamps : List Stamp) :
    List OutboundMessage :=
  List.zipWith (fun r stamp => r.toMessage topic stamp) rs stamps

/-- What waited for the sink at `t`, in the batch and on the result queue, has gone to it by `s`,
in this order and after all that had gone before. -/
def HandedOver (t s : State) : Prop :=
  ∃ stamps, stamps.length = t.results.items.length ∧
    t.passed ++ t.batcherBench.pending ++ stamped t.batcher.topic t.results.items stamps
      <+: s.passed

/-- How many results the batcher has taken off the result queue. -/
def handled (s : State) : Nat := s.passed.length + s.batcherBench.pending.length

/-- How many results have come to the batcher, those on the result queue included. -/
def reached (s : State) : Nat := s.handled + s.results.items.length

end State

open State

/-! ## What has come to the batcher -/

section

variable {c : Settings} {before after : List State.Move} {s t : State}

theorem Run.stamps_le (run : Run (State.start c) before s) :
    (History.of before).stamps.length ≤ (History.of before).entered.length := by
  obtain ⟨es, proj⟩ := run.projected
  have hle := proj.run.conserved.taken_le
  rw [items_results_start, List.nil_append, proj.stamps] at hle
  exact Nat.le_trans hle (by simpa using proj.arrived.length_le)

theorem Run.handled_eq (run : Run (State.start c) before s) :
    s.handled = (History.of before).stamps.length := by
  obtain ⟨es, proj⟩ := run.projected
  have hlen := congrArg List.length proj.passed_pending
  rw [List.length_append, List.length_map, List.length_zip, Nat.min_eq_right run.stamps_le] at hlen
  exact hlen

theorem Run.items_eq (run : Run (State.start c) before s) (hcalm : s.batcher.isCrashed = false) :
    s.results.items =
      ((History.of before).entered.drop (History.of before).stamps.length).map Check.result := by
  obtain ⟨es, proj⟩ := run.projected
  have hleft := proj.run.conserved.left fun text hphase => by
    simp [Batcher.isCrashed, show s.batcher.phase = _ from hphase] at hcalm
  rw [items_results_start, List.nil_append, proj.whole hcalm, proj.stamps, ← List.map_drop] at hleft
  exact hleft

theorem Run.reached_eq (run : Run (State.start c) before s) (hcalm : s.batcher.isCrashed = false) :
    s.reached = (History.of before).entered.length := by
  have hle := run.stamps_le
  rw [reached, run.handled_eq, run.items_eq hcalm, List.length_map, List.length_drop]
  omega

theorem Run.reached_le (run : Run (State.start c) before t) (rest : Run t after s)
    (hcalm : s.batcher.isCrashed = false) : t.reached ≤ s.reached := by
  rw [run.reached_eq (rest.batcher_calm hcalm), (run.append rest).reached_eq hcalm,
    History.of_append]
  exact ((History.of before).grows after).1.length_le

/-- Nothing comes to a batcher that has crashed. -/
theorem Run.items_of_crashed (run : Run (State.start c) before s)
    (hcrashed : s.batcher.isCrashed = true) : s.results.items = [] := by
  revert hcrashed
  refine run.induction (motive := fun _ s => s.batcher.isCrashed = true → s.results.items = [])
    (fun _ => items_results_start c) fun ms s m t run ih hm hcrashed => ?_
  cases step_of_step? hm with
  | worker hb =>
    have hitems := ih hcrashed
    cases hb with
    | entered _ hopen =>
      have hclosed := run.wired.results_receiving
      rw [show s.batcher.isCrashed = true from hcrashed, show s.results.receiving = true from hopen]
        at hclosed
      cases hclosed
    | _ => exact hitems
  | batcher hb => exact (hb.of_isCrashed hcrashed).2
  | coordinator hc =>
    obtain ⟨_, _, rfl⟩ := coordinatorStep?_frame hc
    exact ih hcrashed
  | _ => exact ih hcrashed

/-- What the batcher has done since `t`: it has gone on with what was left on the result queue
there, and with what has come since. -/
theorem Run.passed_pending_since (run : Run (State.start c) before t) (rest : Run t after s) :
    ∃ more stamps, s.passed ++ s.batcherBench.pending = t.passed ++ t.batcherBench.pending ++
      (List.zip ((History.of before).entered.drop (History.of before).stamps.length ++ more)
        stamps).map (messageOf c.topic) := by
  obtain ⟨_, projt⟩ := run.projected
  obtain ⟨_, projs⟩ := (run.append rest).projected
  have hpassed := projs.passed_pending
  rw [History.of_append] at hpassed
  obtain ⟨⟨more, hmore⟩, ⟨stamps, hstamps⟩⟩ := (History.of before).grows after
  refine ⟨more, stamps, ?_⟩
  rw [hpassed, projt.passed_pending, ← hmore, ← hstamps, ← List.map_append,
    zip_append_ahead _ _ run.stamps_le]

theorem Run.topic_eq (run : Run (State.start c) before t) : t.batcher.topic = c.topic := by
  obtain ⟨_, proj⟩ := run.projected
  exact proj.run.topic_eq

theorem stamped_eq (topic : String) (ks : List Check) (stamps : List Stamp) :
    stamped topic (ks.map Check.result) stamps = (ks.zip stamps).map (messageOf topic) := by
  rw [stamped, List.zipWith_map_left, List.zip, List.map_zipWith]
  rfl

/-- Once as many messages have gone to the sink as results had come to the batcher by `t`, all that
waited there has been handed over: the batcher keeps the order. -/
theorem Run.handedOver_of_le (run : Run (State.start c) before t) (rest : Run t after s)
    (hle : t.reached ≤ s.passed.length) : HandedOver t s := by
  obtain ⟨more, stamps, hsince⟩ := run.passed_pending_since rest
  have within : ∀ xs, xs <+: s.passed ++ s.batcherBench.pending → xs.length ≤ t.reached →
      xs <+: s.passed := fun xs hprefix hlen =>
    List.prefix_of_prefix_length_le hprefix (List.prefix_append _ _) (Nat.le_trans hlen hle)
  by_cases hcrashed : t.batcher.isCrashed = true
  · have hnone := run.items_of_crashed hcrashed
    refine ⟨[], by rw [hnone]; rfl, within _ ?_ ?_⟩
    · rw [hsince, hnone, stamped, List.zipWith_nil_right, List.append_nil]
      exact List.prefix_append _ _
    · rw [hnone, stamped, List.zipWith_nil_right, List.append_nil, List.length_append]
      exact Nat.le_add_right _ _
  · have hitems := run.items_eq (Bool.eq_false_iff.2 hcrashed)
    generalize (History.of before).entered.drop (History.of before).stamps.length = left
      at hitems hsince
    have hlen : t.results.items.length = left.length := by rw [hitems, List.length_map]
    -- more messages have gone than had been made by `t`, so every result left has its stamp
    have hstamps : left.length ≤ stamps.length := by
      have hcount := congrArg List.length hsince
      simp only [List.length_append, List.length_map, List.length_zip] at hcount
      simp only [reached, handled, hlen] at hle
      omega
    have htake : left.length = (stamps.take left.length).length := by
      rw [List.length_take, Nat.min_eq_left hstamps]
    refine ⟨stamps.take left.length, htake.symm.trans hlen.symm, within _ ?_ ?_⟩
    · rw [hsince, hitems, run.topic_eq, stamped_eq]
      refine (List.prefix_append_right_inj _).2 (List.IsPrefix.map _ ?_)
      refine ⟨more.zip (stamps.drop left.length), ?_⟩
      rw [← List.zip_append htake, List.take_append_drop]
    · rw [hitems, run.topic_eq, stamped_eq]
      simp only [List.length_append, List.length_map, List.length_zip, reached, handled, hlen]
      omega

end

/-! ## When the batcher goes on -/

/-- Only a result that was just put into the batch is left there by a move of the batcher. -/
theorem Batcher.Bench.Step.handled_le {b b' : Batcher.Bench} {m : Batcher.Move}
    (h : Batcher.Bench.Step b (.own m) b') (hnone : b.batcher.phase ≠ .waiting → b.pending = []) :
    b.passed.length + b.pending.length ≤ b'.passed.length + b'.pending.length ∧
      (b'.pending = [] ∨ (b'.batcher.ticker = b.batcher.ticker ∧ b'.passed = b.passed)) := by
  cases h with
  | gathered => exact ⟨by simp [gather, Bench.advance, pending, passed], .inr ⟨rfl, rfl⟩⟩
  | filled => exact ⟨by simp [Bench.advance, pending, passed], .inl rfl⟩
  | idled _ _ hpending => exact ⟨Nat.le_refl _, .inl hpending⟩
  | flushed => exact ⟨by simp [ticked, pending, passed], .inl rfl⟩
  | finished _ _ hpending => exact ⟨Nat.le_refl _, .inl hpending⟩
  | drained => exact ⟨by simp [pending, passed], .inl rfl⟩
  | answered hphase =>
    have hpending := hnone (by simp [hphase])
    exact ⟨by simp [pending, passed], .inl (by simpa [pending] using hpending)⟩
  | crashed hphase => exact ⟨Nat.le_refl _, .inl (hnone (by simp [hphase]))⟩

namespace State

variable {c : Settings} {s t u : State} {m : Move}

/-- How long the sink is busy with a batch in a move. -/
def sinkBusy (s : State) : Move → Nat
  | .elapse n =>
    match s.batcher.phase with
    | .flushing _ _ => n
    | _ => 0
  | _ => 0

/-- How long the sink is busy in a run, over all its calls. -/
def sinkTime (s : State) : List Move → Nat
  | [] => 0
  | m :: ms => s.sinkBusy m + match s.step? m with
    | some t => t.sinkTime ms
    | none => 0

theorem isBusy_of_items (hphase : s.batcher.phase = .waiting) (hitems : s.results.items ≠ []) :
    s.isBusy = true := by
  have hcan : (s.step? (.batcher (.receive default))).isSome = true := by
    cases hfront : s.results.items with
    | nil => exact absurd hfront hitems
    | cons r rest =>
      simp only [step?, Batcher.step?, batcherBench, hphase, Queue.pop?, hfront, Option.isSome_map]
      split <;> rfl
  simp [isBusy, hcan]

theorem untilTimer?_le_due (h : s.batcher.phase = .waiting) :
    ∃ n, s.untilTimer? = some n ∧ n ≤ s.batcher.ticker.due - s.now := by
  simp only [untilTimer?, h]
  split
  · rename_i hticker _
    cases hticker
    exact ⟨_, rfl, Nat.min_le_left _ _⟩
  · rename_i hticker _
    cases hticker
    exact ⟨_, rfl, Nat.le_refl _⟩
  · rename_i hticker
    cases hticker

theorem Step.handled_le (h : Step s m t) (hm : ∀ n, m ≠ .elapse n)
    (hnone : s.batcher.phase ≠ .waiting → s.batcherBench.pending = []) :
    s.handled ≤ t.handled ∧ (t.batcherBench.pending = [] ∨
      (t.batcher.ticker = s.batcher.ticker ∧ t.passed = s.passed)) := by
  cases h with
  | batcher hb => exact hb.handled_le hnone
  | coordinator hc =>
    obtain ⟨_, _, rfl⟩ := coordinatorStep?_frame hc
    exact ⟨Nat.le_refl _, .inr ⟨rfl, rfl⟩⟩
  | elapse => exact absurd rfl (hm _)
  | _ => exact ⟨Nat.le_refl _, .inr ⟨rfl, rfl⟩⟩

/-- How far the batcher is at `s` with what had come to it at `t`, the sink having been busy for
some time since: either not all of it is off the result queue, but no time was spent on waiting; or
some of it waits in the batch, for the ticker. -/
structure Pace (c : Settings) (t : State) (busy : Nat) (s : State) : Prop where
  queued : s.handled < t.reached → s.now ≤ t.now + busy
  held : t.reached ≤ s.handled → s.passed.length < t.reached →
    s.now ≤ t.now + busy + c.tickMs ∧ s.batcher.ticker.due ≤ t.now + busy + c.tickMs

theorem Pace.step {busy : Nat} (h : Pace c t busy s) (hstep : Step s m u)
    (hm : ∀ n, m ≠ .elapse n) (hdue : s.batcher.ticker.due ≤ s.now + c.tickMs)
    (hnone : s.batcher.phase ≠ .waiting → s.batcherBench.pending = []) : Pace c t busy u := by
  obtain ⟨hle, hlast⟩ := hstep.handled_le hm hnone
  have hnow := hstep.now_eq hm
  constructor
  · intro hqueued
    rw [hnow]
    exact h.queued (by omega)
  · intro hhandled hwaits
    rcases hlast with hempty | ⟨hticker, hpassed⟩
    · simp only [handled, hempty, List.length_nil] at hhandled
      omega
    · rw [hnow, hticker]
      rw [hpassed] at hwaits
      by_cases hqueued : s.handled < t.reached
      · have hnow := h.queued hqueued
        omega
      · exact h.held (by omega) hwaits

theorem Pace.elapse {busy n : Nat} (h : Pace c t busy s) (hidle : s.isBusy = false)
    (htimer : ∀ d, s.untilTimer? = some d → n ≤ d)
    (hnone : s.batcher.phase ≠ .waiting → s.batcherBench.pending = [])
    (hwork : s.handled < t.reached → s.results.items ≠ [] ∧ s.batcher.isOver = false) :
    Pace c t (busy + s.sinkBusy (.elapse n)) { s with now := s.now + n } := by
  constructor
  · intro (hqueued : s.handled < t.reached)
    have hnow := h.queued hqueued
    obtain ⟨hitems, hover⟩ := hwork hqueued
    show s.now + n ≤ _
    cases hphase : s.batcher.phase with
    | waiting =>
      -- the clock stands while the batcher can take a result
      rw [isBusy_of_items hphase hitems] at hidle
      cases hidle
    | flushing =>
      simp only [sinkBusy, hphase]
      omega
    | ended => simp [Batcher.isOver, hphase] at hover
    | crashed => simp [Batcher.isOver, hphase] at hover
  · intro (hhandled : t.reached ≤ s.handled) (hwaits : s.passed.length < t.reached)
    obtain ⟨hnow, hdue⟩ := h.held hhandled hwaits
    -- something waits in the batch, so the clock stops at the ticker
    have hphase : s.batcher.phase = .waiting := by
      by_cases hphase : s.batcher.phase = .waiting
      · exact hphase
      · have hempty := hnone hphase
        simp only [handled, hempty, List.length_nil] at hhandled
        omega
    obtain ⟨d, hd, hle⟩ := untilTimer?_le_due hphase
    have hn := htimer d hd
    simp only [sinkBusy, hphase]
    show s.now + n ≤ _ ∧ s.batcher.ticker.due ≤ _
    omega

end State

section

variable {c : Settings} {before after : List State.Move} {s t : State}

theorem Run.due_le (run : Run (State.start c) before s) :
    s.batcher.ticker.due ≤ s.now + c.tickMs := by
  obtain ⟨_, proj⟩ := run.projected
  exact proj.run.due_le

theorem Run.pending_of_not_waiting (run : Run (State.start c) before s)
    (hphase : s.batcher.phase ≠ .waiting) : s.batcherBench.pending = [] := by
  obtain ⟨_, proj⟩ := run.projected
  exact proj.run.pending_of_not_waiting hphase

theorem Run.items_of_ended (run : Run (State.start c) before s)
    (hended : s.batcher.phase = .ended) : s.results.items = [] := by
  obtain ⟨_, proj⟩ := run.projected
  have hend := proj.run.atEnd_of_ended hended
  simp only [Queue.atEnd, Bool.and_eq_true, List.isEmpty_iff] at hend
  exact hend.1

/-- **The batcher keeps pace**: on a prompt clock nothing that has come to it waits for longer than
one period of the ticker and the time the sink takes. -/
theorem Prompt.pace {busy : Nat} {u : State} (prompt : Prompt s after u)
    (run : Run (State.start c) before s) (hcalm : u.batcher.isCrashed = false)
    (hreached : t.reached ≤ s.reached) (h : Pace c t busy s) :
    Pace c t (busy + s.sinkTime after) u := by
  induction prompt generalizing before busy with
  | nil => exact h
  | @cons s v u m ms hm hclock rest ih =>
    have hcalm_s := (Run.cons hm rest.run).batcher_calm hcalm
    have hreached_v : t.reached ≤ v.reached := by
      have hle := run.reached_le (.cons hm (.nil v)) (rest.run.batcher_calm hcalm)
      omega
    have hnone := run.pending_of_not_waiting
    have hbusy : busy + s.sinkTime (m :: ms) = busy + s.sinkBusy m + v.sinkTime ms := by
      simp only [sinkTime, hm]
      omega
    rw [hbusy]
    refine ih (run.snoc hm) hcalm hreached_v ?_
    by_cases hwait : ∃ n, m = .elapse n
    · obtain ⟨n, rfl⟩ := hwait
      cases hm
      obtain ⟨hidle, htimer⟩ := hclock n rfl
      refine h.elapse hidle htimer hnone fun hqueued => ?_
      have hitems : s.results.items ≠ [] := by
        refine List.length_pos_iff.1 ?_
        simp only [reached] at hreached hqueued
        omega
      refine ⟨hitems, Bool.eq_false_iff.2 fun hover => ?_⟩
      exact hitems (run.items_of_ended (Batcher.ended_of_over hover hcalm_s))
    · have hstep := step_of_step? hm
      have hstays : s.sinkBusy m = 0 := by
        cases m with
        | elapse n => exact absurd ⟨n, rfl⟩ hwait
        | _ => rfl
      rw [hstays, Nat.add_zero]
      exact h.step hstep (fun n hn => hwait ⟨n, hn⟩) run.due_le hnone

/-- At the moment itself nothing has been waited for. -/
theorem Run.pace_start (run : Run (State.start c) before t) : Pace c t 0 t := by
  have hdue := run.due_le
  exact ⟨fun _ => Nat.le_refl _, fun _ _ => by omega⟩

end

/-! ## The end of the drain -/

namespace State

variable {c : Settings} {s t : State} {m : Move}

/-- The stages are given up on no earlier than `limit`. -/
def Spares (limit : Nat) (s : State) : Prop :=
  match s.coordinator.phase with
  | .watching => limit ≤ s.limit
  | .draining _ deadline => limit ≤ deadline
  | .done _ => s.allOver = true ∨ limit ≤ s.now

theorem Step.now_le (h : Step s m t) : s.now ≤ t.now := by
  by_cases hwait : ∃ n, m = .elapse n
  · obtain ⟨n, rfl⟩ := hwait
    cases h with
    | elapse => exact Nat.le_add_right _ _
  · exact Nat.le_of_eq (h.now_eq fun n hn => hwait ⟨n, hn⟩).symm

theorem Step.allOver (h : Step s m t) (hover : s.allOver = true) : t.allOver = true := by
  obtain ⟨k, rfl, hk⟩ | ⟨_, _, rfl⟩ := h.of_allOver hover
  · obtain ⟨_, _, rfl⟩ := coordinatorStep?_frame hk
    exact hover
  · exact hover

theorem Spares.step {limit : Nat} (h : Spares limit s) (hstep : Step s m t) : Spares limit t := by
  obtain ⟨k, rfl, hk⟩ | ⟨-, hsame, -⟩ := hstep.coordinator_cases
  · cases hk with
    | sawSignal hphase =>
      simp only [Spares, hphase] at h
      exact h
    | sawExit hphase =>
      simp only [Spares, hphase] at h
      exact h
    | finished _ hover => exact .inl hover
    | gaveUp hphase hlate =>
      simp only [Spares, hphase] at h
      exact .inr (Nat.le_trans h hlate)
  · have hnow := hstep.now_le
    simp only [Spares, hsame] at h ⊢
    cases hphase : s.coordinator.phase with
    | watching =>
      simp only [hphase, State.limit, hstep.settings_eq] at h ⊢
      omega
    | draining => simpa only [hphase] using h
    | done =>
      simp only [hphase] at h ⊢
      rcases h with hover | hlate
      · exact .inl (hstep.allOver hover)
      · exact .inr (by omega)

end State

section

variable {c : Settings} {before after : List State.Move} {s t : State}

theorem Run.spares {limit : Nat} (run : Run t after s) (h : Spares limit t) : Spares limit s := by
  induction run with
  | nil => exact h
  | cons hm _ ih => exact ih (h.step (step_of_step? hm))

/-- A batcher that has come to its end without a crash has passed on whatever came to it. -/
theorem Run.reached_le_passed (run : Run (State.start c) before s)
    (hcalm : s.batcher.isCrashed = false) (hover : s.allOver = true) :
    s.reached ≤ s.passed.length := by
  have hended := Batcher.ended_of_over ((allOver_iff s).1 hover).2.2 hcalm
  have hitems := run.items_of_ended hended
  have hpending := run.pending_of_not_waiting (by simp [hended])
  simp [reached, handled, hitems, hpending]

/-- Nothing is left to wait for the sink of a batcher that has crashed. -/
theorem Run.reached_le_of_crashed (run : Run (State.start c) before t) (rest : Run t after s)
    (hcrashed : t.batcher.isCrashed = true) : t.reached ≤ s.passed.length := by
  have whole := run.append rest
  have hnever : s.batcher.phase ≠ .waiting := fun hphase => by
    have hcalm := rest.batcher_calm (by simp [Batcher.isCrashed, hphase])
    rw [hcrashed] at hcalm
    cases hcalm
  have hpending := whole.pending_of_not_waiting hnever
  have hitems := run.items_of_crashed hcrashed
  have hle : t.handled ≤ s.handled := by
    rw [run.handled_eq, whole.handled_eq, History.of_append]
    exact ((History.of before).grows after).2.length_le
  simpa [reached, hitems, handled, hpending] using hle

/-- **What a shutdown hands over.** What waits for the sink at any moment before the drain, for as
long as the sink does not crash,
* has gone to it when the pipeline stops, unless the stages were given up on;
* has gone to it even then, on a prompt clock, if a period of the ticker and the time that the sink
  was busy since then are together less than the time the drain is given. -/
theorem Run.handed_over {r : Except Error Report} (run : Run (State.start c) before t)
    (hphase : t.coordinator.phase = .watching) (rest : Run t after s)
    (hsink : ∀ text, .batcher (.crash text) ∉ after) (hresult : s.result? = some r) :
    (r ≠ .error s.overdue → HandedOver t s) ∧
      (Prompt t after s → t.sinkTime after + c.tickMs < c.shutdownTimeoutSecs * 1000 →
        HandedOver t s) := by
  have whole := run.append rest
  by_cases hcrashed : t.batcher.isCrashed = true
  · have handed := run.handedOver_of_le rest (run.reached_le_of_crashed rest hcrashed)
    exact ⟨fun _ => handed, fun _ _ => handed⟩
  have hcalm := rest.not_crashed (Bool.eq_false_iff.2 hcrashed) hsink
  have hreached := run.reached_le rest hcalm
  have hdone := phase_of_result? hresult
  have finished : s.allOver = true → HandedOver t s := fun hover =>
    run.handedOver_of_le rest (Nat.le_trans hreached (whole.reached_le_passed hcalm hover))
  constructor
  · intro hr
    have steered := whole.steered
    rw [hdone] at steered
    generalize hphase : CoordinatorPhase.done r = phase at steered
    cases steered with
    | watching => cases hphase
    | draining => cases hphase
    | overdue => exact absurd (CoordinatorPhase.done.inj hphase) hr
    | drained _ _ _ _ hover => exact finished hover
  · intro prompt hroom
    have spares : Spares t.limit s := rest.spares (by simp [Spares, hphase])
    simp only [Spares, hdone, limit, run.settings_eq] at spares
    rcases spares with hover | hlate
    · exact finished hover
    · -- the stages were given up on, but later than the batcher could have waited
      have pace := prompt.pace run hcalm (Nat.le_refl _) run.pace_start
      refine run.handedOver_of_le rest (Nat.le_of_not_lt fun hwaits => ?_)
      by_cases hqueued : s.handled < t.reached
      · have hnow := pace.queued hqueued
        omega
      · have hnow := (pace.held (by omega) hwaits).1
        omega

end

section

variable {s t u : State} {m : State.Move} {ms : List State.Move}

theorem Prompt.act_free (h : s.step? m = some t) (hm : ∀ n, m ≠ .elapse n)
    (rest : Prompt t ms u ∧ t.sinkTime ms = 0) :
    Prompt s (m :: ms) u ∧ s.sinkTime (m :: ms) = 0 := by
  refine ⟨.cons h (fun n hn => absurd hn (hm n)) rest.1, ?_⟩
  have hbusy : s.sinkBusy m = 0 := by
    cases m with
    | elapse n => exact absurd rfl (hm n)
    | _ => rfl
  simp only [sinkTime, h, hbusy, rest.2]

theorem Prompt.wait_free {n d : Nat} (hphase : s.batcher.phase = .waiting)
    (hidle : s.isBusy = false) (htimer : s.untilTimer? = some d) (hn : n ≤ d)
    (rest : Prompt { s with now := s.now + n } ms u ∧
      State.sinkTime { s with now := s.now + n } ms = 0) :
    Prompt s (.elapse n :: ms) u ∧ s.sinkTime (.elapse n :: ms) = 0 := by
  refine ⟨rest.1.wait hidle htimer hn, ?_⟩
  simp only [sinkTime, sinkBusy, hphase, step?, rest.2]

end

theorem State.step?_tick {s : State} (hphase : s.batcher.phase = .waiting)
    (hdue : s.batcher.ticker.due ≤ s.now) (hsome : s.batcherBench.pending ≠ []) :
    s.step? (.batcher .tick) =
      some (s.putBatcherBench (s.batcherBench.ticked.launch s.batcherBench.pending .tick)) := by
  have hitems : s.batcher.batch.items.isEmpty = false := List.isEmpty_eq_false_iff.2 hsome
  simp only [step?, Batcher.step?, batcherBench, hphase, if_pos hdue, Batch.take, hitems]
  rfl

/-- The result of one provider is on the result queue when the signal is given, the probe of
another never comes back, and the ticker goes off once before the stages are given up on. -/
theorem handed_over_by_tick : ∃ before t after s,
    Run (State.start ⟨1, 100, 600, 1, "status"⟩) before t ∧ t.coordinator.phase = .watching ∧
      t.signalled = true ∧ t.results.items.length = 1 ∧ Prompt t after s ∧
      s.result? = some (.error s.overdue) ∧ HandedOver t s := by
  let stuck := ResolvedSource.make (.known .aws) "5" "key" ⟨"7", none⟩
  let healthy := ResolvedSource.make (.known .azure) "6" "key" ⟨"7", none⟩
  have runs : ∃ before t after s,
      Run (State.start ⟨1, 100, 600, 1, "status"⟩) before t ∧ t.coordinator.phase = .watching ∧
        t.signalled = true ∧ t.results.items.length = 1 ∧
        (Prompt t after s ∧ t.sinkTime after = 0) ∧ s.result? = some (.error s.overdue) ∧
        ∀ text, .batcher (.crash text) ∉ after :=
    ⟨[.intake (.pull sampleMessage), .intake (.lookup (.ok stuck)), .intake .enqueue,
      .worker .aws .take, .intake (.pull sampleMessage), .intake (.lookup (.ok healthy)),
      .intake .enqueue, .worker .azure .take, .worker .azure (.probed (.ok ())),
      .worker .azure .offer, .signal], _,
      [.coordinator .seeSignal, .batcher (.receive default), .intake .stop,
      .worker .azure .finish, .worker .gcp .finish, .elapse 600, .batcher .tick,
      .batcher (.sent (.ok ())), .elapse 400, .coordinator .giveUp], _,
      .cons (step?_pull rfl decode_sampleMessage) (.cons rfl (.cons rfl (.cons rfl
        (.cons (step?_pull rfl decode_sampleMessage) (.cons rfl (.cons rfl (.cons rfl
        (.cons rfl (.cons rfl (.cons rfl (.nil _))))))))))), rfl, rfl, rfl,
      Prompt.act_free rfl (by simp) (Prompt.act_free rfl (by simp)
        (Prompt.act_free rfl (by simp) (Prompt.act_free rfl (by simp)
        (Prompt.act_free rfl (by simp) (Prompt.wait_free rfl rfl rfl (by decide)
        (Prompt.act_free (step?_tick rfl (by decide) (List.cons_ne_nil _ _)) (by simp)
        (Prompt.act_free rfl (by simp) (Prompt.wait_free rfl (by decide +kernel) rfl (by decide)
        (Prompt.act_free (step?_giveUp rfl (by decide) rfl) (by simp) ⟨.nil _, rfl⟩))))))))),
      rfl, by simp⟩
  obtain ⟨before, t, after, s, run, hphase, hsignal, hitems, ⟨prompt, hbusy⟩, hresult, hsink⟩ :=
    runs
  have handed := (run.handed_over hphase prompt.run hsink hresult).2 prompt (by rw [hbusy]; decide)
  exact ⟨before, t, after, s, run, hphase, hsignal, hitems, prompt, hresult, handed⟩

/-- Not every shutdown hands everything over: with a ticker that is slower than the drain may take,
a result that is pending when the signal is given is given up with a probe that never comes back. -/
theorem not_always_handed_over :
    ¬ ∀ config : Settings.Config, config.validate = none → ∀ before t after s,
      Prompt (State.start (Service.pipeline config)) before t → t.coordinator.phase = .watching →
        t.signalled = true ∨ t.intake.isOver = true → Prompt t after s →
          (∀ text, .batcher (.crash text) ∉ before ++ after) →
            .stopped ∈ s.coordinator.published → HandedOver t s := by
  intro always
  obtain ⟨before, t, after, s, hbefore, hsignal, hphase, hpending, hafter, hsink, -, hcalls,
    hresult⟩ := exists_abandoned_run
  let config : Settings.Config :=
    { Settings.Config.default with
      pipeline := ⟨1, 100, 60000, 2⟩
      transport := ⟨none, none, "status", "7", none⟩ }
  have hstopped : .stopped ∈ s.coordinator.published := by
    have published := (hbefore.run.append hafter.run).supervised.published
    rw [published, phase_of_result? hresult]
    simp [CoordinatorPhase.said]
  obtain ⟨stamps, -, hprefix⟩ := always config (by decide) before t after s hbefore hphase
    (.inl hsignal) hafter hsink hstopped
  -- the sink was never called
  have hnone : s.passed = [] := by
    show s.batcher.calls.flatMap _ = []
    rw [hcalls]
    rfl
  have hlen := hprefix.length_le
  simp only [hnone, List.length_append, List.length_nil] at hlen
  omega

end Availability.Flow

import Availability.Proofs.Batcher.Safety

/-!
# How long a batcher holds a result

On a prompt clock no result waits for longer than one period of the ticker, however slow the sink
is. While the sink is busy nothing is pending, so its delay is nobody's wait; when the batcher
waits again the ticker is due within a period of that moment.

* `Run.due_le`: the ticker is never due later than one period from now.
* `Prompt.punctual`: when results were taken and when they were passed on (`Punctual`).
* `Step.due_mono`, `Run.ticks_after_due`: a ticker is never put forward, so no tick goes before the
  time it was set to.
* `Prompt.held_at_most_period`: the rule as a whole.
-/

namespace Availability.Flow.Batcher

/-- When results were taken off the queue, on a clock that shows `now` at the start. -/
def takenAt (now : Nat) : List Event → List Nat
  | [] => []
  | .own (.receive _) :: es => now :: takenAt now es
  | .elapse ms :: es => takenAt (now + ms) es
  | _ :: es => takenAt now es

namespace Bench

variable {now : Nat} {topic : String} {batchSize period : Nat} {inbox : Queue ProbeResult}
  {es : List Event} {s t : Bench}

/-- When each message went to the sink. -/
def passedAt (s : Bench) : List Nat :=
  s.batcher.calls.flatMap fun c => List.replicate c.messages.length c.time

theorem length_passedAt (s : Bench) : s.passedAt.length = s.passed.length := by
  simp [passedAt, passed, List.length_flatMap]

/-! ## The ticker -/

theorem Step.period_eq {e : Event} (h : Step s e t) :
    t.batcher.ticker.period = s.batcher.ticker.period := by
  cases h with
  | answered =>
    simp only [answered_ticker]
    split <;> rfl
  | _ => rfl

theorem Run.period_eq (run : Run (start now topic batchSize period inbox) es s) :
    s.batcher.ticker.period = period :=
  run.kept (f := (·.batcher.ticker.period)) Step.period_eq

/-- **The ticker is due within a period of now**, in every state of every run. -/
theorem Run.due_le (run : Run (start now topic batchSize period inbox) es s) :
    s.batcher.ticker.due ≤ s.now + period := by
  induction run with
  | nil => exact Nat.le_refl _
  | @snoc es s u e prev he ih =>
    have hperiod := prev.period_eq
    have hadvance : s.batcher.ticker.due ≤ s.now →
        (s.batcher.ticker.advance s.now).due ≤ s.now + period := by
      intro hdue
      rw [← hperiod]
      exact Ticker.advance_le _ _ hdue
    cases step_of_event? he with
    | idled _ hdue => exact hadvance hdue
    | flushed _ hdue => exact hadvance hdue
    | answered =>
      simp only [answered_ticker]
      split
      · simp [Ticker.reset, hperiod]
      · exact ih
    | elapsed => exact Nat.le_trans ih (Nat.add_le_add_right (Nat.le_add_right _ _) _)
    | _ => exact ih

theorem Step.due_mono {e : Event} (h : Step s e t)
    (hdue : s.batcher.ticker.due ≤ s.now + s.batcher.ticker.period) :
    s.batcher.ticker.due ≤ t.batcher.ticker.due := by
  have hadvance : s.batcher.ticker.due ≤ s.now →
      s.batcher.ticker.due ≤ (s.batcher.ticker.advance s.now).due := by
    intro hle
    simp only [Ticker.advance]
    split <;> omega
  cases h with
  | idled _ hle => exact hadvance hle
  | flushed _ hle => exact hadvance hle
  | answered =>
    simp only [answered_ticker]
    split
    · exact hdue
    · exact Nat.le_refl _
  | _ => exact Nat.le_refl _

/-- The calls that a step adds; a tick makes one only when the ticker is due. -/
theorem Step.calls_append {e : Event} (h : Step s e t) :
    ∃ more, t.batcher.calls = s.batcher.calls ++ more ∧
      ∀ c ∈ more, c.trigger = .tick → s.batcher.ticker.due ≤ c.time := by
  cases h with
  | filled => exact ⟨_, launch_calls .., by simp⟩
  | flushed _ hdue => exact ⟨_, launch_calls .., by simpa [ticked] using hdue⟩
  | drained => exact ⟨_, launch_calls .., by simp⟩
  | answered => exact ⟨[], by simp, by simp⟩
  | _ => exact ⟨[], (List.append_nil _).symm, by simp⟩

/-- **No tick goes early.** From a state on, the ticker makes no call before the time it is set
to there. -/
theorem Run.ticks_after_due (run : Run (start now topic batchSize period inbox) es s)
    {fs : List Event} (more : Run s fs t) :
    s.batcher.ticker.due ≤ t.batcher.ticker.due ∧ ∃ later,
      t.batcher.calls = s.batcher.calls ++ later ∧
        ∀ c ∈ later, c.trigger = .tick → s.batcher.ticker.due ≤ c.time := by
  induction more with
  | nil => exact ⟨Nat.le_refl _, [], (List.append_nil _).symm, by simp⟩
  | snoc prev he ih =>
    obtain ⟨hmono, later, heq, hlater⟩ := ih
    have hstep := step_of_event? he
    have hreached := run.append prev
    have hdue := hreached.due_le
    rw [← hreached.period_eq] at hdue
    obtain ⟨new, hnew, hticks⟩ := hstep.calls_append
    refine ⟨Nat.le_trans hmono (hstep.due_mono hdue), later ++ new, ?_, ?_⟩
    · rw [hnew, heq, List.append_assoc]
    · intro c hc htick
      rcases List.mem_append.1 hc with hc | hc
      · exact hlater c hc htick
      · exact Nat.le_trans hmono (hticks c hc htick)

/-! ## What waits -/

theorem Step.takenAt_cons {e : Event} (h : Step s e t) (fs : List Event) :
    takenAt s.now (e :: fs) = takenAt s.now [e] ++ takenAt t.now fs := by
  cases h <;> rfl

theorem Run.takenAt_append (run : Run s es t) (fs : List Event) :
    takenAt s.now (es ++ fs) = takenAt s.now es ++ takenAt t.now fs := by
  induction run generalizing fs with
  | nil => rfl
  | @snoc es t u e _ he ih =>
    rw [List.append_assoc, ih, ih, List.singleton_append, (step_of_event? he).takenAt_cons,
      List.append_assoc]

/-- When so many results were taken and their messages passed on: a message that was passed on
went within a period, and for one that waits neither the clock nor the ticker is past that. -/
structure Punctual (period : Nat) (times : List Nat) (s : Bench) : Prop where
  length_eq : times.length = s.passedAt.length + s.pending.length
  handed : ∀ (i t u : Nat), times[i]? = some t → s.passedAt[i]? = some u → t ≤ u ∧ u ≤ t + period
  held : ∀ (i t : Nat), s.passedAt.length ≤ i → times[i]? = some t →
    t ≤ s.now ∧ s.now ≤ t + period ∧ s.batcher.ticker.due ≤ t + period

theorem Punctual.launch {times : List Nat} (h : Punctual period times s)
    {messages : List OutboundMessage} (hlen : messages.length = s.pending.length)
    (trigger : FlushTrigger) : Punctual period times (s.launch messages trigger) := by
  have hpassed : (s.launch messages trigger).passedAt =
      s.passedAt ++ List.replicate messages.length s.now := by
    simp [passedAt]
  constructor
  · rw [hpassed, h.length_eq, pending_launch]
    simp [hlen]
  · intro i t u ht hu
    rw [hpassed, List.getElem?_append] at hu
    split at hu
    · exact h.handed i t u ht hu
    · rename_i hi
      obtain rfl := List.eq_of_mem_replicate (List.mem_of_getElem? hu)
      have hheld := h.held i t (Nat.le_of_not_lt hi) ht
      exact ⟨hheld.1, hheld.2.1⟩
  · intro i t hi ht
    have hlt := (List.getElem?_eq_some_iff.1 ht).1
    rw [hpassed] at hi
    simp only [List.length_append, List.length_replicate] at hi
    rw [h.length_eq] at hlt
    omega

/-- While nothing is pending the clock and the ticker may do as they like. -/
theorem Punctual.settled {times : List Nat} (h : Punctual period times s)
    (hnone : s.pending = []) (hpassed : t.passedAt = s.passedAt) (hpending : t.pending = []) :
    Punctual period times t := by
  constructor
  · rw [hpassed, hpending, h.length_eq, hnone]
  · intro i t u ht hu
    exact h.handed i t u ht (hpassed ▸ hu)
  · intro i t hi ht
    have hlt := (List.getElem?_eq_some_iff.1 ht).1
    rw [h.length_eq, hnone, ← hpassed] at hlt
    exact absurd hlt (Nat.not_lt.2 hi)

theorem Punctual.take {times : List Nat} (h : Punctual period times s)
    (hdue : s.batcher.ticker.due ≤ s.now + period) (rest : List ProbeResult)
    (m : OutboundMessage) :
    Punctual period (times ++ [s.now]) ((s.advance rest).gather m) := by
  have hlen := h.length_eq
  constructor
  · simp [gather, advance, pending, passedAt] at hlen ⊢
    omega
  · intro i t u ht hu
    have hi : i < s.passedAt.length := (List.getElem?_eq_some_iff.1 hu).1
    rw [List.getElem?_append_left (by omega)] at ht
    exact h.handed i t u ht hu
  · intro i t hi ht
    rw [List.getElem?_append] at ht
    split at ht
    · exact h.held i t hi ht
    · obtain rfl := List.mem_singleton.1 (List.mem_of_getElem? ht)
      exact ⟨Nat.le_refl _, Nat.le_add_right _ _, hdue⟩

theorem Run.pending_of_not_waiting (run : Run (start now topic batchSize period inbox) es s)
    (hphase : s.batcher.phase ≠ .waiting) : s.pending = [] := by
  have hphases := run.inPhase
  generalize s.batcher.phase = phase at hphases hphase
  cases hphases with
  | waiting => exact absurd rfl hphase
  | flushing _ _ _ hnone => exact hnone
  | ended _ _ _ hnone => exact hnone
  | crashed _ _ _ hnone => exact hnone

/-- **Results go out on time**, in every state of a run on a prompt clock. -/
theorem Prompt.punctual (run : Prompt (start now topic batchSize period inbox) es s) :
    Punctual period (takenAt now es) s := by
  induction run with
  | nil => exact ⟨rfl, nofun, nofun⟩
  | @snoc es s u e prev he hallows ih =>
    have hdue := prev.run.due_le
    have htimes : takenAt now (es ++ [e]) = takenAt now es ++ takenAt s.now [e] :=
      prev.run.takenAt_append [e]
    have hsame : takenAt s.now [e] = [] → takenAt now (es ++ [e]) = takenAt now es := fun h => by
      rw [htimes, h, List.append_nil]
    cases step_of_event? he with
    | gathered => rw [htimes]; exact ih.take hdue _ _
    | @filled stamp r rest =>
      rw [htimes]
      exact (ih.take hdue rest (r.toMessage s.batcher.topic stamp)).launch rfl .full
    | idled _ _ hnone => rw [hsame rfl]; exact ih.settled hnone rfl hnone
    | flushed =>
      rw [hsame rfl]
      exact (ih.launch rfl .tick).settled rfl rfl rfl
    | finished _ _ hnone => rw [hsame rfl]; exact ih.settled hnone rfl hnone
    | drained => rw [hsame rfl]; exact ih.launch rfl .shutdown
    | answered hphase =>
      have hnone := prev.run.pending_of_not_waiting (by simp [hphase])
      rw [hsame rfl]
      exact ih.settled hnone (by simp [passedAt]) (by simpa [pending] using hnone)
    | crashed hphase =>
      have hnone := prev.run.pending_of_not_waiting (by simp [hphase])
      rw [hsame rfl]
      exact ih.settled hnone rfl hnone
    | arrived => rw [hsame rfl]; exact ⟨ih.1, ih.2, ih.3⟩
    | hungUp => rw [hsame rfl]; exact ⟨ih.1, ih.2, ih.3⟩
    | @elapsed ms =>
      rw [hsame rfl]
      by_cases hphase : s.batcher.phase = .waiting
      · -- the clock stops at the ticker, which is due within a period of whatever waits
        have hclock := hallows.2 hphase
        refine ⟨ih.1, ih.2, fun i t hi ht => ?_⟩
        obtain ⟨hle, -, hlate⟩ := ih.held i t hi ht
        exact ⟨Nat.le_add_right_of_le hle, Nat.le_trans hclock hlate, hlate⟩
      · have hnone := prev.run.pending_of_not_waiting hphase
        exact ih.settled hnone rfl hnone

theorem allows_elapse_of_idle (hphase : s.batcher.phase = .waiting) (hidle : s.isBusy = false) :
    s.Allows (.elapse 1) := by
  refine ⟨hidle, fun _ => ?_⟩
  have htick : (step? s .tick).isSome = false := by
    simp only [isBusy, Bool.or_eq_false_iff] at hidle
    exact hidle.1.2
  refine Nat.lt_of_not_le fun hdue => ?_
  simp only [step?, hphase, if_pos hdue] at htick
  split at htick <;> cases htick

theorem due_of_full_answered {messages : List OutboundMessage} {answer : Except Error Unit}
    (hphase : s.batcher.phase = .flushing messages .full)
    (h : s.event? (.own (.sent answer)) = some t) :
    t.batcher.ticker.due = s.now + s.batcher.ticker.period ∧
      t.batcher.calls = s.batcher.calls := by
  cases step_of_event? h with
  | answered hphase' =>
    rw [hphase] at hphase'
    cases hphase'
    exact ⟨by simp [Ticker.reset], by simp⟩

/-- **No result is held longer than a period.** On a prompt clock, at any moment:
* a result taken at `t` has gone to the sink by `t + period`, or it still waits and that time is
  not past; then the batcher has something to do or the clock can go on;
* while the batcher waits the ticker is due within a period, and while the sink is busy nothing is
  pending;
* once the sink is done with a full batch, no tick sends anything for a period. -/
theorem Prompt.held_at_most_period
    (run : Prompt (start now topic batchSize period inbox) es s) :
    (∀ (i t : Nat) (m : OutboundMessage), (takenAt now es)[i]? = some t →
      (taken topic inbox.items es)[i]? = some m →
        (∃ u, s.passed[i]? = some m ∧ s.passedAt[i]? = some u ∧ t ≤ u ∧ u ≤ t + period) ∨
          (s.passed.length ≤ i ∧ s.pending[i - s.passed.length]? = some m ∧
            s.now ≤ t + period)) ∧
      (s.pending ≠ [] → s.batcher.phase = .waiting ∧
        (s.isBusy = true ∨ s.Allows (.elapse 1))) ∧
      (s.batcher.phase = .waiting → s.batcher.ticker.due ≤ s.now + period) ∧
      (∀ messages trigger, s.batcher.phase = .flushing messages trigger → s.pending = []) ∧
      ∀ messages answer fs t u, s.batcher.phase = .flushing messages .full →
        s.event? (.own (.sent answer)) = some t → Prompt t fs u →
          ∀ c ∈ u.batcher.calls.drop t.batcher.calls.length,
            c.trigger = .tick → s.now + period ≤ c.time := by
  have hpunctual := run.punctual
  refine ⟨fun i t m ht hm => ?_, fun hsome => ?_, fun _ => run.run.due_le,
    fun messages trigger hphase => run.run.pending_of_not_waiting (by simp [hphase]), ?_⟩
  · rw [← run.run.conserved.kept] at hm
    rcases Nat.lt_or_ge i s.passed.length with hi | hi
    · rw [List.getElem?_append_left hi] at hm
      have hu := List.getElem?_eq_getElem (s.length_passedAt ▸ hi)
      exact .inl ⟨_, hm, hu, hpunctual.handed i t _ ht hu⟩
    · rw [List.getElem?_append_right hi] at hm
      exact .inr ⟨hi, hm, (hpunctual.held i t (s.length_passedAt ▸ hi) ht).2.1⟩
  · have hphase : s.batcher.phase = .waiting := by
      by_cases hphase : s.batcher.phase = .waiting
      · exact hphase
      · exact absurd (run.run.pending_of_not_waiting hphase) hsome
    refine ⟨hphase, ?_⟩
    cases hbusy : s.isBusy with
    | true => exact .inl rfl
    | false => exact .inr (allows_elapse_of_idle hphase hbusy)
  · intro messages answer fs t u hphase hanswered more c hc htick
    obtain ⟨hdue, hcalls⟩ := due_of_full_answered hphase hanswered
    obtain ⟨-, later, heq, hlater⟩ := (run.run.snoc hanswered).ticks_after_due more.run
    rw [heq, List.drop_left] at hc
    rw [← run.run.period_eq, ← hdue]
    exact hlater c hc htick

/-- A sink so slow that the ticker goes off twice in the meantime: the result that comes then goes
out at once. -/
theorem held_at_most_period_slow_sink :
    ∃ es s, Prompt (start 0 "status" 3 10 (.bounded 4 1)) es s ∧ takenAt 0 es = [0, 35] ∧
      s.passedAt = [10, 35] ∧ ∀ i t m, (takenAt 0 es)[i]? = some t →
        (taken "status" [] es)[i]? = some m →
          (∃ u, s.passed[i]? = some m ∧ s.passedAt[i]? = some u ∧ t ≤ u ∧ u ≤ t + 10) ∨
            (s.passed.length ≤ i ∧ s.pending[i - s.passed.length]? = some m ∧
              s.now ≤ t + 10) := by
  have run : ∃ es s, Prompt (start 0 "status" 3 10 (.bounded 4 1)) es s ∧
      takenAt 0 es = [0, 35] ∧ s.passedAt = [10, 35] :=
    ⟨[.arrive default, .own (.receive default), .elapse 10, .own .tick, .elapse 25,
        .arrive default, .own (.sent (.ok ())), .own (.receive default), .own .tick], _,
      .cons rfl trivial (.cons rfl trivial (.cons rfl ⟨rfl, fun _ => Nat.le_refl 10⟩
        (.cons rfl trivial (.cons rfl ⟨rfl, nofun⟩ (.cons rfl trivial (.cons rfl trivial
          (.cons rfl trivial (.cons rfl trivial .nil)))))))), rfl, rfl⟩
  obtain ⟨es, s, run, htaken, hpassed⟩ := run
  exact ⟨es, s, run, htaken, hpassed, run.held_at_most_period.1⟩

end Bench

end Availability.Flow.Batcher

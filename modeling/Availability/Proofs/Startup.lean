import Availability.Proofs.Pipeline.Containment
import Availability.Proofs.Pipeline.Rehearsal
import Availability.Proofs.Settings.Form

/-!
# The start of the service

Valid settings have no zero where the parts of the service take none, but the parts have upper
bounds too: the sum of two times, the capacity of a queue, the room of a batch. The service starts
with exactly those valid settings that keep to the three of them.

* `perform_crashed_iff`: how the service crashes before it reads anything.
* `startup_of_validate`: what valid settings make of the start.
-/

namespace Availability.Service

open Availability.Flow
open Rehearsal (World)
open Settings (Config Section)
open Rehearsal.Service (inflow perform exists_run_of_reported perform_of_probeFault)

/-- Whether the input and the output can be opened. -/
def Opens (c : Config) (w : World) : Prop :=
  c.transport.output.bind w.appendFault? = none ∧ ∃ f, inflow c w = .ok f

/-- **How the service crashes**: when the checks cannot be set up, or when all is open and the
queues cannot be made. What happens to the pipeline is no crash of the service. -/
theorem perform_crashed_iff (c : Config) (w : World) (text : String) :
    (perform c w).ending = .crashed text ↔
      probeFault? c = some text ∨
        probeFault? c = none ∧ Opens c w ∧
          State.startFault? c.pipeline.channelBufferSize = some text := by
  unfold perform Opens
  simp only
  cases probeFault? c with
  | some fault => simp
  | none =>
    cases c.transport.output.bind w.appendFault? with
    | some fault => simp
    | none =>
      cases inflow c w with
      | error fault => simp
      | ok f =>
        cases State.startFault? c.pipeline.channelBufferSize with
        | some fault => simp
        | none =>
          have hending : Rehearsal.Service.ending (Rehearsal.Service.play c w f) ≠
              .crashed text := by
            unfold Rehearsal.Service.ending
            split <;> nofun
          simp [hending]

/-- A service that crashes has written nothing. -/
theorem perform_of_crashed {c : Config} {w : World} {text : String}
    (h : (perform c w).ending = .crashed text) :
    perform c w = ⟨.crashed text, [], [.assembling]⟩ := by
  rcases (perform_crashed_iff c w text).1 h with hprobes | ⟨hprobes, ⟨houtput, f, hf⟩, hqueues⟩
  · exact perform_of_probeFault w hprobes
  · simp [perform, hprobes, houtput, hf, hqueues]

/-! ## Upper bounds -/

section

variable {c : Config}

theorem timeoutSecs_le (h : c.Fits) : c.probe.timeoutSecs ≤ secondsMax := by
  have hprobe : Section.mk "probe" "ProbeConfig"
      [⟨"gateway_url", Settings.plain, false⟩, ⟨"timeout_secs", Settings.large, false⟩] ∈
        Settings.form := by
    decide
  have hlt : c.probe.timeoutSecs < 1 <<< 64 :=
    h _ hprobe ⟨"timeout_secs", Settings.large, false⟩ (by decide) 64 "u64" rfl
  have hmax : 1 <<< 64 = secondsMax + 1 := rfl
  omega

theorem fault_eq_some_iff (p : Prop) [Decidable p] (fault text : String) :
    (if p then some fault else none) = some text ↔ p ∧ text = fault := by
  rw [Option.ite_none_right_eq_some, Option.some.injEq]
  exact and_congr_right fun _ => eq_comm

theorem probeFault?_eq_some_iff (h : c.Fits) (text : String) :
    probeFault? c = some text ↔
      c.probe.timeoutSecs = secondsMax ∧ text = "overflow when adding durations" := by
  have hle := timeoutSecs_le h
  have hmax : secondsMax < c.probe.timeoutSecs + 1 ↔ c.probe.timeoutSecs = secondsMax := by omega
  rw [probeFault?, fault_eq_some_iff, hmax]

theorem queueFault?_eq_some_iff {capacity : Nat} (h : capacity ≠ 0) (text : String) :
    State.startFault? capacity = some text ↔
      State.capacityMax < capacity ∧
        text = "a semaphore may not have more than MAX_PERMITS permits (2305843009213693951)" := by
  rw [State.startFault?, if_neg h, fault_eq_some_iff]

theorem batchFault?_eq_some_iff {batchSize period : Nat} (hsize : batchSize ≠ 0)
    (hperiod : period ≠ 0) (text : String) :
    Batcher.startFault? batchSize period = some text ↔
      Batcher.roomMax < batchSize * Batcher.messageSize ∧ text = "capacity overflow" := by
  have hlimit : max batchSize 1 = batchSize := by omega
  rw [Batcher.startFault?, hlimit, if_neg hperiod, fault_eq_some_iff]

/-- How many messages there is room for. -/
theorem room_iff (batchSize : Nat) :
    batchSize * Batcher.messageSize ≤ Batcher.roomMax ↔ batchSize ≤ 82351536043346212 := by
  unfold Batcher.messageSize Batcher.roomMax
  omega

/-- What some settings make of the start of the service. -/
structure Startup (c : Config) : Prop where
  starts_iff : startFault? c = none ↔
    c.probe.timeoutSecs ≠ secondsMax ∧ c.pipeline.channelBufferSize ≤ State.capacityMax ∧
      c.pipeline.batchSize * Batcher.messageSize ≤ Batcher.roomMax
  /-- The service itself crashes by the time that a check may take, or, once its input and output
  are open, by the capacity of its queues. -/
  crashed_iff : ∀ w text, (perform c w).ending = .crashed text ↔
    c.probe.timeoutSecs = secondsMax ∧ text = "overflow when adding durations" ∨
      c.probe.timeoutSecs ≠ secondsMax ∧ Opens c w ∧
        State.capacityMax < c.pipeline.channelBufferSize ∧
        text = "a semaphore may not have more than MAX_PERMITS permits (2305843009213693951)"
  silent : ∀ w text, (perform c w).ending = .crashed text →
    perform c w = ⟨.crashed text, [], [.assembling]⟩
  /-- The batcher crashes as it is made by the room of its batch, and else with its sink only. -/
  batcher : ∀ ms s, Run (State.start (pipeline c)) ms s → ∀ text,
    s.crash? .batcher = some text ↔
      .batcher (.crash text) ∈ ms ∨
        Batcher.roomMax < c.pipeline.batchSize * Batcher.messageSize ∧ text = "capacity overflow"
  /-- The drain begins whatever time it is given. -/
  drains : ∀ ms s, Run (State.start (pipeline c)) ms s → s.coordinator.phase = .watching →
    s.signalled = true →
      (s.step? (.coordinator .seeSignal)).map (·.coordinator.phase) =
        some (.draining .signal (s.now + c.pipeline.shutdownTimeoutSecs * 1000))
  reported : ∀ w r, (perform c w).ending = .reported r → startFault? c = none

/-- **Which valid settings the service starts with**, and what becomes of it with the others. -/
theorem startup_of_validate (hvalid : c.validate = none) (hfits : c.Fits) : Startup c := by
  obtain ⟨-, hbatch, hcapacity, htick, -⟩ := (Config.validate_eq_none_iff c).1 hvalid
  have hprobe := probeFault?_eq_some_iff hfits
  have hqueue := queueFault?_eq_some_iff hcapacity
  have hbatcher := batchFault?_eq_some_iff hbatch htick
  have hprobeNone : probeFault? c = none ↔ c.probe.timeoutSecs ≠ secondsMax := by
    rw [Option.eq_none_iff_forall_ne_some]
    simp [hprobe]
  have hstarts : startFault? c = none ↔
      c.probe.timeoutSecs ≠ secondsMax ∧ c.pipeline.channelBufferSize ≤ State.capacityMax ∧
        c.pipeline.batchSize * Batcher.messageSize ≤ Batcher.roomMax := by
    have hlimit : max c.pipeline.batchSize 1 = c.pipeline.batchSize := by omega
    have hle := timeoutSecs_le hfits
    rw [startFault?_eq_none_iff, hlimit]
    omega
  refine ⟨hstarts, fun w text => ?_, fun w text => perform_of_crashed, fun ms s run text => ?_,
    fun ms s run hphase hsignalled => ?_, fun w r hreported => ?_⟩
  · rw [perform_crashed_iff, hprobe, hprobeNone, hqueue]
  · rw [run.crash?_iff .batcher text, ← hbatcher]
    simp [Crashes, Task.crashing, pipeline]
  · have hsettings := run.settings_eq
    simp [State.step?, State.coordinatorStep?, hphase, hsignalled, State.beginDrain, hsettings,
      pipeline]
  · obtain ⟨hprobes, hqueues, ms, s, run, hresult⟩ := exists_run_of_reported hreported
    have hcalm := (run.finished hresult).calm.batcher
    have hnone := (run.crash?_eq_none_iff .batcher).1 ((Batcher.crash?_eq_none_iff _).2 hcalm)
    have hbatches : Batcher.startFault? c.pipeline.batchSize c.pipeline.tickIntervalMs = none := by
      rw [Option.eq_none_iff_forall_ne_some]
      exact fun text hfault => hnone text (.inr ⟨rfl, hfault⟩)
    rw [startFault?, hprobes, hqueues, hbatches]
    rfl

end

/-- The largest batch and the largest queues that the service starts with. -/
theorem startup_largest : ∃ c, Config.load none
    [("STATUSER__PIPELINE__BATCH_SIZE", "82351536043346212"),
      ("STATUSER__PIPELINE__CHANNEL_BUFFER_SIZE", "2305843009213693951")] = .ok c ∧
    c.validate = none ∧ c.Fits ∧ startFault? c = none ∧
    ∀ w text, (perform c w).ending ≠ .crashed text := by
  have hloads : (Config.load none
      [("STATUSER__PIPELINE__BATCH_SIZE", "82351536043346212"),
        ("STATUSER__PIPELINE__CHANNEL_BUFFER_SIZE", "2305843009213693951")]).toOption.map
      (fun c => (c.probe.timeoutSecs, c.pipeline.channelBufferSize, c.pipeline.batchSize)) =
        some (10, 2305843009213693951, 82351536043346212) := by
    decide +kernel
  obtain ⟨c, hc, hnumbers⟩ := Option.map_eq_some_iff.1 hloads
  simp only [Prod.mk.injEq] at hnumbers
  obtain ⟨htimeout, hcapacity, hbatch⟩ := hnumbers
  have hload := Settings.eq_ok_of_toOption hc
  obtain ⟨-, -, -, hvalid⟩ := Settings.load_eq_ok hload
  have hfits := Settings.fits_of_load hload
  have hstartup := startup_of_validate hvalid hfits
  refine ⟨c, hload, hvalid, hfits, hstartup.starts_iff.2 ?_, fun w text hcrashed => ?_⟩
  · rw [htimeout, hcapacity, hbatch, room_iff]
    exact ⟨by decide, Nat.le_refl _, Nat.le_refl _⟩
  · rcases (hstartup.crashed_iff w text).1 hcrashed with ⟨hmax, -⟩ | ⟨-, -, hmax, -⟩
    · rw [htimeout] at hmax
      cases hmax
    · rw [hcapacity] at hmax
      exact absurd hmax (by decide)

/-- A check that may take as long as a time can be is valid, and no service starts with it. -/
theorem crashes_longest_check : ∃ c,
    Config.load none [("STATUSER__PROBE__TIMEOUT_SECS", "18446744073709551615")] = .ok c ∧
      c.validate = none ∧ c.Fits ∧
      startFault? c = some "overflow when adding durations" ∧
      ∀ w, (perform c w).ending = .crashed "overflow when adding durations" := by
  have hloads : (Config.load none
      [("STATUSER__PROBE__TIMEOUT_SECS", "18446744073709551615")]).toOption.map
        (fun c => probeFault? c) = some (some "overflow when adding durations") := by
    decide +kernel
  obtain ⟨c, hc, hfault⟩ := Option.map_eq_some_iff.1 hloads
  have hload := Settings.eq_ok_of_toOption hc
  obtain ⟨-, -, -, hvalid⟩ := Settings.load_eq_ok hload
  refine ⟨c, hload, hvalid, Settings.fits_of_load hload, ?_, fun w => ?_⟩
  · rw [startFault?, hfault]
    rfl
  · exact (perform_crashed_iff c w _).2 (.inl hfault)

end Availability.Service

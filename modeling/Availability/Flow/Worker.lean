import Availability.Flow.Call
import Availability.Flow.Queue
import Availability.Metrics

/-!
# Workers

A worker checks the sources of its queue one after the other and offers each result to the result
queue, where it waits while that is full. A probe that fails makes a result too. A result that is
refused is lost; the worker goes on. It ends when its queue is at its end.

* `step?_processed`: the sources processed are the probes that came back.
-/

namespace Availability.Flow

/-- What a worker has counted. -/
structure WorkerStats where
  processed : Nat
  unavailable : Nat
  lost : Nat
  deriving DecidableEq, Repr, Inhabited

/-- What a worker is doing. -/
inductive WorkerPhase where
  | waiting
  | probing (source : ResolvedSource)
  | offering (result : ProbeResult)
  | ended
  | crashed (text : String)
  deriving DecidableEq, Repr, Inhabited

/-- A worker: what it is doing, what it has counted, the credentials it has probed with, and the
statuses it has told its observer. -/
structure Worker where
  provider : Provider
  phase : WorkerPhase
  stats : WorkerStats
  probed : List Authentication
  events : List Status
  measurements : List Measurement
  deriving DecidableEq, Repr

namespace Worker

/-- A worker that has not done anything yet. -/
def idle (p : Provider) : Worker := ⟨p, .waiting, ⟨0, 0, 0⟩, [], [], []⟩

/-- Whether a worker has come to an end, in whichever way. -/
def isOver (w : Worker) : Bool :=
  match w.phase with
  | .ended => true
  | .crashed _ => true
  | _ => false

/-- The result of a probe. -/
def resultOf (source : ResolvedSource) : Except Error Unit → ProbeResult
  | .ok () => .available source
  | .error e => .unavailable source e.message

/-- Notes a probe that came back. -/
def record (w : Worker) (r : ProbeResult) : Worker :=
  { w with
    phase := .offering r
    stats :=
      { w.stats with
        processed := w.stats.processed + 1
        unavailable := w.stats.unavailable + (if r.status = .unavailable then 1 else 0) }
    events := w.events ++ [r.status]
    measurements :=
      w.measurements ++ [.count (.resultsSent w.provider r.status) 1, .probeDuration w.provider] }

/-- Notes a result that was refused. -/
def lose (w : Worker) : Worker :=
  { w with
    phase := .waiting
    stats := { w.stats with lost := w.stats.lost + 1 }
    measurements := w.measurements ++ [.count .resultsLost 1] }

/-- What a worker can do. -/
inductive Move where
  /-- It takes the next source and starts its probe. -/
  | take
  /-- The probe comes back. -/
  | probed (answer : Except Error Unit)
  /-- The probe crashes, and the worker with it. -/
  | crash (text : String)
  /-- The result enters the result queue, or is refused. -/
  | offer
  /-- Its queue is at its end, and so is the worker. -/
  | finish

/-- A worker together with the queues on both its sides. -/
structure Bench where
  worker : Worker
  inbox : Queue ResolvedSource
  outbox : Queue ProbeResult
  deriving DecidableEq, Repr

/-- Makes a move, if it is possible. -/
def step? (b : Bench) : Move → Option Bench
  | .take =>
    match b.worker.phase, b.inbox.pop? with
    | .waiting, some (source, inbox) =>
      some
        { b with
          worker :=
            { b.worker with
              phase := .probing source
              probed := b.worker.probed ++ [source.authentication] }
          inbox := inbox }
    | _, _ => none
  | .probed answer =>
    match b.worker.phase with
    | .probing source => some { b with worker := b.worker.record (resultOf source answer) }
    | _ => none
  | .crash text =>
    match b.worker.phase with
    | .probing _ =>
      some
        { worker := { b.worker with phase := .crashed text }
          inbox := b.inbox.close
          outbox := b.outbox.dropSender }
    | _ => none
  | .offer =>
    match b.worker.phase with
    | .offering r =>
      match b.outbox.offer r with
      | .entered outbox =>
        some { b with worker := { b.worker with phase := .waiting }, outbox := outbox }
      | .refused => some { b with worker := b.worker.lose }
      | .waits => none
    | _ => none
  | .finish =>
    match b.worker.phase with
    | .waiting =>
      if b.inbox.atEnd then
        some
          { worker := { b.worker with phase := .ended }
            inbox := b.inbox.close
            outbox := b.outbox.dropSender }
      else none
    | _ => none

/-- The sources processed are the probes that came back: each told the observer its status. -/
theorem step?_processed {b b' : Bench} {m : Move} (h : step? b m = some b')
    (hb : b.worker.stats.processed = b.worker.events.length) :
    b'.worker.stats.processed = b'.worker.events.length := by
  cases m <;> simp only [step?] at h <;> split at h <;> try cases h
  · exact hb
  · simp [record, hb]
  · exact hb
  · split at h <;> cases h <;> exact hb
  · split at h <;> cases h
    exact hb

end Worker

end Availability.Flow

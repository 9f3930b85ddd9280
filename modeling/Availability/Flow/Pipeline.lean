import Availability.Flow.Batcher
import Availability.Flow.Intake
import Availability.Flow.Worker

/-!
# The pipeline

The intake, the three workers and the batcher run side by side, joined by queues; the coordinator
watches over them. It begins to drain on a signal or when the intake ends, tells the intake to
stop, waits for the intake, the workers and the batcher to come to an end, and then reports. If
that takes longer than it may, it gives up on them.

`State.step?` is the machine of all of them: any part that can make a move may make it next.
`Run` says which states a sequence of moves leads to. The clock moves by `elapse`; a run is
`Prompt` if it moves only when no part has anything to do, and never past a timer.
-/

namespace Availability.Flow

/-- The numbers of a pipeline. -/
structure Settings where
  capacity : Nat
  batchSize : Nat
  tickMs : Nat
  shutdownTimeoutSecs : Nat
  topic : String
  deriving DecidableEq, Repr, Inhabited

/-- What the pipeline says of itself. -/
inductive Stage where
  | running
  | draining
  | stopped
  deriving DecidableEq, Repr, Inhabited

/-- The name of a stage. -/
def Stage.name : Stage → String
  | .running => "running"
  | .draining => "draining"
  | .stopped => "stopped"

/-- Why the pipeline began to drain. -/
inductive Reason where
  | signal
  | consumerExited
  deriving DecidableEq, Repr, Inhabited

/-- The name of a reason. -/
def Reason.name : Reason → String
  | .signal => "signal"
  | .consumerExited => "consumer_exited"

/-- What the pipeline reports at the end. -/
structure Report where
  reason : Reason
  intake : IntakeStats
  workers : PerProvider WorkerStats
  batcher : BatcherStats
  deriving DecidableEq, Repr, Inhabited

/-- What the coordinator is doing. -/
inductive CoordinatorPhase where
  | watching
  | draining (reason : Reason) (deadline : Nat)
  | done (result : Except Error Report)

/-- The coordinator: what it is doing, and what it has said so far. -/
structure Coordinator where
  phase : CoordinatorPhase
  published : List Stage

/-- What the pipeline last said of itself. -/
def Coordinator.stage (c : Coordinator) : Stage := c.published.getLast?.getD .running

/-- A pipeline. -/
structure State where
  settings : Settings
  now : Nat
  /-- Whether the signal to stop was given. -/
  signalled : Bool
  intake : Intake
  workers : PerProvider Worker
  results : Queue ProbeResult
  batcher : Batcher
  coordinator : Coordinator

namespace State

/-- The most items that a queue can be made for. -/
def capacityMax : Nat := 0x1fffffffffffffff

/-- Why no pipeline starts with a capacity, if none does. -/
def startFault? (capacity : Nat) : Option String :=
  if capacity = 0 then some "mpsc bounded channel requires buffer > 0"
  else if capacityMax < capacity then
    some "a semaphore may not have more than MAX_PERMITS permits (2305843009213693951)"
  else none

/-- A pipeline at its start. -/
def start (c : Settings) : State :=
  let batcher := Batcher.start 0 c.topic c.batchSize c.tickMs
  let results := Queue.bounded c.capacity 3
  { settings := c
    now := 0
    signalled := false
    intake := .bounded c.capacity
    workers := .make Worker.idle
    results := if batcher.isOver then results.close else results
    batcher := batcher
    coordinator := ⟨.watching, [.running]⟩ }

/-- The queue of a provider. -/
def queue (s : State) (p : Provider) : Queue ResolvedSource := s.intake.router.queues.get p

/-- A worker with the queues on both its sides. -/
def bench (s : State) (p : Provider) : Worker.Bench := ⟨s.workers.get p, s.queue p, s.results⟩

/-- Puts a worker and its queues back. -/
def putBench (s : State) (p : Provider) (b : Worker.Bench) : State :=
  { s with
    workers := s.workers.set p b.worker
    results := b.outbox
    intake :=
      { s.intake with
        router := { s.intake.router with queues := s.intake.router.queues.set p b.inbox } } }

/-- The batcher with the result queue and the time. -/
def batcherBench (s : State) : Batcher.Bench := ⟨s.batcher, s.results, s.now⟩

/-- Puts the batcher and its queue back. -/
def putBatcherBench (s : State) (b : Batcher.Bench) : State :=
  { s with batcher := b.batcher, results := b.inbox }

/-- Whether the intake, all workers and the batcher have come to an end. -/
def allOver (s : State) : Bool :=
  s.intake.isOver && s.workers.all Worker.isOver && s.batcher.isOver

/-- The first stage that crashed, in the order in which stages are waited for. -/
def failure? (s : State) : Option Error :=
  let intake := match s.intake.phase with
    | .crashed text => some (.internal ("intake task panicked: " ++ crashReport text))
    | _ => none
  let worker (p : Provider) := match (s.workers.get p).phase with
    | .crashed text => some (.internal (p.name ++ " worker panicked: " ++ crashReport text))
    | _ => none
  let batcher := match s.batcher.phase with
    | .crashed text => some (.internal ("batcher task panicked: " ++ crashReport text))
    | _ => none
  intake <|> worker .aws <|> worker .azure <|> worker .gcp <|> batcher

/-- What the pipeline reports when all its stages have come to an end. -/
def report (s : State) (reason : Reason) : Report :=
  ⟨reason, s.intake.stats, s.workers.map Worker.stats, s.batcher.stats⟩

/-- What the end of the drain comes to. -/
def drained (s : State) (reason : Reason) : Except Error Report :=
  match s.failure? with
  | some e => .error e
  | none => .ok (s.report reason)

/-- What is said when the drain took too long. -/
def overdue (s : State) : Error := .pipeline s!"drain exceeded {s.settings.shutdownTimeoutSecs}s"

/-- What was counted by all parts together. -/
def measurements (s : State) : List Measurement :=
  s.intake.router.measurements ++ s.workers.toList.flatMap Worker.measurements
    ++ s.batcher.measurements

/-- The coordinator begins to drain, and tells the intake to stop. -/
def beginDrain (s : State) (reason : Reason) : State :=
  { s with
    intake := { s.intake with cancelled := true }
    coordinator :=
      ⟨.draining reason (s.now + s.settings.shutdownTimeoutSecs * 1000),
        s.coordinator.published ++ [.draining]⟩ }

/-- The coordinator comes to an end. -/
def endWith (s : State) (result : Except Error Report) : State :=
  { s with coordinator := ⟨.done result, s.coordinator.published ++ [.stopped]⟩ }

/-- What the pipeline came to, once the coordinator is done. -/
def result? (s : State) : Option (Except Error Report) :=
  match s.coordinator.phase with
  | .done result => some result
  | _ => none

/-- What the coordinator can do. -/
inductive CoordinatorMove where
  /-- It sees the signal. -/
  | seeSignal
  /-- It sees that the intake has ended. -/
  | seeExit
  /-- It sees that all stages have ended. -/
  | finish
  /-- It gives up on the stages. -/
  | giveUp

/-- What can happen to a pipeline. -/
inductive Move where
  | intake (m : Intake.Move)
  | worker (p : Provider) (m : Worker.Move)
  | batcher (m : Batcher.Move)
  | coordinator (m : CoordinatorMove)
  /-- The signal to stop is given. -/
  | signal
  /-- Time goes by. -/
  | elapse (ms : Nat)

/-- A move of the coordinator, if it is possible. Stages that have ended by the deadline are not
given up on. -/
def coordinatorStep? (s : State) : CoordinatorMove → Option State
  | .seeSignal =>
    match s.coordinator.phase with
    | .watching => if s.signalled then some (s.beginDrain .signal) else none
    | _ => none
  | .seeExit =>
    match s.coordinator.phase with
    | .watching => if s.intake.isOver then some (s.beginDrain .consumerExited) else none
    | _ => none
  | .finish =>
    match s.coordinator.phase with
    | .draining reason _ => if s.allOver then some (s.endWith (s.drained reason)) else none
    | _ => none
  | .giveUp =>
    match s.coordinator.phase with
    | .draining _ deadline =>
      if deadline ≤ s.now && !s.allOver then some (s.endWith (.error s.overdue)) else none
    | _ => none

/-- Makes a move, if it is possible. -/
def step? (s : State) : Move → Option State
  | .intake m => (s.intake.step? m).map fun i => { s with intake := i }
  | .worker p m => (Worker.step? (s.bench p) m).map (s.putBench p)
  | .batcher m => (Batcher.step? s.batcherBench m).map s.putBatcherBench
  | .coordinator m => s.coordinatorStep? m
  | .signal => some { s with signalled := true }
  | .elapse ms => some { s with now := s.now + ms }

end State

/-- The moves lead from one state to another. -/
inductive Run : State → List State.Move → State → Prop where
  | nil (s : State) : Run s [] s
  | cons {s t u : State} {m : State.Move} {ms : List State.Move} :
      s.step? m = some t → Run t ms u → Run s (m :: ms) u

namespace State

/-- Whether a part has something to do now that does not wait for an answer from the outside. -/
def isBusy (s : State) : Bool :=
  let can (m : Move) : Bool := (s.step? m).isSome
  can (.intake .stop) || can (.intake .enqueue)
    || Provider.all.any (fun p =>
      can (.worker p .take) || can (.worker p .offer) || can (.worker p .finish))
    || can (.batcher (.receive default)) || can (.batcher .tick) || can (.batcher .drain)
    || can (.coordinator .seeSignal) || can (.coordinator .seeExit) || can (.coordinator .finish)
    || can (.coordinator .giveUp)

/-- How long the clock may go on before a timer of the pipeline is due. -/
def untilTimer? (s : State) : Option Nat :=
  let ticker := match s.batcher.phase with
    | .waiting => some (s.batcher.ticker.due - s.now)
    | _ => none
  let deadline := match s.coordinator.phase with
    | .draining _ deadline => some (deadline - s.now)
    | _ => none
  match ticker, deadline with
  | some a, some b => some (min a b)
  | some a, none => some a
  | none, b => b

end State

/-- A run in which the clock goes on only while all parts wait, and no further than the next
timer. -/
inductive Prompt : State → List State.Move → State → Prop where
  | nil (s : State) : Prompt s [] s
  | cons {s t u : State} {m : State.Move} {ms : List State.Move} :
      s.step? m = some t →
      (∀ n, m = .elapse n → s.isBusy = false ∧ ∀ d, s.untilTimer? = some d → n ≤ d) →
      Prompt t ms u → Prompt s (m :: ms) u

/-- A prompt run is a run. -/
theorem Prompt.run {s t : State} {ms : List State.Move} (h : Prompt s ms t) : Run s ms t := by
  induction h with
  | nil s => exact .nil s
  | cons hs _ _ ih => exact .cons hs ih

/-- One run after another is a run. -/
theorem Run.append {s t u : State} {xs ys : List State.Move} (h₁ : Run s xs t)
    (h₂ : Run t ys u) : Run s (xs ++ ys) u := by
  induction h₁ with
  | nil => exact h₂
  | cons hs _ ih => exact .cons hs (ih h₂)

end Availability.Flow

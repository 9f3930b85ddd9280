import Availability.Log.Event

/-!
# The account of a run

Which events the moves of a pipeline are, told from the states before and after each. What the
pipeline itself does not show, how its lookups went and why its stream broke off, is in the
`Background`.

* `ofRun_append`: the account of a run is the accounts of its parts, one after the other.
-/

namespace Availability.Log

open Availability.Flow (State Run Intake Worker Batcher crashReport)

/-- What the log knows besides the pipeline: the attempts at each lookup, the name of the inbound
stream, and the fault at which it breaks off if it does. -/
structure Background where
  attempts : String → Principal → List Event
  stream : String
  fault? : Option StreamFault

namespace Event

/-- The event of a failed attempt, of which it was the `attempt`-th. -/
def ofSequel (attempt : Nat) (e : Error) : Sequel → List Event
  | .final => []
  | .spent => [.retriesSpent attempt e]
  | .exhausted => [.waitRefused attempt e]
  | .again wait _ => [.retrying attempt wait e]

/-- The events of an operation that took some attempts. -/
def ofAttempts {α : Type} (a : Attempts α) : List Event :=
  (a.failures.zipIdx.flatMap fun f => ofSequel (f.2 + 1) f.1.error f.1.sequel)
    ++ match a.outcome with
      | .ok _ => if 1 < a.count then [.recovered a.count] else []
      | .error _ => []

/-- The events of an answer of the credential service. -/
def ofAnswer : Except Error ResolvedSource → List Event
  | .error e => if e.isNotFound then [.sourceNotFound e] else [.lookupFailed e]
  | .ok source =>
    match source.providerTag with
    | .unknown => [.providerUnknown source.applicationId]
    | _ => []

/-- The events of a move of the intake. -/
def ofIntake (c : Background) (before after : Intake) : Intake.Move → List Event
  | .pull m =>
    match SourceRequest.decode m.payload with
    | .error fault => [.malformed fault]
    | .ok _ => []
  | .lookup answer =>
    match before.router.current with
    | some (.resolving request identity) =>
      c.attempts request.sourceId identity ++ ofAnswer answer
    | _ => []
  | .enqueue =>
    match before.router.current, after.router.verdicts.getLast? with
    | some (.sending p _), some .queueClosed => [.queueClosed p]
    | _, _ => []
  | .streamEnds =>
    [match c.fault? with
      | some fault => .streamFailed c.stream fault
      | none => .streamEnded c.stream,
      .intakeStopped after.stats]
  | .stop => [.intakeStopped after.stats]
  | .crash _ => []

/-- The events of a move of a worker. -/
def ofWorker (p : Provider) (before after : Worker) : Worker.Move → List Event
  | .probed (.error e) =>
    match before.phase with
    | .probing source => [.sourceUnavailable p source.applicationId e]
    | _ => []
  | .offer =>
    match before.phase with
    | .offering r =>
      if before.stats.lost < after.stats.lost then [.resultRefused p r.resourceId] else []
    | _ => []
  | .finish => [.workerStopped p]
  | _ => []

/-- The events of a move of the batcher. -/
def ofBatcher (before after : Batcher) (m : Batcher.Move) : List Event :=
  (match m, before.phase with
    | .sent (.error e), .flushing messages trigger => [.sendFailed messages.length trigger e]
    | _, _ => [])
    ++ match after.phase with
      | .ended => [.batcherStopped after.stats]
      | _ => []

/-- The crashes that the coordinator learns of: it waits for the intake first, then for all
workers, then for the batcher. -/
def crashes (s : State) : List Event :=
  let intake := match s.intake.phase with
    | .crashed text => [.intakeCrashed (crashReport text)]
    | _ => []
  let worker (p : Provider) := match (s.workers.get p).phase with
    | .crashed text => [.workerCrashed p (crashReport text)]
    | _ => []
  let batcher := match s.batcher.phase with
    | .crashed text => [.batcherCrashed (crashReport text)]
    | _ => []
  if !s.intake.isOver then []
  else if !s.workers.all Worker.isOver then intake
  else intake ++ Provider.all.flatMap worker ++ batcher

/-- The events of a move of the coordinator. -/
def ofCoordinator (before : State) : State.CoordinatorMove → List Event
  | .seeSignal => [.leavingOnSignal, .stageReached .draining]
  | .seeExit => [.leavingOnExit, .stageReached .draining]
  | .finish => crashes before ++ [.drained, .stageReached .stopped]
  | .giveUp =>
    crashes before
      ++ [.drainOverdue before.settings.shutdownTimeoutSecs, .stageReached .stopped]

/-- The events of a move. -/
def ofMove (c : Background) (before after : State) : State.Move → List Event
  | .intake m => ofIntake c before.intake after.intake m
  | .worker p m => ofWorker p (before.workers.get p) (after.workers.get p) m
  | .batcher m => ofBatcher before.batcher after.batcher m
  | .coordinator m => ofCoordinator before m
  | .signal => [.signalReceived]
  | .elapse _ => []

/-- The events of a run. -/
def ofRun (c : Background) : State → List State.Move → List Event
  | _, [] => []
  | s, m :: ms =>
    match s.step? m with
    | some t => ofMove c s t m ++ ofRun c t ms
    | none => []

theorem ofRun_append (c : Background) {s t : State} {xs : List State.Move} (h : Run s xs t)
    (ys : List State.Move) : ofRun c s (xs ++ ys) = ofRun c s xs ++ ofRun c t ys := by
  induction h with
  | nil => rfl
  | cons hs _ ih => simp [ofRun, hs, ih]

end Event

end Availability.Log

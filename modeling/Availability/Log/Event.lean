import Availability.Flow.Pipeline
import Availability.Json.Value
import Availability.Retry.Attempts

/-!
# Events

What happens in the service that its log tells of. An event has a level, the part of the service
that it comes from, a message, and fields with what the message leaves open. `Entry` is an event
put into this form.

* `Level.allows_trans`: who is told of a level is told of every weightier one.
-/

namespace Availability.Log

open Availability.Flow (IntakeStats WorkerStats BatcherStats Report Stage)

/-- How weighty an event is. -/
inductive Level where
  | trace
  | debug
  | info
  | warn
  | error
  deriving DecidableEq, Repr, Inhabited

namespace Level

/-- The weight of a level. -/
def weight : Level → Nat
  | .trace => 0
  | .debug => 1
  | .info => 2
  | .warn => 3
  | .error => 4

/-- The name of a level. -/
def name : Level → String
  | .trace => "TRACE"
  | .debug => "DEBUG"
  | .info => "INFO"
  | .warn => "WARN"
  | .error => "ERROR"

/-- Whether a threshold lets a level through. -/
def allows (threshold l : Level) : Bool := threshold.weight ≤ l.weight

theorem allows_trans {a b c : Level} (h : a.allows b = true) (h' : b.allows c = true) :
    a.allows c = true := by
  simp only [allows, decide_eq_true_eq] at h h' ⊢
  exact Nat.le_trans h h'

end Level

/-- The part of the service that an event comes from. -/
inductive Origin where
  | program
  | assembly
  | pipeline
  | router
  | worker
  | batcher
  | coordinator
  | attempts
  | telemetry
  deriving DecidableEq, Repr, Inhabited

/-- The name of a part of the service. -/
def Origin.name : Origin → String
  | .program => "statuser"
  | .assembly => "statuser::app"
  | .pipeline => "statuser::pipeline"
  | .router => "statuser::router"
  | .worker => "statuser::worker"
  | .batcher => "statuser::batcher"
  | .coordinator => "statuser::shutdown"
  | .attempts => "statuser_core::backoff"
  | .telemetry => "statuser_core::telemetry"

/-- What the log tells of an event. -/
structure Entry where
  level : Level
  origin : Origin
  message : String
  fields : Json.Members

/-- What happens in the service. -/
inductive Event where
  | starting (batchSize tickIntervalMs : Nat)
  | assembling
  | metricsServed (port : Nat)
  | metricsUnavailable (port : Nat)
  | pipelineStarted (capacity batchSize : Nat)
  | stageReached (stage : Stage)
  | signalReceived
  | malformed (fault : RequestFault)
  | sourceNotFound (e : Error)
  | lookupFailed (e : Error)
  | providerUnknown (applicationId : String)
  | queueClosed (p : Provider)
  | retrying (attempt wait : Nat) (e : Error)
  | retriesSpent (attempts : Nat) (e : Error)
  | waitRefused (attempts : Nat) (e : Error)
  | recovered (attempts : Nat)
  | streamEnded (stream : String)
  | streamFailed (stream : String) (fault : StreamFault)
  | intakeStopped (stats : IntakeStats)
  | sourceUnavailable (p : Provider) (applicationId : String) (e : Error)
  | resultRefused (p : Provider) (resourceId : String)
  | workerStopped (p : Provider)
  | sendFailed (count : Nat) (trigger : FlushTrigger) (e : Error)
  | batcherStopped (stats : BatcherStats)
  | leavingOnSignal
  | leavingOnExit
  | intakeCrashed (report : String)
  | workerCrashed (p : Provider) (report : String)
  | batcherCrashed (report : String)
  | drainOverdue (secs : Nat)
  | drained
  | intakeExitUnexpected
  | workerSummary (p : Provider) (stats : WorkerStats)
  | flushSummary (stats : BatcherStats)
  | stopped (intake : IntakeStats) (batcher : BatcherStats)
  | fatal (e : Error)

namespace Event

/-- The field that names a provider. -/
def providerField (p : Provider) : String × Json.Value := ("provider", .text p.name)

/-- The field that gives an error. -/
def errorField (e : Error) : String × Json.Value := ("error", .text e.message)

/-- The field that gives the report of a crash. -/
def crashField (report : String) : String × Json.Value := ("error", .text report)

/-- What the log tells of an event. -/
def entry : Event → Entry
  | .starting batchSize tickIntervalMs =>
    ⟨.info, .program, "Starting statuser",
      [("batch_size", .nat batchSize), ("tick_interval_ms", .nat tickIntervalMs)]⟩
  | .assembling => ⟨.info, .assembly, "Initializing application", []⟩
  | .metricsServed port =>
    ⟨.info, .telemetry, s!"Metrics endpoint started at http://0.0.0.0:{port}/metrics",
      [("port", .nat port)]⟩
  | .metricsUnavailable port =>
    ⟨.warn, .telemetry, "Metrics endpoint unavailable, continuing without it",
      [("port", .nat port)]⟩
  | .pipelineStarted capacity batchSize =>
    ⟨.info, .pipeline, "Statuser pipeline started",
      [("channel_buffer_size", .nat capacity), ("batch_size", .nat batchSize)]⟩
  | .stageReached stage =>
    ⟨.info, .assembly, "Pipeline state changed", [("state", .text stage.name)]⟩
  | .signalReceived => ⟨.info, .program, "Shutdown signal received", []⟩
  | .malformed fault =>
    ⟨.warn, .router, "Could not decode availability status message", [errorField (.decode fault)]⟩
  | .sourceNotFound e => ⟨.debug, .router, "Source not found, skipping", [errorField e]⟩
  | .lookupFailed e => ⟨.warn, .router, "Could not get authentication", [errorField e]⟩
  | .providerUnknown applicationId =>
    ⟨.warn, .router, "Authentication provider type is unknown",
      [("application_id", .text applicationId)]⟩
  | .queueClosed p =>
    ⟨.warn, .router, "Provider queue closed, dropping request", [providerField p]⟩
  | .retrying attempt wait e =>
    ⟨.warn, .attempts, "Operation failed, retrying",
      [("attempt", .nat attempt), ("retry_after_ms", .nat (wait / milliseconds 1)), errorField e]⟩
  | .retriesSpent attempts e =>
    ⟨.warn, .attempts, "Operation failed after max retries",
      [("attempts", .nat attempts), errorField e]⟩
  | .waitRefused attempts e =>
    ⟨.warn, .attempts, "Backoff exhausted", [("attempts", .nat attempts), errorField e]⟩
  | .recovered attempts =>
    ⟨.debug, .attempts, "Operation succeeded after retries", [("attempts", .nat attempts)]⟩
  | .streamEnded stream => ⟨.warn, .pipeline, "Inbound stream ended", [("stream", .text stream)]⟩
  | .streamFailed stream fault =>
    ⟨.error, .pipeline, "Inbound stream failed",
      [("stream", .text stream), errorField (.stream fault)]⟩
  | .intakeStopped stats =>
    ⟨.info, .pipeline, "Intake stopped",
      [("received", .nat stats.received), ("routed", .nat stats.routed),
        ("dropped", .nat stats.dropped)]⟩
  | .sourceUnavailable p applicationId e =>
    ⟨.warn, .worker, "Source is unavailable",
      [providerField p, ("application_id", .text applicationId), errorField e]⟩
  | .resultRefused p resourceId =>
    ⟨.error, .worker, "Result queue closed, dropping probe result",
      [providerField p, ("resource_id", .text resourceId)]⟩
  | .workerStopped p => ⟨.info, .worker, "Provider worker stopped", [providerField p]⟩
  | .sendFailed count trigger e =>
    ⟨.warn, .batcher, "Could not send source availability status messages",
      [("lost", .nat count), ("trigger", .text trigger.name), errorField e]⟩
  | .batcherStopped stats =>
    ⟨.info, .batcher, "Result batcher stopped",
      [("sent", .nat stats.sent), ("lost", .nat stats.lost)]⟩
  | .leavingOnSignal => ⟨.info, .coordinator, "Exiting due to signal", []⟩
  | .leavingOnExit => ⟨.warn, .coordinator, "Exiting due to closed consumer", []⟩
  | .intakeCrashed report =>
    ⟨.error, .coordinator, "Intake task failed, draining remaining stages", [crashField report]⟩
  | .workerCrashed p report =>
    ⟨.error, .coordinator, "Provider worker failed", [providerField p, crashField report]⟩
  | .batcherCrashed report =>
    ⟨.error, .coordinator, "Result batcher failed", [crashField report]⟩
  | .drainOverdue secs =>
    ⟨.error, .coordinator, "Drain did not finish in time, abandoning in-flight work",
      [("timeout_secs", .nat secs)]⟩
  | .drained => ⟨.info, .coordinator, "Shutdown finished", []⟩
  | .intakeExitUnexpected => ⟨.warn, .program, "Inbound consumer terminated unexpectedly", []⟩
  | .workerSummary p stats =>
    ⟨.info, .program, "Provider worker summary",
      [providerField p, ("processed", .nat stats.processed),
        ("unavailable", .nat stats.unavailable), ("lost", .nat stats.lost)]⟩
  | .flushSummary stats =>
    ⟨.info, .program, "Batch flush summary",
      [("full_flushes", .nat stats.fullFlushes), ("tick_flushes", .nat stats.tickFlushes),
        ("shutdown_flushes", .nat stats.shutdownFlushes)]⟩
  | .stopped intake batcher =>
    ⟨.info, .program, "Statuser stopped",
      [("received", .nat intake.received), ("routed", .nat intake.routed),
        ("dropped", .nat intake.dropped), ("sent", .nat batcher.sent),
        ("lost", .nat batcher.lost)]⟩
  | .fatal e => ⟨.error, .program, "Fatal error", [errorField e]⟩

/-- Whether an event sums up a part of a run that came to its end. -/
def isSummary : Event → Bool
  | .workerSummary .. => true
  | .flushSummary _ => true
  | .stopped .. => true
  | _ => false

/-- The events at the end of a run that was reported on. -/
def closing (r : Report) : List Event :=
  (match r.reason with
    | .consumerExited => [.intakeExitUnexpected]
    | .signal => [])
    ++ Provider.all.map (fun p => .workerSummary p (r.workers.get p))
    ++ [.flushSummary r.batcher, .stopped r.intake r.batcher]

end Event

end Availability.Log

import Availability.Status

/-!
# Metrics

What the service counts. A run leaves a list of measurements; `total` sums the ones of a counter,
`samples` counts the ones of a histogram.
-/

namespace Availability

/-- Why a request was dropped before its source was checked. -/
inductive DropReason where
  | decodeError
  | notFound
  | resolveError
  | noop
  | unknownProvider
  | queueClosed
  deriving DecidableEq, Repr, Inhabited

namespace DropReason

/-- All reasons. -/
def all : List DropReason :=
  [.decodeError, .notFound, .resolveError, .noop, .unknownProvider, .queueClosed]

/-- The name of a reason. -/
def name : DropReason → String
  | .decodeError => "decode_error"
  | .notFound => "not_found"
  | .resolveError => "resolve_error"
  | .noop => "noop"
  | .unknownProvider => "unknown_provider"
  | .queueClosed => "queue_closed"

end DropReason

/-- What made a batch go out. -/
inductive FlushTrigger where
  | full
  | tick
  | shutdown
  deriving DecidableEq, Repr, Inhabited

namespace FlushTrigger

/-- All triggers. -/
def all : List FlushTrigger := [.full, .tick, .shutdown]

/-- The name of a trigger. -/
def name : FlushTrigger → String
  | .full => "full"
  | .tick => "tick"
  | .shutdown => "shutdown"

end FlushTrigger

/-- A counter, with its labels. -/
inductive Counter where
  | requestsRouted (p : Provider)
  | requestsDropped (reason : DropReason)
  | resultsSent (p : Provider) (status : Status)
  | batchFlushes (trigger : FlushTrigger)
  | batchSendFailures
  | resultsLost
  deriving DecidableEq, Repr

/-- One measurement: a counter goes up, or a check took some time. -/
inductive Measurement where
  | count (counter : Counter) (n : Nat)
  | probeDuration (p : Provider)
  deriving DecidableEq, Repr

namespace Counter

/-- Every counter. -/
def all : List Counter :=
  Provider.all.map .requestsRouted ++ DropReason.all.map .requestsDropped
    ++ Provider.all.flatMap (fun p => [.resultsSent p .available, .resultsSent p .unavailable])
    ++ FlushTrigger.all.map .batchFlushes ++ [.batchSendFailures, .resultsLost]

/-- The name of a counter without its labels. -/
def name : Counter → String
  | .requestsRouted _ => "statuser_requests_routed_total"
  | .requestsDropped _ => "statuser_requests_dropped_total"
  | .resultsSent _ _ => "statuser_results_sent_total"
  | .batchFlushes _ => "statuser_batch_flushes_total"
  | .batchSendFailures => "statuser_batch_send_failures_total"
  | .resultsLost => "statuser_results_lost_total"

/-- The labels of a counter. -/
def labels : Counter → List (String × String)
  | .requestsRouted p => [("provider", p.name)]
  | .requestsDropped reason => [("reason", reason.name)]
  | .resultsSent p status => [("provider", p.name), ("status", status.name)]
  | .batchFlushes trigger => [("trigger", trigger.name)]
  | .batchSendFailures => []
  | .resultsLost => []

end Counter

namespace Measurement

/-- How much a measurement adds to a counter. -/
def amount (c : Counter) : Measurement → Nat
  | .count c' n => if c' = c then n else 0
  | .probeDuration _ => 0

/-- What a counter comes to. -/
def total (c : Counter) : List Measurement → Nat
  | [] => 0
  | m :: ms => m.amount c + total c ms

/-- How often the time of a check was taken. -/
def samples (p : Provider) (ms : List Measurement) : Nat := ms.count (.probeDuration p)

/-- Whether a counter was used at all. -/
def touched (c : Counter) (ms : List Measurement) : Bool :=
  ms.any fun m => match m with
    | .count c' _ => c' == c
    | .probeDuration _ => false

theorem total_append (c : Counter) (xs ys : List Measurement) :
    total c (xs ++ ys) = total c xs + total c ys := by
  induction xs with
  | nil => simp [total]
  | cons m ms ih => simp [total, ih, Nat.add_assoc]

end Measurement

/-- The name of the histogram of the time that checks take. -/
def probeDurationName : String := "statuser_probe_duration_seconds"

/-- What a metric says of itself: its name, its unit if it has one, and a description. -/
structure MetricDescription where
  isHistogram : Bool
  name : String
  unit : Option String
  text : String
  deriving DecidableEq, Repr

/-- Every metric, in the order in which they are presented. -/
def metricDescriptions : List MetricDescription :=
  [⟨false, Counter.name (.requestsRouted .aws), none,
      "Availability requests forwarded to a provider queue"⟩,
    ⟨false, Counter.name (.requestsDropped .noop), none,
      "Availability requests dropped before probing, by reason"⟩,
    ⟨false, Counter.name (.resultsSent .aws .available), none,
      "Probe results handed to the batcher, by provider and status"⟩,
    ⟨true, probeDurationName, some "seconds", "Duration of provider reachability probes"⟩,
    ⟨false, Counter.name (.batchFlushes .full), none, "Outbound batch flushes, by trigger"⟩,
    ⟨false, Counter.name .batchSendFailures, none, "Outbound batch sends that failed"⟩,
    ⟨false, Counter.name .resultsLost, none,
      "Probe results lost to failed outbound sends or encoding errors"⟩]

end Availability

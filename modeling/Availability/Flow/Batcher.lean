import Availability.Batch
import Availability.Flow.Call
import Availability.Flow.Queue
import Availability.Metrics
import Availability.Outbound.Message

/-!
# The batcher

The batcher takes results off the result queue, makes messages of them and gathers these in a
batch. The batch goes to the sink when it is full, when the ticker goes off, and when the result
queue is at its end. While the sink is busy the batcher does nothing else.

The ticker goes off once in each period. One that was taken notice of more than five milliseconds
late starts a whole period anew; so does a full batch, once the sink is done with it.

* `Ticker.advance_le`: after the ticker has gone off it is due again within a period.
-/

namespace Availability.Flow

/-- A clock that goes off again and again. -/
structure Ticker where
  period : Nat
  due : Nat
  deriving DecidableEq, Repr

namespace Ticker

/-- A ticker that goes off for the first time after one period. -/
def start (now period : Nat) : Ticker := ⟨period, now + period⟩

/-- How late the ticker may be taken notice of without losing its rhythm. -/
def tolerance : Nat := 5

/-- The ticker after it went off and was taken notice of at `now`. -/
def advance (t : Ticker) (now : Nat) : Ticker :=
  { t with due := if t.due + tolerance < now then now + t.period else t.due + t.period }

/-- The ticker started anew at `now`. -/
def reset (t : Ticker) (now : Nat) : Ticker := { t with due := now + t.period }

theorem advance_le (t : Ticker) (now : Nat) (h : t.due ≤ now) :
    (t.advance now).due ≤ now + t.period := by
  simp only [advance]
  split <;> omega

end Ticker

/-- What a batcher has counted. -/
structure BatcherStats where
  fullFlushes : Nat
  tickFlushes : Nat
  shutdownFlushes : Nat
  sent : Nat
  lost : Nat
  deriving DecidableEq, Repr, Inhabited

namespace BatcherStats

/-- Counts a flush. -/
def flushed (s : BatcherStats) : FlushTrigger → BatcherStats
  | .full => { s with fullFlushes := s.fullFlushes + 1 }
  | .tick => { s with tickFlushes := s.tickFlushes + 1 }
  | .shutdown => { s with shutdownFlushes := s.shutdownFlushes + 1 }

end BatcherStats

/-- What a batcher is doing. -/
inductive BatcherPhase where
  | waiting
  | flushing (messages : List OutboundMessage) (trigger : FlushTrigger)
  | ended
  | crashed (text : String)
  deriving DecidableEq, Repr, Inhabited

/-- One call of the sink. -/
structure SinkCall where
  time : Nat
  trigger : FlushTrigger
  messages : List OutboundMessage
  deriving DecidableEq, Repr

/-- A batcher: what it is doing, what is pending, its ticker, what it has counted, and the calls
of the sink it has made. -/
structure Batcher where
  topic : String
  phase : BatcherPhase
  batch : Batch OutboundMessage
  ticker : Ticker
  stats : BatcherStats
  calls : List SinkCall
  measurements : List Measurement
  deriving DecidableEq, Repr

namespace Batcher

/-- How many bytes a message takes in a batch. -/
def messageSize : Nat := 112

/-- The most bytes that a batch can be given room for. -/
def roomMax : Nat := 0x7fffffffffffffff

/-- Why no batcher starts with these numbers, if none does: there is no room for so large a batch,
and no ticker with a period of zero. -/
def startFault? (batchSize period : Nat) : Option String :=
  if roomMax < max batchSize 1 * messageSize then some "capacity overflow"
  else if period = 0 then some "\x60period\x60 must be non-zero."
  else none

/-- A batcher that starts at `now`. -/
def start (now : Nat) (topic : String) (batchSize period : Nat) : Batcher :=
  { topic := topic
    phase := match startFault? batchSize period with
      | some text => .crashed text
      | none => .waiting
    batch := .empty batchSize
    ticker := .start now period
    stats := ⟨0, 0, 0, 0, 0⟩
    calls := []
    measurements := [] }

/-- Whether a batcher has come to an end, in whichever way. -/
def isOver (b : Batcher) : Bool :=
  match b.phase with
  | .ended => true
  | .crashed _ => true
  | _ => false

/-- Hands a batch to the sink. -/
def flush (b : Batcher) (now : Nat) (messages : List OutboundMessage) (trigger : FlushTrigger) :
    Batcher :=
  { b with
    phase := .flushing messages trigger
    stats := b.stats.flushed trigger
    calls := b.calls ++ [⟨now, trigger, messages⟩]
    measurements := b.measurements ++ [.count (.batchFlushes trigger) 1] }

/-- Notes how a call of the sink went. -/
def account (b : Batcher) (count : Nat) : Except Error Unit → Batcher
  | .ok () => { b with stats := { b.stats with sent := b.stats.sent + count } }
  | .error _ =>
    { b with
      stats := { b.stats with lost := b.stats.lost + count }
      measurements :=
        b.measurements ++ [.count .batchSendFailures 1, .count .resultsLost count] }

/-- Goes on after a call of the sink. -/
def resume (b : Batcher) (now : Nat) : FlushTrigger → Batcher
  | .full => { b with phase := .waiting, ticker := b.ticker.reset now }
  | .tick => { b with phase := .waiting }
  | .shutdown => { b with phase := .ended }

/-- What a batcher can do. -/
inductive Move where
  /-- It takes the next result, whose message gets the stamp. -/
  | receive (stamp : Stamp)
  /-- The ticker goes off. -/
  | tick
  /-- The result queue is at its end: what is pending goes out, or the batcher ends. -/
  | drain
  /-- The sink is done. -/
  | sent (answer : Except Error Unit)
  /-- The sink crashes, and the batcher with it. -/
  | crash (text : String)

/-- A batcher together with the result queue and the time. -/
structure Bench where
  batcher : Batcher
  inbox : Queue ProbeResult
  now : Nat
  deriving DecidableEq, Repr

/-- Makes a move, if it is possible. -/
def step? (s : Bench) : Move → Option Bench
  | .receive stamp =>
    match s.batcher.phase, s.inbox.pop? with
    | .waiting, some (r, inbox) =>
      match s.batcher.batch.push (r.toMessage s.batcher.topic stamp) with
      | (none, batch) =>
        some { s with batcher := { s.batcher with batch := batch }, inbox := inbox }
      | (some messages, batch) =>
        some
          { s with
            batcher := { s.batcher with batch := batch }.flush s.now messages .full
            inbox := inbox }
    | _, _ => none
  | .tick =>
    match s.batcher.phase with
    | .waiting =>
      if s.batcher.ticker.due ≤ s.now then
        let b := { s.batcher with ticker := s.batcher.ticker.advance s.now }
        match b.batch.take with
        | (none, _) => some { s with batcher := b }
        | (some messages, batch) =>
          some { s with batcher := { b with batch := batch }.flush s.now messages .tick }
      else none
    | _ => none
  | .drain =>
    match s.batcher.phase with
    | .waiting =>
      if s.inbox.atEnd then
        match s.batcher.batch.take with
        | (none, _) => some { s with batcher := { s.batcher with phase := .ended } }
        | (some messages, batch) =>
          some
            { s with
              batcher := { s.batcher with batch := batch }.flush s.now messages .shutdown }
      else none
    | _ => none
  | .sent answer =>
    match s.batcher.phase with
    | .flushing messages trigger =>
      some { s with batcher := (s.batcher.account messages.length answer).resume s.now trigger }
    | _ => none
  | .crash text =>
    match s.batcher.phase with
    | .flushing _ _ =>
      some { s with batcher := { s.batcher with phase := .crashed text }, inbox := s.inbox.close }
    | _ => none

end Batcher

end Availability.Flow

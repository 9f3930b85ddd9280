import Availability.Flow.Batcher
import Availability.Rehearsal.Clock

/-!
# Rehearsing the batcher

The batcher and its queue on a clock of their own. Whoever holds the scene fills the queue.
-/

namespace Availability.Rehearsal

open Availability.Flow

/-- A batcher with the sink that it calls and the stamps that its messages get. -/
structure BatcherPlay where
  bench : Batcher.Bench
  sink : Nat → Call Unit
  stamp : Nat → Stamp
  stamped : Nat
  pending : Option (Pending Unit)

namespace BatcherPlay

/-- A batcher that has not done anything yet. -/
def start (topic : String) (batchSize period capacity : Nat) (sink : Nat → Call Unit)
    (stamp : Nat → Stamp) : BatcherPlay :=
  ⟨⟨.start 0 topic batchSize period, .bounded capacity 1, 0⟩, sink, stamp, 0, none⟩

/-- The clock. -/
def now (p : BatcherPlay) : Nat := p.bench.now

/-- Begins the call of the sink that the batcher now waits for. -/
def arm (p : BatcherPlay) : BatcherPlay :=
  match p.bench.batcher.phase, p.pending with
  | .flushing _ _, none =>
    { p with pending := some (.begin p.now (p.sink (p.bench.batcher.calls.length - 1))) }
  | .flushing _ _, some _ => p
  | _, _ => { p with pending := none }

/-- The batcher makes a move. -/
def move? (p : BatcherPlay) (m : Batcher.Move) : Option BatcherPlay :=
  (Batcher.step? p.bench m).map fun b => { p with bench := b }.arm

/-- The end of the call of the sink, if it has come. -/
def sinkEnd? (p : BatcherPlay) : Option BatcherPlay :=
  match p.pending.bind (·.ended? p.now) with
  | some (.result r) => p.move? (.sent r)
  | some (.crash text) => p.move? (.crash text)
  | none => none

/-- The batcher takes a result. -/
def receive? (p : BatcherPlay) : Option BatcherPlay :=
  (p.move? (.receive (p.stamp p.stamped))).map fun q => { q with stamped := q.stamped + 1 }

/-- A batcher that could not start lets go of its queue. -/
def letGo? (p : BatcherPlay) : Option BatcherPlay :=
  match p.bench.batcher.phase with
  | .crashed _ =>
    if p.bench.inbox.receiving then
      some { p with bench := { p.bench with inbox := p.bench.inbox.close } }
    else none
  | _ => none

/-- What happens next by itself. -/
def act? (p : BatcherPlay) : Option BatcherPlay :=
  p.letGo? <|> p.sinkEnd? <|> p.receive? <|> p.move? .drain <|> p.move? .tick

/-- When the next timer is due: the end of the call of the sink, or else the ticker. -/
def due? (p : BatcherPlay) : Option Nat :=
  match p.bench.batcher.phase with
  | .waiting => some p.bench.batcher.ticker.due
  | .flushing _ _ => p.pending.bind (·.due)
  | _ => none

/-- The batcher as a scene. A result takes two moves at most, and the ticker goes off no more often
than its tolerance allows. -/
def scene : Scene BatcherPlay where
  act? := act?
  effort := fun p => 2 * p.bench.inbox.items.length + 2 * Ticker.tolerance + 8
  due? := due?
  now := now
  setNow := fun n p => { p with bench := { p.bench with now := n } }

/-- Puts a result into the queue. -/
def offer (p : BatcherPlay) (r : ProbeResult) : Queue.Offer ProbeResult × BatcherPlay :=
  match p.bench.inbox.offer r with
  | .entered q => (.entered q, { p with bench := { p.bench with inbox := q } })
  | other => (other, p)

/-- Lets go of the sending side of the queue. -/
def close (p : BatcherPlay) : BatcherPlay :=
  { p with bench := { p.bench with inbox := p.bench.inbox.dropSender } }

/-- Whether the batcher has come to an end. -/
def isDone (p : BatcherPlay) : Bool := p.bench.batcher.isOver

/-- Lets go of the queue and waits until the batcher comes to an end, `patience` milliseconds at
most. -/
def finish (p : BatcherPlay) (patience : Nat) : BatcherPlay :=
  scene.pass isDone patience (scene.rest p.close)

end BatcherPlay

end Availability.Rehearsal

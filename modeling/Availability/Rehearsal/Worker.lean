import Availability.Flow.Worker
import Availability.Rehearsal.Clock

/-!
# Rehearsing a worker

A worker and its two queues on a clock of their own. Whoever holds the scene fills the one queue
and empties the other, by hand or, while `collecting`, as soon as a result is there.
-/

namespace Availability.Rehearsal

open Availability.Flow

/-- A worker with the probe that it calls. -/
structure WorkerPlay where
  bench : Worker.Bench
  now : Nat
  probe : Authentication → Call Unit
  pending : Option (Pending Unit)
  collecting : Bool
  collected : List ProbeResult

namespace WorkerPlay

/-- A worker that has not done anything yet. -/
def start (of : Provider) (queueCapacity resultsCapacity : Nat)
    (probe : Authentication → Call Unit) : WorkerPlay :=
  ⟨⟨.idle of, .bounded queueCapacity 1, .bounded resultsCapacity 1⟩, 0, probe, none, false, []⟩

/-- Begins the probe that the worker now waits for. -/
def arm (p : WorkerPlay) : WorkerPlay :=
  match p.bench.worker.phase, p.pending with
  | .probing source, none =>
    { p with pending := some (.begin p.now (p.probe source.authentication)) }
  | .probing _, some _ => p
  | _, _ => { p with pending := none }

/-- The worker makes a move. -/
def move? (p : WorkerPlay) (m : Worker.Move) : Option WorkerPlay :=
  (Worker.step? p.bench m).map fun b => { p with bench := b }.arm

/-- The end of the probe, if it has come. -/
def probeEnd? (p : WorkerPlay) : Option WorkerPlay :=
  match p.pending.bind (·.ended? p.now) with
  | some (.result r) => p.move? (.probed r)
  | some (.crash text) => p.move? (.crash text)
  | none => none

/-- Takes the front of the result queue away. -/
def receive? (p : WorkerPlay) : Option (ProbeResult × WorkerPlay) :=
  match p.bench.outbox.pop? with
  | some (r, outbox) => some (r, { p with bench := { p.bench with outbox := outbox } })
  | none => none

/-- Takes a result away and keeps it. -/
def collect? (p : WorkerPlay) : Option WorkerPlay :=
  if p.collecting then
    p.receive?.map fun x => { x.2 with collected := x.2.collected ++ [x.1] }
  else none

/-- What happens next by itself. -/
def act? (p : WorkerPlay) : Option WorkerPlay :=
  p.move? .offer <|> p.probeEnd? <|> p.move? .take <|> p.move? .finish <|> p.collect?

/-- The worker as a scene. A source takes four moves at most: taken, probed, offered, collected. -/
def scene : Scene WorkerPlay where
  act? := act?
  effort := fun p => 4 * (p.bench.inbox.items.length + p.bench.outbox.items.length + 2)
  due? := fun p => p.pending.bind (·.due)
  now := (·.now)
  setNow := fun n p => { p with now := n }

/-- Puts a source into the queue. -/
def offer (p : WorkerPlay) (source : ResolvedSource) : Queue.Offer ResolvedSource × WorkerPlay :=
  match p.bench.inbox.offer source with
  | .entered q => (.entered q, { p with bench := { p.bench with inbox := q } })
  | other => (other, p)

/-- Lets go of the sending side of the queue. -/
def closeQueue (p : WorkerPlay) : WorkerPlay :=
  { p with bench := { p.bench with inbox := p.bench.inbox.dropSender } }

/-- Closes the receiving side of the result queue. -/
def closeResults (p : WorkerPlay) : WorkerPlay :=
  { p with bench := { p.bench with outbox := p.bench.outbox.close } }

/-- Whether the worker has come to an end. -/
def isDone (p : WorkerPlay) : Bool := p.bench.worker.isOver

/-- Lets go of the queue and collects results until the worker comes to an end, `patience`
milliseconds at most. -/
def finish (p : WorkerPlay) (patience : Nat) : WorkerPlay :=
  scene.pass isDone patience (scene.rest { p.closeQueue with collecting := true })

end WorkerPlay

end Availability.Rehearsal

import Availability.Flow.Pipeline
import Availability.Rehearsal.Clock

/-!
# Rehearsing a pipeline

A whole pipeline on a clock of its own, with the stream it reads and the parts it calls. Of the
moves that are possible one is made at a time: the coordinator sees first what there is to see,
then what is nearer to the sink goes before what is nearer to the stream, so that queues empty
before they fill. Workers whose results wait for room are served in the order in which they came.

* `PipelinePlay.move?_run`: every move of a rehearsal is a move of the pipeline.
-/

namespace Availability.Rehearsal

open Availability.Flow

/-- The parts that a pipeline calls, and the stamps that its messages get. -/
structure Cast where
  lookup : String → Principal → Call ResolvedSource
  probe : Provider → Authentication → Call Unit
  sink : Nat → Call Unit
  stamp : Nat → Stamp

/-- A pipeline in rehearsal. -/
structure PipelinePlay where
  state : State
  cast : Cast
  /-- What is in the stream: messages, and failures of the stream. -/
  stream : List (Option InboundMessage)
  /-- Whether the stream ends after these. -/
  streamOver : Bool
  lookup : Option (Pending ResolvedSource)
  probes : PerProvider (Option (Pending Unit))
  sink : Option (Pending Unit)
  /-- The workers whose results wait for room, the first come first. -/
  offering : List Provider
  stamped : Nat
  /-- The moves made so far, the last one first. -/
  moves : List State.Move

namespace PipelinePlay

/-- A pipeline that has not done anything yet. -/
def start (c : Settings) (cast : Cast) : PipelinePlay :=
  ⟨.start c, cast, [], false, none, .make fun _ => none, none, [], 0, []⟩

/-- The clock. -/
def now (p : PipelinePlay) : Nat := p.state.now

/-- Begins the lookup that the intake now waits for. -/
def armLookup (p : PipelinePlay) : PipelinePlay :=
  match p.state.intake.router.current, p.lookup with
  | some (.resolving request identity), none =>
    { p with lookup := some (.begin p.now (p.cast.lookup request.sourceId identity)) }
  | some (.resolving _ _), some _ => p
  | _, _ => { p with lookup := none }

/-- Begins the probe that a worker now waits for, and notes a result that waits for room. -/
def armWorker (p : PipelinePlay) (of : Provider) : PipelinePlay :=
  match (p.state.workers.get of).phase with
  | .probing source =>
    match p.probes.get of with
    | none =>
      let call := p.cast.probe of source.authentication
      { p with probes := p.probes.set of (some (.begin p.now call)) }
    | some _ => p
  | .offering _ =>
    { p with
      probes := p.probes.set of none
      offering := if p.offering.contains of then p.offering else p.offering ++ [of] }
  | _ => { p with probes := p.probes.set of none, offering := p.offering.erase of }

/-- Begins the call of the sink that the batcher now waits for. -/
def armSink (p : PipelinePlay) : PipelinePlay :=
  match p.state.batcher.phase, p.sink with
  | .flushing _ _, none =>
    { p with sink := some (.begin p.now (p.cast.sink (p.state.batcher.calls.length - 1))) }
  | .flushing _ _, some _ => p
  | _, _ => { p with sink := none }

/-- Begins the calls that a part has come to by a move. -/
def arm (p : PipelinePlay) : State.Move → PipelinePlay
  | .intake _ => p.armLookup
  | .worker of _ => p.armWorker of
  | .batcher (.receive _) => { p with stamped := p.stamped + 1 }.armSink
  | .batcher _ => p.armSink
  | _ => p

/-- Makes a move, if it is possible. -/
def move? (p : PipelinePlay) (m : State.Move) : Option PipelinePlay :=
  (p.state.step? m).map fun s => { p with state := s, moves := m :: p.moves }.arm m

theorem state_arm (p : PipelinePlay) (m : State.Move) : (p.arm m).state = p.state := by
  have lookup : p.armLookup.state = p.state := by unfold armLookup; split <;> rfl
  have worker (of : Provider) : (p.armWorker of).state = p.state := by
    unfold armWorker
    split
    · split <;> rfl
    · rfl
    · rfl
  have sink (q : PipelinePlay) : q.armSink.state = q.state := by unfold armSink; split <;> rfl
  unfold arm
  split
  · exact lookup
  · exact worker _
  · exact sink _
  · exact sink _
  · rfl

/-- Every move of a rehearsal is a move of the pipeline. -/
theorem move?_run {p q : PipelinePlay} {m : State.Move} (h : p.move? m = some q) :
    p.state.step? m = some q.state := by
  unfold move? at h
  obtain ⟨s, hs, rfl⟩ := Option.map_eq_some_iff.1 h
  rw [hs, state_arm]

/-- The first of some moves that is possible. -/
def firstMove? (p : PipelinePlay) (ms : List State.Move) : Option PipelinePlay :=
  ms.findSome? p.move?

/-- What the coordinator can see. -/
def coordinatorMoves : List State.Move :=
  [.coordinator .seeSignal, .coordinator .seeExit, .coordinator .finish]

/-- What the batcher can do before its ticker goes off. -/
def batcherMoves (p : PipelinePlay) : List State.Move :=
  let ended := match p.sink.bind (·.ended? p.now) with
    | some (.result r) => [State.Move.batcher (.sent r)]
    | some (.crash text) => [.batcher (.crash text)]
    | none => []
  ended ++ [.batcher (.receive (p.cast.stamp p.stamped)), .batcher .drain]

/-- What a worker can do, its offers apart. -/
def workerMoves (p : PipelinePlay) (of : Provider) : List State.Move :=
  let ended := match (p.probes.get of).bind (·.ended? p.now) with
    | some (.result r) => [State.Move.worker of (.probed r)]
    | some (.crash text) => [.worker of (.crash text)]
    | none => []
  ended ++ [.worker of .take, .worker of .finish]

/-- What the intake can do. -/
def intakeMoves (p : PipelinePlay) : List State.Move :=
  let ended := match p.lookup.bind (·.ended? p.now) with
    | some (.result r) => [State.Move.intake (.lookup r)]
    | some (.crash text) => [.intake (.crash text)]
    | none => []
  [.intake .stop] ++ ended ++ [.intake .enqueue]

/-- The intake turns to the stream. -/
def turnToStream? (p : PipelinePlay) : Option PipelinePlay :=
  match p.stream with
  | some m :: rest => (p.move? (.intake (.pull m))).map fun q => { q with stream := rest }
  | none :: rest => (p.move? (.intake .streamEnds)).map fun q => { q with stream := rest }
  | [] => if p.streamOver then p.move? (.intake .streamEnds) else none

/-- What happens next by itself. -/
def act? (p : PipelinePlay) : Option PipelinePlay :=
  p.firstMove? coordinatorMoves
    <|> p.firstMove? p.batcherMoves
    <|> p.firstMove? (p.offering.map fun of => .worker of .offer)
    <|> p.firstMove? (Provider.all.flatMap p.workerMoves)
    <|> p.firstMove? p.intakeMoves
    <|> p.turnToStream?
    <|> p.firstMove? [.batcher .tick, .coordinator .giveUp]

/-- When the next timer is due. -/
def due? (p : PipelinePlay) : Option Nat :=
  let sink := match p.state.batcher.phase with
    | .waiting => some p.state.batcher.ticker.due
    | .flushing _ _ => p.sink.bind (·.due)
    | _ => none
  let deadline := match p.state.coordinator.phase with
    | .draining _ deadline => some deadline
    | _ => none
  let probe (of : Provider) := (p.probes.get of).bind (·.due)
  earlier (p.lookup.bind (·.due))
    (earlier sink (earlier deadline (earlier (probe .aws) (earlier (probe .azure) (probe .gcp)))))

/-- How many messages, sources and results are on their way. -/
def inFlight (p : PipelinePlay) : Nat :=
  p.stream.length + p.state.results.items.length
    + Provider.all.foldl (fun n of => n + (p.state.queue of).items.length) 0

/-- The pipeline as a scene. A message takes nine moves at most on its way from the stream to the
sink; the rest is for what is in hand, for the ends of the parts and for the ticker. -/
def scene : Scene PipelinePlay where
  act? := act?
  effort := fun p => 9 * (p.inFlight + 6) + 2 * Ticker.tolerance + 20
  due? := due?
  now := now
  setNow := fun n p => (p.move? (.elapse (n - p.now))).getD p

/-- Puts messages into the stream, if the intake still holds on to it, and says how many it took. -/
def send (p : PipelinePlay) (ms : List InboundMessage) : Nat × PipelinePlay :=
  if p.state.intake.isOver || p.streamOver then (0, p)
  else (ms.length, { p with stream := p.stream ++ ms.map some })

/-- The stream fails after what is in it. -/
def failStream (p : PipelinePlay) : PipelinePlay :=
  if p.state.intake.isOver || p.streamOver then p else { p with stream := p.stream ++ [none] }

/-- Gives the signal to stop. -/
def signal (p : PipelinePlay) : PipelinePlay := (p.move? .signal).getD p

/-- The stream ends after what is in it. -/
def endStream (p : PipelinePlay) : PipelinePlay := { p with streamOver := true }

/-- Whether the pipeline has come to an end. -/
def isDone (p : PipelinePlay) : Bool := p.state.result?.isSome

/-- Ends the stream and waits until the pipeline comes to an end, `patience` milliseconds at
most. -/
def finish (p : PipelinePlay) (patience : Nat) : PipelinePlay :=
  scene.pass isDone patience (scene.rest p.endStream)

end PipelinePlay

end Availability.Rehearsal

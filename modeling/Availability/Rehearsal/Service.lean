import Availability.Inbound.Stream
import Availability.Log.Account
import Availability.Outbound.Sink
import Availability.Rehearsal.Pipeline
import Availability.Service

/-!
# Rehearsing the service

The whole service in a world that is given: the files it may open, its standard input, the network
and the signal to stop. Calls over the network take no time, pauses between attempts do.

* `perform_of_probeFault`: nothing is read or written if the checks cannot be set up.
-/

namespace Availability.Rehearsal

open Settings (Config)

/-- What surrounds the service. -/
structure World where
  /-- What reading the file at a path gives, up to the fault at which it breaks off if it does, or
  why it cannot be opened. -/
  read : String → Except StreamFault (Bytes × Option StreamFault)
  /-- Why nothing can be appended to the file at a path, if nothing can. -/
  appendFault? : String → Option StreamFault
  /-- The standard input. -/
  input : Bytes
  network : Http.Request → Http.Reply
  stamp : Nat → Stamp
  /-- After how many milliseconds the signal to stop comes, if it does. The standard input stays
  open until then. -/
  signalAt : Option Nat

/-- How the service comes to its end. -/
inductive Ending where
  | crashed (text : String)
  | failed (e : Error)
  | reported (r : Flow.Report)
  /-- It is still at work. -/
  | unfinished

/-- What is seen of the service: how it ends, what it appends to its output, and what it logs. -/
structure Performance where
  ending : Ending
  written : Bytes
  events : List Log.Event

/-- The inbound stream: its name, its messages, the fault at which it breaks off if it does, and
whether it stays open. -/
structure Inflow where
  name : String
  messages : List InboundMessage
  fault? : Option StreamFault
  staysOpen : Bool

namespace Service

open Availability.Service

/-- Opens the inbound stream. -/
def inflow (c : Config) (w : World) : Except StreamFault Inflow :=
  match c.transport.input with
  | some path =>
    (w.read path).map fun (bytes, fault?) =>
      let (messages, broken?) := Inbound.messages (caller c) [bytes]
      ⟨path, messages, broken? <|> fault?, false⟩
  | none =>
    let bytes := if w.signalAt.isSome then (Inbound.wholeLines w.input).1 else w.input
    let (messages, broken?) := Inbound.messages (caller c) [bytes]
    .ok ⟨"stdin", messages, broken?, w.signalAt.isSome⟩

/-- The length of some waits in milliseconds. -/
def pauseMs (waits : List Nat) : Nat :=
  (waits.foldl (· + ·) 0 + milliseconds 1 - 1) / milliseconds 1

/-- The parts that the pipeline calls. -/
def cast (c : Config) (w : World) : Cast where
  lookup := fun id identity =>
    let a := lookup c .calm w.network id identity
    ⟨some (pauseMs a.waits), .result a.outcome⟩
  probe := fun p a =>
    (Flow.Call.immediate (probe c w.network p a)).probeWithin p.name (probeLimitMs c)
  sink := fun _ => .immediate (.ok ())
  stamp := w.stamp

/-- What the log knows besides the pipeline. -/
def background (c : Config) (w : World) (f : Inflow) : Log.Background where
  attempts := fun id identity => Log.Event.ofAttempts (lookup c .calm w.network id identity)
  stream := f.name
  fault? := f.fault?

/-- Longer than anything takes, in milliseconds. -/
def patience : Nat := 1000000000000000

/-- Plays the pipeline until it comes to an end. -/
def play (c : Config) (w : World) (f : Inflow) : PipelinePlay :=
  let start := ((PipelinePlay.start (pipeline c) (cast c w)).send f.messages).2
  let filled := if f.fault?.isSome then start.failStream else start
  let open_ := if f.staysOpen || f.fault?.isSome then filled else filled.endStream
  let resting := PipelinePlay.scene.rest open_
  match w.signalAt with
  | some ms =>
    let warned := (PipelinePlay.scene.pass PipelinePlay.isDone ms resting).signal
    warned.finish patience
  | none => resting.finish patience

/-- What the sink has written when it has been called so. -/
def written (calls : List Flow.SinkCall) : Bytes :=
  (calls.foldl (fun out call => (Sink.send .open out call.messages).2) (.holding [])).stored

/-- How a pipeline comes to its end. -/
def ending (p : PipelinePlay) : Ending :=
  match p.state.result? with
  | some (.ok r) => .reported r
  | some (.error e) => .failed e
  | none => .unfinished

/-- The service in a world. -/
def perform (c : Config) (w : World) : Performance :=
  let early (e : Ending) : Performance := ⟨e, [], [.assembling]⟩
  match probeFault? c with
  | some text => early (.crashed text)
  | none =>
    match c.transport.output.bind w.appendFault? with
    | some fault => early (.failed (.stream fault))
    | none =>
      match inflow c w with
      | .error fault => early (.failed (.stream fault))
      | .ok f =>
        match Flow.State.startFault? c.pipeline.channelBufferSize with
        | some text => early (.crashed text)
        | none =>
          let p := play c w f
          let events :=
            Log.Event.ofRun (background c w f) (.start (pipeline c)) p.moves.reverse
          ⟨ending p, written p.state.batcher.calls,
            .assembling :: .pipelineStarted c.pipeline.channelBufferSize c.pipeline.batchSize
              :: events⟩

theorem perform_of_probeFault {c : Config} {text : String} (w : World)
    (h : probeFault? c = some text) :
    perform c w = ⟨.crashed text, [], [.assembling]⟩ := by
  simp [perform, h]

end Service

end Availability.Rehearsal

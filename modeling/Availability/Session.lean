import Availability.Inbound.Stream
import Availability.Log.Account
import Availability.Metrics.Tally
import Availability.Rehearsal.Pipeline
import Availability.Service

/-!
# Sessions

A session is a pipeline at work among parts that take their time. Input arrives in pieces, calls
begin and are answered later, the clock goes on by itself. `step?` makes one move of the pipeline
and says what to log and which calls begin. Since a session may go on for long, it forgets what the
pipeline remembers of earlier moves, and keeps a tally of what they measured.

* `report_forget`: nothing that is forgotten matters to the report.
-/

namespace Availability

open Availability.Flow (State Worker Batcher PerProvider Call)
open Rehearsal (PipelinePlay Cast)

/-- A call that is to be made. -/
inductive Errand where
  | lookup (sourceId : String) (identity : Principal)
  /-- The `turn`-th probe of a provider. -/
  | probe (turn : Nat) (p : Provider) (a : Authentication)
  | send (messages : List OutboundMessage)

/-- The answer to a call. -/
inductive Answer where
  | lookup (r : Except Error ResolvedSource)
  | probe (turn : Nat) (p : Provider) (r : Except Error Unit)
  | send (r : Except Error Unit)

/-- A pipeline at work. -/
structure Session where
  play : PipelinePlay
  tally : Tally
  /-- How many probes of each provider have begun. -/
  turns : PerProvider Nat
  background : Log.Background
  caller : Principal
  /-- The input that is no whole line yet. -/
  held : Bytes
  /-- Whether more input may arrive. -/
  listening : Bool

namespace Session

/-- A call that does not end by itself. -/
def unanswered {α : Type} : Call α := ⟨none, .result (.error (.internal "no answer"))⟩

/-- The parts of a session: probes have a deadline, everything else takes as long as it takes. -/
def cast (c : Settings.Config) : Cast where
  lookup := fun _ _ => unanswered
  probe := fun p _ => unanswered.probeWithin p.name (Service.probeLimitMs c)
  sink := fun _ => unanswered
  stamp := fun _ => default

/-- A session that begins, over a stream of some name. -/
def start (c : Settings.Config) (stream : String) : Session :=
  { play := .start (Service.pipeline c) (cast c)
    tally := .empty
    turns := .make fun _ => 0
    background := ⟨fun _ _ => [], stream, none⟩
    caller := Service.caller c
    held := []
    listening := true }

/-- Puts lines into the stream. -/
def takeLines (s : Session) (lines : Bytes) : Session :=
  let (messages, fault?) := Inbound.messages s.caller [lines]
  let play := (s.play.send messages).2
  match fault? with
  | none => { s with play := play }
  | some _ =>
    { s with
      play := play.failStream
      background := { s.background with fault? := fault? }
      listening := false }

/-- Input arrives. -/
def receive (s : Session) (piece : Bytes) : Session :=
  if s.listening then
    let (lines, rest) := Inbound.wholeLines (s.held ++ piece)
    { s with held := rest }.takeLines lines
  else s

/-- The input ends. -/
def endInput (s : Session) : Session :=
  if s.listening then
    let t := { s with held := [] }.takeLines s.held
    if t.listening then { t with play := t.play.endStream, listening := false } else t
  else s

/-- The input breaks off. -/
def breakInput (s : Session) (fault : StreamFault) : Session :=
  if s.listening then
    { s with
      play := s.play.failStream
      background := { s.background with fault? := some fault }
      listening := false }
  else s

/-- Whether the pipeline waits for input. -/
def isHungry (s : Session) : Bool := s.listening && s.play.stream.isEmpty

/-- A call that ended just now. -/
def answered {α : Type} (s : Session) (r : Except Error α) : Rehearsal.Pending α :=
  ⟨some s.play.now, .result r⟩

/-- A call is answered. The answer to a probe that was cut off comes too late. -/
def answer (s : Session) : Answer → Session
  | .lookup r =>
    { s with play := { s.play with lookup := s.play.lookup.map fun _ => s.answered r } }
  | .probe turn p r =>
    if turn = s.turns.get p then
      let pending := (s.play.probes.get p).map fun _ => s.answered r
      { s with play := { s.play with probes := s.play.probes.set p pending } }
    else s
  | .send r => { s with play := { s.play with sink := s.play.sink.map fun _ => s.answered r } }

/-- The signal to stop arrives. -/
def signal (s : Session) : Session × List Log.Event :=
  ({ s with play := s.play.signal }, [.signalReceived])

/-- The clock shows a time. -/
def elapseTo (s : Session) (now : Nat) : Session :=
  match s.play.move? (.elapse (now - s.play.now)) with
  | some play => { s with play := { play with moves := [] } }
  | none => s

/-- A state without what it remembers of earlier moves. -/
def forget (s : State) : State :=
  { s with
    intake :=
      { s.intake with
        router := { s.intake.router with verdicts := [], lookups := [], measurements := [] } }
    workers := s.workers.map fun w => { w with probed := [], events := [], measurements := [] }
    batcher := { s.batcher with calls := [], measurements := [] } }

theorem report_forget (s : State) (r : Flow.Reason) : (forget s).report r = s.report r := rfl

/-- The calls that begin with a move, which led to `after`. -/
def errandsOf (turns : PerProvider Nat) (m : State.Move) (after : State) : List Errand :=
  match m with
  | .intake (.pull _) =>
    match after.intake.router.current with
    | some (.resolving request identity) => [.lookup request.sourceId identity]
    | _ => []
  | .worker p .take =>
    match (after.workers.get p).phase with
    | .probing source => [.probe (turns.get p + 1) p source.authentication]
    | _ => []
  | .batcher _ =>
    match m, after.batcher.phase with
    | .batcher (.sent _), _ => []
    | _, .flushing messages _ => [.send messages]
    | _, _ => []
  | _ => []

/-- How many probes have begun after some more calls. -/
def countTurns (turns : PerProvider Nat) (errands : List Errand) : PerProvider Nat :=
  errands.foldl
    (fun turns e => match e with
      | .probe turn p _ => turns.set p turn
      | _ => turns) turns

/-- Makes the next move, if there is one; a message that it makes gets the stamp. -/
def step? (s : Session) (stamp : Stamp) : Option (Session × List Log.Event × List Errand) := do
  let before := { s.play with cast := { s.play.cast with stamp := fun _ => stamp } }
  let after ← before.act?
  let m ← after.moves.head?
  let errands := errandsOf s.turns m after.state
  some
    ({ s with
        play := { after with state := forget after.state, moves := [] }
        tally := s.tally.addAll after.state.measurements
        turns := countTurns s.turns errands },
      Log.Event.ofMove s.background before.state after.state m, errands)

/-- How the session ended, if it has. -/
def result? (s : Session) : Option (Except Error Flow.Report) := s.play.state.result?

end Session

end Availability

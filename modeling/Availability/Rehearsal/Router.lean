import Availability.Flow.Router
import Availability.Rehearsal.Clock

/-!
# Rehearsing the router

The router and its queues on a clock of their own. Whoever holds the scene hands messages over and
works the other ends of the queues.
-/

namespace Availability.Rehearsal

open Availability.Flow

/-- A router with the credential service that it asks. -/
structure RouterPlay where
  router : Router
  now : Nat
  lookup : String → Principal → Call ResolvedSource
  pending : Option (Pending ResolvedSource)
  /-- What the credential service said when it crashed. -/
  crash : Option String

namespace RouterPlay

/-- A router that has not done anything yet. -/
def start (capacity : Nat) (lookup : String → Principal → Call ResolvedSource) : RouterPlay :=
  ⟨.bounded capacity, 0, lookup, none, none⟩

/-- Begins the lookup that the router now waits for. -/
def arm (p : RouterPlay) : RouterPlay :=
  match p.router.current, p.pending with
  | some (.resolving request identity), none =>
    { p with pending := some (.begin p.now (p.lookup request.sourceId identity)) }
  | some (.resolving _ _), some _ => p
  | _, _ => { p with pending := none }

/-- The router makes a move. -/
def move? (p : RouterPlay) (m : Router.Move) : Option RouterPlay :=
  (p.router.step? m).map fun r => { p with router := r }.arm

/-- What the router does next by itself. -/
def act? (p : RouterPlay) : Option RouterPlay :=
  match p.crash, p.pending.bind (·.ended? p.now) with
  | some _, _ => none
  | none, some (.result r) => p.move? (.lookup r)
  | none, some (.crash text) => some { p with crash := some text, pending := none }
  | none, none => p.move? .enqueue

/-- The router as a scene. A message takes two moves. -/
def scene : Scene RouterPlay where
  act? := act?
  effort := fun _ => 4
  due? := fun p => p.pending.bind (·.due)
  now := (·.now)
  setNow := fun n p => { p with now := n }

/-- Whether no message is in hand. -/
def isDone (p : RouterPlay) : Bool := p.router.current.isNone || p.crash.isSome

/-- Hands a message over, waits up to `patience` milliseconds for the router, and else gives up on
it. Gives what became of the message, if anything did. -/
def handle (p : RouterPlay) (m : InboundMessage) (patience : Nat) : Option Verdict × RouterPlay :=
  match p.move? (.handle m) with
  | none => (none, p)
  | some p =>
    let p := scene.pass isDone patience (scene.rest p)
    if p.router.current.isNone then (p.router.verdicts.getLast?, p)
    else (none, (p.move? .abandon).getD p)

/-- Takes the front of a queue away. -/
def receive? (p : RouterPlay) (of : Provider) : Option (ResolvedSource × RouterPlay) :=
  match (p.router.queues.get of).pop?, p.move? (.receive of) with
  | some (source, _), some p => some (source, p)
  | _, _ => none

/-- Closes the receiving side of a queue. -/
def close (p : RouterPlay) (of : Provider) : RouterPlay := (p.move? (.close of)).getD p

/-- The router lets go of its queues. -/
def drop (p : RouterPlay) : RouterPlay := { p with router := p.router.drop }

end RouterPlay

end Availability.Rehearsal

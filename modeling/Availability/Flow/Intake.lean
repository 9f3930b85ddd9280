import Availability.Flow.Router

/-!
# The intake

The intake pulls messages off the inbound stream, one at a time, and has the router handle each.
It pulls none once it has been told to stop, but finishes the message in hand. When it ends, the
router lets go of the queues.

* `step?_of_isOver`: an intake that is over moves no more.
-/

namespace Availability.Flow

/-- What the intake has counted. -/
structure IntakeStats where
  received : Nat
  routed : Nat
  dropped : Nat
  deriving DecidableEq, Repr, Inhabited

/-- Whether the intake is at work. -/
inductive IntakePhase where
  | running
  | ended
  | crashed (text : String)
  deriving DecidableEq, Repr, Inhabited

/-- The intake with its router. -/
structure Intake where
  phase : IntakePhase
  /-- Whether the intake has been told to stop. -/
  cancelled : Bool
  stats : IntakeStats
  router : Router
  deriving DecidableEq, Repr

namespace Intake

/-- An intake with empty queues. -/
def bounded (capacity : Nat) : Intake := ⟨.running, false, ⟨0, 0, 0⟩, .bounded capacity⟩

/-- Whether the intake has come to an end, in whichever way. -/
def isOver (i : Intake) : Bool :=
  match i.phase with
  | .running => false
  | _ => true

/-- Whether the intake is between messages. -/
def isListening (i : Intake) : Bool := !i.isOver && i.router.current.isNone

/-- The router after one of its moves, with what this settled counted. -/
def follow (i : Intake) (r : Router) : Intake :=
  let settled := r.verdicts.drop i.router.verdicts.length
  { i with
    router := r
    stats :=
      { i.stats with
        routed := i.stats.routed + settled.countP (·.isRouted)
        dropped := i.stats.dropped + settled.countP (!·.isRouted) } }

/-- The intake comes to an end. -/
def finish (i : Intake) (phase : IntakePhase) : Intake :=
  { i with phase := phase, router := i.router.drop }

/-- What the intake can do. -/
inductive Move where
  /-- It pulls a message. -/
  | pull (m : InboundMessage)
  /-- The stream ends, or fails. -/
  | streamEnds
  /-- It has been told to stop, and does. -/
  | stop
  /-- The credential service answers. -/
  | lookup (answer : Except Error ResolvedSource)
  /-- The credential service crashes, and the intake with it. -/
  | crash (text : String)
  /-- The source in hand enters its queue, or is refused. -/
  | enqueue

/-- Makes a move, if it is possible. -/
def step? (i : Intake) : Move → Option Intake
  | .pull m =>
    if i.isListening && !i.cancelled then
      (i.router.step? (.handle m)).map
        { i with stats := { i.stats with received := i.stats.received + 1 } }.follow
    else none
  | .streamEnds => if i.isListening && !i.cancelled then some (i.finish .ended) else none
  | .stop => if i.isListening && i.cancelled then some (i.finish .ended) else none
  | .lookup answer => if i.isOver then none else (i.router.step? (.lookup answer)).map i.follow
  | .crash text =>
    match i.phase, i.router.current with
    | .running, some (.resolving _ _) => some (i.finish (.crashed text))
    | _, _ => none
  | .enqueue => if i.isOver then none else (i.router.step? .enqueue).map i.follow

theorem step?_of_isOver {i : Intake} (h : i.isOver = true) (m : Move) : i.step? m = none := by
  have quiet : i.isListening = false := by simp [isListening, h]
  have stopped : i.phase ≠ .running := by
    intro running
    simp [isOver, running] at h
  cases m <;> simp [step?, quiet, h]
  split
  · next running _ => exact absurd running stopped
  · rfl

end Intake

end Availability.Flow

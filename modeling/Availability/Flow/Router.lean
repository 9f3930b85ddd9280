import Availability.Flow.Call
import Availability.Flow.PerProvider
import Availability.Flow.Queue
import Availability.Inbound.Request
import Availability.Metrics

/-!
# The router

The router handles one message at a time: it reads the request, looks the source up, and puts it
into the queue of its provider, where it waits while the queue is full. `Dispatch` is how far it
is with a message, `Verdict` what became of it. `Router.step?` is the machine of the router, its
queues and those at their other ends; a move that is not possible gives none.

* `Dispatch.ofLookup_sending_iff`: a message goes on to a queue exactly when the lookup gives a
  source of a provider that has one.
-/

namespace Availability.Flow

/-- What became of a message. -/
inductive Verdict where
  | routed (p : Provider)
  | malformed
  | notFound
  | lookupFailed
  | noop
  | unknownProvider
  | queueClosed
  deriving DecidableEq, Repr, Inhabited

namespace Verdict

/-- Why the message went no further, if it did not. -/
def dropReason? : Verdict → Option DropReason
  | .routed _ => none
  | .malformed => some .decodeError
  | .notFound => some .notFound
  | .lookupFailed => some .resolveError
  | .noop => some .noop
  | .unknownProvider => some .unknownProvider
  | .queueClosed => some .queueClosed

/-- Whether the message is in a provider's queue. -/
def isRouted : Verdict → Bool
  | .routed _ => true
  | _ => false

/-- The counter of a verdict. -/
def counter : Verdict → Counter
  | .routed p => .requestsRouted p
  | .malformed => .requestsDropped .decodeError
  | .notFound => .requestsDropped .notFound
  | .lookupFailed => .requestsDropped .resolveError
  | .noop => .requestsDropped .noop
  | .unknownProvider => .requestsDropped .unknownProvider
  | .queueClosed => .requestsDropped .queueClosed

end Verdict

/-- How far the router is with a message. -/
inductive Dispatch where
  | resolving (request : SourceRequest) (identity : Principal)
  | sending (p : Provider) (source : ResolvedSource)
  | finished (v : Verdict)
  deriving DecidableEq, Repr

namespace Dispatch

/-- Starts on a message. -/
def start (m : InboundMessage) : Dispatch :=
  match SourceRequest.decode m.payload with
  | .ok request => .resolving request m.identity
  | .error _ => .finished .malformed

/-- Goes on with the answer of the credential service. -/
def ofLookup : Except Error ResolvedSource → Dispatch
  | .error e => .finished (if e.isNotFound then .notFound else .lookupFailed)
  | .ok source =>
    match source.providerTag with
    | .known p => .sending p source
    | .noop => .finished .noop
    | .unknown => .finished .unknownProvider

theorem ofLookup_sending_iff (r : Except Error ResolvedSource) (p : Provider)
    (source : ResolvedSource) :
    ofLookup r = .sending p source ↔ r = .ok source ∧ source.providerTag = .known p := by
  unfold ofLookup
  split
  · simp
  · split
    · rename_i s _ q h
      simp only [Dispatch.sending.injEq, Except.ok.injEq]
      constructor
      · rintro ⟨rfl, rfl⟩
        exact ⟨rfl, h⟩
      · rintro ⟨rfl, h'⟩
        rw [h] at h'
        cases h'
        exact ⟨rfl, rfl⟩
    · rename_i s _ h
      simp only [reduceCtorEq, Except.ok.injEq, false_iff, not_and]
      rintro rfl h'
      rw [h] at h'
      cases h'
    · rename_i s _ h
      simp only [reduceCtorEq, Except.ok.injEq, false_iff, not_and]
      rintro rfl h'
      rw [h] at h'
      cases h'

end Dispatch

/-- The router with its queues: the message in hand, the sources looked up, what became of every
message that is done, and what was counted. -/
structure Router where
  queues : PerProvider (Queue ResolvedSource)
  current : Option Dispatch
  lookups : List String
  verdicts : List Verdict
  measurements : List Measurement
  deriving DecidableEq, Repr

namespace Router

/-- A router with empty queues. -/
def bounded (capacity : Nat) : Router :=
  ⟨.make fun _ => .bounded capacity 1, none, [], [], []⟩

/-- Notes what became of the message in hand. -/
def settle (r : Router) (v : Verdict) : Router :=
  { r with
    current := none
    verdicts := r.verdicts ++ [v]
    measurements := r.measurements ++ [.count v.counter 1] }

/-- Takes a dispatch up: one that is finished is settled at once, one that asks the credential
service is noted. -/
def proceed (r : Router) : Dispatch → Router
  | .finished v => r.settle v
  | .resolving request identity =>
    { r with
      current := some (.resolving request identity)
      lookups := r.lookups ++ [request.sourceId] }
  | .sending p source => { r with current := some (.sending p source) }

/-- What can happen to a router and its queues. -/
inductive Move where
  /-- A message is handed over. -/
  | handle (m : InboundMessage)
  /-- The credential service answers. -/
  | lookup (answer : Except Error ResolvedSource)
  /-- The source in hand enters its queue, or is refused. -/
  | enqueue
  /-- Whoever handed the message over gives up on it. -/
  | abandon
  /-- The front of a queue is taken away. -/
  | receive (p : Provider)
  /-- The receiving side of a queue lets go. -/
  | close (p : Provider)

/-- Makes a move, if it is possible. -/
def step? (r : Router) : Move → Option Router
  | .handle m =>
    match r.current with
    | none => some (r.proceed (.start m))
    | some _ => none
  | .lookup answer =>
    match r.current with
    | some (.resolving _ _) => some (r.proceed (.ofLookup answer))
    | _ => none
  | .enqueue =>
    match r.current with
    | some (.sending p source) =>
      match (r.queues.get p).offer source with
      | .entered q => some ({ r with queues := r.queues.set p q }.settle (.routed p))
      | .refused => some (r.settle .queueClosed)
      | .waits => none
    | _ => none
  | .abandon =>
    match r.current with
    | some _ => some { r with current := none }
    | none => none
  | .receive p =>
    match (r.queues.get p).pop? with
    | some (_, q) => some { r with queues := r.queues.set p q }
    | none => none
  | .close p => some { r with queues := r.queues.set p (r.queues.get p).close }

/-- The router lets go of every queue. -/
def drop (r : Router) : Router :=
  { r with current := none, queues := r.queues.map Queue.dropSender }

end Router

end Availability.Flow

import Availability.Proofs.Inbound.Stream
import Availability.Proofs.Pipeline.History

/-!
# Whom the intake asks about

The intake asks the credential service about the source of each message that is a request, in the
order in which it pulls them, and about nothing else.

* `Run.lookups_eq`: the lookups of a run are those of the messages pulled.
* `Run.lookups_of_stream`: of a run that pulls all that an inbound stream has, they are the requests
  of the stream.
-/

namespace Availability.Flow

open Inbound (request?)

/-- What a move of the intake asks about. -/
def Intake.Move.asks : Intake.Move → List String
  | .pull m => ((request? m).map SourceRequest.sourceId).toList
  | _ => []

theorem Intake.Step.lookups {i j : Intake} {m : Intake.Move} (h : Intake.Step i m j) :
    j.router.lookups = i.router.lookups ++ m.asks := by
  cases h with
  | malformed _ _ hdecode =>
    simp [Intake.Move.asks, request?, hdecode, Except.toOption, Intake.settle, Router.settle,
      Intake.receive]
  | asked _ _ hdecode =>
    simp [Intake.Move.asks, request?, hdecode, Except.toOption, Router.proceed]
  | _ => exact (List.append_nil _).symm

theorem pulled_note (h : History) (m : Intake.Move) :
    ((h.note (.intake m)).pulled.filterMap request?).map SourceRequest.sourceId =
      (h.pulled.filterMap request?).map SourceRequest.sourceId ++ m.asks := by
  cases m with
  | pull m =>
    simp only [History.note, Intake.Move.asks, filterMap_snoc, List.map_append]
    cases request? m <;> rfl
  | _ => exact (List.append_nil _).symm

variable {c : Settings} {ms : List State.Move} {s : State}

/-- **The lookups of a run** are those of the messages pulled that are requests. -/
theorem Run.lookups_eq (run : Run (State.start c) ms s) :
    s.intake.router.lookups =
      ((History.of ms).pulled.filterMap request?).map SourceRequest.sourceId := by
  refine run.induction
    (motive := fun ms s => s.intake.router.lookups =
      ((History.of ms).pulled.filterMap request?).map SourceRequest.sourceId) rfl
    fun ms s m t run ih hm => ?_
  rw [History.of_snoc]
  cases State.step_of_step? hm with
  | intake hi =>
    rw [pulled_note, ← ih]
    exact hi.lookups
  | worker hb => cases hb <;> exact ih
  | batcher hb => cases hb <;> exact ih
  | coordinator hc =>
    obtain ⟨_, _, rfl⟩ := State.coordinatorStep?_frame hc
    exact ih
  | signal => exact ih
  | elapse => exact ih

/-- **What a stream asks about.** A run that pulls the messages of a stream looks up the sources of
the requests of the stream. -/
theorem Run.lookups_of_stream {identity : Principal} {chunks : List Bytes}
    (run : Run (State.start c) ms s)
    (hpulled : (History.of ms).pulled = (Inbound.messages identity chunks).1) :
    s.intake.router.lookups =
      (Inbound.requests identity chunks).map SourceRequest.sourceId := by
  rw [run.lookups_eq, hpulled]
  rfl

end Availability.Flow

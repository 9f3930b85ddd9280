import Availability.Proofs.Credentials
import Availability.Proofs.Pipeline.History

/-!
# On whose behalf

The intake has the source of a message looked up on behalf of that message's caller. A resolver
that answers for the caller it was asked for, as the credential service does, so makes every
request carry the caller of its own message.

* `AnsweredBy`: runs in which the lookups are answered by a resolver.
* `Run.caller_kept`: then every request is for the caller of its message.
* `Resolver.keepsCaller_credentials`: the credential service is such a resolver.
-/

namespace Availability.Flow

/-- The answers that may come to a lookup of a source on behalf of a caller. -/
def Resolver : Type := String → Principal → Except Error ResolvedSource → Prop

/-- A resolver that answers for the caller it was asked for. -/
def Resolver.KeepsCaller (resolver : Resolver) : Prop :=
  ∀ sourceId identity source, resolver sourceId identity (.ok source) → source.identity = identity

/-- The credential service as a resolver, whatever the network and the clock do. -/
def Resolver.credentials (service : CredentialService) : Resolver :=
  fun sourceId identity answer => ∃ circumstances exchange,
    (service.resolve circumstances sourceId identity exchange).outcome = answer

theorem Resolver.keepsCaller_credentials (service : CredentialService) :
    (credentials service).KeepsCaller :=
  fun _ _ _ ⟨_, _, h⟩ => CredentialService.identity_of_resolve h

/-- Every lookup in a run is answered by the resolver, which is asked for the source that the
request in hand names and on behalf of the caller that came with it. -/
def AnsweredBy (resolver : Resolver) (s : State) (ms : List State.Move) : Prop :=
  ∀ before answer after, ms = before ++ .intake (.lookup answer) :: after →
    ∀ t request identity, Run s before t →
      t.intake.router.current = some (.resolving request identity) →
      resolver request.sourceId identity answer

theorem AnsweredBy.of_snoc {resolver : Resolver} {s : State} {ms : List State.Move}
    {m : State.Move} (h : AnsweredBy resolver s (ms ++ [m])) : AnsweredBy resolver s ms :=
  fun before answer after hms => h before answer (after ++ [m]) (by simp [hms])

open State

/-- **Every request is for the caller of its message**, if the resolver answers for the caller it
was asked for. -/
theorem Run.caller_kept {c : Settings} {ms : List State.Move} {s : State} {resolver : Resolver}
    (run : Run (State.start c) ms s) (hkeeps : resolver.KeepsCaller)
    (hanswered : AnsweredBy resolver (State.start c) ms) :
    ∀ r ∈ (History.of ms).routed, r.source.identity = r.message.identity := by
  revert hanswered
  refine run.induction (motive := fun ms _ => AnsweredBy resolver (State.start c) ms →
    ∀ r ∈ (History.of ms).routed, r.source.identity = r.message.identity)
    (fun _ _ hr => absurd hr List.not_mem_nil) fun ms s m t run ih hm hanswered => ?_
  have ih := ih hanswered.of_snoc
  rw [History.of_snoc]
  obtain ⟨hsame, -⟩ | ⟨message, request, p, source, rfl, -, hcurrent, hnew⟩ := run.routed_note hm
  · rw [hsame]; exact ih
  · have hsource := hanswered ms _ [] rfl s request _ run hcurrent
    rw [hnew]
    intro r hr
    rcases List.mem_append.1 hr with hr | hr
    · exact ih r hr
    · obtain rfl := List.mem_singleton.1 hr
      exact hkeeps _ _ _ hsource

end Availability.Flow

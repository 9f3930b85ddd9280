import Availability.Credentials

/-!
# Whom the credential service answers

A source that the credential service gives out carries the caller that it was asked for, whatever
the network answers and however often the request is made.

* `retry_ok`: what comes of repeated attempts came of one of them.
* `CredentialService.identity_of_resolve`: the caller of a source is the one who asked.
-/

namespace Availability

theorem retryFrom_ok {α : Type} {c : Circumstances} {operation : Nat → Except Error α}
    {left n : Nat} {b : Backoff} {x : α}
    (h : (retryFrom c operation left n b).outcome = .ok x) : ∃ k, operation k = .ok x := by
  induction left generalizing n b with
  | zero =>
    unfold retryFrom at h
    split at h
    · rename_i y hy
      exact ⟨n, hy.trans h⟩
    · cases h
  | succ left ih =>
    unfold retryFrom at h
    split at h
    · rename_i y hy
      exact ⟨n, hy.trans h⟩
    · split at h
      · exact ih h
      · cases h

theorem retry_ok {α : Type} {c : Circumstances} {maxRetries baseDelayMs : Nat}
    {operation : Nat → Except Error α} {x : α}
    (h : (retry c maxRetries baseDelayMs operation).outcome = .ok x) : ∃ k, operation k = .ok x :=
  retryFrom_ok h

namespace CredentialService

variable {s : CredentialService} {sourceId : String} {identity : Principal}
  {source : ResolvedSource}

theorem identity_of_readReply {request : Http.Request} {reply : Http.Reply}
    (h : readReply request sourceId identity reply = .ok source) : source.identity = identity := by
  unfold readReply at h
  split at h
  · cases h
  · split at h
    · cases h
    · split at h
      · unfold readBody at h
        split at h
        · cases h
        · split at h
          · cases h
            rfl
          · cases h
      · cases h

theorem identity_of_resolve {circumstances : Circumstances}
    {exchange : Nat → Http.Request → Http.Reply}
    (h : (s.resolve circumstances sourceId identity exchange).outcome = .ok source) :
    source.identity = identity := by
  obtain ⟨k, hk⟩ := retry_ok h
  unfold attempt at hk
  split at hk
  · cases hk
  · exact identity_of_readReply hk

end CredentialService

end Availability

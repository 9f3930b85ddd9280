import Availability.Error
import Availability.Retry.Backoff

/-!
# Attempts

`retry` attempts an operation until it succeeds, fails for good, has been attempted as often as
allowed, or the next wait is refused; `sequel` says which of these follows a failure. The operation
is given by the outcome of each attempt, the clock by what it shows after each, and chance by the
wait it draws after each.

* `retry_attempts_pos`: there is at least one attempt.
* `retry_waits`: one attempt more is made than there are waits.
-/

namespace Availability

/-- What surrounds an operation: what the clock shows after each attempt, and the wait drawn after
it for an interval. -/
structure Circumstances where
  elapsed : (attempt : Nat) → Nat
  draw : (attempt interval : Nat) → Nat

/-- A clock that has hardly moved, and waits that are the interval. -/
def Circumstances.calm : Circumstances := ⟨fun _ => 1, fun _ interval => interval⟩

/-- What follows a failed attempt. -/
inductive Sequel where
  /-- Nothing: the failure is for good. -/
  | final
  /-- Nothing: the operation has been attempted as often as allowed. -/
  | spent
  /-- Nothing: the next wait is refused. -/
  | exhausted
  /-- Another attempt after a wait. -/
  | again (wait : Nat) (b : Backoff)
  deriving DecidableEq, Repr

/-- The wait before the next attempt, if there is one. -/
def Sequel.wait? : Sequel → Option Nat
  | .again wait _ => some wait
  | _ => none

/-- What follows attempt number `n`, from zero, that failed when up to `left` more may be made. -/
def sequel (c : Circumstances) (left n : Nat) (b : Backoff) (e : Error) : Sequel :=
  if !e.isRetryable then .final
  else if left = 0 then .spent
  else
    match b.next (c.elapsed n) (c.draw n b.interval) with
    | (some wait, b) => .again wait b
    | (none, _) => .exhausted

/-- An attempt that failed, and what followed. -/
structure FailedAttempt where
  error : Error
  sequel : Sequel
  deriving DecidableEq, Repr

/-- How an operation went: the number of attempts, those of them that failed, and the outcome of
the last. -/
structure Attempts (α : Type) where
  count : Nat
  failures : List FailedAttempt
  outcome : Except Error α

namespace Attempts

/-- The waits between the attempts. -/
def waits {α : Type} (a : Attempts α) : List Nat := a.failures.filterMap (·.sequel.wait?)

/-- Puts a failed attempt in front. -/
def after {α : Type} (e : Error) (s : Sequel) (a : Attempts α) : Attempts α :=
  { a with failures := ⟨e, s⟩ :: a.failures }

end Attempts

/-- Makes attempt number `n`, from zero, and up to `left` more after it. -/
def retryFrom {α : Type} (c : Circumstances) (operation : Nat → Except Error α) :
    (left n : Nat) → Backoff → Attempts α
  | 0, n, b =>
    match operation n with
    | .ok x => ⟨n + 1, [], .ok x⟩
    | .error e => ⟨n + 1, [⟨e, sequel c 0 n b e⟩], .error e⟩
  | left + 1, n, b =>
    match operation n with
    | .ok x => ⟨n + 1, [], .ok x⟩
    | .error e =>
      match sequel c (left + 1) n b e with
      | .again wait b => (retryFrom c operation left (n + 1) b).after e (.again wait b)
      | s => ⟨n + 1, [⟨e, s⟩], .error e⟩

/-- Attempts an operation, at least once and at most `maxRetries` times. -/
def retry {α : Type} (c : Circumstances) (maxRetries baseDelayMs : Nat)
    (operation : Nat → Except Error α) : Attempts α :=
  retryFrom c operation (maxRetries - 1) 0 (Backoff.create maxRetries baseDelayMs)

theorem wait?_sequel_zero (c : Circumstances) (n : Nat) (b : Backoff) (e : Error) :
    (sequel c 0 n b e).wait? = none := by
  unfold sequel
  split <;> rfl

theorem retryFrom_count {α : Type} (c : Circumstances) (operation : Nat → Except Error α)
    (left n : Nat) (b : Backoff) :
    (retryFrom c operation left n b).count
      = n + 1 + (retryFrom c operation left n b).waits.length := by
  induction left generalizing n b with
  | zero =>
    unfold retryFrom
    split
    · rfl
    · simp [Attempts.waits, wait?_sequel_zero]
  | succ left ih =>
    unfold retryFrom
    split
    · rfl
    · split
      · rename_i wait b' _
        have h := ih (n + 1) b'
        simp only [Attempts.after, Attempts.waits, List.filterMap_cons, Sequel.wait?,
          List.length_cons] at h ⊢
        omega
      · rename_i hs
        simp only [Attempts.waits, List.filterMap_cons, List.filterMap_nil]
        generalize sequel c (left + 1) n b _ = s at hs ⊢
        cases s with
        | again wait b' => exact (hs wait b' rfl).elim
        | _ => rfl

theorem retry_attempts_pos {α : Type} (c : Circumstances) (maxRetries baseDelayMs : Nat)
    (operation : Nat → Except Error α) : 0 < (retry c maxRetries baseDelayMs operation).count := by
  rw [retry, retryFrom_count]
  omega

theorem retry_waits {α : Type} (c : Circumstances) (maxRetries baseDelayMs : Nat)
    (operation : Nat → Except Error α) :
    (retry c maxRetries baseDelayMs operation).count
      = (retry c maxRetries baseDelayMs operation).waits.length + 1 := by
  rw [retry, retryFrom_count]
  omega

end Availability

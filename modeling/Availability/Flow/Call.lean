import Availability.Error

/-!
# Calls to the outside

The stages call on parts that may take their time: the credential service, the probes, the sink.
A call ends with a result or by a crash, some time after it began or never.

* `Call.bounded_delay`: a call with a time limit takes no longer than that.
-/

namespace Availability.Flow

/-- How a call ends. -/
inductive Outcome (α : Type) where
  | result (r : Except Error α)
  | crash (text : String)

/-- A call: after how many milliseconds it ends, if ever, and how. -/
structure Call (α : Type) where
  delay : Option Nat
  outcome : Outcome α

namespace Call

variable {α : Type}

/-- A call that ends at once. -/
def immediate (r : Except Error α) : Call α := ⟨some 0, .result r⟩

/-- Cuts a call off that has not ended within `limit` milliseconds. One that ends at the limit has
ended. -/
def bounded (limit : Nat) (cut : Error) (c : Call α) : Call α :=
  match c.delay with
  | some d => if d ≤ limit then c else ⟨some limit, .result (.error cut)⟩
  | none => ⟨some limit, .result (.error cut)⟩

theorem bounded_delay (limit : Nat) (cut : Error) (c : Call α) :
    ∃ d ≤ limit, (c.bounded limit cut).delay = some d := by
  unfold bounded
  split
  · rename_i d h
    split
    · exact ⟨d, ‹_›, h⟩
    · exact ⟨limit, Nat.le_refl _, rfl⟩
  · exact ⟨limit, Nat.le_refl _, rfl⟩

end Call

/-- The error of a probe that was cut off. -/
def timedOut (provider : String) (limit : Nat) : Error :=
  .probe provider s!"timed out after {limit}ms"

/-- A probe with a deadline. -/
def Call.probeWithin (provider : String) (limit : Nat) (c : Call Unit) : Call Unit :=
  c.bounded limit (timedOut provider limit)

/-- What is said of a stage that crashed. The letter N stands for the number that the task was given
when it was started, which is nobody's choice and differs from run to run. -/
def crashReport (text : String) : String := "task N panicked with message " ++ Text.quoted text

end Availability.Flow

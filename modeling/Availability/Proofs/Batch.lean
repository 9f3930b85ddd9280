import Mathlib.Data.List.Induction
import Availability.Batch
import Availability.Proofs.Sequences

/-!
# Any use of a batch

Items are added to a batch and what is pending is taken from it, in any order. `run` gives all that
such a sequence of operations sends on, and the batch that it leaves.

* `Filling`: what holds of a batch that is not full.
* `run_filling`: it holds after every sequence of operations.
* `run_law`: nothing is lost, and what is sent on has the size that it ought to have.
-/

namespace Availability.Batch

variable {α : Type}

/-- What can be done with a batch. -/
inductive Operation (α : Type) where
  | push (x : α)
  | take

namespace Operation

/-- What an operation sends on, and the batch after it. -/
def apply (b : Batch α) : Operation α → Option (List α) × Batch α
  | .push x => b.push x
  | .take => b.take

def pushed? : Operation α → Option α
  | .push x => some x
  | .take => none

end Operation

/-- The items that are added by some operations. -/
def pushed (ops : List (Operation α)) : List α := ops.filterMap Operation.pushed?

/-- What was sent on so far, batch by batch, and the batch, after one more operation. -/
def next (s : List (List α) × Batch α) (op : Operation α) : List (List α) × Batch α :=
  (s.1 ++ (op.apply s.2).1.toList, (op.apply s.2).2)

/-- What some operations send on, batch by batch, and the batch that they leave. -/
def run (limit : Nat) (ops : List (Operation α)) : List (List α) × Batch α :=
  ops.foldl next ([], empty limit)

theorem run_snoc (limit : Nat) (ops : List (Operation α)) (op : Operation α) :
    run limit (ops ++ [op]) = next (run limit ops) op := by
  simp [run, List.foldl_append]

/-- A batch that is not full, and whose limit counts as it should. -/
structure Filling (limit : Nat) (b : Batch α) : Prop where
  limit_eq : b.limit = max limit 1
  pending_lt : b.items.length < max limit 1

namespace Filling

variable {limit : Nat} {b : Batch α}

theorem empty (limit : Nat) : Filling limit (Batch.empty limit : Batch α) :=
  ⟨rfl, Nat.lt_of_lt_of_le Nat.zero_lt_one (Nat.le_max_right limit 1)⟩

theorem emptied (h : Filling limit b) : Filling limit ({ b with items := [] } : Batch α) :=
  ⟨h.limit_eq, Nat.lt_of_lt_of_le Nat.zero_lt_one (Nat.le_max_right limit 1)⟩

/-- The item that is the last to fit sends all of them on; any other one stays. -/
theorem push_eq (h : Filling limit b) (x : α) :
    b.push x =
      if b.items.length + 1 = max limit 1 then (some (b.items ++ [x]), { b with items := [] })
      else (none, { b with items := b.items ++ [x] }) := by
  have hfull : b.limit ≤ b.items.length + 1 ↔ b.items.length + 1 = max limit 1 := by
    rw [h.limit_eq]
    exact ⟨fun hle => Nat.le_antisymm h.pending_lt hle, Nat.le_of_eq ∘ Eq.symm⟩
  simp only [push, hfull]

theorem push (h : Filling limit b) (x : α) : Filling limit (b.push x).2 := by
  have hpending := h.pending_lt
  rw [h.push_eq]
  split
  · exact h.emptied
  · next hroom =>
    refine ⟨h.limit_eq, ?_⟩
    rw [List.length_append, List.length_singleton]
    omega

theorem take (h : Filling limit b) : Filling limit b.take.2 := by
  unfold Batch.take
  split
  · exact h
  · exact h.emptied

theorem apply (h : Filling limit b) (op : Operation α) : Filling limit (op.apply b).2 := by
  cases op with
  | push x => exact h.push x
  | take => exact h.take

theorem push_isSome_iff (h : Filling limit b) (x : α) :
    (b.push x).1.isSome ↔ b.items.length + 1 = max limit 1 := by
  rw [h.push_eq]
  split
  · next hfull => simp [hfull]
  · next hroom => simp [hroom]

theorem length_of_push (h : Filling limit b) {x : α} {sent : List α}
    (hsent : (b.push x).1 = some sent) : sent.length = max limit 1 := by
  rw [h.push_eq] at hsent
  split at hsent
  · next hfull =>
    cases hsent
    rw [List.length_append, List.length_singleton, hfull]
  · cases hsent

theorem length_of_take (h : Filling limit b) {sent : List α} (hsent : b.take.1 = some sent) :
    1 ≤ sent.length ∧ sent.length ≤ max limit 1 - 1 := by
  unfold Batch.take at hsent
  split at hsent
  · cases hsent
  · next hsome =>
    cases hsent
    rw [List.isEmpty_iff] at hsome
    exact ⟨List.length_pos_iff.2 hsome, Nat.le_sub_one_of_lt h.pending_lt⟩

end Filling

theorem take_eq_none_iff (b : Batch α) : b.take.1 = none ↔ b.items = [] := by
  unfold take
  split
  · next hnone => simpa using hnone
  · next hsome => simpa using hsome

theorem items_take (b : Batch α) : b.take.2.items = [] := by
  unfold take
  split
  · next hnone => exact List.isEmpty_iff.1 hnone
  · rfl

/-- Nothing is lost by an operation, and nothing changes places. -/
theorem apply_pending (b : Batch α) (op : Operation α) :
    (op.apply b).1.toList.flatten ++ (op.apply b).2.items = b.items ++ op.pushed?.toList := by
  have hflatten (sent : Option (List α)) : sent.toList.flatten = sent.getD [] := by
    cases sent <;> simp
  rw [hflatten]
  cases op with
  | push x => exact b.push_pending x
  | take => exact b.take_pending.trans (List.append_nil _).symm

theorem run_filling (limit : Nat) (ops : List (Operation α)) : Filling limit (run limit ops).2 := by
  induction ops using List.reverseRecOn with
  | nil => exact .empty limit
  | append_singleton ops op ih =>
    rw [run_snoc]
    exact ih.apply op

theorem run_contents (limit : Nat) (ops : List (Operation α)) :
    (run limit ops).1.flatten ++ (run limit ops).2.items = pushed ops := by
  induction ops using List.reverseRecOn with
  | nil => rfl
  | append_singleton ops op ih =>
    rw [run_snoc, pushed, filterMap_snoc, ← pushed, ← ih, next, List.flatten_append,
      List.append_assoc, List.append_assoc, apply_pending]

/-- What is true of a batch after the operations `ops`, which have sent on `sent`. -/
structure Law (limit : Nat) (ops : List (Operation α)) (sent : List (List α)) (b : Batch α) :
    Prop where
  /-- Nothing is lost, and nothing changes places. -/
  contents : sent.flatten ++ b.items = pushed ops
  pending : b.items.length < max limit 1
  push_isSome_iff : ∀ x, (b.push x).1.isSome ↔ b.items.length + 1 = max limit 1
  length_of_push : ∀ x full, (b.push x).1 = some full → full.length = max limit 1
  take_eq_none_iff : b.take.1 = none ↔ b.items = []
  length_of_take : ∀ rest, b.take.1 = some rest →
    1 ≤ rest.length ∧ rest.length ≤ max limit 1 - 1
  items_take : b.take.2.items = []

/-- **The law of batches**: whatever is added and taken, in whichever order, everything is sent on
once and in its order, as soon as the limit is reached, and never more than that at a time. -/
theorem run_law (limit : Nat) (ops : List (Operation α)) :
    Law limit ops (run limit ops).1 (run limit ops).2 := by
  have hfilling := run_filling limit ops
  constructor
  case contents => exact run_contents limit ops
  case pending => exact hfilling.pending_lt
  case push_isSome_iff => exact hfilling.push_isSome_iff
  case length_of_push => exact fun x full => hfilling.length_of_push
  case take_eq_none_iff => exact take_eq_none_iff _
  case length_of_take => exact fun rest => hfilling.length_of_take
  case items_take => exact items_take _

end Availability.Batch

/-!
# Batches

A batch gathers items up to a limit. The item that reaches the limit sends the whole batch on;
whatever is pending can be taken at any time.

* `Batch.push_pending`, `Batch.take_pending`: nothing is lost and nothing changes places: what is
  sent on and what stays pending are together what was pending and what was added.
-/

namespace Availability

/-- Items that wait to be sent on together. -/
structure Batch (α : Type) where
  limit : Nat
  items : List α
  deriving DecidableEq, Repr

namespace Batch

variable {α : Type}

/-- An empty batch. A limit of zero counts as one. -/
def empty (limit : Nat) : Batch α := ⟨max limit 1, []⟩

/-- Adds an item, and sends the batch on if that fills it. -/
def push (b : Batch α) (x : α) : Option (List α) × Batch α :=
  if b.limit ≤ b.items.length + 1 then (some (b.items ++ [x]), { b with items := [] })
  else (none, { b with items := b.items ++ [x] })

/-- Sends on what is pending, if anything is. -/
def take (b : Batch α) : Option (List α) × Batch α :=
  if b.items.isEmpty then (none, b) else (some b.items, { b with items := [] })

theorem push_pending (b : Batch α) (x : α) :
    (b.push x).1.getD [] ++ (b.push x).2.items = b.items ++ [x] := by
  unfold push
  split <;> simp

theorem take_pending (b : Batch α) : b.take.1.getD [] ++ b.take.2.items = b.items := by
  unfold take
  split <;> simp

end Batch

end Availability

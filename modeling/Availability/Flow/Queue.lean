/-!
# Bounded queues

A queue joins two stages. The sending side waits while the queue is full, and is refused once the
receiving side is gone. The receiving side waits while the queue is empty, and sees its end once
every sender is gone and nothing is left.

* `items_push`, `items_pop?`: what enters last leaves last, and nothing is lost between.
-/

namespace Availability.Flow

/-- A queue between two stages. -/
structure Queue (α : Type) where
  capacity : Nat
  items : List α
  /-- How many senders hold the sending side. -/
  senders : Nat
  /-- Whether the receiving side is there. -/
  receiving : Bool
  deriving DecidableEq, Repr, Inhabited

namespace Queue

variable {α : Type}

/-- An empty queue with both sides open. -/
def bounded (capacity senders : Nat) : Queue α := ⟨capacity, [], senders, true⟩

/-- Whether another item fits. -/
def hasRoom (q : Queue α) : Bool := q.items.length < q.capacity

/-- Whether no item is there and none will come. -/
def atEnd (q : Queue α) : Bool := q.items.isEmpty && q.senders == 0

/-- Puts an item at the back. -/
def push (q : Queue α) (x : α) : Queue α := { q with items := q.items ++ [x] }

/-- Takes the item at the front. -/
def pop? (q : Queue α) : Option (α × Queue α) :=
  match q.items with
  | [] => none
  | x :: xs => some (x, { q with items := xs })

/-- One sender lets go. -/
def dropSender (q : Queue α) : Queue α := { q with senders := q.senders - 1 }

/-- The receiving side lets go, and what is in the queue is gone with it. -/
def close (q : Queue α) : Queue α := { q with items := [], receiving := false }

/-- What becomes of an item that a sender offers. -/
inductive Offer (α : Type) where
  | entered (q : Queue α)
  | refused
  | waits

/-- Offers an item. -/
def offer (q : Queue α) (x : α) : Offer α :=
  if !q.receiving then .refused else if q.hasRoom then .entered (q.push x) else .waits

@[simp] theorem items_push (q : Queue α) (x : α) : (q.push x).items = q.items ++ [x] := rfl

theorem items_pop? {q q' : Queue α} {x : α} (h : q.pop? = some (x, q')) :
    q.items = x :: q'.items := by
  unfold pop? at h
  split at h
  · cases h
  · rename_i hq
    simp only [Option.some.injEq, Prod.mk.injEq] at h
    obtain ⟨rfl, rfl⟩ := h
    exact hq

theorem offer_entered_iff (q q' : Queue α) (x : α) :
    q.offer x = .entered q' ↔
      q.receiving = true ∧ q.items.length < q.capacity ∧ q' = q.push x := by
  unfold offer hasRoom
  cases q.receiving <;> by_cases h : q.items.length < q.capacity <;> simp [h, eq_comm]

theorem offer_refused_iff (q : Queue α) (x : α) : q.offer x = .refused ↔ q.receiving = false := by
  unfold offer
  cases q.receiving <;> by_cases h : q.hasRoom = true <;> simp [h]

theorem offer_waits_iff (q : Queue α) (x : α) :
    q.offer x = .waits ↔ q.receiving = true ∧ q.capacity ≤ q.items.length := by
  unfold offer hasRoom
  cases q.receiving <;> by_cases h : q.items.length < q.capacity <;>
    simp only [h] <;> grind

end Queue

end Availability.Flow

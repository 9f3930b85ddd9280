import Availability.Flow.Call

/-!
# A clock that waits

In a rehearsal the clock goes on only when no part can do anything more, and then straight to the
next timer. A `Scene` says how its parts act and when the next timer is due; `rest` lets all parts
act until each of them waits, `pass` lets time go by.

* `now_pass_le`: the clock never goes past the time it was allowed.
-/

namespace Availability.Rehearsal

open Availability.Flow (Call Outcome)

/-- A call under way: when it ends, if ever, and how. -/
structure Pending (α : Type) where
  due : Option Nat
  outcome : Outcome α

namespace Pending

variable {α : Type}

/-- A call that begins. -/
def begin (now : Nat) (c : Call α) : Pending α := ⟨c.delay.map (now + ·), c.outcome⟩

/-- How the call ended, if it has by now. -/
def ended? (p : Pending α) (now : Nat) : Option (Outcome α) :=
  match p.due with
  | some d => if d ≤ now then some p.outcome else none
  | none => none

end Pending

/-- The earlier of two times that may be missing. -/
def earlier : Option Nat → Option Nat → Option Nat
  | some a, some b => some (min a b)
  | some a, none => some a
  | none, b => b

/-- Parts that act on a clock. -/
structure Scene (σ : Type) where
  /-- The next thing that some part can do while the clock stands still. -/
  act? : σ → Option σ
  /-- More things than the parts can do before they all wait. -/
  effort : σ → Nat
  /-- When the next timer is due. -/
  due? : σ → Option Nat
  now : σ → Nat
  setNow : Nat → σ → σ

namespace Scene

variable {σ : Type} (scene : Scene σ)

/-- Lets the parts do up to `n` things. -/
def actFor : Nat → σ → σ
  | 0, s => s
  | n + 1, s =>
    match scene.act? s with
    | some s' => actFor n s'
    | none => s

/-- Lets the parts act until all of them wait. -/
def rest (s : σ) : σ := scene.actFor (scene.effort s) s

/-- Goes from timer to timer, `n` at most, until `stop` holds or the time is `limit`. -/
def passFor (stop : σ → Bool) (limit : Nat) : Nat → σ → σ
  | 0, s => s
  | n + 1, s =>
    if stop s then s
    else
      match scene.due? s with
      | some d =>
        if d ≤ limit then passFor stop limit n (scene.rest (scene.setNow (max d (scene.now s)) s))
        else scene.setNow (max limit (scene.now s)) s
      | none => scene.setNow (max limit (scene.now s)) s

/-- Lets time go by until `stop` holds, `ms` milliseconds at most. Timers that are due together
count once, and each is later than the one before. -/
def pass (stop : σ → Bool) (ms : Nat) (s : σ) : σ :=
  scene.passFor stop (scene.now s + ms) (ms + 1) s

/-- Lets so much time go by. -/
def sleep (ms : Nat) (s : σ) : σ := scene.pass (fun _ => false) ms s

end Scene

/-- A scene whose parts leave the clock alone. -/
structure Scene.Timed {σ : Type} (scene : Scene σ) : Prop where
  now_act : ∀ {s s' : σ}, scene.act? s = some s' → scene.now s' = scene.now s
  now_setNow : ∀ (n : Nat) (s : σ), scene.now (scene.setNow n s) = n

namespace Scene.Timed

variable {σ : Type} {scene : Scene σ}

theorem now_actFor (h : scene.Timed) (n : Nat) (s : σ) :
    scene.now (scene.actFor n s) = scene.now s := by
  induction n generalizing s with
  | zero => rfl
  | succ n ih =>
    unfold actFor
    split
    · rename_i s' hs
      rw [ih, h.now_act hs]
    · rfl

theorem now_rest (h : scene.Timed) (s : σ) : scene.now (scene.rest s) = scene.now s :=
  h.now_actFor _ s

theorem now_passFor_le (h : scene.Timed) (stop : σ → Bool) (limit n : Nat) (s : σ)
    (hs : scene.now s ≤ limit) : scene.now (scene.passFor stop limit n s) ≤ limit := by
  induction n generalizing s with
  | zero => exact hs
  | succ n ih =>
    unfold passFor
    split
    · exact hs
    · split
      · split
        · apply ih
          rw [h.now_rest, h.now_setNow]
          omega
        · rw [h.now_setNow]
          omega
      · rw [h.now_setNow]
        omega

theorem now_pass_le (h : scene.Timed) (stop : σ → Bool) (ms : Nat) (s : σ) :
    scene.now (scene.pass stop ms s) ≤ scene.now s + ms :=
  h.now_passFor_le stop _ _ s (Nat.le_add_right _ _)

end Scene.Timed

end Availability.Rehearsal

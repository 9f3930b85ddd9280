import Availability.Provider

/-!
# One thing for each provider

* `get_set_same`, `get_set_other`: setting the thing of one provider changes it and no other.
-/

namespace Availability.Flow

/-- One thing for each provider. -/
structure PerProvider (α : Type) where
  aws : α
  azure : α
  gcp : α
  deriving DecidableEq, Repr, Inhabited

namespace PerProvider

variable {α : Type}

/-- The same kind of thing for each provider. -/
def make (f : Provider → α) : PerProvider α := ⟨f .aws, f .azure, f .gcp⟩

/-- The thing of a provider. -/
def get (x : PerProvider α) : Provider → α
  | .aws => x.aws
  | .azure => x.azure
  | .gcp => x.gcp

/-- Replaces the thing of a provider. -/
def set (x : PerProvider α) (p : Provider) (a : α) : PerProvider α :=
  match p with
  | .aws => { x with aws := a }
  | .azure => { x with azure := a }
  | .gcp => { x with gcp := a }

/-- Changes the thing of every provider. -/
def map {β : Type} (f : α → β) (x : PerProvider α) : PerProvider β := ⟨f x.aws, f x.azure, f x.gcp⟩

/-- The things in the order of the providers. -/
def toList (x : PerProvider α) : List α := [x.aws, x.azure, x.gcp]

/-- Whether all three things pass a test. -/
def all (x : PerProvider α) (test : α → Bool) : Bool := test x.aws && test x.azure && test x.gcp

@[simp] theorem get_make (f : Provider → α) (p : Provider) : (make f).get p = f p := by
  cases p <;> rfl

@[simp] theorem get_set_same (x : PerProvider α) (p : Provider) (a : α) :
    (x.set p a).get p = a := by
  cases p <;> rfl

theorem get_set_other (x : PerProvider α) {p q : Provider} (a : α) (h : q ≠ p) :
    (x.set p a).get q = x.get q := by
  cases p <;> cases q <;> first | rfl | exact absurd rfl h

@[simp] theorem get_map {β : Type} (f : α → β) (x : PerProvider α) (p : Provider) :
    (x.map f).get p = f (x.get p) := by
  cases p <;> rfl

theorem all_eq_true_iff (x : PerProvider α) (test : α → Bool) :
    x.all test = true ↔ ∀ p, test (x.get p) = true := by
  simp only [all, Bool.and_eq_true]
  constructor
  · rintro ⟨⟨ha, hz⟩, hg⟩ p
    cases p <;> assumption
  · intro h
    exact ⟨⟨h .aws, h .azure⟩, h .gcp⟩

end PerProvider

end Availability.Flow

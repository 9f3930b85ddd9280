import Mathlib.Data.ENat.Lattice
import Availability.Retry.Attempts

/-!
# How often an operation is attempted

Three rules end the attempts at an operation: an outcome that settles it, the number of attempts
allowed, and a wait that would end after the time allowed. `Went` says how the attempts go, one
constructor for each way in which one of them ends; `Retried` is what follows of it for all of them.

On a clock that hardly moves only the first wait can be refused. A later one is drawn around the
longest interval at most, and then ends within twenty seconds.

* `follows_sequel`: what follows a failed attempt, and why.
* `retried_retry`: what repeated attempts come to, on any clock and for any draws.
* `retry_count`: how many attempts there are.
-/

namespace Availability

/-! ## Intervals -/

namespace Backoff

/-- A backoff after so many waits. -/
def after (b : Backoff) : Nat → Backoff
  | 0 => b
  | k + 1 => ({ b with interval := b.advance } : Backoff).after k

theorem next_granted {b : Backoff} {elapsed wait : Nat} (h : elapsed + wait ≤ b.allowed) :
    b.next elapsed wait = (some wait, b.after 1) := by
  have helapsed : ¬b.allowed < elapsed := by omega
  rw [next, if_neg helapsed, if_pos h]
  rfl

theorem next_refused {b : Backoff} {elapsed wait : Nat} (h : b.allowed < elapsed + wait) :
    (b.next elapsed wait).1 = none := by
  rw [next]
  split
  · rfl
  · exact if_neg (Nat.not_le.2 h)

theorem after_allowed (b : Backoff) (k : Nat) : (b.after k).allowed = b.allowed := by
  induction k generalizing b with
  | zero => rfl
  | succ k ih => exact ih _

theorem after_spreadPercent (b : Backoff) (k : Nat) :
    (b.after k).spreadPercent = b.spreadPercent := by
  induction k generalizing b with
  | zero => rfl
  | succ k ih => exact ih _

theorem advance_le_longest (b : Backoff) : b.advance ≤ b.longest := by
  rw [advance]
  split
  · exact Nat.le_refl _
  · omega

/-- Whatever the first interval is, every later one is the longest at most. -/
theorem after_interval_le {b : Backoff} {k : Nat} (h : 0 < k) :
    (b.after k).interval ≤ b.longest := by
  induction k generalizing b with
  | zero => omega
  | succ k ih =>
    cases k with
    | zero => exact b.advance_le_longest
    | succ k => exact ih (Nat.succ_pos k)

end Backoff

/-! ## Outcomes -/

/-- An outcome after which no other attempt is made: a success, or a failure for good. -/
def Settles {α : Type} : Except Error α → Prop
  | .ok _ => True
  | .error e => e.isRetryable = false

/-- An outcome after which another attempt may be made. -/
def Unsettled {α : Type} (x : Except Error α) : Prop :=
  ∃ e, x = .error e ∧ e.isRetryable = true

theorem Unsettled.not_settles {α : Type} {x : Except Error α} (h : Unsettled x) : ¬Settles x := by
  obtain ⟨e, rfl, he⟩ := h
  intro hsettles
  exact Bool.false_ne_true (hsettles.symm.trans he)

theorem settles_of_not_unsettled {α : Type} {x : Except Error α} (h : ¬Unsettled x) :
    Settles x := by
  cases x with
  | ok x => trivial
  | error e =>
    cases he : e.isRetryable with
    | false => exact he
    | true => exact absurd ⟨e, rfl, he⟩ h

/-- The number of attempts that it takes until the operation is settled, if it ever is. -/
noncomputable def attemptsNeeded {α : Type} (operation : Nat → Except Error α) : ℕ∞ :=
  ⨅ (k : Nat) (_ : Settles (operation k)), ((k + 1 : Nat) : ℕ∞)

theorem attemptsNeeded_le {α : Type} {operation : Nat → Except Error α} {k : Nat}
    (h : Settles (operation k)) : attemptsNeeded operation ≤ (k + 1 : Nat) :=
  iInf₂_le k h

/-- None of the attempts before one that is made has settled the operation. -/
theorem le_attemptsNeeded {α : Type} {operation : Nat → Except Error α} {n : Nat}
    (h : ∀ k, k + 1 < n → Unsettled (operation k)) : (n : ℕ∞) ≤ attemptsNeeded operation := by
  refine le_iInf₂ fun k hk => Nat.cast_le.2 (Nat.le_of_not_lt fun hlt => ?_)
  exact (h k hlt).not_settles hk

theorem attemptsNeeded_eq {α : Type} {operation : Nat → Except Error α} {k : Nat}
    (hk : Settles (operation k)) (hbefore : ∀ j < k, Unsettled (operation j)) :
    attemptsNeeded operation = (k + 1 : Nat) :=
  le_antisymm (attemptsNeeded_le hk)
    (le_attemptsNeeded fun j hj => hbefore j (Nat.lt_of_succ_lt_succ hj))

theorem one_lt_attemptsNeeded {α : Type} {operation : Nat → Except Error α}
    (h : Unsettled (operation 0)) : 1 < attemptsNeeded operation := by
  have htwo : ((2 : Nat) : ℕ∞) ≤ attemptsNeeded operation := by
    refine le_attemptsNeeded fun k hk => ?_
    obtain rfl : k = 0 := by omega
    exact h
  exact lt_of_lt_of_le (by decide) htwo

/-! ## How attempts go -/

/-- What follows a failed attempt, and why. -/
inductive Follows (c : Circumstances) (left n : Nat) (b : Backoff) (e : Error) : Sequel → Prop
  | final (hfinal : e.isRetryable = false) : Follows c left n b e .final
  | spent (hretryable : e.isRetryable = true) (hleft : left = 0) : Follows c left n b e .spent
  | exhausted (hretryable : e.isRetryable = true) (hleft : 0 < left)
      (hrefused : b.allowed < c.elapsed n + c.draw n b.interval) : Follows c left n b e .exhausted
  | again (hretryable : e.isRetryable = true) (hleft : 0 < left)
      (hgranted : c.elapsed n + c.draw n b.interval ≤ b.allowed) :
      Follows c left n b e (.again (c.draw n b.interval) (b.after 1))

theorem follows_sequel (c : Circumstances) (left n : Nat) (b : Backoff) (e : Error) :
    Follows c left n b e (sequel c left n b e) := by
  unfold sequel
  cases hretryable : e.isRetryable with
  | false => exact .final hretryable
  | true =>
    simp only [Bool.not_true, Bool.false_eq_true, if_false]
    split
    · next hleft => exact .spent hretryable hleft
    · next hleft =>
      by_cases hgranted : c.elapsed n + c.draw n b.interval ≤ b.allowed
      · rw [Backoff.next_granted hgranted]
        exact .again hretryable (Nat.pos_of_ne_zero hleft) hgranted
      · have hrefused := Nat.not_le.1 hgranted
        have hnone := Backoff.next_refused hrefused
        split
        · next h => rw [h] at hnone; cases hnone
        · exact .exhausted hretryable (Nat.pos_of_ne_zero hleft) hrefused

/-- How the attempts from number `n` on go, with up to `left` more after it. -/
inductive Went {α : Type} (c : Circumstances) (operation : Nat → Except Error α) :
    (left n : Nat) → Backoff → Attempts α → Prop
  | succeeded {left n : Nat} {b : Backoff} {x : α} (h : operation n = .ok x) :
      Went c operation left n b ⟨n + 1, [], .ok x⟩
  | failed {left n : Nat} {b : Backoff} {e : Error} {s : Sequel} (h : operation n = .error e)
      (hs : Follows c left n b e s) (hstops : s.wait? = none) :
      Went c operation left n b ⟨n + 1, [⟨e, s⟩], .error e⟩
  | again {left n : Nat} {b : Backoff} {e : Error} {a : Attempts α} (h : operation n = .error e)
      (hretryable : e.isRetryable = true)
      (hgranted : c.elapsed n + c.draw n b.interval ≤ b.allowed)
      (later : Went c operation left (n + 1) (b.after 1) a) :
      Went c operation (left + 1) n b (a.after e (.again (c.draw n b.interval) (b.after 1)))

theorem went_retryFrom {α : Type} (c : Circumstances) (operation : Nat → Except Error α)
    (left n : Nat) (b : Backoff) :
    Went c operation left n b (retryFrom c operation left n b) := by
  induction left generalizing n b with
  | zero =>
    unfold retryFrom
    split
    · next h => exact .succeeded h
    · next e h => exact .failed h (follows_sequel c 0 n b e) (wait?_sequel_zero c n b e)
  | succ left ih =>
    unfold retryFrom
    split
    · next h => exact .succeeded h
    · next e h =>
      have hfollows := follows_sequel c (left + 1) n b e
      generalize sequel c (left + 1) n b e = s at hfollows
      cases hfollows with
      | final hfinal => exact .failed h (.final hfinal) rfl
      | spent hretryable hleft => cases hleft
      | exhausted hretryable hleft hrefused =>
        exact .failed h (.exhausted hretryable hleft hrefused) rfl
      | again hretryable hleft hgranted => exact .again h hretryable hgranted (ih (n + 1) _)

namespace Went

variable {α : Type} {c : Circumstances} {operation : Nat → Except Error α} {left n : Nat}
  {b : Backoff} {a : Attempts α}

theorem count_bounds (h : Went c operation left n b a) :
    n < a.count ∧ a.count ≤ n + left + 1 := by
  induction h with
  | succeeded => exact ⟨Nat.lt_succ_self _, by simp only; omega⟩
  | failed => exact ⟨Nat.lt_succ_self _, by simp only; omega⟩
  | again _ _ _ _ ih => exact ⟨Nat.lt_of_succ_lt ih.1, by simp only [Attempts.after]; omega⟩

theorem outcome (h : Went c operation left n b a) : a.outcome = operation (a.count - 1) := by
  induction h with
  | succeeded h => exact h.symm
  | failed h => exact h.symm
  | again _ _ _ _ ih => exact ih

theorem unsettled (h : Went c operation left n b a) {k : Nat} (hk : n + k + 1 < a.count) :
    Unsettled (operation (n + k)) := by
  induction h generalizing k with
  | succeeded => simp only at hk; omega
  | failed => simp only at hk; omega
  | @again _ n _ _ _ h hretryable _ _ ih =>
    cases k with
    | zero => exact ⟨_, h, hretryable⟩
    | succ k =>
      rw [show n + (k + 1) = n + 1 + k by omega] at hk ⊢
      exact ih hk

/-- An attempt is made only if the wait before it was granted. -/
theorem granted (h : Went c operation left n b a) {k : Nat} (hk : n + k + 1 < a.count) :
    c.elapsed (n + k) + c.draw (n + k) (b.after k).interval ≤ b.allowed := by
  induction h generalizing k with
  | succeeded => simp only at hk; omega
  | failed => simp only at hk; omega
  | @again _ n b _ _ _ _ hgranted _ ih =>
    cases k with
    | zero => exact hgranted
    | succ k =>
      rw [show n + (k + 1) = n + 1 + k by omega] at hk ⊢
      have hlater := ih hk
      rwa [b.after_allowed] at hlater

/-- The last attempt settles the operation, is the last that is allowed, or the wait after it was
refused. -/
theorem ends (h : Went c operation left n b a) :
    Settles (operation (a.count - 1)) ∨ a.count = n + left + 1 ∨
      b.allowed < c.elapsed (a.count - 1) +
        c.draw (a.count - 1) (b.after (a.count - 1 - n)).interval := by
  induction h with
  | succeeded h => exact .inl (by rw [Nat.add_sub_cancel, h]; trivial)
  | @failed left n b e s h hs hstops =>
    simp only [Nat.add_sub_cancel, Nat.sub_self]
    cases hs with
    | final hfinal => exact .inl (by rw [h]; exact hfinal)
    | spent _ hleft => exact .inr (.inl (by rw [hleft]))
    | exhausted _ _ hrefused => exact .inr (.inr hrefused)
    | again => cases hstops
  | @again left n b e a _ _ _ later ih =>
    have hpos := later.count_bounds.1
    have hsteps : a.count - 1 - n = a.count - 1 - (n + 1) + 1 := by omega
    rw [b.after_allowed] at ih
    simp only [Attempts.after]
    rw [hsteps]
    rcases ih with ih | ih | ih
    · exact .inl ih
    · exact .inr (.inl (by omega))
    · exact .inr (.inr ih)

theorem waits (h : Went c operation left n b a) :
    a.waits = (List.range (a.count - 1 - n)).map fun k => c.draw (n + k) (b.after k).interval := by
  induction h with
  | succeeded => simp [Attempts.waits]
  | failed h hs hstops => simp [Attempts.waits, hstops]
  | @again left n b e a _ _ _ later ih =>
    have hpos := later.count_bounds.1
    have hsteps : a.count - 1 - n = a.count - 1 - (n + 1) + 1 := by omega
    have hlater : (a.after e (.again (c.draw n b.interval) (b.after 1))).waits =
        c.draw n b.interval :: a.waits := rfl
    rw [hlater, ih]
    simp only [Attempts.after]
    rw [hsteps, List.range_succ_eq_map, List.map_cons, List.map_map]
    refine congrArg₂ List.cons rfl (List.map_congr_left fun k _ => ?_)
    rw [Function.comp_apply, show n + 1 + k = n + k.succ by omega]
    rfl

/-- The attempts are exhausted only where a wait was refused. -/
theorem exhausted (h : Went c operation left n b a) {k : Nat} {f : FailedAttempt}
    (hf : a.failures[k]? = some f) (hexhausted : f.sequel = .exhausted) :
    0 < left ∧ b.allowed < c.elapsed (n + k) + c.draw (n + k) (b.after k).interval := by
  induction h generalizing k with
  | succeeded => simp at hf
  | failed h hs hstops =>
    cases k with
    | zero =>
      cases hf
      cases hexhausted
      cases hs with
      | exhausted _ hleft hrefused => exact ⟨hleft, hrefused⟩
    | succ k => simp at hf
  | @again _ n b _ _ _ _ _ _ ih =>
    cases k with
    | zero => cases hf; cases hexhausted
    | succ k =>
      obtain ⟨-, hrefused⟩ := ih (k := k) hf
      rw [b.after_allowed] at hrefused
      rw [show n + (k + 1) = n + 1 + k by omega]
      exact ⟨Nat.succ_pos _, hrefused⟩

end Went

/-! ## What repeated attempts come to -/

namespace Circumstances

variable (c : Circumstances) (maxRetries baseDelayMs k : Nat)

/-- The wait drawn after attempt number `k`, from zero. -/
def wait : Nat := c.draw k ((Backoff.create maxRetries baseDelayMs).after k).interval

/-- Whether the wait after attempt number `k` would end after the time allowed. -/
def Refuses : Prop := seconds (maxRetries * 10) < c.elapsed k + c.wait maxRetries baseDelayMs k

/-- The clock hardly moves: it is below a millisecond after every attempt. -/
def IsCalm : Prop := ∀ k, c.elapsed k < milliseconds 1

/-- Every wait is one that may be drawn. -/
def IsFair : Prop :=
  ∀ k, ((Backoff.create maxRetries baseDelayMs).after k).MayDraw (c.wait maxRetries baseDelayMs k)

variable {c maxRetries baseDelayMs k}

/-- No wait but the first can be refused: it is fifteen seconds at most, and there are twenty for
two attempts. -/
theorem IsCalm.not_refuses (hcalm : c.IsCalm) (hfair : c.IsFair maxRetries baseDelayMs)
    (htwo : 2 ≤ maxRetries) (hk : 0 < k) : ¬c.Refuses maxRetries baseDelayMs k := by
  have hinterval : ((Backoff.create maxRetries baseDelayMs).after k).interval ≤ seconds 10 :=
    Backoff.after_interval_le hk
  have hwait := (hfair k).2
  have helapsed := hcalm k
  rw [Backoff.after_spreadPercent] at hwait
  simp only [Refuses, Backoff.create, seconds, milliseconds] at *
  omega

end Circumstances

/-- What repeated attempts come to, on any clock and for any draws. -/
structure Retried {α : Type} (c : Circumstances) (maxRetries baseDelayMs : Nat)
    (operation : Nat → Except Error α) (a : Attempts α) : Prop where
  pos : 1 ≤ a.count
  le : a.count ≤ max maxRetries 1
  outcome : a.outcome = operation (a.count - 1)
  unsettled : ∀ k, k + 1 < a.count → Unsettled (operation k)
  granted : ∀ k, k + 1 < a.count → ¬c.Refuses maxRetries baseDelayMs k
  ends : Settles (operation (a.count - 1)) ∨ a.count = max maxRetries 1 ∨
    c.Refuses maxRetries baseDelayMs (a.count - 1)
  exhausted : ∀ k f, a.failures[k]? = some f → f.sequel = .exhausted →
    2 ≤ maxRetries ∧ c.Refuses maxRetries baseDelayMs k
  waits : a.waits = (List.range (a.count - 1)).map (c.wait maxRetries baseDelayMs)

theorem retried_retry {α : Type} (c : Circumstances) (maxRetries baseDelayMs : Nat)
    (operation : Nat → Except Error α) :
    Retried c maxRetries baseDelayMs operation (retry c maxRetries baseDelayMs operation) := by
  have went : Went c operation (maxRetries - 1) 0 (Backoff.create maxRetries baseDelayMs)
      (retry c maxRetries baseDelayMs operation) := went_retryFrom c operation _ _ _
  have hmax : 0 + (maxRetries - 1) + 1 = max maxRetries 1 := by omega
  obtain ⟨hpos, hle⟩ := went.count_bounds
  have hends := went.ends
  rw [hmax] at hle hends
  constructor
  case pos => exact hpos
  case le => exact hle
  case outcome => exact went.outcome
  case unsettled =>
    intro k hk
    have h := went.unsettled (k := k) (by omega)
    rwa [Nat.zero_add] at h
  case granted =>
    intro k hk
    have h := went.granted (k := k) (by omega)
    rw [Nat.zero_add] at h
    exact Nat.not_lt.2 h
  case ends => exact hends
  case exhausted =>
    intro k f hf hexhausted
    obtain ⟨hleft, hrefused⟩ := went.exhausted hf hexhausted
    rw [Nat.zero_add] at hrefused
    exact ⟨by omega, hrefused⟩
  case waits =>
    have h := went.waits
    simp only [Nat.zero_add] at h
    exact h

/-! ## The number of attempts -/

/-- How many attempts there are at an operation, and what comes of them. -/
structure Counted {α : Type} (c : Circumstances) (maxRetries baseDelayMs : Nat)
    (operation : Nat → Except Error α) (a : Attempts α) : Prop where
  outcome : a.outcome = operation (a.count - 1)
  unsettled : ∀ k, k + 1 < a.count → Unsettled (operation k)
  /-- On any clock there is an attempt, and none after the operation is settled. -/
  bounds : 1 ≤ a.count ∧
    (a.count : ℕ∞) ≤ min (attemptsNeeded operation) ((max maxRetries 1 : Nat) : ℕ∞)
  /-- A first wait that is too long leaves it at one attempt. -/
  once : 2 ≤ maxRetries → 1 < attemptsNeeded operation → c.Refuses maxRetries baseDelayMs 0 →
    a.count = 1
  /-- Otherwise, on a clock that hardly moves, there are as many as are needed or allowed. -/
  exact : c.IsCalm → c.IsFair maxRetries baseDelayMs →
    ¬(2 ≤ maxRetries ∧ 1 < attemptsNeeded operation ∧ c.Refuses maxRetries baseDelayMs 0) →
    (a.count : ℕ∞) = min (attemptsNeeded operation) ((max maxRetries 1 : Nat) : ℕ∞)
  /-- No later wait is refused. -/
  exhausted : c.IsCalm → c.IsFair maxRetries baseDelayMs →
    ∀ k f, a.failures[k]? = some f → f.sequel = .exhausted → k = 0

namespace Retried

variable {α : Type} {c : Circumstances} {maxRetries baseDelayMs : Nat}
  {operation : Nat → Except Error α} {a : Attempts α}

theorem count_le_min (h : Retried c maxRetries baseDelayMs operation a) :
    (a.count : ℕ∞) ≤ min (attemptsNeeded operation) ((max maxRetries 1 : Nat) : ℕ∞) :=
  le_min (le_attemptsNeeded h.unsettled) (Nat.cast_le.2 h.le)

theorem min_le_count (h : Retried c maxRetries baseDelayMs operation a)
    (hends : Settles (operation (a.count - 1)) ∨ a.count = max maxRetries 1) :
    min (attemptsNeeded operation) ((max maxRetries 1 : Nat) : ℕ∞) ≤ a.count := by
  rcases hends with hsettles | hspent
  · refine (min_le_left _ _).trans ((attemptsNeeded_le hsettles).trans (Nat.cast_le.2 ?_))
    have hpos := h.pos
    omega
  · exact (min_le_right _ _).trans (Nat.cast_le.2 (Nat.le_of_eq hspent.symm))

/-- On a clock that hardly moves the attempts end because the operation is settled or there are no
more, unless the first wait is refused. -/
theorem ends_of_calm (h : Retried c maxRetries baseDelayMs operation a) (hcalm : c.IsCalm)
    (hfair : c.IsFair maxRetries baseDelayMs)
    (hfirst : 2 ≤ maxRetries → Unsettled (operation 0) → ¬c.Refuses maxRetries baseDelayMs 0) :
    Settles (operation (a.count - 1)) ∨ a.count = max maxRetries 1 := by
  have hpos := h.pos
  have hle := h.le
  rcases h.ends with hsettles | hspent | hrefuses
  · exact .inl hsettles
  · exact .inr hspent
  · by_cases htwo : 2 ≤ maxRetries
    · by_cases hone : a.count = 1
      · rw [hone] at hrefuses ⊢
        by_cases hunsettled : Unsettled (operation 0)
        · exact absurd hrefuses (hfirst htwo hunsettled)
        · exact .inl (settles_of_not_unsettled hunsettled)
      · exact absurd hrefuses (hcalm.not_refuses hfair htwo (by omega))
    · exact .inr (by omega)

/-- There is a second attempt exactly if there may be one, the first failed and not for good, and
the wait after it was granted. -/
theorem one_lt_count_iff (h : Retried c maxRetries baseDelayMs operation a) :
    1 < a.count ↔ 2 ≤ maxRetries ∧ Unsettled (operation 0) ∧
      ¬c.Refuses maxRetries baseDelayMs 0 := by
  have hpos := h.pos
  have hle := h.le
  constructor
  · intro hone
    exact ⟨by omega, h.unsettled 0 hone, h.granted 0 hone⟩
  · rintro ⟨htwo, hunsettled, hgranted⟩
    by_contra hone
    have hcount : a.count = 1 := by omega
    have hends := h.ends
    rw [hcount] at hends
    rcases hends with hsettles | hspent | hrefuses
    · exact hunsettled.not_settles hsettles
    · omega
    · exact hgranted hrefuses

end Retried

/-- **How often an operation is attempted.** On a clock that hardly moves it is attempted until it
is settled or has been attempted as often as allowed, but only once if the first wait would end
after the time allowed. On any clock it is attempted once at least, and no more often. -/
theorem retry_count {α : Type} (c : Circumstances) (maxRetries baseDelayMs : Nat)
    (operation : Nat → Except Error α) :
    Counted c maxRetries baseDelayMs operation (retry c maxRetries baseDelayMs operation) := by
  have h := retried_retry c maxRetries baseDelayMs operation
  generalize retry c maxRetries baseDelayMs operation = a at h
  have hpos := h.pos
  constructor
  case outcome => exact h.outcome
  case unsettled => exact h.unsettled
  case bounds => exact ⟨hpos, h.count_le_min⟩
  case once =>
    intro _ _ hrefuses
    by_contra hone
    exact h.granted 0 (by omega) hrefuses
  case exact =>
    intro hcalm hfair hfirst
    refine le_antisymm h.count_le_min (h.min_le_count (h.ends_of_calm hcalm hfair ?_))
    intro htwo hunsettled hrefuses
    exact hfirst ⟨htwo, one_lt_attemptsNeeded hunsettled, hrefuses⟩
  case exhausted =>
    intro hcalm hfair k f hf hexhausted
    obtain ⟨htwo, hrefuses⟩ := h.exhausted k f hf hexhausted
    by_contra hk
    exact hcalm.not_refuses hfair htwo (Nat.pos_of_ne_zero hk) hrefuses

/-- A clock just below a millisecond, and the longest waits that may be drawn. -/
def Circumstances.late : Circumstances := ⟨fun _ => 999999, fun _ interval => interval * 3 / 2 + 1⟩

theorem Circumstances.isCalm_late : Circumstances.late.IsCalm :=
  fun _ => show 999999 < milliseconds 1 by decide

theorem Circumstances.isFair_late (maxRetries baseDelayMs : Nat) :
    Circumstances.late.IsFair maxRetries baseDelayMs := by
  intro k
  simp only [Backoff.MayDraw, Backoff.after_spreadPercent, Backoff.create, Circumstances.wait,
    Circumstances.late]
  omega

/-- An operation that the other side fails to serve twice. -/
def thirdTime (k : Nat) : Except Error String :=
  if k < 2 then .error (.lookup "7" (some 503) "try later") else .ok "ok"

/-- The third attempt is made, and with a base delay of fourteen seconds no second one is. -/
theorem retry_count_third_time :
    attemptsNeeded thirdTime = 3 ∧ Circumstances.late.IsCalm ∧
      Circumstances.late.IsFair 5 250 ∧ ¬Circumstances.late.Refuses 5 250 0 ∧
      (retry .late 5 250 thirdTime).count = 3 ∧
      Circumstances.late.IsFair 2 14000 ∧ Circumstances.late.Refuses 2 14000 0 ∧
      (retry .late 2 14000 thirdTime).count = 1 := by
  have hneeded : attemptsNeeded thirdTime = (2 + 1 : Nat) :=
    attemptsNeeded_eq trivial fun j hj => ⟨_, if_pos hj, rfl⟩
  have hgranted : ¬Circumstances.late.Refuses 5 250 0 := by unfold Circumstances.Refuses; decide
  have hrefused : Circumstances.late.Refuses 2 14000 0 := by unfold Circumstances.Refuses; decide
  have hthree := (retry_count .late 5 250 thirdTime).exact Circumstances.isCalm_late
    (Circumstances.isFair_late 5 250) fun h => hgranted h.2.2
  have hone : (retry .late 2 14000 thirdTime).count = 1 :=
    (retry_count .late 2 14000 thirdTime).once (Nat.le_refl 2) (by rw [hneeded]; decide) hrefused
  rw [hneeded] at hthree
  exact ⟨hneeded, Circumstances.isCalm_late, Circumstances.isFair_late 5 250, hgranted,
    Nat.cast_injective hthree, Circumstances.isFair_late 2 14000, hrefused, hone⟩

end Availability

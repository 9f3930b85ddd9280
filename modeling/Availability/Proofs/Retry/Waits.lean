import Availability.Proofs.Retry.Attempts

/-!
# How long is waited between attempts

Without chance each wait is the interval itself. The longest interval bounds what an interval grows
to, but not the one that the waits start from: a base delay above it is waited once, and then the
waits are shorter.

* `Backoff.after_interval`: the interval after so many waits.
* `retry_waits_grow_iff`: when the waits grow, and when none is above the longest interval.
-/

namespace Availability

/-! ## The interval after so many waits -/

namespace Backoff

theorem advance_eq {b : Backoff} (h : b.multiplier = 2) :
    b.advance = min (b.interval * 2) b.longest := by
  rw [advance, h]
  split
  · next hle => exact (Nat.min_eq_right hle).symm
  · next hlt => exact (Nat.min_eq_left (Nat.le_of_not_le hlt)).symm

/-- An interval that doubles is the longest as soon as one that doubles on and on is above it. -/
theorem after_interval {b : Backoff} (h : b.multiplier = 2) (k : Nat) :
    (b.after (k + 1)).interval = min (b.interval * 2 ^ (k + 1)) b.longest := by
  induction k generalizing b with
  | zero => exact advance_eq h
  | succ k ih =>
    have hlater : (b.after (k + 1 + 1)).interval = min (b.advance * 2 ^ (k + 1)) b.longest := ih h
    have hpow : b.interval * 2 ^ (k + 1 + 1) = b.interval * 2 * 2 ^ (k + 1) := by
      rw [Nat.pow_succ' (n := k + 1), Nat.mul_assoc]
    have hgrows : ∀ n, n ≤ n * 2 ^ (k + 1) := fun n => Nat.le_mul_of_pos_right n (Nat.two_pow_pos _)
    rw [hlater, hpow, advance_eq h]
    rcases Nat.le_total (b.interval * 2) b.longest with hle | hle
    · rw [Nat.min_eq_left hle]
    · rw [Nat.min_eq_right hle, Nat.min_eq_right (hgrows _),
        Nat.min_eq_right (Nat.le_trans hle (hgrows _))]

end Backoff

/-- The interval of an operation after so many waits. -/
def intervalAfter (baseDelayMs : Nat) : Nat → Nat
  | 0 => milliseconds baseDelayMs
  | k + 1 => min (milliseconds baseDelayMs * 2 ^ (k + 1)) (seconds 10)

theorem interval_create_after (maxRetries baseDelayMs k : Nat) :
    ((Backoff.create maxRetries baseDelayMs).after k).interval = intervalAfter baseDelayMs k := by
  cases k with
  | zero => rfl
  | succ k => exact Backoff.after_interval rfl k

theorem intervalAfter_succ_le (baseDelayMs k : Nat) :
    intervalAfter baseDelayMs (k + 1) ≤ seconds 10 :=
  Nat.min_le_right _ _

/-- From a base delay that is not above the longest interval, all intervals are doubled and cut in
the same way. -/
theorem intervalAfter_of_le {baseDelayMs : Nat} (h : milliseconds baseDelayMs ≤ seconds 10)
    (k : Nat) :
    intervalAfter baseDelayMs k = min (milliseconds baseDelayMs * 2 ^ k) (seconds 10) := by
  cases k with
  | zero => rw [intervalAfter, Nat.pow_zero, Nat.mul_one, Nat.min_eq_left h]
  | succ k => rfl

theorem intervalAfter_mono {baseDelayMs : Nat} (h : milliseconds baseDelayMs ≤ seconds 10)
    {j k : Nat} (hjk : j ≤ k) : intervalAfter baseDelayMs j ≤ intervalAfter baseDelayMs k := by
  rw [intervalAfter_of_le h, intervalAfter_of_le h]
  have hpow : milliseconds baseDelayMs * 2 ^ j ≤ milliseconds baseDelayMs * 2 ^ k :=
    Nat.mul_le_mul_left _ (Nat.pow_le_pow_right Nat.two_pos hjk)
  omega

/-! ## The waits of an operation -/

/-- Chance does not change a wait: it is the interval. -/
def Circumstances.IsSteady (c : Circumstances) : Prop :=
  ∀ attempt interval, c.draw attempt interval = interval

theorem Circumstances.IsSteady.wait_eq {c : Circumstances} (h : c.IsSteady)
    (maxRetries baseDelayMs k : Nat) :
    c.wait maxRetries baseDelayMs k = intervalAfter baseDelayMs k := by
  rw [Circumstances.wait, h, interval_create_after]

/-- The first so many intervals. -/
def intervals (baseDelayMs n : Nat) : List Nat := (List.range n).map (intervalAfter baseDelayMs)

theorem length_intervals (baseDelayMs n : Nat) : (intervals baseDelayMs n).length = n := by
  rw [intervals, List.length_map, List.length_range]

theorem intervals_two (baseDelayMs n : Nat) : ∃ later, intervals baseDelayMs (n + 2) =
    milliseconds baseDelayMs :: intervalAfter baseDelayMs 1 :: later := by
  rw [intervals, List.range_succ_eq_map, List.range_succ_eq_map]
  exact ⟨_, rfl⟩

theorem pairwise_intervals_iff (baseDelayMs n : Nat) :
    (intervals baseDelayMs n).Pairwise (· ≤ ·) ↔
      milliseconds baseDelayMs ≤ seconds 10 ∨ n ≤ 1 := by
  constructor
  · intro hgrows
    by_cases hn : n ≤ 1
    · exact .inr hn
    · obtain ⟨n, rfl⟩ : ∃ m, n = m + 2 := ⟨n - 2, by omega⟩
      obtain ⟨later, hlater⟩ := intervals_two baseDelayMs n
      rw [hlater, List.pairwise_cons] at hgrows
      exact .inl (Nat.le_trans (hgrows.1 _ List.mem_cons_self) (intervalAfter_succ_le _ 0))
  · rintro (hle | hn)
    · rw [intervals, List.pairwise_map]
      exact List.pairwise_lt_range.imp fun hlt => intervalAfter_mono hle (Nat.le_of_lt hlt)
    · match n, hn with
      | 0, _ => exact .nil
      | 1, _ => exact List.pairwise_singleton _ _

theorem intervals_le_iff (baseDelayMs n : Nat) :
    (∀ w ∈ intervals baseDelayMs n, w ≤ seconds 10) ↔
      milliseconds baseDelayMs ≤ seconds 10 ∨ n = 0 := by
  constructor
  · intro hcapped
    cases n with
    | zero => exact .inr rfl
    | succ n =>
      refine .inl (hcapped _ ?_)
      rw [intervals, List.range_succ_eq_map]
      exact List.mem_cons_self
  · rintro (hle | rfl) w hw
    · obtain ⟨k, -, rfl⟩ := List.mem_map.1 hw
      rw [intervalAfter_of_le hle]
      exact Nat.min_le_right _ _
    · cases hw

/-- The waits between the attempts at an operation, when each is the interval itself. -/
structure Waited (c : Circumstances) (maxRetries baseDelayMs : Nat) {α : Type}
    (operation : Nat → Except Error α) (waits : List Nat) : Prop where
  /-- The base delay first, then its doubles up to the longest interval. -/
  eq_intervals : waits = intervals baseDelayMs waits.length
  grow_iff : waits.Pairwise (· ≤ ·) ↔ milliseconds baseDelayMs ≤ seconds 10 ∨ waits.length ≤ 1
  capped_iff : (∀ w ∈ waits, w ≤ seconds 10) ↔
    milliseconds baseDelayMs ≤ seconds 10 ∨ waits = []
  nonempty_iff : waits ≠ [] ↔ 2 ≤ maxRetries ∧ Unsettled (operation 0) ∧
    c.elapsed 0 + milliseconds baseDelayMs ≤ seconds (maxRetries * 10)

/-- **When the waits grow and stay below the longest.** They do from any base delay that is itself
not above ten seconds. From a longer one the first wait is the base delay, above the longest, and
the next wait is shorter; this comes about whenever that first wait is granted, which takes no more
than a failed attempt, a second one allowed, and a base delay within the time allowed. -/
theorem retry_waits_grow_iff {α : Type} {c : Circumstances} (hsteady : c.IsSteady)
    (maxRetries baseDelayMs : Nat) (operation : Nat → Except Error α) :
    Waited c maxRetries baseDelayMs operation
      (retry c maxRetries baseDelayMs operation).waits := by
  have h := retried_retry c maxRetries baseDelayMs operation
  generalize retry c maxRetries baseDelayMs operation = a at h
  have hwaits : a.waits = intervals baseDelayMs (a.count - 1) := by
    rw [h.waits]
    exact List.map_congr_left fun k _ => hsteady.wait_eq maxRetries baseDelayMs k
  have hlength : a.waits.length = a.count - 1 := by rw [hwaits, length_intervals]
  have hempty : a.waits = [] ↔ a.count - 1 = 0 := by rw [← List.length_eq_zero_iff, hlength]
  constructor
  case eq_intervals => rw [hlength, hwaits]
  case grow_iff => rw [hlength, hwaits, pairwise_intervals_iff]
  case capped_iff => rw [hempty, hwaits, intervals_le_iff]
  case nonempty_iff =>
    have hone := h.one_lt_count_iff
    rw [Circumstances.Refuses, hsteady.wait_eq, Nat.not_lt] at hone
    have hsome : a.waits ≠ [] ↔ 1 < a.count := by
      rw [ne_eq, hempty]
      omega
    exact hsome.trans hone

/-- An operation that the other side fails to serve, however often it is attempted. -/
def unserved : Nat → Except Error Unit := fun _ => .error (.lookup "7" (some 503) "try later")

/-- Three seconds, then six, then ten twice. -/
theorem retry_waits_grow_iff_three_seconds :
    Circumstances.calm.IsSteady ∧
      (retry .calm 5 3000 unserved).waits = [seconds 3, seconds 6, seconds 10, seconds 10] ∧
      (retry .calm 5 3000 unserved).waits.Pairwise (· ≤ ·) ∧
      ∀ w ∈ (retry .calm 5 3000 unserved).waits, w ≤ seconds 10 := by
  have hsteady : Circumstances.calm.IsSteady := fun _ _ => rfl
  have hbase : milliseconds 3000 ≤ seconds 10 := by decide
  have h := retry_waits_grow_iff hsteady 5 3000 unserved
  exact ⟨hsteady, by decide +kernel, h.grow_iff.2 (.inl hbase), h.capped_iff.2 (.inl hbase)⟩

/-- A clock that goes on by the first wait, of fifteen seconds, and waits that are the interval. -/
def Circumstances.slow : Circumstances :=
  ⟨fun n => milliseconds 1 + if n = 0 then 0 else seconds 15, fun _ interval => interval⟩

/-- With a base delay of fifteen seconds and three attempts the first wait is above the longest
interval, and the second is shorter. -/
theorem waits_shrink :
    Circumstances.slow.IsSteady ∧
      (retry .slow 3 15000 unserved).waits = [seconds 15, seconds 10] ∧
      ¬(retry .slow 3 15000 unserved).waits.Pairwise (· ≤ ·) ∧
      ¬∀ w ∈ (retry .slow 3 15000 unserved).waits, w ≤ seconds 10 := by
  have hwaits : (retry .slow 3 15000 unserved).waits = [seconds 15, seconds 10] := by
    decide +kernel
  refine ⟨fun _ _ => rfl, hwaits, ?_, ?_⟩
  · rw [hwaits]
    decide
  · rw [hwaits]
    decide

end Availability

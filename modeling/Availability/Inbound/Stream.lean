import Availability.Inbound.Lines

/-!
# Whole streams

`messages` reads an inbound stream up to its end or its first fault. While a stream is still open
only the lines that have ended count; `wholeLines` tells them from the rest.

* `next_leftover`: reading a message leaves less to read.
* `wholeLines_append`: nothing is lost between the lines that have ended and the rest.
-/

namespace Availability.Inbound

theorem next_leftover {identity : Principal} {chunks rest : List Bytes} {m : InboundMessage}
    (h : next identity chunks = .ok (some (m, rest))) : leftover rest < leftover chunks := by
  fun_induction next identity chunks with
  | case1 => cases h
  | case2 => cases h
  | case3 _ _ _ _ _ _ _ _ hlt ih => exact Nat.lt_trans (ih h) hlt
  | case4 chunks line rest' hline _ _ _ _ =>
    simp only [Except.ok.injEq, Option.some.injEq, Prod.mk.injEq] at h
    obtain ⟨-, rfl⟩ := h
    rcases takeLine_leftover hline with h' | ⟨rfl, -⟩
    · exact h'
    · simp [takeLine] at hline

/-- All messages of a stream, and the fault at which it breaks off if it does. -/
def messages (identity : Principal) (chunks : List Bytes) :
    List InboundMessage × Option StreamFault :=
  match h : next identity chunks with
  | .error fault => ([], some fault)
  | .ok none => ([], none)
  | .ok (some (m, rest)) =>
    have : leftover rest < leftover chunks := next_leftover h
    let (ms, fault) := messages identity rest
    (m :: ms, fault)
termination_by leftover chunks

/-- The lines of some input that have ended, and what follows them. -/
def wholeLines (input : Bytes) : Bytes × Bytes :=
  let tail := (input.reverse.takeWhile (· != lineFeed)).reverse
  (input.take (input.length - tail.length), tail)

theorem wholeLines_append (input : Bytes) :
    (wholeLines input).1 ++ (wholeLines input).2 = input := by
  simp only [wholeLines]
  have h := List.takeWhile_append_dropWhile (p := (· != lineFeed)) (l := input.reverse)
  have hr := congrArg List.reverse h
  rw [List.reverse_append, List.reverse_reverse] at hr
  generalize (input.reverse.takeWhile (· != lineFeed)).reverse = tail at hr ⊢
  generalize (input.reverse.dropWhile (· != lineFeed)).reverse = front at hr
  subst hr
  simp

end Availability.Inbound

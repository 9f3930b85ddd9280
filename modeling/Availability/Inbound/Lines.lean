import Availability.Error
import Availability.Principal
import Availability.Text.Blank

/-!
# The inbound stream

Input arrives in chunks, which may end anywhere. `takeLine` takes the next line off them, and
`next` the next message: the text of a line without the blank characters at its ends, if anything
is left of it. A line that is not UTF-8 is a fault.
-/

namespace Availability

/-- A message of the inbound stream, on behalf of a caller. -/
structure InboundMessage where
  payload : Bytes
  identity : Principal
  deriving DecidableEq, Repr, Inhabited

namespace Inbound

/-- The line feed. -/
def lineFeed : UInt8 := 10

/-- The carriage return. -/
def carriageReturn : UInt8 := 13

/-- Takes the next line, without the line feed that ends it, off the chunks; `held` is what was
taken of it already. What follows the last line feed is a line too unless it is empty. -/
def takeLine (held : Bytes) : List Bytes → Option (Bytes × List Bytes)
  | [] => if held.isEmpty then none else some (held, [])
  | c :: cs =>
    match c.dropWhile (· != lineFeed) with
    | [] => takeLine (held ++ c) cs
    | _ :: r => some (held ++ c.takeWhile (· != lineFeed), r :: cs)

/-- A line without the carriage return at its end. -/
def dropReturn (line : Bytes) : Bytes :=
  if line.getLast? = some carriageReturn then line.dropLast else line

/-- How much input is left, counting a step for each chunk. -/
def leftover : List Bytes → Nat
  | [] => 0
  | c :: cs => c.length + 1 + leftover cs

theorem takeLine_leftover {held line : Bytes} {chunks rest : List Bytes}
    (h : takeLine held chunks = some (line, rest)) :
    leftover rest < leftover chunks ∨ chunks = [] ∧ rest = [] := by
  induction chunks generalizing held with
  | nil =>
    unfold takeLine at h
    split at h
    · cases h
    · simp only [Option.some.injEq, Prod.mk.injEq] at h
      exact .inr ⟨rfl, h.2.symm⟩
  | cons c cs ih =>
    unfold takeLine at h
    split at h
    · rcases ih h with h | ⟨rfl, rfl⟩
      · left
        simp only [leftover] at h ⊢
        omega
      · left
        simp [leftover]
    · rename_i b r hr
      simp only [Option.some.injEq, Prod.mk.injEq] at h
      obtain ⟨-, rfl⟩ := h
      left
      have : (b :: r).length ≤ c.length := by
        rw [← hr]
        exact (List.dropWhile_sublist _).length_le
      simp only [leftover, List.length_cons] at this ⊢
      omega

/-- The next message and the input after it, or none at the end of the input. -/
def next (identity : Principal) (chunks : List Bytes) :
    Except StreamFault (Option (InboundMessage × List Bytes)) :=
  match h : takeLine [] chunks with
  | none => .ok none
  | some (line, rest) =>
    match Utf8.decode (dropReturn line) with
    | .error fault => .error (.notUtf8 fault)
    | .ok text =>
      let trimmed := Text.trim text
      if trimmed.isEmpty then
        have : leftover rest < leftover chunks := by
          rcases takeLine_leftover h with h' | ⟨rfl, -⟩
          · exact h'
          · simp [takeLine] at h
        next identity rest
      else .ok (some (⟨Utf8.encode trimmed, identity⟩, rest))
termination_by leftover chunks

end Inbound

end Availability

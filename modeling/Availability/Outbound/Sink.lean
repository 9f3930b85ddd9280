import Availability.Outbound.Line
import Availability.Error

/-!
# The outbound sink

A sink writes the lines of a whole batch and then flushes. The writer under it takes as many bytes
of an offer as it likes, or refuses it; `Discipline` says what it does. Nothing is written of a
batch of which one message has no line.

* `writeAll_stored`: what a writer holds after an offer is what it held before and a part of the
  offer from its front.
-/

namespace Availability.Sink

/-- What a writer does with an offer. -/
inductive Answer where
  | took (count : Nat)
  | refused (details : String)
  deriving DecidableEq, Repr

/-- How a writer behaves: what it does with an offer of `offered` bytes once it has had `calls`
offers and holds `stored` bytes, and how a flush fails, if it does. -/
structure Discipline where
  write : (calls stored offered : Nat) → Answer
  flush : (calls stored : Nat) → Option String

/-- A writer that takes everything. -/
def Discipline.open : Discipline := ⟨fun _ _ offered => .took offered, fun _ _ => none⟩

/-- What a writer holds, what it held at the last flush that worked, and how often it was called. -/
structure Output where
  stored : Bytes
  flushed : Nat
  calls : Nat
  deriving DecidableEq, Repr

/-- A writer that holds `stored` already. -/
def Output.holding (stored : Bytes) : Output := ⟨stored, 0, 0⟩

/-- Offers all bytes, again and again from the first one not taken. A writer that takes none will
take none later either. -/
def writeAll (d : Discipline) (out : Output) (bytes : Bytes) : Except String Unit × Output :=
  match bytes with
  | [] => (.ok (), out)
  | b :: r =>
    match d.write out.calls out.stored.length (r.length + 1) with
    | .refused details => (.error details, { out with calls := out.calls + 1 })
    | .took 0 => (.error "write zero", { out with calls := out.calls + 1 })
    | .took (n + 1) =>
      writeAll d
        { out with stored := out.stored ++ (b :: r).take (n + 1), calls := out.calls + 1 }
        (r.drop n)
termination_by bytes.length
decreasing_by grind

/-- Flushes the writer. -/
def flush (d : Discipline) (out : Output) : Except String Unit × Output :=
  match d.flush out.calls out.stored.length with
  | some details => (.error details, { out with calls := out.calls + 1 })
  | none => (.ok (), { out with flushed := out.stored.length, calls := out.calls + 1 })

/-- Sends a batch: its lines in order, and then a flush. -/
def send (d : Discipline) (out : Output) (batch : List OutboundMessage) :
    Except Error Unit × Output :=
  match OutboundMessage.toLines batch with
  | .error failure => (.error (.serialization failure), out)
  | .ok bytes =>
    match writeAll d out bytes with
    | (.error details, out) => (.error (.transport batch.length details), out)
    | (.ok (), out) =>
      match flush d out with
      | (.error details, out) => (.error (.transport batch.length details), out)
      | (.ok (), out) => (.ok (), out)

theorem writeAll_stored (d : Discipline) (out : Output) (bytes : Bytes) :
    ∃ n, (writeAll d out bytes).2.stored = out.stored ++ bytes.take n := by
  fun_induction writeAll d out bytes with
  | case1 out => exact ⟨0, by simp⟩
  | case2 => exact ⟨0, by simp⟩
  | case3 => exact ⟨0, by simp⟩
  | case4 out b r n _ ih =>
    obtain ⟨m, hm⟩ := ih
    refine ⟨n + 1 + m, ?_⟩
    rw [hm, List.append_assoc]
    congr 1
    rw [show n + 1 + m = (n + m) + 1 by omega]
    simp [List.take_add]

end Availability.Sink

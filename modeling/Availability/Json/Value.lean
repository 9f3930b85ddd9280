import Availability.Number.Shortest

/-!
# JSON values

A value keeps its integers exact as far as 64 bits go and every other number in binary64. An
object lists its members in the order they are written. One that was read has them sorted by name,
each name once: `Members.insert` keeps it so. One that the service makes has the order it was made
in.

* `Members.keys_insert`: inserting a member adds its name and no other.
-/

namespace Availability.Json

/-- A number: an integer from -2^63 to 2^64 - 1, or any other in binary64. -/
inductive Number where
  | int (i : Int)
  | real (x : Binary64)
  deriving DecidableEq, Repr

/-- A JSON value. -/
inductive Value where
  | null
  | bool (b : Bool)
  | number (n : Number)
  | text (s : String)
  | array (items : List Value)
  | object (members : List (String × Value))
  deriving Repr, Inhabited

/-- The members of an object. -/
abbrev Members := List (String × Value)

namespace Members

/-- Puts a member in its place; one of the same name gives way to it. -/
def insert (name : String) (v : Value) : Members → Members
  | [] => [(name, v)]
  | (k, w) :: ms =>
    if name < k then (name, v) :: (k, w) :: ms
    else if name = k then (name, v) :: ms
    else (k, w) :: insert name v ms

/-- The members of a list of pairs, of which the last of a name counts. -/
def ofList (pairs : List (String × Value)) : Members :=
  pairs.foldl (fun ms p => insert p.1 p.2 ms) []

/-- The members but the one of a name. -/
def without (name : String) (ms : Members) : Members := ms.filter fun m => m.1 != name

theorem keys_insert (name k : String) (v : Value) (ms : Members) :
    k ∈ (insert name v ms).map Prod.fst ↔ k = name ∨ k ∈ ms.map Prod.fst := by
  induction ms with
  | nil => simp [insert]
  | cons m ms ih =>
    obtain ⟨k', w⟩ := m
    unfold insert
    split
    · simp
    · split
      · rename_i h
        simp [h]
      · simp only [List.map_cons, List.mem_cons, ih]
        grind

end Members

namespace Value

/-- An object of a list of pairs, of which the last of a name counts. -/
def ofPairs (pairs : List (String × Value)) : Value := .object (Members.ofList pairs)

/-- The value under a name of an object. -/
def find? (name : String) : Value → Option Value
  | .object ms => ms.lookup name
  | _ => none

/-- An integer. -/
def int (i : Int) : Value := .number (.int i)

/-- A natural number. -/
def nat (n : Nat) : Value := .number (.int n)

end Value

end Availability.Json

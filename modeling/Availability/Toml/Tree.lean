import Availability.Toml.Value

/-!
# Building tables

A document names tables again and again: by headers, by dotted keys, and in passing. A table is
opened once only by a header of its own; a dotted key may go on with what dotted keys began, but
not with a table that has a header or stands in braces, and the other way round.

* `lookup_put`, `lookup_put_of_ne`: a name stands for what was last put under it, and putting it
  leaves what other names stand for.
* `descend_nil`: at the end of a path the table itself is changed.
-/

namespace Availability.Toml

/-- How a table came to be. -/
inductive Opening where
  /-- It has a header of its own, or stands in braces. -/
  | own
  /-- The header of a table within it named it in passing. -/
  | passing
  /-- A dotted key named it. -/
  | dotted
  deriving DecidableEq, Repr

/-- What a name stands for while a document is read. -/
inductive Node where
  | value (v : Value)
  | table (opening : Opening) (members : List (String × Node))
  /-- A list of tables, each with a header of its own. -/
  | tables (items : List (List (String × Node)))

/-- The members of a table while a document is read. -/
abbrev Nodes := List (String × Node)

namespace Nodes

/-- Puts a node under a name, in the place of the one that was there or at the end. -/
def put (name : String) (n : Node) : Nodes → Nodes
  | [] => [(name, n)]
  | (k, m) :: ns => if k == name then (k, n) :: ns else (k, m) :: put name n ns

theorem lookup_put (name : String) (n : Node) (ns : Nodes) :
    (put name n ns).lookup name = some n := by
  induction ns with
  | nil => simp [put]
  | cons entry ns ih =>
    obtain ⟨k, m⟩ := entry
    by_cases same : k = name
    · simp [put, same]
    · simp [put, same, List.lookup_cons, ih, beq_eq_false_iff_ne.mpr (Ne.symm same)]

theorem lookup_put_of_ne {name other : String} (h : other ≠ name) (n : Node) (ns : Nodes) :
    (put name n ns).lookup other = ns.lookup other := by
  have apart := beq_eq_false_iff_ne.mpr h
  induction ns with
  | nil => simp [put, List.lookup_cons, apart]
  | cons entry ns ih =>
    obtain ⟨k, m⟩ := entry
    by_cases same : k = name
    · subst same
      simp [put, List.lookup_cons, apart]
    · by_cases here : other = k <;> simp [put, same, List.lookup_cons, ih, here]

/-- Replaces the last of a list of tables by what a change makes of it. -/
def changeLast (change : Nodes → Option Nodes) : List Nodes → Option (List Nodes)
  | [] => none
  | [t] => (change t).map ([·])
  | t :: ts => (changeLast change ts).map (t :: ·)

/-- Changes the table at the end of a path, by dotted keys if `dotted` and by headers otherwise.
Tables that are not there yet are begun on the way. -/
def descend (dotted : Bool) (change : Opening → Nodes → Option Nodes) :
    List String → Opening → Nodes → Option Nodes
  | [], opening, ns => change opening ns
  | k :: ks, _, ns =>
    match ns.lookup k with
    | none =>
      let opening := if dotted then Opening.dotted else .passing
      (descend dotted change ks opening []).map fun inner => put k (.table opening inner) ns
    | some (.table opening inner) =>
      if dotted && opening == .own then none
      else
        (descend dotted change ks opening inner).map fun inner => put k (.table opening inner) ns
    | some (.tables items) =>
      (changeLast (descend dotted change ks .own) items).map fun items => put k (.tables items) ns
    | some (.value _) => none

theorem descend_nil (dotted : Bool) (change : Opening → Nodes → Option Nodes) (opening : Opening)
    (ns : Nodes) : descend dotted change [] opening ns = change opening ns := rfl

/-- Gives a new name in a table its value. -/
def addNew (name : String) (v : Value) (ns : Nodes) : Option Nodes :=
  if (ns.lookup name).isSome then none else some (ns ++ [(name, .value v)])

/-- Gives a key within a table its value; all parts of the key but the last are tables, and these
have to be dotted keys' own. -/
def addKey (key : List String) (v : Value) (ns : Nodes) : Option Nodes :=
  match key.reverse with
  | [] => none
  | name :: path =>
    let path := path.reverse
    let change (opening : Opening) (ns : Nodes) : Option Nodes :=
      if !path.isEmpty && opening != .dotted then none else addNew name v ns
    descend true change path .own ns

/-- Opens the table of a header. -/
def openTable (name : String) (ns : Nodes) : Option Nodes :=
  match ns.lookup name with
  | none => some (ns ++ [(name, .table .own [])])
  | some (.table .passing inner) => some (put name (.table .own inner) ns)
  | _ => none

/-- Opens one more table of a list of tables. -/
def openItem (name : String) (ns : Nodes) : Option Nodes :=
  match ns.lookup name with
  | none => some (ns ++ [(name, .tables [[]])])
  | some (.tables items) => some (put name (.tables (items ++ [[]])) ns)
  | _ => none

/-- Opens what a header names. -/
def openHeader (isItem : Bool) (key : List String) (ns : Nodes) : Option Nodes :=
  match key.reverse with
  | [] => none
  | name :: path =>
    descend false (fun _ => if isItem then openItem name else openTable name) path.reverse .own ns

end Nodes

mutual

/-- The value that a node has come to. -/
def Node.toValue : Node → Value
  | .value v => v
  | .table _ ms => .table (membersToValues ms)
  | .tables items => .array (tablesToValues items)

/-- The members of a table that is done. -/
def membersToValues : List (String × Node) → List (String × Value)
  | [] => []
  | (k, n) :: ns => (k, n.toValue) :: membersToValues ns

/-- The tables of a list that is done. -/
def tablesToValues : List (List (String × Node)) → List Value
  | [] => []
  | t :: ts => .table (membersToValues t) :: tablesToValues ts

end

end Availability.Toml

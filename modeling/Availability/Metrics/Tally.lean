import Availability.Metrics

/-!
# Tallies

A tally holds what measurements come to, one number for each counter and each provider, however
many there were. `page` shows it to whoever asks.

* `count_ofList`: a tally of measurements holds their totals.
-/

namespace Availability

/-- What measurements come to. -/
structure Tally where
  counts : List (Counter × Nat)
  samples : List (Provider × Nat)
  deriving DecidableEq, Repr

namespace Tally

/-- No measurements. -/
def empty : Tally := ⟨[], []⟩

/-- Adds to the number of a key. -/
def bump {κ : Type} [DecidableEq κ] (key : κ) (n : Nat) : List (κ × Nat) → List (κ × Nat)
  | [] => [(key, n)]
  | (k, m) :: r => if k = key then (k, m + n) :: r else (k, m) :: bump key n r

/-- The number of a key. -/
def number {κ : Type} [DecidableEq κ] (key : κ) : List (κ × Nat) → Nat
  | [] => 0
  | (k, n) :: l => (if k = key then n else 0) + number key l

/-- Adds a measurement. -/
def add (t : Tally) : Measurement → Tally
  | .count c n => { t with counts := bump c n t.counts }
  | .probeDuration p => { t with samples := bump p 1 t.samples }

/-- Adds some measurements. -/
def addAll (t : Tally) (ms : List Measurement) : Tally := ms.foldl add t

/-- What a counter comes to. -/
def count (t : Tally) (c : Counter) : Nat := number c t.counts

theorem number_bump {κ : Type} [DecidableEq κ] (key k : κ) (n : Nat) (l : List (κ × Nat)) :
    number k (bump key n l) = number k l + if key = k then n else 0 := by
  induction l with
  | nil => simp [bump, number]
  | cons p l ih =>
    obtain ⟨k', m⟩ := p
    simp only [bump]
    split
    · rename_i h
      subst h
      simp only [number]
      split <;> omega
    · simp only [number] at ih ⊢
      rw [ih]
      omega

theorem count_add (t : Tally) (c : Counter) (m : Measurement) :
    (t.add m).count c = t.count c + m.amount c := by
  cases m with
  | count c' n => exact number_bump c' c n t.counts
  | probeDuration p => rfl

theorem count_addAll (t : Tally) (c : Counter) (ms : List Measurement) :
    (t.addAll ms).count c = t.count c + Measurement.total c ms := by
  induction ms generalizing t with
  | nil => rfl
  | cons m ms ih =>
    have h := ih (t.add m)
    rw [count_add] at h
    simp only [addAll, List.foldl_cons, Measurement.total] at h ⊢
    omega

/-- A tally of measurements holds their totals. -/
theorem count_ofList (c : Counter) (ms : List Measurement) :
    (empty.addAll ms).count c = Measurement.total c ms := by
  rw [count_addAll]
  exact Nat.zero_add _

/-- A line of the page. -/
def line (name : String) (labels : List (String × String)) (n : Nat) : String :=
  let shown := ",".intercalate (labels.map fun l => l.1 ++ "=\"" ++ l.2 ++ "\"")
  name ++ (if labels.isEmpty then "" else "\x7b" ++ shown ++ "\x7d") ++ s!" {n}\n"

/-- The lines about one metric. -/
def block (t : Tally) (d : MetricDescription) : String :=
  let kind := if d.isHistogram then "summary" else "counter"
  let lines := if d.isHistogram then
      t.samples.map fun s => line (d.name ++ "_count") [("provider", s.1.name)] s.2
    else
      (t.counts.filter fun c => c.1.name == d.name).map fun c => line d.name c.1.labels c.2
  if lines.isEmpty then ""
  else "# HELP " ++ d.name ++ " " ++ d.text ++ "\n# TYPE " ++ d.name ++ " " ++ kind ++ "\n"
    ++ String.join lines ++ "\n"

/-- All lines that are shown. -/
def page (t : Tally) : String := String.join (metricDescriptions.map t.block)

end Tally

end Availability

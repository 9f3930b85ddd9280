import Availability.Url.Path

/-!
# What is left of a path

Segments are read one after the other, so those that are read first can be put aside
(`resolve_append_left`). Of them the later ones leave a part from the start, and they add texts of
their own (`Grown`).

* `splitAtEach_append_mark`: texts with a mark between them are split each on its own.
* `grown_resolve`: what is added comes from segments that are no dots.
-/

namespace Availability.Url

/-! ## Splitting -/

section Splitting

variable {isMark : Char → Bool}

theorem splitAtEach_ne_nil (isMark : Char → Bool) (cs : List Char) :
    splitAtEach isMark cs ≠ [] := by
  cases cs with
  | nil => simp [splitAtEach]
  | cons c cs =>
    rw [splitAtEach]
    split
    · simp
    · split <;> simp

theorem splitAtEach_append_mark {c : Char} (hc : isMark c = true) (xs ys : List Char) :
    splitAtEach isMark (xs ++ c :: ys) = splitAtEach isMark xs ++ splitAtEach isMark ys := by
  induction xs with
  | nil => simp [splitAtEach, hc]
  | cons x xs ih =>
    rw [List.cons_append, splitAtEach, splitAtEach, ih]
    cases hx : isMark x with
    | true => simp
    | false =>
      obtain ⟨s, ss, hs⟩ := List.exists_cons_of_ne_nil (splitAtEach_ne_nil isMark xs)
      simp [hs]

theorem splitAtEach_of_no_mark {cs : List Char} (h : ∀ c ∈ cs, isMark c = false) :
    splitAtEach isMark cs = [cs] := by
  induction cs with
  | nil => rfl
  | cons c cs ih =>
    obtain ⟨hc, hcs⟩ := List.forall_mem_cons.1 h
    rw [splitAtEach, ih hcs, hc]
    rfl

/-- A piece is a part of the text, without a mark. -/
theorem of_mem_splitAtEach {cs q : List Char} (h : q ∈ splitAtEach isMark cs) :
    q.Sublist cs ∧ ∀ c ∈ q, isMark c = false := by
  induction cs generalizing q with
  | nil =>
    obtain rfl : q = [] := by simpa [splitAtEach] using h
    exact ⟨.slnil, by simp⟩
  | cons c cs ih =>
    obtain ⟨s, ss, hs⟩ := List.exists_cons_of_ne_nil (splitAtEach_ne_nil isMark cs)
    rw [splitAtEach, hs] at h
    rw [hs] at ih
    cases hc : isMark c with
    | true =>
      rw [hc] at h
      rcases List.mem_cons.1 h with rfl | h
      · exact ⟨List.nil_sublist _, by simp⟩
      · obtain ⟨hsub, hmark⟩ := ih h
        exact ⟨hsub.cons c, hmark⟩
    | false =>
      rw [hc] at h
      rcases List.mem_cons.1 h with rfl | h
      · obtain ⟨hsub, hmark⟩ := ih List.mem_cons_self
        exact ⟨hsub.cons_cons c, List.forall_mem_cons.2 ⟨hc, hmark⟩⟩
      · obtain ⟨hsub, hmark⟩ := ih (List.mem_cons_of_mem _ h)
        exact ⟨hsub.cons c, hmark⟩

end Splitting

/-! ## Resolving -/

/-- The segments after one more that is not the last. -/
def enter (done : List String) (s : List Char) : List String :=
  if isDoubleDot s then done.dropLast
  else if isDot s then done
  else done ++ [String.ofList (encodeWith inPath s)]

theorem resolve_cons (done : List String) (s : List Char) {ss : List (List Char)} (h : ss ≠ []) :
    resolve done (s :: ss) = resolve (enter done s) ss := by
  obtain ⟨t, ts, rfl⟩ := List.exists_cons_of_ne_nil h
  simp only [resolve, enter]
  split
  · rfl
  · split
    · rfl
    · rfl

theorem resolve_append_left (done : List String) (ps : List (List Char)) {qs : List (List Char)}
    (h : qs ≠ []) : resolve done (ps ++ qs) = resolve (ps.foldl enter done) qs := by
  induction ps generalizing done with
  | nil => rfl
  | cons p ps ih =>
    rw [List.cons_append, resolve_cons _ _ (by simp [h]), ih]
    rfl

/-- Segments of which a part from the start was there before and each other one is such a text. -/
def Grown (front : List String) (P : String → Prop) (ts : List String) : Prop :=
  ∃ keep pushed, ts = keep ++ pushed ∧ keep <+: front ∧ ∀ t ∈ pushed, P t

namespace Grown

variable {front ts : List String} {P : String → Prop}

theorem refl : Grown front P front := ⟨front, [], by simp, List.prefix_refl _, by simp⟩

theorem push (h : Grown front P ts) {t : String} (ht : P t) : Grown front P (ts ++ [t]) := by
  obtain ⟨keep, pushed, rfl, hkeep, hpushed⟩ := h
  refine ⟨keep, pushed ++ [t], by simp, hkeep, fun u hu => ?_⟩
  rcases List.mem_append.1 hu with hu | hu
  · exact hpushed u hu
  · rw [List.mem_singleton.1 hu]
    exact ht

theorem dropLast (h : Grown front P ts) : Grown front P ts.dropLast := by
  obtain ⟨keep, pushed, rfl, hkeep, hpushed⟩ := h
  cases pushed with
  | nil =>
    rw [List.append_nil]
    exact ⟨keep.dropLast, [], by simp, (List.dropLast_prefix _).trans hkeep, by simp⟩
  | cons t pushed =>
    rw [List.dropLast_append_of_ne_nil (by simp)]
    exact ⟨keep, _, rfl, hkeep, fun u hu => hpushed u (List.dropLast_subset _ hu)⟩

/-- What stands after all that was there before is new. -/
theorem of_append {xs : List String} (h : Grown front P (front ++ xs)) : ∀ t ∈ xs, P t := by
  obtain ⟨keep, pushed, heq, ⟨rest, rfl⟩, hpushed⟩ := h
  rw [List.append_assoc] at heq
  obtain rfl := List.append_cancel_left heq
  exact fun t ht => hpushed t (List.mem_append_right _ ht)

theorem enter (h : Grown front P ts) {s : List Char}
    (hs : isDot s = false → isDoubleDot s = false → P (String.ofList (encodeWith inPath s))) :
    Grown front P (enter ts s) := by
  unfold Url.enter
  split
  · exact h.dropLast
  · split
    · exact h
    · exact h.push (hs (by simpa using ‹¬isDot s = true›) (by simpa using ‹¬isDoubleDot s = true›))

end Grown

/-- What resolving adds to the segments before is empty or the encoding of a segment that is no
dot. -/
theorem grown_resolve {front done : List String} {P : String → Prop} {ss : List (List Char)}
    (h : Grown front P done) (hempty : P "")
    (hss : ∀ s ∈ ss, isDot s = false → isDoubleDot s = false →
      P (String.ofList (encodeWith inPath s))) : Grown front P (resolve done ss) := by
  induction ss generalizing done with
  | nil => exact h
  | cons s ss ih =>
    obtain ⟨hs, hrest⟩ := List.forall_mem_cons.1 hss
    cases ss with
    | nil =>
      rw [resolve]
      split
      · exact h.dropLast.push hempty
      · rename_i h₁
        split
        · exact h.push hempty
        · rename_i h₂
          exact h.push (hs (by simpa using h₂) (by simpa using h₁))
    | cons t ts =>
      rw [resolve_cons _ _ (by simp)]
      exact ih (h.enter hs) hrest

end Availability.Url

/-!
# Sequences that grow at their end

A run is read from its start, so what is said of it grows at the end. These are the facts on lists
that grow so, as far as runs need them.

* `zipWith_snoc_right`, `zipWith_append_left`: pairing two lists of which the first runs ahead.
* `takeWhile_append_of_stops`, `takeWhile_append_of_passes`: the elements at the front that pass a
  test, when more are appended.
-/

namespace Availability

variable {α β γ : Type}

theorem filterMap_snoc (f : α → Option β) (xs : List α) (x : α) :
    (xs ++ [x]).filterMap f = xs.filterMap f ++ (f x).toList := by
  rw [List.filterMap_append]
  cases h : f x <;> simp [h]

theorem length_lt_of_drop_eq_cons {xs rest : List α} {x : α} {n : Nat}
    (h : xs.drop n = x :: rest) : n < xs.length := by
  have hlen := congrArg List.length h
  simp only [List.length_drop, List.length_cons] at hlen
  omega

theorem drop_succ_of_drop_eq_cons {xs rest : List α} {x : α} {n : Nat}
    (h : xs.drop n = x :: rest) : xs.drop (n + 1) = rest := by
  rw [← List.tail_drop, h]
  rfl

theorem take_succ_of_drop_eq_cons {xs rest : List α} {x : α} {n : Nat}
    (h : xs.drop n = x :: rest) : xs.take (n + 1) = xs.take n ++ [x] := by
  rw [List.take_add_one, ← List.head?_drop, h]
  rfl

theorem prefix_snoc_getElem? {xs ys : List α} (h : xs <+: ys) :
    xs ++ (ys[xs.length]?).toList <+: ys := by
  obtain ⟨rest, rfl⟩ := h
  rw [List.getElem?_append_right (Nat.le_refl _), Nat.sub_self]
  cases rest <;> simp

theorem getElem?_of_isPrefix {xs ys : List α} (h : xs <+: ys) {i : Nat} {x : α}
    (hi : xs[i]? = some x) : ys[i]? = some x := by
  obtain ⟨hlt, rfl⟩ := List.getElem?_eq_some_iff.1 hi
  exact List.prefix_iff_getElem?.1 h i hlt

/-- An element that passes a test comes, among those that do, after as many as stand before it. -/
theorem getElem?_filter_take {f : α → Bool} {xs : List α} {i : Nat} {x : α}
    (hi : xs[i]? = some x) (hx : f x = true) :
    (xs.filter f)[((xs.take i).filter f).length]? = some x := by
  obtain ⟨hlt, rfl⟩ := List.getElem?_eq_some_iff.1 hi
  have hsplit : xs.filter f = (xs.take i).filter f ++ xs[i] :: (xs.drop (i + 1)).filter f := by
    rw [← List.filter_cons_of_pos hx, ← List.filter_append, ← List.drop_eq_getElem_cons hlt,
      List.take_append_drop]
  rw [hsplit, List.getElem?_append_right (Nat.le_refl _), Nat.sub_self, List.getElem?_cons_zero]

theorem map_fst_zip_isPrefix (xs : List α) (ys : List β) : (xs.zip ys).map Prod.fst <+: xs := by
  induction xs generalizing ys with
  | nil => simp
  | cons x xs ih =>
    cases ys with
    | nil => exact List.nil_prefix
    | cons y ys => exact List.cons_prefix_cons.2 ⟨rfl, ih ys⟩

/-- The next element of the second list meets the first element of the first that has not been
paired. -/
theorem zipWith_snoc_right (f : α → β → γ) {xs rest : List α} {x : α} {ys : List β} (y : β)
    (h : xs.drop ys.length = x :: rest) :
    List.zipWith f xs (ys ++ [y]) = List.zipWith f xs ys ++ [f x y] := by
  induction ys generalizing xs with
  | nil =>
    obtain rfl : xs = x :: rest := h
    simp
  | cons z ys ih =>
    cases xs with
    | nil => simp at h
    | cons w xs =>
      simp only [List.length_cons, List.drop_succ_cons] at h
      simp only [List.cons_append, List.zipWith_cons_cons, ih h]

/-- What joins the first list once it is ahead is not paired. -/
theorem zipWith_append_left (f : α → β → γ) {xs : List α} {ys : List β} (zs : List α)
    (h : ys.length ≤ xs.length) : List.zipWith f (xs ++ zs) ys = List.zipWith f xs ys := by
  induction ys generalizing xs with
  | nil => simp
  | cons y ys ih =>
    cases xs with
    | nil => simp at h
    | cons x xs =>
      simp only [List.length_cons, Nat.add_le_add_iff_right] at h
      simp only [List.cons_append, List.zipWith_cons_cons, ih h]

/-- Of two lists that both grow, the first runs ahead: what was left of it is paired next. -/
theorem zip_append_ahead {xs : List α} {ys : List β} (zs : List α) (ws : List β)
    (h : ys.length ≤ xs.length) :
    (xs ++ zs).zip (ys ++ ws) = xs.zip ys ++ (xs.drop ys.length ++ zs).zip ws := by
  induction ys generalizing xs with
  | nil => simp
  | cons y ys ih =>
    cases xs with
    | nil => simp at h
    | cons x xs =>
      simp only [List.length_cons, Nat.add_le_add_iff_right] at h
      simp only [List.cons_append, List.zip_cons_cons, List.length_cons, List.drop_succ_cons, ih h]

/-! ## Where a run of elements stops -/

section Stops

variable {p : α → Bool} {xs : List α}

theorem takeWhile_append_of_stops (h : xs.dropWhile p ≠ []) (ys : List α) :
    (xs ++ ys).takeWhile p = xs.takeWhile p := by
  have hsplit := congrArg List.length (List.takeWhile_append_dropWhile (p := p) (l := xs))
  have hpos := List.length_pos_iff.2 h
  rw [List.length_append] at hsplit
  rw [List.takeWhile_append, if_neg (by omega)]

theorem dropWhile_append_of_stops (h : xs.dropWhile p ≠ []) (ys : List α) :
    (xs ++ ys).dropWhile p = xs.dropWhile p ++ ys := by
  rw [List.dropWhile_append, if_neg (by simpa using h)]

theorem takeWhile_eq_self (h : xs.dropWhile p = []) : xs.takeWhile p = xs := by
  have hsplit := List.takeWhile_append_dropWhile (p := p) (l := xs)
  rwa [h, List.append_nil] at hsplit

theorem takeWhile_append_of_passes (h : xs.dropWhile p = []) (ys : List α) :
    (xs ++ ys).takeWhile p = xs ++ ys.takeWhile p := by
  rw [List.takeWhile_append, if_pos (by rw [takeWhile_eq_self h])]

theorem dropWhile_append_of_passes (h : xs.dropWhile p = []) (ys : List α) :
    (xs ++ ys).dropWhile p = ys.dropWhile p := by
  rw [List.dropWhile_append, if_pos (by simp [h])]

theorem dropWhile_ne_nil {x : α} (hx : x ∈ xs) (h : p x = false) : xs.dropWhile p ≠ [] := by
  intro hnil
  have hall : (xs.takeWhile p).all p = true := List.all_takeWhile
  rw [takeWhile_eq_self hnil, List.all_eq_true] at hall
  exact absurd (hall x hx) (by simp [h])

theorem dropWhile_eq_nil (h : ∀ x ∈ xs, p x = true) : xs.dropWhile p = [] := by
  have happend : (xs ++ []).dropWhile p = [].dropWhile p := List.dropWhile_append_of_pos h
  simpa using happend

theorem getLast?_dropWhile (h : xs.dropWhile p ≠ []) :
    (xs.dropWhile p).getLast? = xs.getLast? := by
  obtain ⟨ys, hys⟩ := List.dropWhile_suffix (l := xs) p
  obtain ⟨x, hx⟩ := Option.isSome_iff_exists.1 (List.getLast?_isSome.2 h)
  rw [← congrArg List.getLast? hys, List.getLast?_append, hx]
  rfl

end Stops

end Availability

import Availability.Text.Utf8

/-!
# Lines

A line feed ends a line. The bytes after the last one belong to a line that has not ended, and the
next bytes go on with it.

* `splitOn_append`: what is appended to some bytes starts on their unended line.
* `ended_append_lines`, `resume_eq_self_iff`: of lines that are appended only the first can be
  spoilt, and is unless nothing was left unended.
-/

namespace Availability.Lines

/-- The lines that have ended, each without its line feed. -/
def ended (s : Bytes) : List Bytes := (s.splitOn 10).dropLast

/-- What follows the last line feed. -/
def unended (s : Bytes) : Bytes := (s.splitOn 10).getLast (List.splitOn_ne_nil 10 s)

/-- All lines, of which the last need not have ended. -/
def all (s : Bytes) : List Bytes := ended s ++ if unended s = [] then [] else [unended s]

/-- The lines given, as they stand after what was left unended. -/
def resume (left : Bytes) : List Bytes → List Bytes
  | [] => []
  | l :: ls => (left ++ l) :: ls

/-- Lines with their line feeds. -/
def join (ls : List Bytes) : Bytes := ls.flatMap (· ++ [10])

theorem splitOn_eq (s : Bytes) : s.splitOn 10 = ended s ++ [unended s] :=
  (List.dropLast_concat_getLast (List.splitOn_ne_nil 10 s)).symm

theorem ended_of_splitOn {s : Bytes} {ls : List Bytes} {l : Bytes}
    (h : s.splitOn 10 = ls ++ [l]) : ended s = ls ∧ unended s = l := by
  rw [splitOn_eq] at h
  exact ⟨List.append_inj_left' h rfl, List.singleton_inj.1 (List.append_inj_right' h rfl)⟩

theorem splitOn_newline (a b : Bytes) : (a ++ 10 :: b).splitOn 10 = a.splitOn 10 ++ b.splitOn 10 :=
  List.splitOn_append_cons_self a b

/-- Bytes without a line feed go on with the line that has not ended. -/
theorem splitOn_append {a b : Bytes} (hb : 10 ∉ b) :
    (a ++ b).splitOn 10 = ended a ++ [unended a ++ b] := by
  -- by the line feeds of the first part, from its front
  induction hn : a.length using Nat.strongRecOn generalizing a with
  | ind n ih =>
    by_cases ha : 10 ∈ a
    · obtain ⟨front, rest, rfl⟩ := List.append_of_mem ha
      have hlt : rest.length < n := by
        rw [← hn, List.length_append, List.length_cons]
        omega
      have hsplit : (front ++ 10 :: rest).splitOn 10 =
          (front.splitOn 10 ++ ended rest) ++ [unended rest] := by
        rw [splitOn_newline, splitOn_eq rest, List.append_assoc]
      obtain ⟨hended, hunended⟩ := ended_of_splitOn hsplit
      rw [List.append_assoc, List.cons_append, splitOn_newline, ih _ hlt rfl, hended, hunended,
        List.append_assoc]
    · have hwhole : a.splitOn 10 = [] ++ [a] := List.splitOn_eq_singleton ha
      obtain ⟨hended, hunended⟩ := ended_of_splitOn hwhole
      have hab : 10 ∉ a ++ b := by
        rw [List.mem_append]
        rintro (h | h)
        · exact ha h
        · exact hb h
      rw [List.splitOn_eq_singleton hab, hended, hunended]
      rfl

/-- Lines that have ended stay as they are, whatever is appended. -/
theorem ended_append (a b : Bytes) : ∃ later, ended (a ++ b) = ended a ++ later := by
  by_cases hb : 10 ∈ b
  · obtain ⟨front, rest, rfl, hfront⟩ := List.eq_append_cons_of_mem hb
    have hsplit : (a ++ (front ++ 10 :: rest)).splitOn 10 =
        (ended a ++ (unended a ++ front) :: ended rest) ++ [unended rest] := by
      rw [← List.append_assoc, splitOn_newline, splitOn_append hfront, splitOn_eq rest]
      simp
    exact ⟨_, (ended_of_splitOn hsplit).1⟩
  · exact ⟨[], by rw [(ended_of_splitOn (splitOn_append hb)).1, List.append_nil]⟩

theorem splitOn_join {ls : List Bytes} (h : ∀ l ∈ ls, 10 ∉ l) (s : Bytes) :
    (join ls ++ s).splitOn 10 = ls ++ s.splitOn 10 := by
  induction ls with
  | nil => rfl
  | cons l ls ih =>
    have hl : 10 ∉ l := h l List.mem_cons_self
    have hbytes : join (l :: ls) ++ s = l ++ 10 :: (join ls ++ s) := by
      simp [join]
    rw [hbytes, splitOn_newline, List.splitOn_eq_singleton hl,
      ih fun k hk => h k (List.mem_cons_of_mem _ hk)]
    rfl

/-- Lines that are appended stand as they are but for the first, which what was left unended comes
before. -/
theorem ended_append_lines (a : Bytes) {ls : List Bytes} (h : ∀ l ∈ ls, 10 ∉ l) (b : Bytes) :
    ∃ later, ended (a ++ join ls ++ b) = ended a ++ resume (unended a) ls ++ later := by
  cases ls with
  | nil =>
    have hjoin : a ++ join [] = a := List.append_nil a
    rw [hjoin, resume, List.append_nil]
    exact ended_append a b
  | cons l ls =>
    have hl : 10 ∉ l := h l List.mem_cons_self
    have hbytes : a ++ join (l :: ls) ++ b = (a ++ l) ++ 10 :: (join ls ++ b) := by
      simp [join]
    have hsplit : (a ++ join (l :: ls) ++ b).splitOn 10 =
        (ended a ++ resume (unended a) (l :: ls) ++ ended b) ++ [unended b] := by
      rw [hbytes, splitOn_newline, splitOn_append hl,
        splitOn_join fun k hk => h k (List.mem_cons_of_mem _ hk), splitOn_eq b]
      simp [resume]
    exact ⟨ended b, (ended_of_splitOn hsplit).1⟩

theorem all_of_splitOn {s : Bytes} {ls : List Bytes} {l : Bytes}
    (h : s.splitOn 10 = ls ++ [l]) : all s = ls ++ if l = [] then [] else [l] := by
  obtain ⟨hended, hunended⟩ := ended_of_splitOn h
  rw [all, hended, hunended]

theorem all_of_notMem {s : Bytes} (h : 10 ∉ s) : all s = if s = [] then [] else [s] := by
  have hwhole : s.splitOn 10 = [] ++ [s] := List.splitOn_eq_singleton h
  exact all_of_splitOn hwhole

theorem all_join_append {ls : List Bytes} (h : ∀ l ∈ ls, 10 ∉ l) (s : Bytes) :
    all (join ls ++ s) = ls ++ all s := by
  have hsplit : (join ls ++ s).splitOn 10 = (ls ++ ended s) ++ [unended s] := by
    rw [splitOn_join h, splitOn_eq s, List.append_assoc]
  rw [all_of_splitOn hsplit, List.append_assoc]
  rfl

theorem all_cons {l : Bytes} (h : 10 ∉ l) (s : Bytes) : all (l ++ 10 :: s) = l :: all s := by
  have hl : ∀ k ∈ [l], 10 ∉ k := by
    intro k hk
    rwa [List.mem_singleton.1 hk]
  have hall := all_join_append hl s
  rwa [show join [l] ++ s = l ++ 10 :: s by simp [join]] at hall

theorem resume_eq_self_iff (left : Bytes) (ls : List Bytes) :
    resume left ls = ls ↔ ls = [] ∨ left = [] := by
  cases ls with
  | nil => simp [resume]
  | cons l ls => simp [resume]

end Availability.Lines

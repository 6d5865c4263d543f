import Mathlib.Data.List.Basic

/-!
# Cutting at a separator

A program cuts a text by looking for the next separator from where it stands. The lemmas
relate this to `List.splitOn`, which cuts at every separator at once, and to the pieces of it
that are not empty.
-/
namespace Cox.Lib

open List

variable {α : Type} [DecidableEq α]

theorem splitOn_append_sep (sep : α) (s t : List α) :
    (s ++ sep :: t).splitOn sep = s.splitOn sep ++ t.splitOn sep :=
  splitOnP_append_cons s t (beq_self_eq_true sep)

theorem idxOf_take (s : List α) (n : Nat) (a : α) :
    (s.take n).idxOf a = min (s.idxOf a) (s.take n).length := by
  induction s generalizing n with
  | nil => simp
  | cons b s ih =>
    cases n with
    | zero => simp
    | succ n =>
      by_cases same : b = a
      · simp [same]
      · rw [take_succ_cons, idxOf_cons_ne _ same, idxOf_cons_ne _ same, ih,
          length_cons]
        omega

theorem notMem_take_first (a : α) (s : List α) : a ∉ s.take (s.idxOf a) := by
  intro member
  have early := idxOf_lt_length_iff.mpr member
  rw [idxOf_take, length_take] at early
  omega

theorem splitOn_idxOf (sep : α) (s : List α) :
    s.splitOn sep = s.take (s.idxOf sep) ::
      if s.idxOf sep < s.length then (s.drop (s.idxOf sep + 1)).splitOn sep else [] := by
  by_cases inside : s.idxOf sep < s.length
  · have cut : s.take (s.idxOf sep) ++ sep :: s.drop (s.idxOf sep + 1) = s := by
      have here := drop_eq_getElem_cons inside
      rw [getElem_idxOf inside] at here
      rw [← here, take_append_drop]
    have pieces := splitOn_append_sep sep (s.take (s.idxOf sep)) (s.drop (s.idxOf sep + 1))
    rw [cut, splitOn_eq_singleton (notMem_take_first sep s)] at pieces
    rw [if_pos inside]
    exact pieces
  · have absent : sep ∉ s := fun member => inside (idxOf_lt_length_iff.mpr member)
    have whole : s.length ≤ s.idxOf sep := Nat.le_of_not_lt inside
    rw [if_neg inside, take_of_length_le whole, splitOn_eq_singleton absent]

theorem notMem_of_mem_splitOn (sep : α) (s piece : List α) (member : piece ∈ s.splitOn sep) :
    sep ∉ piece := by
  -- by the length of the text: what follows the first separator is shorter
  induction size : s.length using Nat.strongRecOn generalizing s with
  | ind n ih =>
    rw [splitOn_idxOf] at member
    rcases mem_cons.mp member with rfl | later
    · exact notMem_take_first sep s
    · split at later
      next inside =>
        have shorter : (s.drop (s.idxOf sep + 1)).length < n := by
          rw [length_drop]
          omega
        exact ih _ shorter _ later rfl
      next => cases later

def segments (sep : α) (s : List α) : List (List α) := (s.splitOn sep).filter (· ≠ [])

@[simp] theorem segments_nil (sep : α) : segments sep [] = [] := by
  simp [segments]

theorem segments_append_sep (sep : α) (s t : List α) :
    segments sep (s ++ sep :: t) = segments sep s ++ segments sep t := by
  rw [segments, splitOn_append_sep, filter_append]
  rfl

theorem segments_cons_sep (sep : α) (s : List α) : segments sep (sep :: s) = segments sep s := by
  have front := segments_append_sep sep [] s
  rwa [segments_nil, nil_append, nil_append] at front

theorem segments_cons (sep a : α) (s : List α) (other : a ≠ sep) :
    segments sep (a :: s) = (a :: s).take ((a :: s).idxOf sep) ::
      segments sep ((a :: s).drop ((a :: s).idxOf sep)) := by
  have later : (a :: s).idxOf sep = s.idxOf sep + 1 := idxOf_cons_ne _ other
  rw [segments, splitOn_idxOf, filter_cons_of_pos (by simp [later])]
  congr 1
  split
  next inside =>
    have here := drop_eq_getElem_cons inside
    rw [getElem_idxOf inside] at here
    rw [here, segments_cons_sep]
    rfl
  next outside =>
    rw [drop_of_length_le (Nat.le_of_not_lt outside), segments_nil]
    rfl

end Cox.Lib

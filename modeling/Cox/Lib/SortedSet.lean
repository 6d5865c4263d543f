import Mathlib.Data.List.Sort

/-!
# Ordered sets

Finite sets kept as a strictly increasing list, the way an ordered set iterates over
them. `upTo` and `above` cut a set at a bound.
-/
namespace Cox.Lib

open List

structure SortedSet (α : Type) [LinearOrder α] where
  elements : List α
  sorted : elements.Pairwise (· < ·)

namespace SortedSet

variable {α : Type} [LinearOrder α]

instance : Membership α (SortedSet α) := ⟨fun s x => x ∈ s.elements⟩

instance (s : SortedSet α) (x : α) : Decidable (x ∈ s) :=
  inferInstanceAs (Decidable (x ∈ s.elements))

theorem mem_def (s : SortedSet α) (x : α) : x ∈ s ↔ x ∈ s.elements := Iff.rfl

def empty : SortedSet α := ⟨[], .nil⟩

theorem not_mem_empty (x : α) : x ∉ (empty : SortedSet α) := not_mem_nil

/-- The least element, `*s.begin()`. -/
def first? (s : SortedSet α) : Option α := s.elements.head?

theorem mem_of_first? {s : SortedSet α} {x : α} (found : s.first? = some x) : x ∈ s :=
  mem_of_head? found

theorem first?_le {s : SortedSet α} {x : α} (member : x ∈ s) :
    ∃ first, s.first? = some first ∧ first ≤ x := by
  obtain ⟨elements, sorted⟩ := s
  cases elements with
  | nil => exact absurd member not_mem_nil
  | cons first rest =>
    refine ⟨first, rfl, ?_⟩
    rcases mem_cons.mp member with rfl | later
    · exact le_rfl
    · exact ((pairwise_cons.mp sorted).1 x later).le

/-! ### Insertion and removal -/

theorem orderedInsert_increasing (x : α) (xs : List α) (sorted : xs.Pairwise (· < ·))
    (new : x ∉ xs) : (xs.orderedInsert (· ≤ ·) x).Pairwise (· < ·) := by
  have weak : xs.Pairwise (· ≤ ·) := sorted.imp le_of_lt
  have distinct : (xs.orderedInsert (· ≤ ·) x).Nodup :=
    (perm_orderedInsert _ x xs).nodup_iff.mpr (nodup_cons.mpr ⟨new, sorted.imp ne_of_lt⟩)
  have both := (List.Pairwise.orderedInsert x xs weak).and distinct
  exact both.imp fun ⟨le, ne⟩ => lt_of_le_of_ne le ne

/-- An element that is there already is not put in again. -/
def insert (s : SortedSet α) (x : α) : SortedSet α :=
  if new : x ∈ s then s
  else ⟨s.elements.orderedInsert (· ≤ ·) x, orderedInsert_increasing x s.elements s.sorted new⟩

def erase (s : SortedSet α) (x : α) : SortedSet α :=
  ⟨s.elements.erase x, s.sorted.sublist List.erase_sublist⟩

theorem mem_insert (s : SortedSet α) (x y : α) : y ∈ s.insert x ↔ y = x ∨ y ∈ s := by
  unfold insert
  split
  next there =>
    constructor
    · exact .inr
    · rintro (rfl | old)
      · exact there
      · exact old
  next => exact mem_orderedInsert _

theorem mem_erase (s : SortedSet α) (x y : α) : y ∈ s.erase x ↔ y ≠ x ∧ y ∈ s :=
  List.Nodup.mem_erase_iff (s.sorted.imp ne_of_lt)

/-! ### Cutting at a bound -/

/-- The elements before `s.upper_bound(bound)`. -/
def upTo (s : SortedSet α) (bound : α) : List α := s.elements.takeWhile (· ≤ bound)

/-- What is left when those elements are erased. -/
def above (s : SortedSet α) (bound : α) : SortedSet α :=
  ⟨s.elements.dropWhile (· ≤ bound), s.sorted.sublist (List.dropWhile_sublist _)⟩

theorem takeWhile_le_eq_filter (bound : α) (xs : List α) (sorted : xs.Pairwise (· < ·)) :
    xs.takeWhile (· ≤ bound) = xs.filter (· ≤ bound) := by
  induction xs with
  | nil => rfl
  | cons x xs ih =>
    obtain ⟨least, tail⟩ := pairwise_cons.mp sorted
    by_cases small : x ≤ bound
    · simp [small, ih tail]
    -- behind an element above the bound there are only larger ones
    · have none : xs.filter (· ≤ bound) = [] := by
        refine filter_eq_nil_iff.mpr (fun y member => ?_)
        have larger := lt_trans (not_le.mp small) (least y member)
        simpa using larger
      simp [small, none]

theorem mem_upTo (s : SortedSet α) (bound x : α) : x ∈ s.upTo bound ↔ x ∈ s ∧ x ≤ bound := by
  rw [upTo, takeWhile_le_eq_filter bound s.elements s.sorted, mem_filter, decide_eq_true_eq,
    mem_def]

theorem upTo_sorted (s : SortedSet α) (bound : α) : (s.upTo bound).Pairwise (· < ·) :=
  s.sorted.sublist (takeWhile_sublist _)

theorem mem_above (s : SortedSet α) (bound x : α) : x ∈ s.above bound ↔ x ∈ s ∧ bound < x := by
  have whole : s.upTo bound ++ (s.above bound).elements = s.elements := takeWhile_append_dropWhile
  -- the two parts are apart, because the whole is strictly increasing
  have apart := s.sorted
  rw [← whole, pairwise_append] at apart
  constructor
  · intro member
    have inside : x ∈ s := by
      rw [mem_def, ← whole]
      exact mem_append_right _ member
    refine ⟨inside, not_le.mp fun small => ?_⟩
    exact lt_irrefl x (apart.2.2 x ((mem_upTo s bound x).mpr ⟨inside, small⟩) x member)
  · rintro ⟨inside, large⟩
    rw [mem_def, ← whole, mem_append] at inside
    rcases inside with below | member
    · exact absurd ((mem_upTo s bound x).mp below).2 (not_le.mpr large)
    · exact member

end SortedSet

end Cox.Lib

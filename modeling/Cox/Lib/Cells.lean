import Mathlib.Data.List.TakeDrop

/-!
# Windows of a row of cells

A store that keeps its content between two indices of a row of cells writes behind the second
one, and moves the content when it runs out of room there. The lemmas say what such a write
leaves between the indices; cells outside may hold anything.
-/
namespace Cox.Lib.Cells

open List

variable {α : Type}

def overwrite (cells : List α) (pos : Nat) (xs : List α) : List α :=
  cells.take pos ++ xs ++ cells.drop (pos + xs.length)

variable (cells xs : List α) (i j pos k : Nat)

theorem extract_eq : cells.extract i j = (cells.take j).drop i := by
  rw [extract_eq_take_drop, drop_take]

theorem length_extract (inside : j ≤ cells.length) : (cells.extract i j).length = j - i := by
  rw [extract_eq, length_drop, length_take]
  omega

theorem extract_self : cells.extract i i = [] := by
  rw [extract_eq_take_drop, Nat.sub_self, take_zero]

theorem drop_extract : (cells.extract i j).drop k = cells.extract (i + k) j := by
  rw [extract_eq, extract_eq, drop_drop]

theorem take_extract (inside : i + k ≤ j) : (cells.extract i j).take k = cells.extract i (i + k) := by
  rw [extract_eq_take_drop, extract_eq_take_drop, take_take]
  congr 1
  omega

theorem extract_append (inside : j ≤ cells.length) :
    (cells ++ xs).extract i j = cells.extract i j := by
  rw [extract_eq, extract_eq, take_append_of_le_length inside]

theorem length_overwrite (fits : pos + xs.length ≤ cells.length) :
    (overwrite cells pos xs).length = cells.length := by
  simp only [overwrite, length_append, length_take, length_drop]
  omega

theorem extract_overwrite (ordered : i ≤ pos) (inside : pos ≤ cells.length) (written : k ≤ xs.length) :
    (overwrite cells pos xs).extract i (pos + k) = cells.extract i pos ++ xs.take k := by
  have before : (cells.take pos).length = pos := length_take_of_le inside
  rw [extract_eq, extract_eq, overwrite, append_assoc, take_append, before,
    Nat.add_sub_cancel_left, take_of_length_le (by omega),
    take_append_of_le_length written, drop_append_of_le_length (by omega)]

end Cox.Lib.Cells

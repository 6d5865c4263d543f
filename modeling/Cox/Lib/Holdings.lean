import Mathlib.Data.List.Basic

/-!
# What a list of holders holds

Each holder holds at most one item, given by a function. The items that the holders of a
list hold can be counted, and the counts follow the holders as they come, go and change
what they hold.
-/
namespace Cox.Lib

open List

variable {κ α : Type} [DecidableEq κ] [DecidableEq α]

def holdings (held : κ → Option α) (holders : List κ) : List α := holders.filterMap held

omit [DecidableEq κ] [DecidableEq α] in
theorem holdings_append (held : κ → Option α) (left right : List κ) :
    holdings held (left ++ right) = holdings held left ++ holdings held right :=
  filterMap_append

omit [DecidableEq κ] [DecidableEq α] in
theorem holdings_singleton (held : κ → Option α) (c : κ) :
    holdings held [c] = (held c).toList := by
  cases item : held c <;> simp [holdings, item]

omit [DecidableEq κ] [DecidableEq α] in
theorem holdings_congr (held held' : κ → Option α) (holders : List κ)
    (same : ∀ c ∈ holders, held c = held' c) : holdings held holders = holdings held' holders :=
  filterMap_congr same

theorem count_holdings_erase (held : κ → Option α) (holders : List κ) (c : κ) (item : α)
    (member : c ∈ holders) :
    (holdings held (holders.erase c)).count item + (held c).toList.count item =
      (holdings held holders).count item := by
  induction holders with
  | nil => cases member
  | cons d holders ih =>
    have first : holdings held (d :: holders) = (held d).toList ++ holdings held holders := by
      rw [← holdings_singleton, ← holdings_append, singleton_append]
    -- `erase` takes the first occurrence away
    by_cases same : d = c
    · subst same
      rw [erase_cons_head, first, count_append]
      omega
    · have later := ih ((mem_cons.mp member).resolve_left (Ne.symm same))
      have rest : holdings held (d :: holders.erase c) =
          (held d).toList ++ holdings held (holders.erase c) := by
        rw [← holdings_singleton, ← holdings_append, singleton_append]
      rw [erase_cons_tail (by simpa using same), first, rest, count_append,
        count_append]
      omega

theorem count_holdings_change (held held' : κ → Option α) (holders : List κ) (c : κ) (item : α)
    (single : holders.count c = 1) (same : ∀ d, d ≠ c → held' d = held d) :
    (holdings held' holders).count item + (held c).toList.count item =
      (holdings held holders).count item + (held' c).toList.count item := by
  have member : c ∈ holders := count_pos_iff.mp (by omega)
  -- without its only occurrence of `c`, the list holds the same before and after
  have gone : c ∉ holders.erase c := by
    rw [← count_pos_iff, count_erase_self]
    omega
  have others : holdings held' (holders.erase c) = holdings held (holders.erase c) :=
    holdings_congr _ _ _ (fun d h => same d (fun eq => gone (eq ▸ h)))
  have before := count_holdings_erase held holders c item member
  have after := count_holdings_erase held' holders c item member
  rw [others] at after
  omega

end Cox.Lib

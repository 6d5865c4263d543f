import Mathlib.Data.List.Count
import Mathlib.Data.List.Basic

/-!
# Tokens that are made and spent

Tokens are numbered in the order in which they are made. The record says which of them
have been spent, and how often. A holder that makes a token only when all the others are
spent, and spends the one it holds, spends every token exactly once.
-/
namespace Cox.Lib

open List

structure Tokens where
  made : Nat := 0
  spent : List Nat := []
  deriving DecidableEq

namespace Tokens

def make (t : Tokens) : Tokens := { t with made := t.made + 1 }

def spend (t : Tokens) (k : Nat) : Tokens := { t with spent := t.spent ++ [k] }

def AllSpent (t : Tokens) : Prop := ∀ k < t.made, t.spent.count k = 1

/-- The token is not spent, and it is the only one. -/
def OnlyLeft (t : Tokens) (k : Nat) : Prop :=
  k < t.made ∧ t.spent.count k = 0 ∧ ∀ j < t.made, j ≠ k → t.spent.count j = 1

def Known (t : Tokens) : Prop := ∀ k ∈ t.spent, k < t.made

instance (t : Tokens) : Decidable t.AllSpent := inferInstanceAs (Decidable (∀ k < _, _))

instance (t : Tokens) (k : Nat) : Decidable (t.OnlyLeft k) :=
  inferInstanceAs (Decidable (_ ∧ _ ∧ ∀ j < _, _))

variable {t : Tokens}

theorem count_spend (t : Tokens) (k j : Nat) :
    (t.spend k).spent.count j = t.spent.count j + if j = k then 1 else 0 := by
  rw [spend, count_append, count_singleton]
  by_cases same : j = k
  · rw [same, if_pos rfl, beq_self_eq_true, if_pos rfl]
  · rw [if_neg same, if_neg (by simpa using Ne.symm same)]

theorem Known.count_made (known : t.Known) : t.spent.count t.made = 0 := by
  rw [count_eq_zero]
  intro spent
  exact Nat.lt_irrefl _ (known _ spent)

theorem Known.make (known : t.Known) : t.make.Known := fun k spent =>
  Nat.lt_succ_of_lt (known k spent)

theorem Known.spend (known : t.Known) (k : Nat) (made : k < t.made) : (t.spend k).Known := by
  exact forall_mem_append.mpr ⟨known, forall_mem_singleton.mpr made⟩

theorem AllSpent.make (spent : t.AllSpent) (known : t.Known) : t.make.OnlyLeft t.made := by
  refine ⟨Nat.lt_succ_self _, known.count_made, fun j made other => spent j ?_⟩
  have : j < t.made + 1 := made
  omega

theorem OnlyLeft.spend {k : Nat} (left : t.OnlyLeft k) : (t.spend k).AllSpent := by
  intro j made
  rw [count_spend]
  by_cases same : j = k
  · rw [same, left.2.1, if_pos rfl]
  · rw [left.2.2 j made same, if_neg same]

theorem OnlyLeft.makeSpend {k : Nat} (left : t.OnlyLeft k) (known : t.Known) :
    (t.make.spend t.made).OnlyLeft k := by
  obtain ⟨made, unspent, others⟩ := left
  refine ⟨Nat.lt_succ_of_lt made, ?_, fun j below other => ?_⟩
  · rw [count_spend, if_neg (Nat.ne_of_lt made)]
    exact unspent
  · have below : j < t.made + 1 := below
    rw [count_spend]
    -- the new token, or one of those from before
    by_cases new : j = t.made
    · rw [if_pos new, new]
      exact congrArg (· + 1) known.count_made
    · rw [if_neg new]
      exact others j (by omega) other

theorem not_onlyLeft (t : Tokens) {k j : Nat} (made : j < t.made) (other : j ≠ k)
    (unspent : t.spent.count j = 0) : ¬t.OnlyLeft k := by
  intro left
  have once := left.2.2 j made other
  omega

theorem not_allSpent (t : Tokens) {j : Nat} (made : j < t.made) (unspent : t.spent.count j = 0) :
    ¬t.AllSpent := by
  intro spent
  have once := spent j made
  omega

end Tokens

end Cox.Lib

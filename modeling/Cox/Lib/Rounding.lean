import Mathlib.Algebra.Order.Field.Power
import Mathlib.Data.Int.Log
import Mathlib.Data.Rat.Floor
import Mathlib.Tactic.FieldSimp
import Mathlib.Tactic.Linarith
import Mathlib.Tactic.Positivity

/-!
# Rounding to a number of digits

Rounding to the nearest integer, with ties to the even one, and the numbers of 53 binary digits
that it leads to. These are the finite numbers of the type `double`, but for the limits of their
exponents. Integers below `2 ^ 53` are among them.
-/
namespace Cox.Lib

/-- The nearest integer, or the even one of the two that are nearest. -/
def roundHalfEven (q : ℚ) : ℤ :=
  if 2 * Int.fract q < 1 then ⌊q⌋
  else if 1 < 2 * Int.fract q then ⌊q⌋ + 1
  else if ⌊q⌋ % 2 = 0 then ⌊q⌋ else ⌊q⌋ + 1

theorem roundHalfEven_add (n : ℤ) (rest : ℚ) (least : 0 ≤ rest) (near : 2 * rest < 1) :
    roundHalfEven (n + rest) = n := by
  have floor : ⌊(n : ℚ) + rest⌋ = n := by
    rw [Int.floor_eq_iff]
    constructor <;> linarith
  have fract : Int.fract ((n : ℚ) + rest) = rest := by
    rw [Int.fract, floor]
    ring
  rw [roundHalfEven, fract, floor, if_pos near]

theorem roundHalfEven_intCast (n : ℤ) : roundHalfEven n = n := by
  simpa using roundHalfEven_add n 0 le_rfl (by norm_num)

theorem le_roundHalfEven (n : ℤ) (q : ℚ) (low : n ≤ q) : n ≤ roundHalfEven q := by
  have floor : n ≤ ⌊q⌋ := Int.le_floor.mpr low
  unfold roundHalfEven
  split_ifs <;> omega

theorem roundHalfEven_le (n : ℤ) (q : ℚ) (high : q ≤ n) : roundHalfEven q ≤ n := by
  have floor : ⌊q⌋ ≤ n := by exact_mod_cast (Int.floor_le q).trans high
  by_cases below : 2 * Int.fract q < 1
  · rw [roundHalfEven, if_pos below]
    exact floor
  -- above the floor, the next integer is still within the bound
  · have above : (⌊q⌋ : ℚ) < n := by
      have split := Int.floor_add_fract q
      linarith
    have next : ⌊q⌋ + 1 ≤ n := by exact_mod_cast above
    unfold roundHalfEven
    split_ifs <;> omega

/-- A number of 53 binary digits. -/
structure Double where
  val : ℚ
  digits : ∃ m e : ℤ, |m| ≤ 2 ^ 53 ∧ val = m * 2 ^ e

namespace Double

def lastPlace (q : ℚ) : ℤ := Int.log 2 |q| - 52

theorem abs_div_lastPlace (q : ℚ) : |q / 2 ^ lastPlace q| ≤ 2 ^ 53 := by
  have unit : (0 : ℚ) < 2 ^ lastPlace q := by positivity
  have bound : |q| < 2 ^ (Int.log 2 |q| + 1) := by
    exact_mod_cast Int.lt_zpow_succ_log_self Nat.one_lt_two |q|
  have whole : (2 : ℚ) ^ (Int.log 2 |q| + 1) = 2 ^ 53 * 2 ^ lastPlace q := by
    rw [lastPlace, ← zpow_natCast, ← zpow_add₀ (by norm_num)]
    congr 1
    push_cast
    ring
  rw [abs_div, abs_of_pos unit, div_le_iff₀ unit, ← whole]
  exact bound.le

def round (q : ℚ) : Double where
  val := roundHalfEven (q / 2 ^ lastPlace q) * 2 ^ lastPlace q
  digits := by
    refine ⟨_, _, ?_, rfl⟩
    obtain ⟨low, high⟩ := abs_le.mp (abs_div_lastPlace q)
    rw [abs_le]
    exact ⟨le_roundHalfEven _ _ (by exact_mod_cast low), roundHalfEven_le _ _ (by exact_mod_cast high)⟩

instance : NatCast Double := ⟨fun n => round n⟩

instance : IntCast Double := ⟨fun n => round n⟩

instance : Zero Double := ⟨round 0⟩

instance : Add Double := ⟨fun a b => round (a.val + b.val)⟩

instance : LT Double := ⟨fun a b => a.val < b.val⟩

instance : DecidableLT Double := fun a b => inferInstanceAs (Decidable (a.val < b.val))

theorem round_intCast (n : ℤ) (small : |n| < 2 ^ 53) : (round n).val = n := by
  have log : Int.log 2 |(n : ℚ)| = Nat.log 2 n.natAbs := by
    rw [← Int.cast_abs, Int.abs_eq_natAbs, Int.cast_natCast, Int.log_natCast]
  have natural : n.natAbs < 2 ^ 53 := by
    rw [Int.abs_eq_natAbs] at small
    exact_mod_cast small
  have digits : Nat.log 2 n.natAbs < 53 := Nat.log_lt_of_lt_pow' (by decide) natural
  obtain ⟨k, places⟩ : ∃ k : ℕ, lastPlace n = -k :=
    ⟨52 - Nat.log 2 n.natAbs, by rw [lastPlace, log]; omega⟩
  have scaled : (n : ℚ) / 2 ^ lastPlace n = ((n * 2 ^ k : ℤ) : ℚ) := by
    rw [places, zpow_neg, zpow_natCast, div_inv_eq_mul]
    push_cast
    rfl
  show (roundHalfEven (n / 2 ^ lastPlace n) : ℚ) * 2 ^ lastPlace n = n
  rw [scaled, roundHalfEven_intCast, ← scaled]
  exact div_mul_cancel₀ _ (by positivity)

theorem val_intCast (n : ℤ) (small : |n| < 2 ^ 53) : (n : Double).val = n := round_intCast n small

theorem val_natCast (n : ℕ) (small : n < 2 ^ 53) : (n : Double).val = n := by
  have rounded := round_intCast n (by rw [Nat.abs_cast]; exact_mod_cast small)
  rwa [Int.cast_natCast] at rounded

end Double
end Cox.Lib

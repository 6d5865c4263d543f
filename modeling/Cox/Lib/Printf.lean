import Mathlib.Data.Nat.Digits.Lemmas
import Cox.Lib.Bytes

/-!
# Numerals of a given width

The conversions `%04d` and `%04x` of `printf`: a numeral that is filled up with zeros, behind
its sign if it has one.
-/
namespace Cox.Lib

open List

/-- A numeral with zeros before it, up to a width. -/
def padded (width base n : Nat) : Bytes :=
  List.replicate (width - (numeral base n).length) 48 ++ numeral base n

def signed (width : Nat) (n : Int) : Bytes :=
  if n < 0 then 45 :: padded (width - 1) 10 n.natAbs else padded width 10 n.natAbs

section Padded

variable (width base n : Nat)

theorem length_numeral_le (low : 1 < base) (positive : 0 < width) (fits : n < base ^ width) :
    (numeral base n).length ≤ width := by
  unfold numeral
  split
  · exact positive
  · rw [length_map, length_reverse]
    exact (Nat.digits_length_le_iff low n).mpr fits

theorem length_padded (low : 1 < base) (positive : 0 < width) (fits : n < base ^ width) :
    (padded width base n).length = width := by
  have length := length_numeral_le width base n low positive fits
  rw [padded, length_append, length_replicate]
  omega

theorem length_padded_le (most : Nat) (low : 1 < base) (positive : 0 < most)
    (fits : n < base ^ most) : (padded width base n).length ≤ max width most := by
  have length := length_numeral_le most base n low positive fits
  rw [padded, length_append, length_replicate]
  omega

theorem mem_padded (low : 1 < base) (high : base < 17) (c : UInt8)
    (member : c ∈ padded width base n) : ∃ d < base, c = digitByte d := by
  rcases mem_append.mp member with zero | digit
  · exact ⟨0, by omega, eq_of_mem_replicate zero⟩
  · exact mem_numeral base n low high c digit

theorem readDigits_zeros (zeros : Nat) (s : Bytes) (positive : 0 < base) :
    readDigits base 0 (List.replicate zeros 48 ++ s) = readDigits base 0 s := by
  have value : digitValue base 48 = some 0 := by simp [digitValue, positive]
  induction zeros with
  | zero => rfl
  | succ zeros ih =>
    rw [replicate_succ, cons_append, readDigits, value]
    simpa using ih

theorem readDigits_padded (low : 1 < base) (high : base < 17) :
    readDigits base 0 (padded width base n) = n := by
  rw [padded, readDigits_zeros base _ _ (by omega), readDigits_numeral base n low high]

theorem padded_injective (m : Nat) (low : 1 < base) (high : base < 17)
    (same : padded width base m = padded width base n) : m = n := by
  rw [← readDigits_padded width base m low high, same, readDigits_padded width base n low high]

end Padded

theorem minus_notMem_padded (width n : Nat) : 45 ∉ padded width 10 n := by
  intro member
  obtain ⟨d, small, same⟩ := mem_padded width 10 n (by decide) (by decide) 45 member
  have other : ∀ d < 10, (45 : UInt8) ≠ digitByte d := by decide
  exact other d small same

theorem signed_injective (width : Nat) (m n : Int) (same : signed width m = signed width n) :
    m = n := by
  unfold signed at same
  split at same
  next negative =>
    split at same
    next negative' =>
      have abs := padded_injective (width - 1) 10 _ _ (by decide) (by decide)
        (List.cons.inj same).2
      omega
    next =>
      have sign : 45 ∈ padded width 10 n.natAbs := same ▸ mem_cons_self
      exact absurd sign (minus_notMem_padded width _)
  next =>
    split at same
    next =>
      have sign : 45 ∈ padded width 10 m.natAbs := same ▸ mem_cons_self
      exact absurd sign (minus_notMem_padded width _)
    next =>
      have abs := padded_injective width 10 _ _ (by decide) (by decide) same
      omega

end Cox.Lib

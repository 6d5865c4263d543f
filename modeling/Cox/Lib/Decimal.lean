import Mathlib.Data.List.DropRight
import Cox.Lib.Printf
import Cox.Lib.Rounding

/-!
# Printing with a number of significant digits

The conversion `%g` of `printf`: a number is rounded to some significant digits, which are written
out with a point among them, or with an exponent if that would take too many zeros. Zeros at the
end of the fraction are left out. Such a text stands for the rounded number, so that an integer
is printed exactly if it has no more significant digits than that.
-/
namespace Cox.Lib.Decimal

open List Option

/-! ### Significant digits -/

/-- A positive number rounded to `d + 1` digits: they and the exponent of the first. -/
def significant (d : ℕ) (q : ℚ) : ℕ × ℤ :=
  let e := Int.log 10 q
  let m := (roundHalfEven (q / 10 ^ (e - d))).toNat
  -- rounding up can lead to one digit more
  if m = 10 ^ (d + 1) then (10 ^ d, e + 1) else (m, e)

def rounded (d : ℕ) (q : ℚ) : ℚ :=
  let (m, x) := significant d |q|
  if q = 0 then 0 else if q < 0 then -(m * 10 ^ (x - d)) else m * 10 ^ (x - d)

section Significant

variable (d : ℕ) (q : ℚ) (positive : 0 < q)

include positive

theorem scaled_bounds :
    ((10 ^ d : ℤ) : ℚ) ≤ q / 10 ^ (Int.log 10 q - d) ∧
      q / 10 ^ (Int.log 10 q - d) < ((10 ^ (d + 1) : ℤ) : ℚ) := by
  have unit : (0 : ℚ) < 10 ^ (Int.log 10 q - d) := by positivity
  have low : (10 : ℚ) ^ Int.log 10 q ≤ q := by
    exact_mod_cast Int.zpow_log_le_self (by decide : 1 < 10) positive
  have high : q < (10 : ℚ) ^ (Int.log 10 q + 1) := by
    exact_mod_cast Int.lt_zpow_succ_log_self (by decide : 1 < 10) q
  push_cast
  rw [le_div_iff₀ unit, div_lt_iff₀ unit, ← zpow_natCast, ← zpow_natCast,
    ← zpow_add₀ (by norm_num), ← zpow_add₀ (by norm_num)]
  constructor
  · rwa [show (d : ℤ) + (Int.log 10 q - d) = Int.log 10 q by ring]
  · rwa [show ((d + 1 : ℕ) : ℤ) + (Int.log 10 q - d) = Int.log 10 q + 1 by push_cast; ring]

theorem round_bounds :
    10 ^ d ≤ (roundHalfEven (q / 10 ^ (Int.log 10 q - d))).toNat ∧
      (roundHalfEven (q / 10 ^ (Int.log 10 q - d))).toNat ≤ 10 ^ (d + 1) := by
  obtain ⟨low, high⟩ := scaled_bounds d q positive
  have least := le_roundHalfEven _ _ low
  have most := roundHalfEven_le _ _ high.le
  constructor
  · rw [Int.le_toNat (by linarith [pow_pos (by decide : (0 : ℤ) < 10) d])]
    exact_mod_cast least
  · rw [Int.toNat_le]
    exact_mod_cast most

theorem significant_bounds :
    10 ^ d ≤ (significant d q).1 ∧ (significant d q).1 < 10 ^ (d + 1) := by
  obtain ⟨low, high⟩ := round_bounds d q positive
  unfold significant
  dsimp only
  split
  · exact ⟨le_rfl, Nat.pow_lt_pow_succ (by decide)⟩
  next other => exact ⟨low, lt_of_le_of_ne high other⟩

/-- What is less than half a unit of the last digit is dropped. -/
theorem significant_of_near (n : ℤ) (rest : ℚ) (least : 0 ≤ rest) (near : 2 * rest < 1)
    (parts : q = (n + rest) * 10 ^ (Int.log 10 q - d)) :
    significant d q = (n.toNat, Int.log 10 q) := by
  have unit : (10 : ℚ) ^ (Int.log 10 q - d) ≠ 0 := by positivity
  have scaled : q / 10 ^ (Int.log 10 q - d) = n + rest := (div_eq_iff unit).mpr parts
  have high := (scaled_bounds d q positive).2
  rw [scaled] at high
  have below : (n : ℚ) < ((10 ^ (d + 1) : ℤ) : ℚ) := by linarith
  have small : n.toNat < 10 ^ (d + 1) := by
    rw [Int.toNat_lt' (by positivity)]
    exact_mod_cast below
  unfold significant
  dsimp only
  rw [scaled, roundHalfEven_add n rest least near, if_neg small.ne]

theorem significant_eq_iff :
    (significant d q).1 * (10 : ℚ) ^ ((significant d q).2 - d) = q ↔
      ∃ n : ℤ, q = n * 10 ^ (Int.log 10 q - d) := by
  constructor
  · intro same
    unfold significant at same
    dsimp only at same
    split at same
    -- the next power of ten is above the number
    next carried =>
      have above : q < (10 : ℚ) ^ (Int.log 10 q + 1) := by
        exact_mod_cast Int.lt_zpow_succ_log_self (by decide : 1 < 10) q
      push_cast at same
      rw [← zpow_natCast, ← zpow_add₀ (by norm_num),
        show (d : ℤ) + (Int.log 10 q + 1 - d) = Int.log 10 q + 1 by ring] at same
      exact absurd same.symm (ne_of_lt above)
    next => exact ⟨_, by rw [Int.cast_natCast]; exact same.symm⟩
  · rintro ⟨n, multiple⟩
    have digits := significant_of_near d q positive n 0 le_rfl (by norm_num) (by simpa using multiple)
    have unit : (0 : ℚ) < 10 ^ (Int.log 10 q - d) := by positivity
    have natural : 0 ≤ n := by
      by_contra negative
      have below : (n : ℚ) < 0 := by exact_mod_cast not_le.mp negative
      have product := mul_neg_of_neg_of_pos below unit
      linarith
    have cast : ((n.toNat : ℕ) : ℚ) = n := by
      rw [← Int.cast_natCast, Int.toNat_of_nonneg natural]
    rw [digits, cast]
    exact multiple.symm

end Significant

/-! ### Integers -/

/-- At most `d + 1` significant digits, and then zeros. -/
def FewDigits (d n : ℕ) : Prop := ∃ m k : ℕ, m < 10 ^ (d + 1) ∧ n = m * 10 ^ k

section Integers

variable (d n : ℕ)

theorem log_natCast_eq : Int.log 10 (n : ℚ) = Nat.log 10 n := Int.log_natCast 10 n

theorem zpow_sub_of_le (e : ℕ) (fits : d ≤ e) : (10 : ℚ) ^ ((e : ℤ) - d) = (10 ^ (e - d) : ℕ) := by
  rw [← Int.ofNat_sub fits, zpow_natCast]
  push_cast
  rfl

theorem dvd_iff_fewDigits (positive : 0 < n) : 10 ^ (Nat.log 10 n - d) ∣ n ↔ FewDigits d n := by
  have least := Nat.pow_log_le_self 10 positive.ne'
  have most := Nat.lt_pow_succ_log_self (by decide : 1 < 10) n
  constructor
  · rintro ⟨m, product⟩
    refine ⟨m, Nat.log 10 n - d, ?_, product.trans (mul_comm ..)⟩
    by_contra many
    have above : 10 ^ (Nat.log 10 n + 1) ≤ n := by
      calc 10 ^ (Nat.log 10 n + 1) ≤ 10 ^ (Nat.log 10 n - d + (d + 1)) :=
            Nat.pow_le_pow_right (by decide) (by omega)
        _ = 10 ^ (Nat.log 10 n - d) * 10 ^ (d + 1) := pow_add ..
        _ ≤ 10 ^ (Nat.log 10 n - d) * m := Nat.mul_le_mul_left _ (not_lt.mp many)
        _ = n := product.symm
    omega
  · rintro ⟨m, k, few, same⟩
    -- more zeros follow than places are left out
    have zeros : Nat.log 10 n - d ≤ k := by
      have below : 10 ^ Nat.log 10 n < 10 ^ (d + 1 + k) := by
        calc 10 ^ Nat.log 10 n ≤ n := least
          _ = m * 10 ^ k := same
          _ < 10 ^ (d + 1) * 10 ^ k := Nat.mul_lt_mul_of_pos_right few (by positivity)
          _ = 10 ^ (d + 1 + k) := (pow_add ..).symm
      have exponents := (Nat.pow_lt_pow_iff_right (by decide : 1 < 10)).mp below
      omega
    rw [same]
    exact (pow_dvd_pow 10 (same ▸ zeros)).mul_left m

/-- In an integer the last digit counted is the unit or a higher place, if it is there at all. -/
theorem exists_multiple_iff :
    (∃ m : ℤ, (n : ℚ) = m * 10 ^ (Int.log 10 (n : ℚ) - d)) ↔ 10 ^ (Nat.log 10 n - d) ∣ n := by
  rw [log_natCast_eq]
  by_cases short : Nat.log 10 n < d
  · rw [Nat.sub_eq_zero_of_le short.le]
    refine iff_of_true ⟨n * 10 ^ (d - Nat.log 10 n), ?_⟩ (one_dvd n)
    rw [show (Nat.log 10 n : ℤ) - d = -((d - Nat.log 10 n : ℕ) : ℤ) by omega, zpow_neg,
      zpow_natCast]
    push_cast
    exact (mul_inv_cancel_right₀ (by positivity) _).symm
  · rw [zpow_sub_of_le d (Nat.log 10 n) (by omega)]
    constructor
    · rintro ⟨m, multiple⟩
      have whole : (n : ℤ) = m * (10 ^ (Nat.log 10 n - d) : ℕ) := by exact_mod_cast multiple
      exact Int.natCast_dvd_natCast.mp ⟨m, whole.trans (mul_comm ..)⟩
    · rintro ⟨m, product⟩
      refine ⟨m, ?_⟩
      have cast : (n : ℚ) = (10 ^ (Nat.log 10 n - d) : ℕ) * m := by exact_mod_cast product
      rw [cast, mul_comm]
      rfl

theorem rounded_natCast_iff : rounded d (n : ℚ) = n ↔ FewDigits d n := by
  rcases Nat.eq_zero_or_pos n with rfl | positive
  · exact iff_of_true (by simp [rounded]) ⟨0, 0, by positivity, rfl⟩
  · have positive' : (0 : ℚ) < n := by exact_mod_cast positive
    unfold rounded
    dsimp only
    rw [if_neg positive'.ne', if_neg positive'.not_gt, abs_of_pos positive',
      significant_eq_iff d n positive', exists_multiple_iff, dvd_iff_fewDigits d n positive]

theorem rounded_neg (q : ℚ) : rounded d (-q) = -rounded d q := by
  unfold rounded
  rw [abs_neg]
  rcases lt_trichotomy q 0 with negative | rfl | positive
  · simp [negative, negative.ne, negative.not_gt]
  · simp
  · simp [positive, positive.ne', positive.not_gt]

theorem rounded_intCast_iff (n : ℤ) : rounded d (n : ℚ) = n ↔ FewDigits d n.natAbs := by
  rw [← rounded_natCast_iff]
  obtain ⟨a, rfl | rfl⟩ := n.eq_nat_or_neg
  · simp
  · simp [rounded_neg]

theorem log_succ (positive : 0 < n) (ten : 10 ∣ n) : Nat.log 10 (n + 1) = Nat.log 10 n := by
  have least := Nat.pow_log_le_self 10 positive.ne'
  have most := Nat.lt_pow_succ_log_self (by decide : 1 < 10) n
  refine Nat.log_eq_of_pow_le_of_lt_pow (by omega) (lt_of_le_of_ne most fun power => ?_)
  -- the successor is no power of ten, whose last digit is zero
  have next : 10 ∣ n + 1 := power ▸ dvd_pow_self 10 (Nat.succ_ne_zero _)
  omega

theorem significant_succ (few : FewDigits d n) (large : 10 ^ (d + 1) ≤ n) :
    significant d ((n + 1 : ℕ) : ℚ) = significant d n := by
  have positive : 0 < n := lt_of_lt_of_le (by positivity) large
  have places : d < Nat.log 10 n := Nat.lt_of_succ_le (Nat.le_log_of_pow_le (by decide) large)
  obtain ⟨m, product⟩ := (dvd_iff_fewDigits d n positive).mpr few
  obtain ⟨k, exponent⟩ : ∃ k, Nat.log 10 n - d = k + 1 := ⟨Nat.log 10 n - d - 1, by omega⟩
  have unit : (10 : ℚ) ^ ((Nat.log 10 n : ℤ) - d) = 10 ^ (k + 1) := by
    rw [zpow_sub_of_le d _ places.le, exponent]
    push_cast
    rfl
  have ten : 10 ∣ n := by
    rw [product, exponent]
    exact (dvd_pow_self 10 (Nat.succ_ne_zero k)).mul_right m
  have cast : (n : ℚ) = m * 10 ^ (k + 1) := by
    rw [product, exponent]
    push_cast
    ring
  have tenth : ((10 : ℚ) ^ (k + 1))⁻¹ ≤ 10⁻¹ := by
    refine inv_anti₀ (by norm_num) ?_
    calc (10 : ℚ) = 10 ^ 1 := (pow_one _).symm
      _ ≤ 10 ^ (k + 1) := pow_le_pow_right₀ (by norm_num) (by omega)
  rw [significant_of_near d n (by exact_mod_cast positive) m 0 le_rfl (by norm_num)
      (by rw [log_natCast_eq, unit, add_zero]; exact cast),
    significant_of_near d (n + 1 : ℕ) (by positivity) m (10 ^ (k + 1))⁻¹ (by positivity)
      (by linarith) ?_, log_natCast_eq, log_natCast_eq, log_succ n positive ten]
  rw [log_natCast_eq, log_succ n positive ten, unit, add_mul, inv_mul_cancel₀ (by positivity)]
  push_cast
  rw [cast]

end Integers

/-! ### Writing -/

def isDigit (c : UInt8) : Bool := (digitValue 10 c).isSome

/-- What stands before the point and behind it, and the exponent if one is written, for digits of
which the first has the exponent `x`. -/
def parts (d : ℕ) (digits : Bytes) (x : ℤ) : Bytes × Bytes × Option ℤ :=
  if -4 ≤ x ∧ x < 0 then ([48], List.replicate (x.natAbs - 1) 48 ++ digits, none)
  else if 0 ≤ x ∧ x ≤ d then (digits.take (x.toNat + 1), digits.drop (x.toNat + 1), none)
  else (digits.take 1, digits.drop 1, some x)

def withoutZeros (fraction : Bytes) : Bytes := fraction.rdropWhile (· == 48)

/-- The zeros at the end are left out, and the point as well if nothing else is behind it. -/
def decimals (fraction : Bytes) : Bytes :=
  if withoutZeros fraction = [] then [] else 46 :: withoutZeros fraction

/-- The exponent has a sign and at least two digits. -/
def exponent : Option ℤ → Bytes
  | none => []
  | some x => 101 :: (if x < 0 then 45 else 43) :: padded 2 10 x.natAbs

def layout (d : ℕ) (digits : Bytes) (x : ℤ) : Bytes :=
  let (whole, fraction, e) := parts d digits x
  whole ++ (decimals fraction ++ exponent e)

/-- The conversion `%g` with `d + 1` significant digits. -/
def general (d : ℕ) (q : ℚ) : Bytes :=
  let (m, x) := significant d |q|
  if q = 0 then [48]
  else if q < 0 then 45 :: layout d (numeral 10 m) x else layout d (numeral 10 m) x

theorem isDigit_digitByte : ∀ n < 10, isDigit (digitByte n) = true := by decide

theorem isDigit_of_mem_padded (width n : ℕ) : ∀ c ∈ padded width 10 n, isDigit c = true := by
  intro c inside
  obtain ⟨digit, small, rfl⟩ := mem_padded width 10 n (by decide) (by decide) c inside
  exact isDigit_digitByte digit small

theorem isDigit_of_mem_numeral (n : ℕ) : ∀ c ∈ numeral 10 n, isDigit c = true := by
  intro c inside
  obtain ⟨digit, small, rfl⟩ := mem_numeral 10 n (by decide) (by decide) c inside
  exact isDigit_digitByte digit small

theorem exists_zeros (s : Bytes) : ∃ k, s = withoutZeros s ++ List.replicate k 48 := by
  unfold withoutZeros
  induction s using List.reverseRecOn with
  | nil => exact ⟨0, rfl⟩
  | append_singleton s c ih =>
    by_cases zero : c = 48
    · obtain ⟨k, split⟩ := ih
      refine ⟨k + 1, ?_⟩
      rw [rdropWhile_concat_pos _ _ _ (by simpa using zero), replicate_succ', zero,
        ← append_assoc, ← split]
    · exact ⟨0, by rw [rdropWhile_concat_neg _ _ _ (by simpa using zero)]; simp⟩

theorem mem_of_mem_withoutZeros (s : Bytes) (c : UInt8) (inside : c ∈ withoutZeros s) : c ∈ s :=
  ( rdropWhile_prefix _ s).subset inside

theorem length_numeral (d m : ℕ) (low : 10 ^ d ≤ m) (high : m < 10 ^ (d + 1)) :
    (numeral 10 m).length = d + 1 := by
  have positive : m ≠ 0 := (lt_of_lt_of_le (by positivity) low).ne'
  rw [numeral, if_neg positive, length_map, length_reverse,
    Nat.length_digits 10 m (by decide) positive, Nat.log_eq_of_pow_le_of_lt_pow low high]

section Parts

variable (d : ℕ) (digits : Bytes) (x : ℤ) (long : digits.length = d + 1)

include long

theorem parts_digits (all : ∀ c ∈ digits, isDigit c = true) :
    (parts d digits x).1 ≠ [] ∧ (∀ c ∈ (parts d digits x).1, isDigit c = true) ∧
      ∀ c ∈ (parts d digits x).2.1, isDigit c = true := by
  have nonempty (k : ℕ) : digits.take (k + 1) ≠ [] := by
    rw [ne_eq, take_eq_nil_iff, not_or]
    exact ⟨Nat.succ_ne_zero k, ne_nil_of_length_eq_add_one long⟩
  have before (k : ℕ) : ∀ c ∈ digits.take k, isDigit c = true := fun c inside =>
    all c (mem_of_mem_take inside)
  have behind (k : ℕ) : ∀ c ∈ digits.drop k, isDigit c = true := fun c inside =>
    all c (mem_of_mem_drop inside)
  unfold parts
  split_ifs
  · refine ⟨cons_ne_nil _ _, fun c inside => ?_, fun c inside => ?_⟩
    · rw [mem_singleton.mp inside]
      rfl
    rcases mem_append.mp inside with zero | digit
    · rw [eq_of_mem_replicate zero]
      rfl
    · exact all c digit
  · exact ⟨nonempty _, before _, behind _⟩
  · exact ⟨nonempty 0, before 1, behind 1⟩

theorem parts_value :
    readDigits 10 0 ((parts d digits x).1 ++ (parts d digits x).2.1) = readDigits 10 0 digits ∧
      (parts d digits x).2.2.getD 0 - (parts d digits x).2.1.length = x - d := by
  unfold parts
  split_ifs with small fixed
  · refine ⟨?_, ?_⟩
    · have zeros := readDigits_zeros 10 (x.natAbs - 1 + 1) digits (by decide)
      rwa [replicate_succ, cons_append] at zeros
    · simp only [getD_none, length_append, length_replicate, long]
      omega
  · refine ⟨by rw [take_append_drop], ?_⟩
    simp only [getD_none, length_drop, long]
    omega
  · refine ⟨by rw [take_append_drop], ?_⟩
    simp only [getD_some, length_drop, long]
    omega

end Parts

/-! ### Reading -/

/-- The digits behind a point, if there is one, and the rest. -/
def readDecimals : Bytes → Bytes × Bytes
  | [] => ([], [])
  | c :: rest =>
    if c = 46 then (rest.takeWhile isDigit, rest.dropWhile isDigit) else ([], c :: rest)

def readExponent : Bytes → Option ℤ
  | [] => some 0
  | c :: rest =>
    let (negative, digits) := readSign rest
    if c = 101 ∧ digits ≠ [] ∧ digits.all isDigit then
      some (if negative then -readDigits 10 0 digits else readDigits 10 0 digits)
    else none

def readMagnitude (s : Bytes) : Option ℚ :=
  let whole := s.takeWhile isDigit
  let (fraction, rest) := readDecimals (s.dropWhile isDigit)
  if whole = [] then none
  else
    (readExponent rest).map fun x : ℤ =>
      (readDigits 10 0 (whole ++ fraction) : ℚ) * 10 ^ (x - fraction.length)

def denoted (s : Bytes) : Option ℚ :=
  let (negative, s) := readSign s
  (readMagnitude s).map fun q => if negative then -q else q

theorem readDigits_digits (base acc : ℕ) (s rest : Bytes)
    (all : ∀ c ∈ s, (digitValue base c).isSome = true) :
    readDigits base acc (s ++ rest) = readDigits base (readDigits base acc s) rest := by
  induction s generalizing acc with
  | nil => rfl
  | cons c s ih =>
    obtain ⟨value, reads⟩ := isSome_iff_exists.mp (all c (mem_cons_self ..))
    simp only [cons_append, readDigits, reads]
    exact ih _ fun e later => all e (mem_cons_of_mem _ later)

theorem readDigits_replicate (acc k : ℕ) :
    readDigits 10 acc (List.replicate k 48) = acc * 10 ^ k := by
  have zero : digitValue 10 48 = some 0 := by decide
  induction k generalizing acc with
  | zero => simp [readDigits]
  | succ k ih =>
    simp only [replicate_succ, readDigits, zero]
    rw [ih, pow_succ]
    ring

theorem readExponent_exponent (e : Option ℤ) : readExponent (exponent e) = some (e.getD 0) := by
  cases e with
  | none => rfl
  | some x =>
    have digits : (padded 2 10 x.natAbs).all isDigit = true :=
      all_eq_true.mpr (isDigit_of_mem_padded 2 x.natAbs)
    have nonempty : padded 2 10 x.natAbs ≠ [] := by simp [padded, numeral_ne_nil]
    have value := readDigits_padded 2 10 x.natAbs (by decide) (by decide)
    by_cases negative : x < 0
    · have sign : readSign (45 :: padded 2 10 x.natAbs) = (true, padded 2 10 x.natAbs) := rfl
      have back : -(x.natAbs : ℤ) = x := by omega
      simp only [exponent, negative, if_true, readExponent, sign, digits, value, nonempty, ne_eq,
        not_false_eq_true, and_self, back, getD_some]
    · have sign : readSign (43 :: padded 2 10 x.natAbs) = (false, padded 2 10 x.natAbs) := rfl
      have back : (x.natAbs : ℤ) = x := by omega
      simp only [exponent, negative, if_false, readExponent, sign, digits, value, nonempty, ne_eq,
        not_false_eq_true, and_self, if_true, back, getD_some, Bool.false_eq_true]

theorem exponent_head (e : Option ℤ) (c : UInt8) (first : (exponent e).head? = some c) : c = 101 := by
  cases e with
  | none => cases first
  | some x => exact (Option.some.inj first).symm

theorem readDecimals_decimals (fraction : Bytes) (e : Option ℤ)
    (all : ∀ c ∈ fraction, isDigit c = true) :
    readDecimals (decimals fraction ++ exponent e) = (withoutZeros fraction, exponent e) := by
  unfold decimals
  split
  next nothing =>
    rw [nothing, nil_append]
    cases e <;> rfl
  next =>
    obtain ⟨taken, dropped⟩ := takeWhile_append_end (exponent e) isDigit (withoutZeros fraction)
      (fun c inside => all c (mem_of_mem_withoutZeros fraction c inside))
      (fun c first => exponent_head e c first ▸ by decide)
    simp only [cons_append, readDecimals, if_true, taken, dropped]

theorem value_withoutZeros (whole fraction : Bytes) (x : ℤ)
    (before : ∀ c ∈ whole, isDigit c = true) (behind : ∀ c ∈ fraction, isDigit c = true) :
    (readDigits 10 0 (whole ++ withoutZeros fraction) : ℚ) *
        10 ^ (x - (withoutZeros fraction).length) =
      readDigits 10 0 (whole ++ fraction) * 10 ^ (x - fraction.length) := by
  obtain ⟨k, zeros⟩ := exists_zeros fraction
  have digits : ∀ c ∈ whole ++ withoutZeros fraction, isDigit c = true :=
    forall_mem_append.mpr
      ⟨before, fun c inside => behind c (mem_of_mem_withoutZeros fraction c inside)⟩
  have value : readDigits 10 0 (whole ++ fraction) =
      readDigits 10 0 (whole ++ withoutZeros fraction) * 10 ^ k := by
    nth_rewrite 1 [zeros]
    rw [← append_assoc, readDigits_digits 10 0 _ _ digits, readDigits_replicate]
  have length : (fraction.length : ℤ) = (withoutZeros fraction).length + k := by
    nth_rewrite 1 [zeros]
    simp
  have scaled : (10 : ℚ) ^ (x - (withoutZeros fraction).length) =
      10 ^ k * 10 ^ (x - fraction.length) := by
    rw [← zpow_natCast, ← zpow_add₀ (by norm_num), length]
    congr 1
    ring
  rw [value, scaled, Nat.cast_mul, Nat.cast_pow, mul_assoc]
  rfl

theorem readMagnitude_parts (whole fraction : Bytes) (e : Option ℤ) (nonempty : whole ≠ [])
    (before : ∀ c ∈ whole, isDigit c = true) (behind : ∀ c ∈ fraction, isDigit c = true) :
    readMagnitude (whole ++ (decimals fraction ++ exponent e)) =
      some ((readDigits 10 0 (whole ++ fraction) : ℚ) * 10 ^ (e.getD 0 - fraction.length)) := by
  have ends (c : UInt8) (first : (decimals fraction ++ exponent e).head? = some c) :
      isDigit c = false := by
    unfold decimals at first
    split at first
    · rw [exponent_head e c first]
      rfl
    · cases first
      rfl
  obtain ⟨taken, dropped⟩ := takeWhile_append_end _ isDigit whole before ends
  unfold readMagnitude
  rw [taken, dropped, readDecimals_decimals fraction e behind]
  simp only [nonempty, if_false, readExponent_exponent, map_some,
    value_withoutZeros whole fraction _ before behind]

section Layout

variable (d : ℕ) (digits : Bytes) (x : ℤ) (long : digits.length = d + 1)
  (all : ∀ c ∈ digits, isDigit c = true)

include long all

theorem readMagnitude_layout :
    readMagnitude (layout d digits x) = some ((readDigits 10 0 digits : ℚ) * 10 ^ (x - d)) := by
  obtain ⟨nonempty, before, behind⟩ := parts_digits d digits x long all
  obtain ⟨value, place⟩ := parts_value d digits x long
  rw [layout, readMagnitude_parts _ _ _ nonempty before behind, value, place]

theorem readSign_layout : readSign (layout d digits x) = (false, layout d digits x) := by
  obtain ⟨nonempty, before, -⟩ := parts_digits d digits x long all
  obtain ⟨c, rest, whole⟩ := exists_cons_of_ne_nil nonempty
  have digit : isDigit c = true := before c (whole ▸ mem_cons_self ..)
  have plain := digit_plain 10 (by decide) c digit
  rw [layout]
  simp [whole, readSign, plain.2.1, plain.2.2.1]

end Layout

theorem denoted_general (d : ℕ) (q : ℚ) : denoted (general d q) = some (rounded d q) := by
  by_cases zero : q = 0
  · have text : readMagnitude [48] = some 0 := by decide +kernel
    simp [general, rounded, zero, denoted, readSign, text]
  obtain ⟨low, high⟩ := significant_bounds d |q| (abs_pos.mpr zero)
  have long := length_numeral d _ low high
  have all := isDigit_of_mem_numeral (significant d |q|).1
  have magnitude := readMagnitude_layout d _ (significant d |q|).2 long all
  rw [readDigits_numeral 10 _ (by decide) (by decide)] at magnitude
  by_cases negative : q < 0
  · simp [general, rounded, zero, negative, denoted, readSign, magnitude]
  · have sign := readSign_layout d _ (significant d |q|).2 long all
    simp [general, rounded, zero, negative, denoted, sign, magnitude]

theorem denoted_general_iff (d : ℕ) (n : ℤ) :
    denoted (general d n) = some (n : ℚ) ↔ FewDigits d n.natAbs := by
  rw [denoted_general, some_inj, rounded_intCast_iff]

theorem fewDigits_of_le (d n : ℕ) (small : n ≤ 10 ^ (d + 1)) : FewDigits d n := by
  rcases small.lt_or_eq with below | power
  · exact ⟨n, 0, below, by simp⟩
  · exact ⟨1, d + 1, Nat.one_lt_pow (by simp) (by decide), by rw [power, one_mul]⟩

/-- An integer that is printed exactly can be told from the next one while every place counts. -/
theorem general_succ_ne_iff (d n : ℕ) (few : FewDigits d n) :
    general d ((n + 1 : ℕ) : ℚ) ≠ general d n ↔ n < 10 ^ (d + 1) := by
  constructor
  · intro changed
    by_contra large
    have positive : 0 < n := lt_of_lt_of_le (by positivity) (not_lt.mp large)
    apply changed
    have digits := significant_succ d n few (not_lt.mp large)
    unfold general
    rw [Nat.abs_cast, Nat.abs_cast, digits]
    have own : (n : ℚ) ≠ 0 := by exact_mod_cast positive.ne'
    have next : ((n + 1 : ℕ) : ℚ) ≠ 0 := by exact_mod_cast n.succ_ne_zero
    simp only [own, next, if_false, (Nat.cast_nonneg n).not_gt, (Nat.cast_nonneg (n + 1)).not_gt]
  · intro small same
    have here := (denoted_general_iff d n).mpr few
    have there := (denoted_general_iff d (n + 1 : ℕ)).mpr (fewDigits_of_le d (n + 1) small)
    rw [Int.cast_natCast] at here there
    rw [same, here] at there
    have equal : n = n + 1 := by exact_mod_cast Option.some.inj there
    omega

end Cox.Lib.Decimal

import Mathlib.Data.List.Basic
import Mathlib.Data.Nat.Digits.Defs
import Mathlib.Data.List.TakeWhile

/-!
# Byte strings and numerals

Byte strings with the functions of the C library that text protocols use on them,
in the C locale and with a 64-bit `long`: `tolower`, `isspace`, `strtoul`, `atoi`, and
the numerals that `strtoul` reads back.
-/
namespace Cox.Lib

open List

abbrev Bytes := List UInt8

instance Bytes.transLt : Trans (α := Bytes) (· < ·) (· < ·) (· < ·) := inferInstance

instance Bytes.trichotomousLt : Std.Trichotomous (α := Bytes) (· < ·) := inferInstance

/-- The bytes of an ASCII text. -/
def text (s : String) : Bytes := s.toList.map fun c => UInt8.ofNat c.toNat

def tolower (c : UInt8) : UInt8 := if 65 ≤ c ∧ c ≤ 90 then c + 32 else c

def toLower (s : Bytes) : Bytes := s.map tolower

theorem tolower_tolower (c : UInt8) : tolower (tolower c) = tolower c := by
  unfold tolower
  split
  next upper =>
    refine if_neg fun again => ?_
    simp only [UInt8.le_iff_toNat_le, UInt8.toNat_add, UInt8.reduceToNat] at upper again
    omega
  · rfl

theorem toLower_toLower (s : Bytes) : toLower (toLower s) = toLower s := by
  simp only [toLower, map_map, Function.comp_def, tolower_tolower]

theorem tolower_eq_low (c d : UInt8) (low : d < 65) : tolower c = d ↔ c = d := by
  unfold tolower
  split
  next upper =>
    simp only [UInt8.le_iff_toNat_le, UInt8.lt_iff_toNat_lt, ← UInt8.toNat_inj, UInt8.toNat_add,
      UInt8.reduceToNat] at upper low ⊢
    omega
  · rfl

theorem idxOf_cut (s t : Bytes) (c : UInt8) (absent : c ∉ s) : (s ++ c :: t).idxOf c = s.length := by
  rw [idxOf_append_of_notMem absent, idxOf_cons_self, Nat.add_zero]

theorem cut_injective (s t s' t' : Bytes) (c : UInt8) (left : c ∉ s) (right : c ∉ s')
    (same : s ++ c :: t = s' ++ c :: t') : s = s' ∧ t = t' := by
  have length : s.length = s'.length := by
    rw [← idxOf_cut s t c left, same, idxOf_cut s' t' c right]
  obtain ⟨before, behind⟩ := append_inj same length
  exact ⟨before, (List.cons.inj behind).2⟩

theorem drop_cut (s t : Bytes) (c : UInt8) : (s ++ c :: t).drop (s.length + 1) = t := by
  rw [← drop_drop, drop_left, drop_one, tail_cons]

theorem notMem_take_idxOf (s : Bytes) (c : UInt8) : c ∉ s.take (s.idxOf c) := by
  induction s with
  | nil => simp
  | cons a s ih =>
    by_cases same : a = c
    · simp [same]
    · rw [idxOf_cons_ne _ same, take_succ_cons, mem_cons, not_or]
      exact ⟨Ne.symm same, ih⟩

/-- `s.find(pattern) != npos`. -/
def contains (pattern : Bytes) : Bytes → Bool
  | [] => pattern.isEmpty
  | c :: rest => pattern.isPrefixOf (c :: rest) || contains pattern rest

private theorem isPrefixOf_toLower (pattern s : Bytes) (starts : pattern.isPrefixOf s = true) :
    (toLower pattern).isPrefixOf (toLower s) = true := by
  induction pattern generalizing s with
  | nil => rfl
  | cons a pattern ih =>
    cases s with
    | nil => cases starts
    | cons b s =>
      simp only [isPrefixOf_cons_cons, Bool.and_eq_true, beq_iff_eq] at starts
      simp only [toLower, map_cons, isPrefixOf_cons_cons, Bool.and_eq_true, beq_iff_eq]
      exact ⟨congrArg tolower starts.1, ih s starts.2⟩

theorem contains_toLower (pattern s : Bytes) (inside : contains pattern s = true) :
    contains (toLower pattern) (toLower s) = true := by
  induction s with
  | nil =>
    rw [contains, List.isEmpty_iff] at inside
    rw [inside]
    rfl
  | cons c s ih =>
    simp only [contains, Bool.or_eq_true] at inside
    show (_ || _) = true
    rw [Bool.or_eq_true]
    exact inside.imp (isPrefixOf_toLower pattern (c :: s)) ih

theorem takeWhile_append_end (rest : Bytes) (byte : UInt8 → Bool) (w : Bytes)
    (all : ∀ c ∈ w, byte c = true) (ends : ∀ c, rest.head? = some c → byte c = false) :
    (w ++ rest).takeWhile byte = w ∧ (w ++ rest).dropWhile byte = rest := by
  rw [takeWhile_append_of_pos all, dropWhile_append_of_pos all]
  cases rest with
  | nil => simp
  | cons c rest => simp [ends c rfl]

def isspace (c : UInt8) : Bool := c == 32 || (9 ≤ c && c ≤ 13)

def digitValue (base : Nat) (c : UInt8) : Option Nat :=
  let d := if 48 ≤ c ∧ c ≤ 57 then some (c.toNat - 48)
    else if 97 ≤ c ∧ c ≤ 122 then some (c.toNat - 87)
    else if 65 ≤ c ∧ c ≤ 90 then some (c.toNat - 55)
    else none
  d.filter (· < base)

def readDigits (base : Nat) (acc : Nat) : Bytes → Nat
  | [] => acc
  | c :: rest =>
    match digitValue base c with
    | some d => readDigits base (acc * base + d) rest
    | none => acc

def readSign : Bytes → Bool × Bytes
  | c :: rest => if c = 45 then (true, rest) else if c = 43 then (false, rest) else (false, c :: rest)
  | [] => (false, [])

/-- In base 16 a leading `0x` is skipped. -/
def skipHexMark (base : Nat) : Bytes → Bytes
  | a :: b :: rest => if base = 16 ∧ a = 48 ∧ tolower b = 120 then rest else a :: b :: rest
  | s => s

/-- `ULONG_MAX`, which is 2^64 - 1. -/
def ulongMax : Nat := 18446744073709551615

/-- `strtoul(s, nullptr, base)`: leading blanks, a sign and digits. Text without
digits reads as 0, a value out of range as `ULONG_MAX`, and a `-` negates modulo
2^64. -/
def strtoul (s : Bytes) (base : Nat) : Nat :=
  let signed := readSign (s.dropWhile isspace)
  let value := readDigits base 0 (skipHexMark base signed.2)
  if ulongMax < value then ulongMax
  else if signed.1 then (ulongMax + 1 - value) % (ulongMax + 1)
  else value

/-- `LONG_MAX`, which is 2^63 - 1. -/
def longMax : Int := 9223372036854775807

/-- `atoi(s)`: the value of `strtol(s, nullptr, 10)`, which stays within a `long`, cut
down to the 32 bits of an `int`. -/
def atoi (s : Bytes) : Int :=
  let signed := readSign (s.dropWhile isspace)
  let value : Int := readDigits 10 0 signed.2
  let long := if signed.1 then max (-value) (-longMax - 1) else min value longMax
  long.bmod 4294967296

def digitByte (d : Nat) : UInt8 := if d < 10 then UInt8.ofNat (48 + d) else UInt8.ofNat (87 + d)

/-- The numeral of `n` without leading zeros. -/
def numeral (base n : Nat) : Bytes :=
  if n = 0 then [48] else ((Nat.digits base n).reverse).map digitByte

theorem numeral_ne_nil (base n : Nat) : numeral base n ≠ [] := by
  unfold numeral
  split
  · simp
  next positive => simpa using Nat.digits_ne_nil_iff_ne_zero.mpr positive

private theorem digitValue_digitByte :
    ∀ base < 17, ∀ d < base, digitValue base (digitByte d) = some d := by
  decide

private theorem digitByte_plain : ∀ d < 16,
    isspace (digitByte d) = false ∧ digitByte d ≠ 45 ∧ digitByte d ≠ 43 ∧
      digitByte d ≠ 13 ∧ tolower (digitByte d) ≠ 120 := by
  decide

private theorem readDigits_map (base : Nat) (hb : base < 17) (ds : List Nat)
    (bounded : ∀ d ∈ ds, d < base) (acc : Nat) :
    readDigits base acc (ds.map digitByte) = ds.foldl (fun acc d => acc * base + d) acc := by
  -- digits are read from the most significant one, into the accumulator
  induction ds generalizing acc with
  | nil => rfl
  | cons d ds ih =>
    have value := digitValue_digitByte base hb d (bounded d (by simp))
    simp only [map_cons, readDigits, value, foldl_cons]
    exact ih (fun e he => bounded e (by simp [he])) _

private theorem foldl_reverse_digits (base n : Nat) :
    (Nat.digits base n).reverse.foldl (fun acc d => acc * base + d) 0 = n := by
  rw [foldl_reverse]
  have value := Nat.ofDigits_digits base n
  rw [Nat.ofDigits_eq_foldr] at value
  simpa [Nat.add_comm, Nat.mul_comm] using value

section Numerals

variable (base n : Nat) (low : 1 < base) (high : base < 17)
include low high

theorem mem_numeral (c : UInt8) (member : c ∈ numeral base n) : ∃ d < base, c = digitByte d := by
  unfold numeral at member
  split at member
  · exact ⟨0, by omega, by simpa [digitByte] using member⟩
  · obtain ⟨d, hd, same⟩ := mem_map.mp member
    exact ⟨d, Nat.digits_lt_base low (mem_reverse.mp hd), same.symm⟩

theorem numeral_plain (c : UInt8) (member : c ∈ numeral base n) :
    isspace c = false ∧ c ≠ 45 ∧ c ≠ 43 ∧ c ≠ 13 ∧ tolower c ≠ 120 := by
  obtain ⟨d, hd, rfl⟩ := mem_numeral base n low high c member
  exact digitByte_plain d (by omega)

theorem readDigits_numeral : readDigits base 0 (numeral base n) = n := by
  unfold numeral
  split
  -- `Nat.digits` gives nothing for 0, whose numeral is one digit
  next zero =>
    have value := digitValue_digitByte base high 0 (by omega)
    have byte : digitByte 0 = 48 := rfl
    rw [byte] at value
    simp [readDigits, value, zero]
  next =>
    rw [readDigits_map base high _ fun d hd => Nat.digits_lt_base low (mem_reverse.mp hd)]
    exact foldl_reverse_digits base n

end Numerals

theorem numeral_injective (base m n : Nat) (low : 1 < base) (high : base < 17)
    (same : numeral base m = numeral base n) : m = n := by
  rw [← readDigits_numeral base m low high, same, readDigits_numeral base n low high]

theorem digit_plain (base : Nat) (high : base ≤ 16) (c : UInt8)
    (digit : (digitValue base c).isSome = true) :
    isspace c = false ∧ c ≠ 45 ∧ c ≠ 43 ∧ c ≠ 13 ∧ tolower c ≠ 120 := by
  have all : ∀ n < 256, (digitValue 16 (UInt8.ofNat n)).isSome = true →
      isspace (UInt8.ofNat n) = false ∧ UInt8.ofNat n ≠ 45 ∧ UInt8.ofNat n ≠ 43 ∧
        UInt8.ofNat n ≠ 13 ∧ tolower (UInt8.ofNat n) ≠ 120 := by
    decide +kernel
  have here := all c.toNat c.toNat_lt
  rw [UInt8.ofNat_toNat] at here
  apply here
  -- a digit of a smaller base is one of base 16
  revert digit
  simp only [digitValue, Option.isSome_filter]
  split_ifs <;> simp <;> omega

theorem readDigits_append (base acc : Nat) (digits rest : Bytes)
    (all : ∀ c ∈ digits, (digitValue base c).isSome = true)
    (stops : ∀ c ∈ rest.head?, digitValue base c = none) :
    readDigits base acc (digits ++ rest) = readDigits base acc digits := by
  induction digits generalizing acc with
  | nil =>
    cases rest with
    | nil => rfl
    | cons c rest => simp [readDigits, stops c rfl]
  | cons c digits ih =>
    obtain ⟨d, value⟩ := Option.isSome_iff_exists.mp (all c (mem_cons_self ..))
    simp only [cons_append, readDigits, value]
    exact ih _ fun e later => all e (mem_cons_of_mem _ later)

/-- `strtoul` reads digits, up to something that neither is a digit nor makes a `0x`. -/
theorem strtoul_digits (base : Nat) (high : base ≤ 16) (digits rest : Bytes) (nonempty : digits ≠ [])
    (all : ∀ c ∈ digits, (digitValue base c).isSome = true)
    (stops : ∀ c ∈ rest.head?, digitValue base c = none ∧ tolower c ≠ 120)
    (fits : readDigits base 0 digits ≤ ulongMax) :
    strtoul (digits ++ rest) base = readDigits base 0 digits := by
  have plain (c : UInt8) (member : c ∈ digits) := digit_plain base high c (all c member)
  obtain ⟨a, digits, rfl⟩ := exists_cons_of_ne_nil nonempty
  obtain ⟨blank, minus, plus, _⟩ := plain a (mem_cons_self ..)
  have signed : readSign ((a :: digits ++ rest).dropWhile isspace) = (false, a :: digits ++ rest) := by
    simp [blank, readSign, minus, plus]
  have unmarked : skipHexMark base (a :: digits ++ rest) = a :: digits ++ rest := by
    cases digits with
    | nil =>
      cases rest with
      | nil => rfl
      | cons c rest => simp [skipHexMark, (stops c rfl).2]
    | cons b digits => simp [skipHexMark, (plain b (by simp)).2.2.2.2]
  simp only [strtoul, signed, unmarked,
    readDigits_append base 0 _ rest all fun c first => (stops c first).1, Nat.not_lt.mpr fits, if_false,
    Bool.false_eq_true]
private theorem readSign_plain (s : Bytes) (plain : ∀ c ∈ s, c ≠ 45 ∧ c ≠ 43) :
    readSign s = (false, s) := by
  cases s with
  | nil => rfl
  | cons c rest =>
    have hc := plain c (by simp)
    simp [readSign, hc.1, hc.2]

private theorem readSign_numeral (base n : Nat) (low : 1 < base) (high : base < 17) :
    readSign ((numeral base n).dropWhile isspace) = (false, numeral base n) := by
  have plain := numeral_plain base n low high
  have blanks : (numeral base n).dropWhile isspace = numeral base n := by
    apply dropWhile_eq_self_iff.mpr
    intro nonempty
    simp [(plain _ (getElem_mem nonempty)).1]
  rw [blanks, readSign_plain _ fun c hc => ⟨(plain c hc).2.1, (plain c hc).2.2.1⟩]

theorem strtoul_numeral (base n : Nat) (low : 1 < base) (high : base < 17) (fits : n ≤ ulongMax) :
    strtoul (numeral base n) base = n := by
  have value := readDigits_numeral base n low high
  have digits (c : UInt8) (member : c ∈ numeral base n) : (digitValue base c).isSome = true := by
    obtain ⟨d, small, rfl⟩ := mem_numeral base n low high c member
    rw [digitValue_digitByte base high d small]
    rfl
  have read := strtoul_digits base (by omega) (numeral base n) [] (numeral_ne_nil base n) digits
    (by simp) (by omega)
  rwa [append_nil, value] at read

theorem atoi_numeral (n : Nat) (fits : n < 2147483648) : atoi (numeral 10 n) = n := by
  have long : min (n : Int) longMax = n := by
    unfold longMax
    omega
  simp only [atoi, readSign_numeral 10 n (by decide) (by decide),
    readDigits_numeral 10 n (by decide) (by decide), Bool.false_eq_true, if_false, long]
  exact Int.bmod_eq_of_le_mul_two (by omega) (by omega)

end Cox.Lib

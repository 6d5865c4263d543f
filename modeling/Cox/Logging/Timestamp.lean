import Mathlib.Algebra.Order.Ring.Int
import Cox.Lib.Printf

/-!
# Timestamps

`Timestamp` of logging/timestamp.h, with its text: the date and the time of day of `gmtime_r`,
in the Gregorian calendar, and the microseconds. Different timestamps have different texts, also
those before 1970, whose microseconds are printed as a large unsigned number.
-/
namespace Cox.Logging

open Cox.Lib List

/-! ### The calendar -/

structure Date where
  year : Int
  month : Int
  day : Int
  deriving DecidableEq

/-- A day of the calendar. Years begin in March here, so that a leap day is the last of its year;
four of them are a cycle, and four centuries are an era. All counts begin with zero. -/
structure Position where
  era : Int
  century : Int
  cycle : Int
  year : Int
  day : Int

/-- The position of a day, counted from the first of March of the year 0. -/
def position (n : Int) : Position :=
  let era := n / 146097
  let dayOfEra := n % 146097
  let century := min (dayOfEra / 36524) 3
  let dayOfCentury := dayOfEra - 36524 * century
  let cycle := dayOfCentury / 1461
  let dayOfCycle := dayOfCentury - 1461 * cycle
  let year := min (dayOfCycle / 365) 3
  { era, century, cycle, year, day := dayOfCycle - 365 * year }

/-- The month from March on; the months before the `m`-th have `(153 * m + 2) / 5` days. -/
def Position.month (p : Position) : Int := (5 * p.day + 2) / 153

def Position.date (p : Position) : Date where
  year := 400 * p.era + 100 * p.century + 4 * p.cycle + p.year + if p.month < 10 then 0 else 1
  month := if p.month < 10 then p.month + 3 else p.month - 9
  day := p.day - (153 * p.month + 2) / 5 + 1

/-- The date of a day, counted from 1970-01-01. -/
def civil (days : Int) : Date := (position (days + 719468)).date

example : civil 0 = ⟨1970, 1, 1⟩ ∧ civil 11016 = ⟨2000, 2, 29⟩ ∧ civil (-1) = ⟨1969, 12, 31⟩ := by
  decide

structure Position.Proper (p : Position) : Prop where
  century : 0 ≤ p.century ∧ p.century ≤ 3
  cycle : 0 ≤ p.cycle ∧ p.cycle ≤ 24
  year : 0 ≤ p.year ∧ p.year ≤ 3
  day : 0 ≤ p.day ∧ p.day ≤ 365

theorem proper_position (n : Int) : (position n).Proper := by
  refine ⟨?_, ?_, ?_, ?_⟩
  all_goals
    dsimp only [position]
    omega

def Position.count (p : Position) : Int :=
  146097 * p.era + 36524 * p.century + 1461 * p.cycle + 365 * p.year + p.day

theorem count_position (n : Int) : (position n).count = n := by
  dsimp only [Position.count, position]
  omega

theorem Position.Proper.month {p : Position} (proper : p.Proper) :
    0 ≤ p.month ∧ p.month ≤ 11 := by
  have day := proper.day
  dsimp only [Position.month]
  omega

theorem Position.Proper.date_injective {p q : Position} (left : p.Proper) (right : q.Proper)
    (same : p.date = q.date) : p.count = q.count := by
  have months := left.month
  have months' := right.month
  obtain ⟨century, cycle, year, day⟩ := left
  obtain ⟨century', cycle', year', day'⟩ := right
  have years := congrArg Date.year same
  have month := congrArg Date.month same
  have days := congrArg Date.day same
  dsimp only [Position.date] at years month days
  have sameMonth : p.month = q.month := by
    split_ifs at month <;> omega
  rw [sameMonth] at years days
  have sameDay : p.day = q.day := by omega
  have sameYears : 400 * p.era + 100 * p.century + 4 * p.cycle + p.year =
      400 * q.era + 100 * q.century + 4 * q.cycle + q.year := by omega
  have sameEra : p.era = q.era := by omega
  have sameCentury : p.century = q.century := by omega
  have sameCycle : p.cycle = q.cycle := by omega
  have sameYear : p.year = q.year := by omega
  rw [Position.count, Position.count, sameEra, sameCentury, sameCycle, sameYear, sameDay]

theorem civil_injective (m n : Int) (same : civil m = civil n) : m = n := by
  have count := (proper_position _).date_injective (proper_position _) same
  rw [count_position, count_position] at count
  omega

structure Tm where
  year : Int
  mon : Int
  mday : Int
  hour : Int
  min : Int
  sec : Int

def gmtime (seconds : Int) : Tm :=
  let date := civil (seconds / 86400)
  let time := seconds % 86400
  { year := date.year - 1900
    mon := date.month - 1
    mday := date.day
    hour := time / 3600
    min := time % 3600 / 60
    sec := time % 60 }

structure Tm.Proper (tm : Tm) : Prop where
  mon : 0 ≤ tm.mon ∧ tm.mon ≤ 11
  mday : 1 ≤ tm.mday ∧ tm.mday ≤ 31
  hour : 0 ≤ tm.hour ∧ tm.hour ≤ 23
  min : 0 ≤ tm.min ∧ tm.min ≤ 59
  sec : 0 ≤ tm.sec ∧ tm.sec ≤ 59

theorem proper_gmtime (seconds : Int) : (gmtime seconds).Proper := by
  have proper := proper_position (seconds / 86400 + 719468)
  have month := proper.month
  have day := proper.day
  refine ⟨?_, ?_, ?_, ?_, ?_⟩
  · dsimp only [gmtime, civil, Position.date]
    split <;> omega
  · dsimp only [gmtime, civil, Position.date, Position.month] at month ⊢
    omega
  all_goals
    dsimp only [gmtime]
    omega

theorem gmtime_injective (m n : Int) (same : gmtime m = gmtime n) : m = n := by
  have date : civil (m / 86400) = civil (n / 86400) := by
    have year := congrArg Tm.year same
    have mon := congrArg Tm.mon same
    have mday := congrArg Tm.mday same
    dsimp only [gmtime] at year mon mday
    generalize civil (m / 86400) = d at year mon mday ⊢
    generalize civil (n / 86400) = d' at year mon mday ⊢
    cases d
    cases d'
    simp only [Date.mk.injEq] at year mon mday ⊢
    omega
  have days := civil_injective _ _ date
  have hour := congrArg Tm.hour same
  have min := congrArg Tm.min same
  have sec := congrArg Tm.sec same
  dsimp only [gmtime] at hour min sec
  omega

/-! ### The text -/

/-- `microseconds_` is a `long`. -/
structure Timestamp where
  microseconds : Int
  low : -2 ^ 63 ≤ microseconds
  high : microseconds < 2 ^ 63

namespace Timestamp

@[ext] theorem ext {t u : Timestamp} (same : t.microseconds = u.microseconds) : t = u := by
  cases t
  cases u
  cases same
  rfl

def seconds (t : Timestamp) : Int := t.microseconds.tdiv 1000000

/-- The fraction, as an `unsigned long`. -/
def micros (t : Timestamp) : Nat := (t.microseconds.tmod 1000000 % 2 ^ 64).toNat

/-- `snprintf` with a buffer of 64 bytes. -/
def toString (t : Timestamp) : Bytes :=
  let tm := gmtime t.seconds
  (signed 4 (tm.year + 1900) ++ text "-" ++ signed 2 (tm.mon + 1) ++ text "-" ++
    signed 2 tm.mday ++ text " " ++ signed 2 tm.hour ++ text ":" ++ signed 2 tm.min ++
    text ":" ++ signed 2 tm.sec ++ text "." ++ padded 6 10 t.micros).take 63

def field (f : UInt8 × Int) : Bytes := f.1 :: signed 2 f.2

def TwoDigits (f : UInt8 × Int) : Prop := 0 ≤ f.2 ∧ f.2 < 100

theorem length_field (f : UInt8 × Int) (two : TwoDigits f) : (field f).length = 3 := by
  have small : f.2.natAbs < 10 ^ 2 := by
    have high := two.2
    have low := two.1
    omega
  rw [field, signed, if_neg (by have := two.1; omega), length_cons,
    length_padded 2 10 _ (by decide) (by decide) small]

theorem fields_injective (fs gs : List (UInt8 × Int)) (left : ∀ f ∈ fs, TwoDigits f)
    (right : ∀ g ∈ gs, TwoDigits g) (length : fs.length = gs.length)
    (same : fs.flatMap field = gs.flatMap field) : fs = gs := by
  induction fs generalizing gs with
  | nil =>
    cases gs with
    | nil => rfl
    | cons g gs => cases length
  | cons f fs ih =>
    cases gs with
    | nil => cases length
    | cons g gs =>
      obtain ⟨first, others⟩ := forall_mem_cons.mp left
      obtain ⟨first', others'⟩ := forall_mem_cons.mp right
      rw [flatMap_cons, flatMap_cons] at same
      have widths : (field f).length = (field g).length := by
        rw [length_field f first, length_field g first']
      obtain ⟨here, rest⟩ := append_inj same widths
      obtain ⟨separator, digits⟩ := List.cons.inj here
      have value := signed_injective 2 f.2 g.2 digits
      rw [ih gs others others' (Nat.succ.inj length) rest, Prod.ext separator value]

def fields (tm : Tm) : List (UInt8 × Int) :=
  [(45, tm.mon + 1), (45, tm.mday), (32, tm.hour), (58, tm.min), (58, tm.sec)]

theorem twoDigits_fields (tm : Tm) (proper : tm.Proper) : ∀ f ∈ fields tm, TwoDigits f := by
  obtain ⟨mon, mday, hour, min, sec⟩ := proper
  simp only [fields, TwoDigits, forall_mem_cons, not_mem_nil, false_imp_iff,
    implies_true, and_true]
  omega

theorem length_fields (fs : List (UInt8 × Int)) (two : ∀ f ∈ fs, TwoDigits f) :
    (fs.flatMap field).length = 3 * fs.length := by
  induction fs with
  | nil => rfl
  | cons f fs ih =>
    obtain ⟨first, others⟩ := forall_mem_cons.mp two
    rw [flatMap_cons, length_append, length_field f first, ih others, length_cons]
    omega

theorem seconds_tmod (t : Timestamp) :
    1000000 * t.seconds + t.microseconds.tmod 1000000 = t.microseconds ∧
      -1000000 < t.microseconds.tmod 1000000 ∧ t.microseconds.tmod 1000000 < 1000000 :=
  ⟨Int.mul_tdiv_add_tmod t.microseconds 1000000,
    Int.lt_tmod_of_pos t.microseconds (by decide), Int.tmod_lt_of_pos t.microseconds (by decide)⟩

/-- The range of a `long` ends in the year 294247. -/
theorem year_small (t : Timestamp) : ((gmtime t.seconds).year + 1900).natAbs < 10 ^ 6 := by
  obtain ⟨whole, above, below⟩ := t.seconds_tmod
  have low := t.low
  have high := t.high
  have proper := proper_position (t.seconds / 86400 + 719468)
  have century := proper.century
  have cycle := proper.cycle
  have year := proper.year
  have era : (position (t.seconds / 86400 + 719468)).era = (t.seconds / 86400 + 719468) / 146097 :=
    rfl
  dsimp only [gmtime, civil, Position.date]
  split <;> omega

theorem micros_small (t : Timestamp) : t.micros < 10 ^ 20 := by
  unfold micros
  omega

theorem length_signed_le (n : Int) (small : n.natAbs < 10 ^ 6) : (signed 4 n).length ≤ 7 := by
  have three := length_padded_le (4 - 1) 10 n.natAbs 6 (by decide) (by decide) small
  have four := length_padded_le 4 10 n.natAbs 6 (by decide) (by decide) small
  unfold signed
  split
  · rw [length_cons]
    omega
  · omega

/-- The buffer is large enough. -/
theorem toString_eq (t : Timestamp) :
    t.toString = (signed 4 ((gmtime t.seconds).year + 1900) ++
      (fields (gmtime t.seconds)).flatMap field) ++ 46 :: padded 6 10 t.micros := by
  have year := length_signed_le _ t.year_small
  have middle := length_fields _ (twoDigits_fields _ (proper_gmtime t.seconds))
  have fraction := length_padded_le 6 10 t.micros 20 (by decide) (by decide) t.micros_small
  have five : (fields (gmtime t.seconds)).length = 5 := rfl
  have whole : signed 4 ((gmtime t.seconds).year + 1900) ++ text "-" ++
      signed 2 ((gmtime t.seconds).mon + 1) ++ text "-" ++ signed 2 (gmtime t.seconds).mday ++
      text " " ++ signed 2 (gmtime t.seconds).hour ++ text ":" ++
      signed 2 (gmtime t.seconds).min ++ text ":" ++ signed 2 (gmtime t.seconds).sec ++
      text "." ++ padded 6 10 t.micros =
      (signed 4 ((gmtime t.seconds).year + 1900) ++
        (fields (gmtime t.seconds)).flatMap field) ++ 46 :: padded 6 10 t.micros := by
    simp [fields, field, text]
  dsimp only [toString]
  rw [whole]
  apply take_of_length_le
  rw [length_append, length_append, length_cons]
  omega

theorem dot_notMem_signed (width : Nat) (n : Int) : 46 ∉ signed width n := by
  have digits (width n : Nat) : 46 ∉ padded width 10 n := by
    intro member
    obtain ⟨d, small, same⟩ := mem_padded width 10 n (by decide) (by decide) 46 member
    have other : ∀ d < 10, (46 : UInt8) ≠ digitByte d := by decide
    exact other d small same
  unfold signed
  split
  · rw [mem_cons, not_or]
    exact ⟨by decide, digits _ _⟩
  · exact digits _ _

theorem dot_notMem_fields (tm : Tm) : 46 ∉ (fields tm).flatMap field := by
  simp [fields, field, dot_notMem_signed]

theorem toString_injective (t u : Timestamp) (same : t.toString = u.toString) : t = u := by
  have two := twoDigits_fields _ (proper_gmtime t.seconds)
  have two' := twoDigits_fields _ (proper_gmtime u.seconds)
  have free (v : Timestamp) : 46 ∉ signed 4 ((gmtime v.seconds).year + 1900) ++
      (fields (gmtime v.seconds)).flatMap field := by
    rw [mem_append, not_or]
    exact ⟨dot_notMem_signed _ _, dot_notMem_fields _⟩
  rw [toString_eq, toString_eq] at same
  obtain ⟨date, fraction⟩ := cut_injective _ _ _ _ 46 (free t) (free u) same
  have widths : ((fields (gmtime t.seconds)).flatMap field).length =
      ((fields (gmtime u.seconds)).flatMap field).length := by
    rw [length_fields _ two, length_fields _ two']
    rfl
  obtain ⟨year, rest⟩ := append_inj' date widths
  have years := signed_injective 4 _ _ year
  have others := fields_injective _ _ two two' rfl rest
  have seconds : t.seconds = u.seconds := by
    apply gmtime_injective
    generalize gmtime t.seconds = tm at years others ⊢
    generalize gmtime u.seconds = tm' at years others ⊢
    cases tm
    cases tm'
    simp only [fields, List.cons.injEq, Prod.mk.injEq, true_and, and_true, Tm.mk.injEq]
      at years others ⊢
    omega
  have micros := padded_injective 6 10 _ _ (by decide) (by decide) fraction
  obtain ⟨whole, above, below⟩ := t.seconds_tmod
  obtain ⟨whole', above', below'⟩ := u.seconds_tmod
  unfold Timestamp.micros at micros
  apply ext
  omega

end Timestamp

end Cox.Logging

import Mathlib.Algebra.Order.Ring.Int
import Cox.Flowcontrol.Backoff
import Cox.Lib.Machine

/-!
# The closed form of the back-off

After `k` failures of a key its base delay is `initial * 2 ^ (k - 1)`, up to the cap. The
failures are counted beside the back-off, from the last time its entry was removed.

The constructor corrects an initial delay that is not positive, but compares the cap with the
one it was given. If neither is positive the cap ends below the initial delay, and the form
does not hold even before the first failure.
-/
namespace Cox.Flowcontrol.JitteredBackoff

open Cox.Lib Function

/-! ### The machine -/

inductive Event where
  | next (key : Bytes) (now : Int)
  | nextDelay (key : Bytes) (now : Int)
  | get (key : Bytes)
  | reset (key : Bytes)
  | gc (maxAge : Duration) (now : Int)

def call (b : JitteredBackoff) : Event → JitteredBackoff
  | .next key now => b.next key now
  | .nextDelay key now => (b.nextDelay key now).2
  | .get key => (b.get key).2
  | .reset key => b.reset key
  | .gc maxAge now => b.gc maxAge now

def step (b : JitteredBackoff) (e : Event) : Option JitteredBackoff := some (b.call e)

def forgets (b : JitteredBackoff) (key : Bytes) : Event → Bool
  | .reset key' => key == key'
  | .gc maxAge now => (b.entries key).isSome && ((b.gc maxAge now).entries key).isNone
  | .next _ _ | .nextDelay _ _ | .get _ => false

def fails (key : Bytes) : Event → Bool
  | .next key' _ | .nextDelay key' _ => key == key'
  | .get _ | .reset _ | .gc _ _ => false

/-- Counts the failures of each key since its entry was removed. -/
def noteFailures (b : JitteredBackoff) (e : Event) (failures : Bytes → Nat) (key : Bytes) : Nat :=
  if b.forgets key e then 0 else if fails key e then failures key + 1 else failures key

/-! ### The form -/

def form (b : JitteredBackoff) : Nat → Duration
  | 0 => b.initial
  | k + 1 => min (b.initial * 2 ^ k) b.max

/-- The base delays have the closed form, lie between the initial delay and the cap, and can be
doubled in 64 bits. -/
structure Formed (x : JitteredBackoff × (Bytes → Nat)) (key : Bytes) : Prop where
  form : x.1.baseDelay key = x.1.form (x.2 key)
  above : x.1.initial ≤ x.1.baseDelay key
  below : x.1.baseDelay key ≤ x.1.max
  doubles : x.1.baseDelay key * 2 < 2 ^ 63

/-- A call on another key changes nothing, and no call lowers the delay but one that removes the
entry. -/
def Steady (b : JitteredBackoff) (e : Event) : Prop :=
  ∀ key, (b.forgets key e = false → b.baseDelay key ≤ (b.call e).baseDelay key) ∧
    (b.forgets key e = false → fails key e = false → (b.call e).baseDelay key = b.baseDelay key)

/-- The base delays, with the failures counted beside them, are as documented. -/
structure Follows (x : JitteredBackoff × (Bytes → Nat)) : Prop where
  formed : ∀ key, Formed x key
  steady : ∀ e, Steady x.1 e
  twoWays : ∀ key now, x.1.nextDelay key now = (x.1.next key now).get key

/-! ### One call -/

def delay (b : JitteredBackoff) (key : Bytes) : Option Duration := (b.entries key).map (·.duration)

def grown (b : JitteredBackoff) : Option Duration → Duration
  | none => b.initial
  | some duration => min (duration * 2) b.max

section Call

variable (b : JitteredBackoff)

theorem baseDelay_eq (key : Bytes) : b.baseDelay key = (b.delay key).getD b.initial := by
  rw [Backoff.baseDelay, delay]
  cases b.entries key with
  | none => rfl
  | some entry => rfl

theorem applyJitter_backoff (d : Duration) : (b.applyJitter d).2.toBackoff = b.toBackoff := by
  rw [applyJitter]
  split <;> rfl

theorem nextDelay_next (key : Bytes) (now : Int) :
    b.toBackoff.nextDelay key now =
      ((b.toBackoff.next key now).baseDelay key, b.toBackoff.next key now) := by
  simp only [Backoff.nextDelay, Backoff.next, Backoff.baseDelay]
  cases b.entries key with
  | none => simp only [update_self]
  | some entry => simp only [update_self]

theorem delay_next (key key' : Bytes) (now : Int) :
    ((b.toBackoff.next key now).entries key').map (·.duration) =
      if key' = key then some (b.grown (b.delay key)) else b.delay key' := by
  by_cases same : key' = key
  · subst same
    rw [if_pos rfl, Backoff.next, delay]
    cases b.entries key' with
    | none => simp only [update_self, Option.map_some, Option.map_none, grown]
    | some entry => simp only [update_self, Option.map_some, grown]
  · rw [if_neg same, Backoff.next, delay]
    cases b.entries key with
    | none => simp only [update_of_ne same]
    | some entry => simp only [update_of_ne same]

theorem delay_gc (key : Bytes) (maxAge : Duration) (now : Int) :
    (b.gc maxAge now).delay key =
      if b.forgets key (.gc maxAge now) then none else b.delay key := by
  cases found : b.entries key with
  | none => simp [delay, forgets, gc, Backoff.gc, found]
  | some entry =>
    by_cases old : now - entry.lastUpdate > maxAge * 1000000
    · simp [delay, forgets, gc, Backoff.gc, found, old]
    · simp [delay, forgets, gc, Backoff.gc, found, old]

theorem delay_call (e : Event) (key : Bytes) :
    (b.call e).delay key =
      if b.forgets key e then none
      else if fails key e then some (b.grown (b.delay key))
      else b.delay key := by
  cases e with
  | next key' now =>
    rw [call, delay, next, delay_next]
    by_cases same : key = key'
    · simp [same, forgets, fails]
    · simp [same, forgets, fails]
  | nextDelay key' now =>
    rw [call, delay, nextDelay, applyJitter_backoff, nextDelay_next, delay_next]
    by_cases same : key = key'
    · simp [same, forgets, fails]
    · simp [same, forgets, fails]
  | get key' =>
    rw [call, delay, get, applyJitter_backoff]
    rfl
  | reset key' =>
    rw [call, delay, reset, Backoff.reset]
    by_cases same : key = key'
    · simp [same, forgets]
    · simp [same, forgets, fails, delay]
  | gc maxAge now =>
    rw [call, delay_gc]
    simp [fails]

theorem limits_call (e : Event) : (b.call e).initial = b.initial ∧ (b.call e).max = b.max := by
  cases e with
  | next key now =>
    rw [call, next, Backoff.next]
    cases b.entries key <;> exact ⟨rfl, rfl⟩
  | nextDelay key now =>
    rw [call, nextDelay, applyJitter_backoff]
    exact ⟨rfl, rfl⟩
  | get key =>
    rw [call, get, applyJitter_backoff]
    exact ⟨rfl, rfl⟩
  | reset key => exact ⟨rfl, rfl⟩
  | gc maxAge now => exact ⟨rfl, rfl⟩

end Call

/-! ### Whole runs -/

theorem capped_double (a cap : Int) (nonneg : 0 ≤ cap) :
    min (min a cap * 2) cap = min (a * 2) cap := by
  omega

/-- The cap is not below the initial delay, and the entries are those of the counted failures. -/
structure Counted (x : JitteredBackoff × (Bytes → Nat)) : Prop where
  positive : 0 < x.1.initial
  ordered : x.1.initial ≤ x.1.max
  small : x.1.max < 2 ^ 62
  delays : ∀ key, x.1.delay key = if x.2 key = 0 then none else some (x.1.form (x.2 key))

section Run

variable {b : JitteredBackoff} {failures : Bytes → Nat}

variable (counted : Counted (b, failures))
include counted

theorem Counted.grown_form (key : Bytes) : b.grown (b.delay key) = b.form (failures key + 1) := by
  have positive : 0 < b.initial := counted.positive
  have ordered : b.initial ≤ b.max := counted.ordered
  have delays := counted.delays key
  simp only at delays
  cases k : failures key with
  | zero =>
    rw [k, if_pos rfl] at delays
    simp only [delays, grown, form, pow_zero, mul_one]
    exact (min_eq_left ordered).symm
  | succ k' =>
    rw [k, if_neg (Nat.succ_ne_zero k')] at delays
    simp only [delays, grown, form]
    rw [capped_double _ _ (positive.le.trans ordered), pow_succ, mul_assoc]

theorem Counted.step (e : Event) : Counted (b.call e, b.noteFailures e failures) := by
  obtain ⟨initial, max⟩ := b.limits_call e
  refine ⟨?_, ?_, ?_, ?_⟩
  · exact initial ▸ counted.positive
  · exact initial ▸ max ▸ counted.ordered
  · exact max ▸ counted.small
  · intro key
    have same : (b.call e).form = b.form := by
      funext k
      cases k with
      | zero => exact initial
      | succ k => simp only [form, initial, max]
    simp only [delay_call, noteFailures, same]
    by_cases forgets : b.forgets key e
    · simp [forgets]
    · by_cases fails : fails key e
      · simp [forgets, fails, counted.grown_form key]
      · simp only [forgets, fails, if_false, Bool.false_eq_true]
        exact counted.delays key

theorem Counted.baseDelay (key : Bytes) : b.baseDelay key = b.form (failures key) := by
  have delays := counted.delays key
  simp only at delays
  rw [baseDelay_eq, delays]
  cases failures key with
  | zero => rfl
  | succ k => rfl

theorem Counted.form_between (k : Nat) : b.initial ≤ b.form k ∧ b.form k ≤ b.max := by
  have positive : 0 < b.initial := counted.positive
  cases k with
  | zero => exact ⟨le_refl _, counted.ordered⟩
  | succ k =>
    have grows : b.initial * 1 ≤ b.initial * 2 ^ k :=
      mul_le_mul_of_nonneg_left (one_le_pow₀ (by decide)) positive.le
    rw [mul_one] at grows
    exact ⟨le_min grows counted.ordered, min_le_right _ _⟩

theorem Counted.formed (key : Bytes) : Formed (b, failures) key := by
  obtain ⟨above, below⟩ := counted.form_between (failures key)
  rw [← counted.baseDelay key] at above below
  have small : b.max < 2 ^ 62 := counted.small
  exact ⟨counted.baseDelay key, above, below, by
    show b.baseDelay key * 2 < 2 ^ 63
    have doubled : b.baseDelay key * 2 < 2 ^ 62 * 2 :=
      mul_lt_mul_of_pos_right (below.trans_lt small) (by decide)
    exact doubled⟩

theorem Counted.form_succ (k : Nat) : b.form k ≤ b.form (k + 1) := by
  have positive : 0 < b.initial := counted.positive
  cases k with
  | zero => exact (counted.form_between 1).1
  | succ k =>
    have grows : b.initial * 2 ^ k ≤ b.initial * 2 ^ (k + 1) :=
      mul_le_mul_of_nonneg_left (pow_le_pow_right₀ (by decide) (Nat.le_succ k)) positive.le
    exact min_le_min_right _ grows

theorem Counted.steady (e : Event) : Steady b e := by
  intro key
  obtain ⟨initial, max⟩ := b.limits_call e
  constructor
  · intro kept
    rw [baseDelay_eq (b.call e), delay_call, kept, initial, if_neg Bool.false_ne_true]
    by_cases failed : fails key e = true
    · rw [if_pos failed, counted.grown_form key, Option.getD_some, counted.baseDelay key]
      exact counted.form_succ _
    · rw [if_neg failed, ← baseDelay_eq]
  · intro kept passed
    rw [baseDelay_eq (b.call e), delay_call, kept, passed, initial, if_neg Bool.false_ne_true,
      if_neg Bool.false_ne_true, ← baseDelay_eq]

end Run

theorem nextDelay_eq (b : JitteredBackoff) (key : Bytes) (now : Int) :
    b.nextDelay key now = (b.next key now).get key := by
  rw [nextDelay, nextDelay_next]
  rfl

/-- The constructor leaves the cap below the initial delay if neither argument is positive. -/
theorem new_ordered_iff (initial max : Duration) :
    (Backoff.new initial max).initial ≤ (Backoff.new initial max).max ↔
      0 < initial ∨ 0 < max := by
  unfold Backoff.new Duration at *
  simp only
  split <;> split <;> omega

theorem counted_new (initial max : Duration) (jitter : Jitter) (seed : UInt64)
    (smallInitial : initial < 2 ^ 62) (smallMax : max < 2 ^ 62)
    (positive : 0 < initial ∨ 0 < max) :
    Counted (new initial max jitter seed, fun _ => 0) := by
  refine ⟨?_, (new_ordered_iff initial max).mpr positive, ?_, ?_⟩
  · simp only [new, Backoff.new]
    split
    · assumption
    · decide
  · simp only [new, Backoff.new]
    split
    · exact smallMax
    · exact smallInitial
  · intro key
    rfl

/-- **Closed form.** Along every run the base delays are the initial delay, doubled with each
failure up to the cap, and they never go down without a reset, exactly if one of the arguments
of the constructor is positive. -/
theorem follows_iff (initial max : Duration) (jitter : Jitter) (seed : UInt64)
    (smallInitial : initial < 2 ^ 62) (smallMax : max < 2 ^ 62) :
    (∀ events, Machine.Always (Machine.remembering step noteFailures) Follows
        (new initial max jitter seed, fun _ => 0) events) ↔
      0 < initial ∨ 0 < max := by
  constructor
  · intro always
    have first := (Machine.Always.head _ [] (always [])).formed []
    exact (new_ordered_iff initial max).mp (first.above.trans first.below)
  · intro positive events
    apply Machine.Always.mono (P := Counted)
    · intro x counted
      exact ⟨counted.formed, counted.steady, nextDelay_eq x.1⟩
    · apply Machine.always_of_keeps
      · rintro ⟨b, failures⟩ e x counted stepped
        cases stepped
        exact counted.step e
      · exact counted_new initial max jitter seed smallInitial smallMax positive

/-- Ten milliseconds up to a second, without jitter; two failures. -/
theorem follows_tenToThousand :
    let b := new 10 1000 ⟨true, fun _ d => d⟩ 1
    ((b.next (text "a") 0).next (text "a") 5).baseDelay (text "a") = 20 ∧
      ∀ events, Machine.Always (Machine.remembering step noteFailures) Follows (b, fun _ => 0)
        events :=
  ⟨rfl, (follows_iff 10 1000 ⟨true, fun _ d => d⟩ 1 (by decide) (by decide)).mpr
    (.inl (by decide))⟩

/-- Both arguments zero: the initial delay is corrected to one and the cap stays zero. -/
theorem not_follows_zero :
    (new 0 0 ⟨true, fun _ d => d⟩ 1).initial = 1 ∧ (new 0 0 ⟨true, fun _ d => d⟩ 1).max = 0 ∧
      ((new 0 0 ⟨true, fun _ d => d⟩ 1).next (text "a") 0).baseDelay (text "a") = 1 ∧
      ((new 0 0 ⟨true, fun _ d => d⟩ 1).next (text "a") 0).form 1 = 0 ∧
      ¬∀ events, Machine.Always (Machine.remembering step noteFailures) Follows
        (new 0 0 ⟨true, fun _ d => d⟩ 1, fun _ => 0) events := by
  refine ⟨rfl, rfl, rfl, rfl, ?_⟩
  intro always
  have first := (Machine.Always.head _ [] (always [])).formed []
  exact absurd (first.above.trans first.below) (by decide)

end Cox.Flowcontrol.JitteredBackoff

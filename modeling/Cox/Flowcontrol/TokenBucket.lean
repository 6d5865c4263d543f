import Mathlib.Algebra.Order.Field.Rat
import Mathlib.Tactic.Linarith
import Mathlib.Tactic.Ring
import Cox.Lib.Potential

/-!
# The token bucket

`TokenBucket` of flowcontrol/token_bucket.h, with rational numbers in the place of `double` and
times in seconds. Every call holds the mutex while it reads the clock, so calls are steps of a
machine, and a reading is never earlier than the one before.

Tokens are added when somebody looks. What may still be admitted in a window of time is bounded
by the tokens there are and those that can come until the window closes; before the window
opens it is bounded by a full bucket and the whole window.
-/
namespace Cox.Flowcontrol

open Cox.Lib

structure TokenBucket where
  qps : ℚ
  burst : ℚ
  tokens : ℚ
  lastRefill : ℚ

namespace TokenBucket

def new (qps burst now : ℚ) : TokenBucket where
  qps := if qps > 0 then qps else 0
  burst := if burst ≥ 1 then burst else 1
  tokens := if burst ≥ 1 then burst else 1
  lastRefill := now

def refillLocked (b : TokenBucket) (now : ℚ) : TokenBucket :=
  if now ≤ b.lastRefill then b
  else
    let elapsed := now - b.lastRefill
    { b with lastRefill := now, tokens := min b.burst (b.tokens + elapsed * b.qps) }

def tryAcquireN (b : TokenBucket) (n now : ℚ) : Bool × TokenBucket :=
  if n ≤ 0 then (true, b)
  else
    let b := b.refillLocked now
    if b.tokens ≥ n then (true, { b with tokens := b.tokens - n }) else (false, b)

def tryAcquire (b : TokenBucket) (now : ℚ) : Bool × TokenBucket := b.tryAcquireN 1 now

def availableTokens (b : TokenBucket) (now : ℚ) : ℚ × TokenBucket :=
  ((b.refillLocked now).tokens, b.refillLocked now)

/-! ### The machine -/

/-- A call, with the time at which it is made. -/
inductive Event where
  | tryAcquire (now : ℚ)
  | tryAcquireN (n now : ℚ)
  | availableTokens (now : ℚ)

def Event.time : Event → ℚ
  | .tryAcquire now | .tryAcquireN _ now | .availableTokens now => now

def call (b : TokenBucket) : Event → TokenBucket
  | .tryAcquire now => (b.tryAcquire now).2
  | .tryAcquireN n now => (b.tryAcquireN n now).2
  | .availableTokens now => (b.availableTokens now).2

def step (b : TokenBucket) (e : Event) : Option TokenBucket :=
  if e.time < b.lastRefill then none else some (b.call e)

/-- The amount that a call admits; one that asks for nothing is let through and admits nothing. -/
def admitted (b : TokenBucket) : Event → ℚ
  | .tryAcquire now => if (b.tryAcquire now).1 then 1 else 0
  | .tryAcquireN n now => if n > 0 ∧ (b.tryAcquireN n now).1 then n else 0
  | .availableTokens _ => 0

/-- The amount that a call admits between two times. -/
def admittedIn (s t : ℚ) (b : TokenBucket) (e : Event) : ℚ :=
  if s ≤ e.time ∧ e.time ≤ t then b.admitted e else 0

structure Within (b : TokenBucket) : Prop where
  rate : 0 ≤ b.qps
  nonneg : 0 ≤ b.tokens
  capped : b.tokens ≤ b.burst

theorem within_new (qps burst now : ℚ) : Within (new qps burst now) where
  rate := by
    simp only [new]
    split <;> linarith
  nonneg := by
    simp only [new]
    split <;> linarith
  capped := le_refl _

/-! ### One call -/

section Call

variable {b : TokenBucket}

/-- A call at a later time that takes `amount` out of the bucket, after it has been refilled. -/
structure Takes (b : TokenBucket) (amount now : ℚ) (b' : TokenBucket) : Prop where
  qps : b'.qps = b.qps
  burst : b'.burst = b.burst
  later : b'.lastRefill = now
  nonneg : 0 ≤ b'.tokens
  capped : amount + b'.tokens ≤ b.burst
  refilled : amount + b'.tokens ≤ b.tokens + (now - b.lastRefill) * b.qps

theorem Within.refill (within : Within b) (now : ℚ) (forward : b.lastRefill ≤ now) :
    Takes b 0 now (b.refillLocked now) := by
  rw [refillLocked]
  split
  next same =>
    have equal : b.lastRefill = now := le_antisymm forward same
    refine ⟨rfl, rfl, equal, within.nonneg, ?_, ?_⟩
    · rw [zero_add]
      exact within.capped
    · rw [equal]
      linarith
  next =>
    have gain : 0 ≤ (now - b.lastRefill) * b.qps :=
      mul_nonneg (sub_nonneg.mpr forward) within.rate
    refine ⟨rfl, rfl, rfl, ?_, ?_, ?_⟩
    · apply le_min
      · exact le_trans within.nonneg within.capped
      · exact add_nonneg within.nonneg gain
    · rw [zero_add]
      exact min_le_left _ _
    · rw [zero_add]
      exact min_le_right _ _

/-- A call that is refused takes nothing; one that is admitted takes its amount. -/
theorem Within.acquire (within : Within b) (n now : ℚ) (forward : b.lastRefill ≤ now)
    (positive : 0 < n) :
    Takes b (if (b.tryAcquireN n now).1 then n else 0) now (b.tryAcquireN n now).2 := by
  have refill := within.refill now forward
  rw [tryAcquireN, if_neg (not_le.mpr positive)]
  by_cases enough : (b.refillLocked now).tokens ≥ n
  · simp only [enough, if_true]
    have capped := refill.capped
    have refilled := refill.refilled
    refine ⟨refill.qps, refill.burst, refill.later, ?_, ?_, ?_⟩
    · exact sub_nonneg.mpr enough
    · linarith
    · linarith
  · simp only [enough, if_false, Bool.false_eq_true]
    exact refill

/-- What a call can do: nothing, or take what it admits. -/
inductive Calls (b : TokenBucket) (e : Event) (b' : TokenBucket) : Prop where
  | nothing (same : b' = b) (free : b.admitted e = 0)
  | takes (takes : Takes b (b.admitted e) e.time b')

theorem Within.calls (within : Within b) (e : Event) (forward : b.lastRefill ≤ e.time) :
    Calls b e (b.call e) := by
  cases e with
  | tryAcquire now =>
    exact .takes (within.acquire 1 now forward zero_lt_one)
  | tryAcquireN n now =>
    by_cases positive : n > 0
    · have takes := within.acquire n now forward positive
      apply Calls.takes
      simp only [admitted, positive, true_and]
      exact takes
    · apply Calls.nothing
      · simp only [call, tryAcquireN, if_pos (not_lt.mp positive)]
      · simp only [admitted, positive, false_and, if_false]
  | availableTokens now =>
    exact .takes (within.refill now forward)

theorem Within.step {b' : TokenBucket} (within : Within b) (e : Event)
    (stepped : b.step e = some b') : Calls b e b' := by
  rw [TokenBucket.step] at stepped
  split at stepped
  next => cases stepped
  next forward =>
    cases stepped
    exact within.calls e (not_lt.mp forward)

theorem Calls.within {b' : TokenBucket} {e : Event} (calls : Calls b e b') (within : Within b)
    (amount : 0 ≤ b.admitted e) : Within b' := by
  cases calls with
  | nothing same =>
    rw [same]
    exact within
  | takes takes =>
    have capped := takes.capped
    refine ⟨?_, takes.nonneg, ?_⟩
    · rw [takes.qps]
      exact within.rate
    · rw [takes.burst]
      linarith

theorem admitted_nonneg (e : Event) : 0 ≤ b.admitted e := by
  cases e with
  | tryAcquire now =>
    simp only [admitted]
    split <;> norm_num
  | tryAcquireN n now =>
    simp only [admitted]
    split
    next asks => exact le_of_lt asks.1
    next => exact le_refl 0
  | availableTokens now => exact le_refl 0

end Call

/-! ### Windows -/

section Window

variable (s t : ℚ)

/-- What can still be admitted between two times. -/
def allowance (b : TokenBucket) : ℚ :=
  if b.lastRefill < s then b.burst + b.qps * (t - s)
  else if b.lastRefill ≤ t then b.tokens + b.qps * (t - b.lastRefill)
  else 0

variable {s t} {b b' : TokenBucket}

theorem Within.allowance_nonneg (within : Within b) (ordered : s ≤ t) : 0 ≤ b.allowance s t := by
  have burst : 0 ≤ b.burst := le_trans within.nonneg within.capped
  rw [allowance]
  split
  next =>
    have gain := mul_nonneg within.rate (sub_nonneg.mpr ordered)
    linarith
  next =>
    split
    next inside =>
      have gain := mul_nonneg within.rate (sub_nonneg.mpr inside)
      have tokens := within.nonneg
      linarith
    next => exact le_refl 0

theorem Within.open_le (within : Within b) (amount now : ℚ) (opened : s ≤ now)
    (capped : amount ≤ b.burst) : amount + b.qps * (t - now) ≤ b.burst + b.qps * (t - s) := by
  have shorter : b.qps * (t - now) ≤ b.qps * (t - s) := by
    apply mul_le_mul_of_nonneg_left _ within.rate
    linarith
  linarith

theorem Within.allowance_le (within : Within b) (ordered : s ≤ t) :
    b.allowance s t ≤ b.burst + b.qps * (t - s) := by
  rw [allowance]
  split
  next => exact le_refl _
  next opened =>
    split
    next => exact within.open_le _ _ (not_lt.mp opened) within.capped
    next =>
      have burst : 0 ≤ b.burst := le_trans within.nonneg within.capped
      have gain := mul_nonneg within.rate (sub_nonneg.mpr ordered)
      linarith

theorem Takes.pays {amount now : ℚ} (takes : Takes b amount now b') (within : Within b)
    (ordered : s ≤ t) (forward : b.lastRefill ≤ now) :
    (if s ≤ now ∧ now ≤ t then amount else 0) + b'.allowance s t ≤ b.allowance s t := by
  have later := takes.later
  rcases lt_or_ge now s with before | opened
  · -- the window has not opened
    have was : b.lastRefill < s := lt_of_le_of_lt forward before
    rw [if_neg (fun inside => not_le.mpr before inside.1), allowance, allowance, later,
      if_pos before, if_pos was, takes.burst, takes.qps, zero_add]
  · rcases le_or_gt now t with inside | closed
    · rw [if_pos ⟨opened, inside⟩, allowance, later, if_neg (not_lt.mpr opened), if_pos inside,
        takes.qps, ← add_assoc, allowance]
      split
      next => exact within.open_le _ _ opened takes.capped
      next =>
        rw [if_pos (le_trans forward inside)]
        calc amount + b'.tokens + b.qps * (t - now)
            ≤ b.tokens + (now - b.lastRefill) * b.qps + b.qps * (t - now) := by
              apply add_le_add_left takes.refilled
          _ = b.tokens + b.qps * (t - b.lastRefill) := by ring
    · have after : ¬now < s := not_lt.mpr opened
      rw [if_neg (fun inside => not_le.mpr closed inside.2), allowance, later, if_neg after,
        if_neg (not_le.mpr closed), zero_add]
      exact within.allowance_nonneg ordered

theorem Within.pays (within : Within b) (ordered : s ≤ t) (e : Event)
    (stepped : b.step e = some b') :
    b.admittedIn s t e + b'.allowance s t ≤ b.allowance s t := by
  have forward : b.lastRefill ≤ e.time := by
    rw [TokenBucket.step] at stepped
    split at stepped
    next => cases stepped
    next forward => exact not_lt.mp forward
  rw [admittedIn]
  cases within.step e stepped with
  | nothing same free => rw [same, free, ite_self, zero_add]
  | takes takes => exact takes.pays within ordered forward

end Window

/-! ### Whole runs -/

theorem Within.keeps (b : TokenBucket) (e : Event) (b' : TokenBucket) (within : Within b)
    (stepped : b.step e = some b') : Within b' :=
  (within.step e stepped).within within (admitted_nonneg e)

theorem Calls.burst {b b' : TokenBucket} {e : Event} (calls : Calls b e b') :
    b'.burst = b.burst := by
  cases calls with
  | nothing same => rw [same]
  | takes takes => exact takes.burst

/-- **The rate is kept on every window**: at any time there are between none and `burst` tokens,
and what is admitted between two times is at most a full bucket and what comes in meanwhile. -/
theorem rateKept_always (qps burst start : ℚ) (events : List Event) :
    let b := new qps burst start
    Machine.Always step (fun c => 0 ≤ c.tokens ∧ c.tokens ≤ b.burst) b events ∧
      ∀ s t : ℚ, s ≤ t →
        Machine.total step (admittedIn s t) b events ≤ b.burst + b.qps * (t - s) := by
  intro b
  have initial : Within b := within_new qps burst start
  constructor
  · have kept : Machine.Always step (fun c => Within c ∧ c.burst = b.burst) b events := by
      apply Machine.always_of_keeps _ b events ⟨initial, rfl⟩
      intro c e c' inv stepped
      have calls := inv.1.step e stepped
      exact ⟨calls.within inv.1 (admitted_nonneg e), calls.burst.trans inv.2⟩
    apply Machine.Always.mono _ b events kept
    intro c inv
    exact ⟨inv.1.nonneg, inv.2 ▸ inv.1.capped⟩
  · intro s t ordered
    calc Machine.total step (admittedIn s t) b events
        ≤ b.allowance s t := by
          apply Machine.total_le Within.keeps _ _ b events initial
          · exact fun c e c' within stepped => within.pays ordered e stepped
          · exact fun c within => within.allowance_nonneg ordered
      _ ≤ b.burst + b.qps * (t - s) := initial.allowance_le ordered

/-- Calls at five tokens a second, with a burst of two: the third finds the bucket empty, and
after half a second it is full again. -/
def burstOfCalls : List Event :=
  [.tryAcquire 1, .tryAcquireN 1 1, .tryAcquireN (1 / 2) 1, .tryAcquireN (-3) 1,
    .availableTokens (3 / 2), .tryAcquireN 2 (3 / 2)]

theorem rateKept_burstOfCalls :
    Machine.total step (admittedIn 1 (3 / 2)) (new 5 2 0) burstOfCalls = 4 ∧
      Machine.total step (admittedIn 1 (3 / 2)) (new 5 2 0) burstOfCalls ≤ 2 + 5 * (3 / 2 - 1) :=
  ⟨by decide +kernel, (rateKept_always 5 2 0 burstOfCalls).2 1 (3 / 2) (by norm_num)⟩

end TokenBucket

end Cox.Flowcontrol

import Mathlib.Data.List.Nodup
import Mathlib.Logic.Function.Basic
import Cox.Lib.Holdings
import Cox.Lib.Machine

/-!
# The concurrency limiter

`ConcurrencyLimiter` of flowcontrol/concurrency_limiter.h and its permits, for any number of
limiters: a permit may be assigned over one that belongs to another limiter.

A step is one atomic operation on `in_flight_`, with what its thread does to its permits
before the next one. The loads are relaxed, so they may return any value that `in_flight_` has
had, and `compare_exchange_weak` may fail for no reason; it succeeds only on the current value.
`in_flight_` is an integer here: a `size_t` would wrap below zero, and is too large for the
permits in memory to wrap above.
-/
namespace Cox.Flowcontrol

open Cox.Lib Machine List Function

abbrev PermitId := Nat

abbrev ThreadId := Nat

variable {L : Type} [DecidableEq L]

/-- Where a call of `tryAcquire` stands. -/
inductive Attempt (L : Type) where
  /-- There is no maximum: `fetch_add` comes next. -/
  | adding (l : L)
  /-- In the loop, with the value of `cur`. -/
  | trying (l : L) (cur : Int)

/-- The limiters `L`, the permits that are alive and the calls under way. -/
structure Limiters (L : Type) where
  inFlight : L → Int := fun _ => 0
  /-- The values that `in_flight_` has had. -/
  past : L → List Int := fun _ => [0]
  permits : List PermitId := []
  /-- `limiter_` of a permit. -/
  limiter : PermitId → Option L := fun _ => none
  calls : ThreadId → Option (Attempt L) := fun _ => none

namespace Limiters

/-! ### Atomic operations and permits -/

def store (s : Limiters L) (l : L) (value : Int) : Limiters L :=
  { s with
    inFlight := Function.update s.inFlight l value
    past := Function.update s.past l (value :: s.past l) }

def setLimiter (s : Limiters L) (p : PermitId) (l : Option L) : Limiters L :=
  { s with limiter := Function.update s.limiter p l }

def construct (s : Limiters L) (p : PermitId) (l : Option L) : Limiters L :=
  { s.setLimiter p l with permits := p :: s.permits }

def release (s : Limiters L) (p : PermitId) : Limiters L :=
  match s.limiter p with
  | some l => (s.store l (s.inFlight l - 1)).setLimiter p none
  | none => s

def moveConstruct (s : Limiters L) (p other : PermitId) : Limiters L :=
  (s.construct p (s.limiter other)).setLimiter other none

def moveAssign (s : Limiters L) (p other : PermitId) : Limiters L :=
  if p = other then s
  else
    let s' := s.release p
    (s'.setLimiter p (s'.limiter other)).setLimiter other none

def destroy (s : Limiters L) (p : PermitId) : Limiters L :=
  { s.release p with permits := s.permits.erase p }

def returns (s : Limiters L) (t : ThreadId) (p : PermitId) (l : Option L) : Limiters L :=
  { s.construct p l with calls := Function.update s.calls t none }

def attempts (s : Limiters L) (t : ThreadId) (attempt : Attempt L) : Limiters L :=
  { s with calls := Function.update s.calls t (some attempt) }

inductive Event (L : Type) where
  /-- A call of `tryAcquire`; `read` is what the first load returns, if there is a maximum. -/
  | tryAcquire (t : ThreadId) (l : L) (read : Int)
  /-- The call goes on, and returns the permit `p` if it returns. `failed` is what
  `compare_exchange_weak` has loaded, if it fails. -/
  | proceed (t : ThreadId) (p : PermitId) (failed : Option Int)
  /-- `Permit()`. -/
  | empty (p : PermitId)
  | moveConstruct (p other : PermitId)
  | moveAssign (p other : PermitId)
  | release (p : PermitId)
  | destroy (p : PermitId)

/-- `max` is `max_` of each limiter. -/
def step (max : L → Nat) (s : Limiters L) : Event L → Option (Limiters L)
  | .tryAcquire t l read =>
    if (s.calls t).isSome then none
    else if max l = 0 then some (s.attempts t (.adding l))
    else if read ∈ s.past l then some (s.attempts t (.trying l read))
    else none
  | .proceed t p failed =>
    if p ∈ s.permits then none
    else
      match s.calls t with
      | none => none
      | some (.adding l) => some ((s.store l (s.inFlight l + 1)).returns t p (some l))
      | some (.trying l cur) =>
        if cur < max l then
          match failed with
          | some read => if read ∈ s.past l then some (s.attempts t (.trying l read)) else none
          | none =>
            if s.inFlight l = cur then some ((s.store l (cur + 1)).returns t p (some l)) else none
        else some (s.returns t p none)
  | .empty p => if p ∈ s.permits then none else some (s.construct p none)
  | .moveConstruct p other =>
    if p ∉ s.permits ∧ other ∈ s.permits then some (s.moveConstruct p other) else none
  | .moveAssign p other =>
    if p ∈ s.permits ∧ other ∈ s.permits then some (s.moveAssign p other) else none
  | .release p => if p ∈ s.permits then some (s.release p) else none
  | .destroy p => if p ∈ s.permits then some (s.destroy p) else none

def initial : Limiters L := {}

/-! ### The permits that hold a slot -/

def holding (s : Limiters L) (l : L) : Nat := (holdings s.limiter s.permits).count l

/-- `in_flight_` counts the permits that hold a slot, and stays within the maximum. -/
structure Exact (max : L → Nat) (s : Limiters L) : Prop where
  counts : ∀ l, s.inFlight l = s.holding l
  within : ∀ l, 0 < max l → s.inFlight l ≤ max l

structure Inv (max : L → Nat) (s : Limiters L) : Prop where
  tally : Exact max s
  alone : s.permits.Nodup
  unlimited : ∀ t l, s.calls t = some (.adding l) → max l = 0

section Permits

variable {max : L → Nat} {s : Limiters L} (p : PermitId)

def slot (held : Option L) (l : L) : Nat := if held = some l then 1 else 0

@[simp] theorem slot_none (l : L) : slot none l = 0 := by simp [slot]

theorem count_slot (held : Option L) (l : L) : held.toList.count l = slot held l := by
  unfold slot
  cases held with
  | none => simp
  | some k => simp [count_singleton]

theorem holding_setLimiter (alone : s.permits.Nodup) (p : PermitId) (alive : p ∈ s.permits)
    (held : Option L) (l : L) :
    (s.setLimiter p held).holding l + slot (s.limiter p) l = s.holding l + slot held l := by
  have changed := count_holdings_change s.limiter (update s.limiter p held) s.permits p l
    (count_eq_one_of_mem alone alive) (fun d other => update_of_ne other ..)
  rw [count_slot, count_slot, update_self] at changed
  exact changed

theorem holding_construct (fresh : p ∉ s.permits) (held : Option L) (l : L) :
    (s.construct p held).holding l = s.holding l + slot held l := by
  have others : holdings (update s.limiter p held) s.permits =
      holdings s.limiter s.permits := by
    refine holdings_congr _ _ _ fun d inside => update_of_ne ?_ ..
    rintro rfl
    exact fresh inside
  have first : holdings (update s.limiter p held) (p :: s.permits) =
      held.toList ++ holdings s.limiter s.permits := by
    rw [← others, ← singleton_append, holdings_append, holdings_singleton,
      update_self]
  show (holdings (update s.limiter p held) (p :: s.permits)).count l = _
  rw [first, count_append, count_slot, Nat.add_comm]
  rfl

theorem inFlight_release (l : L) :
    (s.release p).inFlight l = s.inFlight l - slot (s.limiter p) l := by
  unfold release slot
  split
  next k held =>
    by_cases same : k = l
    · simp [held, same, setLimiter, store]
    · simp [held, same, setLimiter, store, update_of_ne (Ne.symm same)]
  next none => simp [none]

theorem holding_release (alone : s.permits.Nodup) (p : PermitId) (alive : p ∈ s.permits) (l : L) :
    (s.release p).holding l + slot (s.limiter p) l = s.holding l := by
  unfold release
  split
  next k held =>
    have changed := holding_setLimiter alone p alive none l
    rw [slot_none, Nat.add_zero] at changed
    exact changed
  next none => rw [none, slot_none, Nat.add_zero]

theorem release_limiter : (s.release p).limiter p = none := by
  unfold release
  split
  · simp [setLimiter]
  next none => exact none

theorem release_permits : (s.release p).permits = s.permits := by
  unfold release
  split <;> rfl

theorem release_calls : (s.release p).calls = s.calls := by
  unfold release
  split <;> rfl

theorem holding_moveConstruct (alone : s.permits.Nodup) (p other : PermitId)
    (fresh : p ∉ s.permits) (alive : other ∈ s.permits) (l : L) :
    ((s.construct p (s.limiter other)).setLimiter other none).holding l = s.holding l := by
  have alone' : (s.construct p (s.limiter other)).permits.Nodup :=
    nodup_cons.mpr ⟨fresh, alone⟩
  have different : other ≠ p := fun same => fresh (same ▸ alive)
  have added := holding_construct p fresh (s.limiter other) l
  have left := holding_setLimiter alone' other (mem_cons_of_mem p alive) none l
  have same : (s.construct p (s.limiter other)).limiter other = s.limiter other :=
    update_of_ne different ..
  rw [same, slot_none] at left
  omega

theorem destroy_eq :
    s.destroy p = { s.release p with permits := (s.release p).permits.erase p } := by
  rw [release_permits]
  rfl

theorem holding_takeOver (alone : s.permits.Nodup) (p other : PermitId) (alive : p ∈ s.permits)
    (alive' : other ∈ s.permits) (different : p ≠ other) (empty : s.limiter p = none) (l : L) :
    ((s.setLimiter p (s.limiter other)).setLimiter other none).holding l = s.holding l := by
  have taken := holding_setLimiter alone p alive (s.limiter other) l
  have left := holding_setLimiter (s := s.setLimiter p (s.limiter other)) alone other alive' none l
  have same : (s.setLimiter p (s.limiter other)).limiter other = s.limiter other :=
    update_of_ne (Ne.symm different) ..
  rw [same, slot_none] at left
  rw [empty, slot_none] at taken
  omega

theorem holding_erase (alive : p ∈ s.permits) (empty : s.limiter p = none) (l : L) :
    holding { s with permits := s.permits.erase p } l = s.holding l := by
  have gone := count_holdings_erase s.limiter s.permits p l alive
  rw [empty] at gone
  simpa [holding] using gone

omit [DecidableEq L] in
theorem unlimited_update (t : ThreadId) (attempt : Option (Attempt L))
    (unlimited : ∀ u l, s.calls u = some (.adding l) → max l = 0)
    (fine : ∀ l, attempt = some (.adding l) → max l = 0) (u : ThreadId) (l : L)
    (adding : update s.calls t attempt u = some (.adding l)) : max l = 0 := by
  rw [update_apply] at adding
  split at adding
  · exact fine l adding
  · exact unlimited u l adding

end Permits

/-! ### Runs -/

section Run

variable {max : L → Nat} {s s' : Limiters L}

theorem Exact.release (tally : Exact max s) (alone : s.permits.Nodup) (p : PermitId)
    (alive : p ∈ s.permits) : Exact max (s.release p) := by
  refine ⟨fun l => ?_, fun l limited => ?_⟩
  · have counts := tally.counts l
    have held := holding_release alone p alive l
    rw [inFlight_release]
    omega
  · have within := tally.within l limited
    rw [inFlight_release]
    omega

theorem Exact.same (tally : Exact max s) (inFlight : s'.inFlight = s.inFlight)
    (holding : ∀ l, s'.holding l = s.holding l) : Exact max s' := by
  refine ⟨fun l => ?_, fun l limited => ?_⟩
  · rw [inFlight, holding]
    exact tally.counts l
  · rw [inFlight]
    exact tally.within l limited

theorem Exact.admits (tally : Exact max s) (t : ThreadId) (l : L) (p : PermitId)
    (fresh : p ∉ s.permits) (room : 0 < max l → s.inFlight l < max l) :
    Exact max ((s.store l (s.inFlight l + 1)).returns t p (some l)) := by
  have holds (k : L) : ((s.store l (s.inFlight l + 1)).returns t p (some l)).holding k =
      s.holding k + slot (some l) k :=
    holding_construct p fresh (some l) k
  have value (k : L) : ((s.store l (s.inFlight l + 1)).returns t p (some l)).inFlight k =
      s.inFlight k + slot (some l) k := by
    show update s.inFlight l (s.inFlight l + 1) k = _
    by_cases same : k = l
    · subst same
      simp [slot]
    · simp [slot, update_of_ne same, Ne.symm same]
  refine ⟨fun k => ?_, fun k limited => ?_⟩
  · rw [value, holds, tally.counts k]
    omega
  · rw [value]
    by_cases same : k = l
    · subst same
      have below := room limited
      simp only [slot, if_true]
      omega
    · have within := tally.within k limited
      simpa [slot, Ne.symm same] using within

theorem Inv.release (inv : Inv max s) (p : PermitId) (alive : p ∈ s.permits) :
    Inv max (s.release p) where
  tally := inv.tally.release inv.alone p alive
  alone := by
    rw [release_permits]
    exact inv.alone
  unlimited := by
    rw [release_calls]
    exact inv.unlimited

theorem Inv.proceed (inv : Inv max s) (t : ThreadId) (p : PermitId) (failed : Option Int)
    (stepped : s.step max (.proceed t p failed) = some s') : Inv max s' := by
  obtain ⟨tally, alone, unlimited⟩ := inv
  simp only [step] at stepped
  split at stepped
  · cases stepped
  next fresh =>
    have alone' : (p :: s.permits).Nodup := nodup_cons.mpr ⟨fresh, alone⟩
    have returned := unlimited_update t none unlimited (by simp)
    split at stepped
    · cases stepped
    next l adding =>
      cases stepped
      refine ⟨tally.admits t l p fresh fun limited => ?_, alone', returned⟩
      have none := unlimited t l adding
      omega
    next l cur trying =>
      split at stepped
      next below =>
        split at stepped
        · split at stepped <;> cases stepped
          exact ⟨tally.same rfl fun _ => rfl, alone, unlimited_update t _ unlimited (by simp)⟩
        · split at stepped <;> cases stepped
          next current =>
            subst current
            exact ⟨tally.admits t l p fresh fun _ => below, alone', returned⟩
      · cases stepped
        have holds (k : L) : (s.returns t p none).holding k = s.holding k :=
          holding_construct p fresh none k
        exact ⟨tally.same rfl holds, alone', returned⟩

theorem Inv.step (inv : Inv max s) (e : Event L) (stepped : s.step max e = some s') : Inv max s' := by
  have ⟨tally, alone, unlimited⟩ := inv
  cases e with
  | tryAcquire t l read =>
    simp only [Limiters.step] at stepped
    split at stepped
    · cases stepped
    · split at stepped
      next none =>
        cases stepped
        refine ⟨tally.same rfl fun _ => rfl, alone, unlimited_update t _ unlimited ?_⟩
        rintro _ ⟨⟩
        exact none
      · split at stepped <;> cases stepped
        exact ⟨tally.same rfl fun _ => rfl, alone, unlimited_update t _ unlimited (by simp)⟩
  | proceed t p failed => exact inv.proceed t p failed stepped
  | empty p =>
    simp only [Limiters.step] at stepped
    split at stepped <;> cases stepped
    next fresh =>
      exact ⟨tally.same rfl (holding_construct p fresh none), nodup_cons.mpr ⟨fresh, alone⟩,
        unlimited⟩
  | moveConstruct p other =>
    simp only [Limiters.step] at stepped
    split at stepped <;> cases stepped
    next fits =>
      exact ⟨tally.same rfl (holding_moveConstruct alone p other fits.1 fits.2),
        nodup_cons.mpr ⟨fits.1, alone⟩, unlimited⟩
  | moveAssign p other =>
    simp only [Limiters.step] at stepped
    split at stepped <;> cases stepped
    next alive =>
      unfold moveAssign
      split
      · exact inv
      next different =>
        have released := inv.release p alive.1
        have permits := release_permits (s := s) p
        refine ⟨released.tally.same rfl fun l => ?_, released.alone, released.unlimited⟩
        exact holding_takeOver released.alone p other (permits ▸ alive.1) (permits ▸ alive.2)
          different (release_limiter p) l
  | release p =>
    simp only [Limiters.step] at stepped
    split at stepped <;> cases stepped
    next alive => exact inv.release p alive
  | destroy p =>
    simp only [Limiters.step] at stepped
    split at stepped <;> cases stepped
    next alive =>
      have released := inv.release p alive
      have permits := release_permits (s := s) p
      rw [destroy_eq]
      exact ⟨released.tally.same rfl (holding_erase p (permits ▸ alive) (release_limiter p)),
        released.alone.erase p, released.unlimited⟩

end Run

theorem inv_initial (max : L → Nat) : Inv max initial where
  tally := ⟨fun l => by simp [initial, holding, holdings], fun l limited => by simp [initial]⟩
  alone := by simp [initial]
  unlimited := by simp [initial]

/-- **The limiter counts the live permits**: after any steps of any threads, `in_flight_` is the
number of permits that hold a slot, and it stays within the maximum. -/
theorem exact_always (max : L → Nat) (events : List (Event L)) :
    Always (step max) (Exact max) initial events := by
  have always : Always (step max) (Inv max) initial events :=
    always_of_keeps (fun _ e _ inv stepped => inv.step e stepped) initial events (inv_initial max)
  exact Always.mono (fun _ inv => inv.tally) initial events always

-- Two threads have loaded 0; the slower one fails, tries again and finds the limiter full. The
-- permit is moved, released twice and destroyed.
example : (run (step fun _ : Unit => 1) initial
    [.tryAcquire 1 () 0, .tryAcquire 2 () 0, .proceed 1 10 none, .proceed 2 20 (some 1),
      .proceed 2 20 none, .moveConstruct 30 10, .release 10, .moveAssign 20 30,
      .release 20, .release 20, .destroy 20]).map
    (fun s => (s.inFlight (), s.past (), s.permits)) = some (0, [0, 1, 0], [30, 10]) := by
  decide +kernel

end Limiters
end Cox.Flowcontrol

import Cox.Reactor.TimerQueue

/-!
# Timers and the heap

Every timer on the heap is in the set of timers, or among those that the running
`handleRead` has taken out, under its own expiration; the active sequence numbers are
those of the timers on the heap. This holds along every run, whatever is cancelled.

`cancel` goes by the address in the handle. It reads the timer there before it looks at
anything else, and it removes whatever timer the set has under that address; the sequence
number is only used for a timer that is being processed. So a handle may be used as long as
its timer has not been freed. After that, `cancel` reads freed memory, or it cancels the
timer that was given the address later.
-/
namespace Cox.Reactor

open Cox.Lib Cox.Lib.Schedule List

/-! ### Entries -/

theorem Entry.ext {e f : Entry} (time : e.time = f.time) (address : e.address = f.address) :
    e = f := ofLex.injective (Prod.ext time address)

theorem le_sentinel (e : Entry) (now : Timestamp) : e ≤ sentinel now ↔ e.time ≤ now := by
  have lex : e ≤ sentinel now ↔ e.time < now ∨ e.time = now ∧ e.address ≤ Fin.last _ :=
    Prod.Lex.toLex_le_toLex
  rw [lex, and_iff_left (Fin.le_last e.address), ← le_iff_lt_or_eq]

theorem sentinel_lt (e : Entry) (now : Timestamp) : sentinel now < e ↔ now < e.time := by
  rw [← not_le, le_sentinel, not_le]

theorem time_le_of_lt {e f : Entry} (before : e < f) : e.time ≤ f.time := by
  have lex : e.time < f.time ∨ e.time = f.time ∧ e.address < f.address :=
    Prod.Lex.toLex_lt_toLex.mp before
  rcases lex with earlier | ⟨same, _⟩
  · exact le_of_lt earlier
  · exact le_of_eq same

namespace TimerQueue

/-! ### What is on the heap -/

/-- Everything is in its place, where `out` are the entries that were taken out of the set
and not put back yet. -/
structure Consistent (q : TimerQueue) (out : List Entry) : Prop where
  stored : ∀ e, e ∈ q.timers ∨ e ∈ out ↔ ∃ t, q.heap e.address = some t ∧ t.expiration = e.time
  apart : ∀ e ∈ out, e ∉ q.timers
  once : out.Nodup
  distinct : ∀ a b t u, q.heap a = some t → q.heap b = some u → t.sequence = u.sequence → a = b
  created : ∀ a t, q.heap a = some t → 0 < t.sequence ∧ t.sequence ≤ q.numCreated
  active : ∀ s, s ∈ q.activeSequences ↔ ∃ a t, q.heap a = some t ∧ t.sequence = s
  issued : ∀ id ∈ q.issued, 0 < id.sequence ∧ id.sequence ≤ q.numCreated ∧
    ∃ a, id.timer = some a ∧ ∀ b t, q.heap b = some t → t.sequence = id.sequence → b = a

namespace Consistent

variable {q q' : TimerQueue} {out out' : List Entry}

section Consistent

variable (c : Consistent q out)
include c

theorem same (heap : q'.heap = q.heap) (timers : q'.timers = q.timers)
    (active : q'.activeSequences = q.activeSequences) (created : q'.numCreated = q.numCreated)
    (issued : q'.issued = q.issued) : Consistent q' out := by
  constructor
  · rw [heap, timers]; exact c.stored
  · rw [timers]; exact c.apart
  · exact c.once
  · rw [heap]; exact c.distinct
  · rw [heap, created]; exact c.created
  · rw [heap, active]; exact c.active
  · rw [heap, created, issued]; exact c.issued

theorem entry_of_heap {a : Address} {t : Timer} (there : q.heap a = some t) :
    entry t.expiration a ∈ q.timers ∨ entry t.expiration a ∈ out :=
  (c.stored (entry t.expiration a)).mpr ⟨t, there, rfl⟩

theorem heap_of_timers {e : Entry} (listed : e ∈ q.timers) :
    ∃ t, q.heap e.address = some t ∧ t.expiration = e.time := (c.stored e).mp (.inl listed)

theorem heap_of_out {e : Entry} (listed : e ∈ out) :
    ∃ t, q.heap e.address = some t ∧ t.expiration = e.time := (c.stored e).mp (.inr listed)

theorem unique {e f : Entry} (here : e ∈ q.timers ∨ e ∈ out) (there : f ∈ q.timers ∨ f ∈ out)
    (address : e.address = f.address) : e = f := by
  obtain ⟨t, first, time⟩ := (c.stored e).mp here
  obtain ⟨u, second, time'⟩ := (c.stored f).mp there
  rw [address, second] at first
  cases first
  exact Entry.ext (time.symm.trans time') address

/-- A timer is put at an address, which is free or has a timer with the same sequence number,
and into the set. -/
theorem placed (address : Address) (t : Timer)
    (heap : q'.heap = Function.update q.heap address (some t))
    (other : ∀ a u, a ≠ address → q.heap a = some u → u.sequence ≠ t.sequence)
    (replaces : ∀ u, q.heap address = some u → u.sequence = t.sequence)
    (created : q.numCreated ≤ q'.numCreated ∧ 0 < t.sequence ∧ t.sequence ≤ q'.numCreated)
    (active : ∀ s, s ∈ q'.activeSequences ↔ s = t.sequence ∨ s ∈ q.activeSequences)
    (issued : ∀ id ∈ q'.issued, id = ⟨some address, t.sequence⟩ ∨
      id ∈ q.issued ∧ (t.sequence = id.sequence → id.timer = some address))
    (listed : ∀ f, f ∈ q'.timers ∨ f ∈ out' ↔
      f = entry t.expiration address ∨ f.address ≠ address ∧ (f ∈ q.timers ∨ f ∈ out))
    (apart : ∀ f ∈ out', f ∉ q'.timers) (once : out'.Nodup) : Consistent q' out' := by
  -- every field of the invariant is about the heap, so it is enough to say what is there now
  have now (a : Address) (u : Timer) : q'.heap a = some u ↔
      (a = address ∧ u = t) ∨ (a ≠ address ∧ q.heap a = some u) := by
    rw [heap]
    by_cases here : a = address
    · simp [here, eq_comm]
    · simp [here]
  refine ⟨fun f => ?_, apart, once, fun a b u v => ?_, fun a u => ?_, fun s => ?_, fun id given => ?_⟩
  · rw [listed, c.stored f]
    simp only [now]
    constructor
    · rintro (rfl | ⟨elsewhere, u, holds, time⟩)
      · exact ⟨t, .inl ⟨rfl, rfl⟩, rfl⟩
      · exact ⟨u, .inr ⟨elsewhere, holds⟩, time⟩
    · rintro ⟨u, ⟨here, rfl⟩ | ⟨elsewhere, holds⟩, time⟩
      · exact .inl (Entry.ext time.symm here)
      · exact .inr ⟨elsewhere, u, holds, time⟩
  · simp only [now]
    rintro (⟨rfl, rfl⟩ | ⟨elsewhere, first⟩) (⟨rfl, rfl⟩ | ⟨elsewhere', second⟩) same
    · rfl
    · exact absurd same.symm (other b v elsewhere' second)
    · exact absurd same (other a u elsewhere first)
    · exact c.distinct a b u v first second same
  · rw [now]
    rintro (⟨rfl, rfl⟩ | ⟨_, holds⟩)
    · exact created.2
    · have := c.created a u holds
      omega
  · simp only [now, active, c.active]
    constructor
    · rintro (rfl | ⟨a, u, holds, rfl⟩)
      · exact ⟨address, t, .inl ⟨rfl, rfl⟩, rfl⟩
      -- the timer that was there had the same sequence number
      · by_cases here : a = address
        · exact ⟨a, t, .inl ⟨here, rfl⟩, (replaces u (here ▸ holds)).symm⟩
        · exact ⟨a, u, .inr ⟨here, holds⟩, rfl⟩
    · rintro ⟨a, u, ⟨_, rfl⟩ | ⟨_, holds⟩, rfl⟩
      · exact .inl rfl
      · exact .inr ⟨a, u, holds, rfl⟩
  · simp only [now]
    rcases issued id given with rfl | ⟨old, own⟩
    · refine ⟨created.2.1, created.2.2, address, rfl, ?_⟩
      rintro b u (⟨rfl, _⟩ | ⟨elsewhere, holds⟩) same
      · rfl
      · exact absurd same (other b u elsewhere holds)
    · obtain ⟨positive, most, a, timer, only⟩ := c.issued id old
      refine ⟨positive, most.trans created.1, a, timer, ?_⟩
      rintro b u (⟨rfl, rfl⟩ | ⟨_, holds⟩) same
      · exact Option.some.inj ((own same).symm.trans timer)
      · exact only b u holds same

theorem create (address : Address) (t : Timer) (unused : q.heap address = none)
    (new : q.numCreated < t.sequence) :
    Consistent (((q.create address t).insert address t).activate t.sequence) out := by
  -- the address is free, so no entry has it
  have elsewhere (f : Entry) (listed : f ∈ q.timers ∨ f ∈ out) : f.address ≠ address := by
    obtain ⟨u, there, _⟩ := (c.stored f).mp listed
    rintro here
    rw [here, unused] at there
    cases there
  refine c.placed address t rfl (fun a u _ there => ?_) (fun u there => ?_) ?_ (fun s => ?_)
    (fun id given => ?_) (fun f => ?_) (fun f taken => ?_) c.once
  · have := (c.created a u there).2
    omega
  · rw [unused] at there
    cases there
  · simp only [TimerQueue.create, insert, activate]
    omega
  · exact Finset.mem_insert
  · simp only [TimerQueue.create, insert, activate, mem_append, mem_singleton] at given
    rcases given with old | rfl
    -- earlier handles have smaller sequence numbers
    · refine .inr ⟨old, fun same => ?_⟩
      have := (c.issued id old).2.1
      omega
    · exact .inl rfl
  · simp only [insert, activate, SortedSet.mem_insert, or_assoc]
    exact or_congr_right (iff_and_self.mpr (elsewhere f))
  · simp only [insert, activate, SortedSet.mem_insert, not_or]
    refine ⟨?_, c.apart f taken⟩
    rintro rfl
    exact elsewhere _ (.inr taken) rfl

theorem freed (e : Entry) (t : Timer) (there : q.heap e.address = some t)
    (listed : e ∈ q.timers ∨ e ∈ out) (heap : q'.heap = Function.update q.heap e.address none)
    (active : q'.activeSequences = q.activeSequences.erase t.sequence)
    (created : q'.numCreated = q.numCreated) (issued : q'.issued = q.issued)
    (less : ∀ f, f ∈ q'.timers ∨ f ∈ out' ↔ f ≠ e ∧ (f ∈ q.timers ∨ f ∈ out))
    (apart : ∀ f ∈ out', f ∉ q'.timers) (once : out'.Nodup) : Consistent q' out' := by
  have left (a : Address) (u : Timer) : q'.heap a = some u ↔ a ≠ e.address ∧ q.heap a = some u := by
    rw [heap]
    by_cases here : a = e.address <;> simp [here]
  refine ⟨fun f => ?_, apart, once, fun a b u v => ?_, fun a u => ?_, fun s => ?_, fun id => ?_⟩
  · rw [less, c.stored f]
    simp only [left]
    constructor
    · rintro ⟨other, u, holds, time⟩
      refine ⟨u, ⟨fun address => other ?_, holds⟩, time⟩
      exact c.unique ((c.stored f).mpr ⟨u, holds, time⟩) listed address
    · rintro ⟨u, ⟨address, holds⟩, time⟩
      exact ⟨fun same => address (same ▸ rfl), u, holds, time⟩
  · simp only [left]
    exact fun first second => c.distinct a b u v first.2 second.2
  · rw [left, created]
    exact fun holds => c.created a u holds.2
  · simp only [active, Finset.mem_erase, c.active, left]
    constructor
    · rintro ⟨other, a, u, holds, rfl⟩
      refine ⟨a, u, ⟨?_, holds⟩, rfl⟩
      rintro rfl
      rw [there] at holds
      cases holds
      exact other rfl
    -- sequence numbers are distinct, so only the deleted one is gone
    · rintro ⟨a, u, ⟨address, holds⟩, rfl⟩
      exact ⟨fun same => address (c.distinct a _ u t holds there same), a, u, holds, rfl⟩
  · rw [issued, created]
    intro given
    obtain ⟨positive, most, a, timer, only⟩ := c.issued id given
    exact ⟨positive, most, a, timer, fun b u holds => only b u ((left b u).mp holds).2⟩

theorem free (e : Entry) (t : Timer) (there : q.heap e.address = some t) (taken : e ∈ out) :
    Consistent (q.free e.address t) (out.erase e) := by
  refine c.freed e t there (.inr taken) rfl rfl rfl rfl (fun f => ?_) ?_ (c.once.erase e)
  · rw [List.Nodup.mem_erase_iff c.once]
    have absent := c.apart e taken
    constructor
    · rintro (listed | ⟨other, listed⟩)
      · exact ⟨fun same => absent (same ▸ listed), .inl listed⟩
      · exact ⟨other, .inr listed⟩
    · rintro ⟨other, listed | listed⟩
      · exact .inl listed
      · exact .inr ⟨other, listed⟩
  · exact fun f member => c.apart f (mem_of_mem_erase member)

theorem remove (e : Entry) (listed : e ∈ q.timers) : Consistent (q.remove e) out := by
  obtain ⟨t, there, _⟩ := c.heap_of_timers listed
  have removed : q.remove e = { q.free e.address t with timers := q.timers.erase e } := by
    simp only [TimerQueue.remove, there]
  rw [removed]
  refine c.freed e t there (.inl listed) rfl rfl rfl rfl (fun f => ?_) ?_ c.once
  · rw [SortedSet.mem_erase]
    constructor
    · rintro (⟨other, inside⟩ | taken)
      · exact ⟨other, .inl inside⟩
      · exact ⟨fun same => c.apart f taken (same ▸ listed), .inr taken⟩
    · rintro ⟨other, inside | taken⟩
      · exact .inl ⟨other, inside⟩
      · exact .inr taken
  · intro f taken inside
    exact c.apart f taken ((SortedSet.mem_erase _ _ _).mp inside).2

theorem restart (e : Entry) (t t' : Timer) (there : q.heap e.address = some t) (taken : e ∈ out)
    (sequence : t'.sequence = t.sequence) :
    Consistent ({ q with heap := Function.update q.heap e.address (some t') }.insert e.address t')
      (out.erase e) := by
  have others (f : Entry) : f ∈ out.erase e ↔ f ≠ e ∧ f ∈ out := List.Nodup.mem_erase_iff c.once
  -- no other entry has the address
  have elsewhere (f : Entry) (listed : f ∈ q.timers ∨ f ∈ out) : f.address ≠ e.address ↔ f ≠ e :=
    ⟨fun other same => other (same ▸ rfl), fun other address =>
      other (c.unique listed (.inr taken) address)⟩
  refine c.placed e.address t' rfl (fun a u other holds same => ?_) (fun u holds => ?_) ?_
    (fun s => ?_) (fun id given => ?_) (fun f => ?_) (fun f member => ?_) (c.once.erase e)
  · exact other (c.distinct a _ u t holds there (same.trans sequence))
  · rw [there] at holds
    cases holds
    exact sequence.symm
  · rw [sequence]
    exact ⟨le_refl _, c.created _ t there⟩
  · have member : t'.sequence ∈ q.activeSequences := (c.active _).mpr ⟨_, t, there, sequence.symm⟩
    exact (or_iff_right_of_imp fun same => same ▸ member).symm
  · refine .inr ⟨given, fun same => ?_⟩
    obtain ⟨_, _, a, timer, only⟩ := c.issued id given
    rw [timer, only _ t there (sequence.symm.trans same)]
  · simp only [insert, SortedSet.mem_insert, others]
    constructor
    · rintro ((rfl | listed) | ⟨other, listed⟩)
      · exact .inl rfl
      · have other : f ≠ e := fun same => c.apart e taken (same ▸ listed)
        exact .inr ⟨(elsewhere f (.inl listed)).mpr other, .inl listed⟩
      · exact .inr ⟨(elsewhere f (.inr listed)).mpr other, .inr listed⟩
    · rintro (rfl | ⟨address, listed | listed⟩)
      · exact .inl (.inl rfl)
      · exact .inl (.inr listed)
      · exact .inr ⟨(elsewhere f (.inr listed)).mp address, listed⟩
  · obtain ⟨other, listed⟩ := (others f).mp member
    simp only [insert, SortedSet.mem_insert, not_or]
    refine ⟨?_, c.apart f listed⟩
    rintro rfl
    exact (elsewhere _ (.inr listed)).mpr other rfl

end Consistent

theorem getExpired (c : Consistent q []) (now : Timestamp) :
    Consistent (q.handleRead now) (q.timers.upTo (sentinel now)) := by
  refine ⟨fun e => ?_, fun e taken => ?_, (q.timers.upTo_sorted _).imp ne_of_lt, c.distinct,
    c.created, c.active, c.issued⟩
  · have old := c.stored e
    simp only [not_mem_nil, or_false] at old
    -- the set is cut at the sentinel
    have parts := lt_or_ge (sentinel now) e
    rw [← show q.heap = (q.handleRead now).heap from rfl, ← old, SortedSet.mem_upTo]
    simp only [handleRead, SortedSet.mem_above]
    tauto
  · rw [SortedSet.mem_upTo] at taken
    simp only [handleRead, SortedSet.mem_above, not_and, not_lt]
    exact fun _ => taken.2

theorem resetTimer (c : Consistent q out) (now : Timestamp) (e : Entry) (taken : e ∈ out) :
    Consistent (q.resetTimer now e) (out.erase e) := by
  obtain ⟨t, there, _⟩ := c.heap_of_out taken
  simp only [TimerQueue.resetTimer, there]
  split
  · exact c.restart e t (t.restart now) there taken rfl
  · exact c.free e t there taken

theorem resetAll (c : Consistent q out) (now : Timestamp) :
    Consistent (out.foldl (TimerQueue.resetTimer now) q) [] := by
  induction out generalizing q with
  | nil => exact c
  | cons e out ih =>
    have first := c.resetTimer now e (mem_cons_self ..)
    rw [erase_cons_head] at first
    exact ih first

end Consistent

end TimerQueue

end Cox.Reactor

import Cox.Reactor.TimerHeap

/-!
# Cancelling by handle

What `cancel` does with a handle whose timer has been freed. The heap stays consistent
along every run, so the exact condition under which a handle cancels its own timer and
nothing else can be read off one step: the address in the handle must not be free, and if
it belongs to another timer by now, that timer must not be in the set.
-/
namespace Cox.Reactor.TimerQueue

open Cox.Lib Cox.Lib.Schedule List

/-! ### The heap along a run -/

/-- The entries that the running `handleRead` has taken out of the set. -/
def expired (q : TimerQueue) : List Entry :=
  match q.batch with
  | some b => b.expired
  | none => []

structure Kept (q : TimerQueue) : Prop where
  consistent : Consistent q q.expired
  calling : q.callingExpiredCallbacks = q.batch.isSome
  turns : ∀ b ∈ q.batch, b.turns <:+ b.expired

theorem kept_initial : Kept {} := by
  refine ⟨⟨fun e => ?_, fun _ h => ?_, .nil, fun _ _ _ _ h => ?_, fun _ _ h => ?_, fun s => ?_,
    fun _ h => ?_⟩, rfl, fun _ h => ?_⟩
  · simp [expired, SortedSet.not_mem_empty]
  · cases h
  · cases h
  · cases h
  · simp
  · cases h
  · cases h

section Steps

variable {q q' : TimerQueue}

theorem expired_note (q : TimerQueue) (deed : Deed Timer Nat) :
    (q.note deed).expired = q.expired := by
  unfold expired note
  cases q.batch <;> rfl

theorem isSome_note (q : TimerQueue) (deed : Deed Timer Nat) :
    (q.note deed).batch.isSome = q.batch.isSome := by
  unfold note
  cases q.batch <;> rfl

theorem Kept.note (kept : Kept q) (deed : Deed Timer Nat) : Kept (q.note deed) := by
  refine ⟨?_, ?_, fun b inside => ?_⟩
  · rw [expired_note]
    exact kept.consistent.same rfl rfl rfl rfl rfl
  · rw [isSome_note]
    exact kept.calling
  · obtain ⟨b', before, rfl⟩ := Option.map_eq_some_iff.mp inside
    exact kept.turns b' before

theorem Kept.reads (kept : Kept q) (address : Address) : Kept (q.reads address) := by
  unfold TimerQueue.reads
  split
  · exact ⟨kept.consistent.same rfl rfl rfl rfl rfl, kept.calling, kept.turns⟩
  · exact kept

theorem remove_batch (q : TimerQueue) (e : Entry) :
    (q.remove e).batch = q.batch ∧
      (q.remove e).callingExpiredCallbacks = q.callingExpiredCallbacks := by
  unfold remove reads
  split
  · exact ⟨rfl, rfl⟩
  · split <;> exact ⟨rfl, rfl⟩

theorem Kept.remove (kept : Kept q) (e : Entry) (listed : e ∈ q.timers) : Kept (q.remove e) := by
  obtain ⟨batch, calling⟩ := remove_batch q e
  refine ⟨?_, ?_, ?_⟩
  · unfold expired
    rw [batch]
    exact kept.consistent.remove e listed
  · rw [batch, calling]
    exact kept.calling
  · rw [batch]
    exact kept.turns

theorem Kept.cancel (kept : Kept q) (id : TimerId) (stale : Timestamp) :
    Kept (q.cancel id stale) := by
  unfold TimerQueue.cancel
  split
  · exact kept
  next address _ =>
    have read := (kept.reads address).note (.cancel id.sequence)
    dsimp only
    split
    next listed => exact read.remove _ listed
    next =>
      split
      · exact ⟨read.consistent.same rfl rfl rfl rfl rfl, read.calling, read.turns⟩
      · exact read

theorem Kept.addTimer (kept : Kept q) (address : Address) (t : Timer) (clock : Timestamp)
    (unused : q.heap address = none) (new : q.numCreated < t.sequence) :
    Kept (q.addTimer address t clock) := by
  have added : Kept ((((q.create address t).insert address t).activate t.sequence).note (.add t)) :=
    Kept.note ⟨kept.consistent.create address t unused new, kept.calling, kept.turns⟩ _
  unfold TimerQueue.addTimer
  dsimp only
  split
  · exact ⟨added.consistent.same rfl rfl rfl rfl rfl, added.calling, added.turns⟩
  · exact added

theorem kept_of_batch {b : Batch} (running : q.batch = some b) (consistent : Consistent q b.expired)
    (calling : q.callingExpiredCallbacks = true) (turns : b.turns <:+ b.expired) : Kept q := by
  refine ⟨?_, ?_, fun b' same => ?_⟩
  · simp only [expired, running]
    exact consistent
  · simp [running, calling]
  · rw [running] at same
    cases same
    exact turns

theorem Kept.batch (kept : Kept q) {b : Batch} (running : q.batch = some b) :
    Consistent q b.expired ∧ q.callingExpiredCallbacks = true ∧ b.turns <:+ b.expired := by
  have consistent := kept.consistent
  simp only [expired, running] at consistent
  exact ⟨consistent, by rw [kept.calling, running]; rfl, kept.turns b running⟩

theorem Kept.turn (kept : Kept q) (b : Batch) (e : Entry) (rest : List Entry)
    (running : q.batch = some b) (first : b.turns = e :: rest) : Kept (q.turn b e rest) := by
  obtain ⟨consistent, calling, suffix⟩ := kept.batch running
  rw [first] at suffix
  have later := (suffix_cons e rest).trans suffix
  obtain ⟨t, there, _⟩ := consistent.heap_of_out (suffix.subset (mem_cons_self ..))
  simp only [TimerQueue.turn, there, takeTurn]
  split
  · apply Kept.note
    refine kept_of_batch rfl ?_ ?_ ?_
    · exact consistent.same rfl rfl rfl rfl rfl
    · exact calling
    · exact later
  · apply Kept.note
    refine kept_of_batch rfl ?_ ?_ ?_
    · exact consistent.same rfl rfl rfl rfl rfl
    · exact calling
    · exact later

theorem rearm_same (q : TimerQueue) (clock : Timestamp) :
    (q.rearm clock).heap = q.heap ∧ (q.rearm clock).timers = q.timers ∧
      (q.rearm clock).activeSequences = q.activeSequences ∧
      (q.rearm clock).numCreated = q.numCreated ∧ (q.rearm clock).issued = q.issued ∧
      (q.rearm clock).callingExpiredCallbacks = q.callingExpiredCallbacks ∧
      (q.rearm clock).ran = q.ran := by
  unfold rearm
  split <;> exact ⟨rfl, rfl, rfl, rfl, rfl, rfl, rfl⟩

theorem resetAll_same (now : Timestamp) (entries : List Entry) (q : TimerQueue) :
    (entries.foldl (resetTimer now) q).callingExpiredCallbacks = q.callingExpiredCallbacks ∧
      (entries.foldl (resetTimer now) q).ran = q.ran ∧
      (entries.foldl (resetTimer now) q).numCreated = q.numCreated := by
  induction entries generalizing q with
  | nil => exact ⟨rfl, rfl, rfl⟩
  | cons e entries ih =>
    have one : (q.resetTimer now e).callingExpiredCallbacks = q.callingExpiredCallbacks ∧
        (q.resetTimer now e).ran = q.ran ∧ (q.resetTimer now e).numCreated = q.numCreated := by
      unfold resetTimer
      split
      · split <;> exact ⟨rfl, rfl, rfl⟩
      · unfold reads
        split <;> exact ⟨rfl, rfl, rfl⟩
    obtain ⟨calling, ran, created⟩ := ih (q.resetTimer now e)
    exact ⟨calling.trans one.1, ran.trans one.2.1, created.trans one.2.2⟩

theorem Kept.reset (kept : Kept q) (b : Batch) (clock : Timestamp) (running : q.batch = some b) :
    Kept (q.reset b clock) := by
  obtain ⟨consistent, _, _⟩ := kept.batch running
  have finished : Consistent { q with callingExpiredCallbacks := false } b.expired :=
    consistent.same rfl rfl rfl rfl rfl
  obtain ⟨heap, timers, active, created, issued, calling, _⟩ :=
    rearm_same (b.expired.foldl (resetTimer b.now) { q with callingExpiredCallbacks := false }) clock
  refine ⟨(finished.resetAll b.now).same heap timers active created issued, ?_, fun _ h => ?_⟩
  · exact calling.trans (resetAll_same ..).1
  · cases h

inductive Moves (q : TimerQueue) : Event → TimerQueue → Prop where
  | addTimer (address : Address) (elsewhere : Nat) (when : Timestamp) (intervalMs : Milliseconds)
      (clock : Timestamp) (unused : q.heap address = none) :
      Moves q (.addTimer address elsewhere when intervalMs clock)
        (q.addTimer address (q.newTimer elsewhere when intervalMs) clock)
  | cancel (id : TimerId) (stale : Timestamp) (given : id.timer = none ∨ id ∈ q.issued) :
      Moves q (.cancel id stale) (q.cancel id stale)
  | handleRead (now : Timestamp) (idle : q.batch = none) :
      Moves q (.handleRead now) (q.handleRead now)
  | turn (b : Batch) (e : Entry) (rest : List Entry) (running : q.batch = some b)
      (first : b.turns = e :: rest) : Moves q .turn (q.turn b e rest)
  | reset (clock : Timestamp) (b : Batch) (running : q.batch = some b) (last : b.turns = []) :
      Moves q (.reset clock) (q.reset b clock)

theorem moves_step {event : Event} (stepped : q.step event = some q') : Moves q event q' := by
  cases event with
  | addTimer address elsewhere when intervalMs clock =>
    simp only [step] at stepped
    split at stepped <;> cases stepped
    next can => exact .addTimer address elsewhere when intervalMs clock can.2.2
  | cancel id stale =>
    simp only [step] at stepped
    split at stepped <;> cases stepped
    next can => exact .cancel id stale can.2
  | handleRead now =>
    simp only [step] at stepped
    split at stepped <;> cases stepped
    next idle => exact .handleRead now idle
  | turn =>
    simp only [step] at stepped
    split at stepped
    next b running =>
      split at stepped <;> cases stepped
      next e rest first => exact .turn b e rest running first
    · cases stepped
  | reset clock =>
    simp only [step] at stepped
    split at stepped
    next b running =>
      split at stepped <;> cases stepped
      next last => exact .reset clock b running last
    · cases stepped

theorem newTimer_fresh (q : TimerQueue) (elsewhere : Nat) (when : Timestamp)
    (intervalMs : Milliseconds) : q.numCreated < (q.newTimer elsewhere when intervalMs).sequence := by
  show q.numCreated < q.numCreated + elsewhere + 1
  omega

theorem Kept.step (kept : Kept q) (event : Event) (stepped : q.step event = some q') : Kept q' := by
  cases moves_step stepped with
  | addTimer address elsewhere when intervalMs clock unused =>
    exact kept.addTimer address _ clock unused (newTimer_fresh ..)
  | cancel id stale => exact kept.cancel id stale
  | handleRead now idle =>
    have consistent := kept.consistent
    simp only [expired, idle] at consistent
    refine ⟨consistent.getExpired now, rfl, fun b same => ?_⟩
    cases same
    exact suffix_rfl
  | turn b e rest running first => exact kept.turn b e rest running first
  | reset clock b running => exact kept.reset b clock running

end Steps

theorem kept_always (events : List Event) : Machine.Always step Kept {} events :=
  Machine.always_of_keeps (fun _ event _ kept => kept.step event) _ events kept_initial

/-! ### One call -/

/-- The timers of the running batch that will still run or go back into the set. -/
def awaiting (q : TimerQueue) : List Timer :=
  match q.batch with
  | some b => (timersOf q.heap b.expired).filter fun t =>
      t.sequence ∉ q.cancelling ∧ (t.repeats ∨ t ∈ timersOf q.heap b.turns)
  | none => []

/-- The timer of the handle has fired, if it was a one-shot timer, or has been cancelled:
it will not run any more. -/
def Over (q : TimerQueue) (id : TimerId) : Prop :=
  ∀ t ∈ q.scheduled ++ q.awaiting, t.sequence ≠ id.sequence

instance (q : TimerQueue) (id : TimerId) : Decidable (q.Over id) :=
  inferInstanceAs (Decidable (∀ t ∈ _, _))

/-- A call of `cancel` removes or suppresses only the timer of its handle, and when that
timer is over, it changes nothing and reads no freed timer. -/
def CancelsOwn (q : TimerQueue) : Event → Prop
  | .cancel id stale =>
    (∀ t ∈ q.scheduled, t ∉ (q.cancel id stale).scheduled → t.sequence = id.sequence) ∧
    (∀ s ∈ (q.cancel id stale).cancelling, s ∉ q.cancelling → s = id.sequence) ∧
    (q.Over id → (q.cancel id stale).timers.elements = q.timers.elements ∧
      (q.cancel id stale).activeSequences = q.activeSequences ∧
      (q.cancel id stale).freedReads = q.freedReads)
  | _ => True

/-- The address in the handle belongs to its own timer, or to a timer that is not in the
set. -/
def Harmless (q : TimerQueue) : Event → Prop
  | .cancel id _ =>
    ∀ a ∈ id.timer, ∃ t ∈ q.heap a, t.sequence = id.sequence ∨ entry t.expiration a ∉ q.timers
  | _ => True

instance (q : TimerQueue) (event : Event) : Decidable (CancelsOwn q event) := by
  cases event <;> unfold CancelsOwn <;> infer_instance

theorem mem_timersOf (heap : Address → Option Timer) (entries : List Entry) (t : Timer) :
    t ∈ timersOf heap entries ↔ ∃ e ∈ entries, heap e.address = some t := mem_filterMap

section Call

variable {q : TimerQueue} (id : TimerId) (stale : Timestamp) (a : Address)

theorem cancel_listed (t : Timer) (timer : id.timer = some a) (there : q.heap a = some t)
    (listed : entry t.expiration a ∈ q.timers) :
    q.cancel id stale = (q.note (.cancel id.sequence)).remove (entry t.expiration a) := by
  have reads : q.reads a = q := by simp [reads, there]
  have found : entry t.expiration a ∈ (q.note (.cancel id.sequence)).timers := listed
  simp only [cancel, timer, expirationAt, there, reads, if_pos found]

theorem cancel_unlisted (timer : id.timer = some a)
    (unlisted : entry (q.expirationAt a stale) a ∉ q.timers) :
    let r := (q.reads a).note (.cancel id.sequence)
    q.cancel id stale = if r.callingExpiredCallbacks then
      { r with cancelling := Insert.insert id.sequence r.cancelling } else r := by
  have missing : entry (q.expirationAt a stale) a ∉
      ((q.reads a).note (.cancel id.sequence)).timers := by
    unfold reads
    split <;> exact unlisted
  simp only [cancel, timer, if_neg missing]

end Call

theorem over_of_stale {q : TimerQueue} (kept : Kept q) (id : TimerId) (a : Address)
    (given : id ∈ q.issued) (timer : id.timer = some a)
    (stale : ∀ t, q.heap a = some t → t.sequence ≠ id.sequence) : q.Over id := by
  -- every timer on the heap that has the sequence number is at the address
  obtain ⟨_, _, a', timer', only⟩ := kept.consistent.issued id given
  rw [timer] at timer'
  cases timer'
  have elsewhere (e : Entry) (t : Timer) (there : q.heap e.address = some t) :
      t.sequence ≠ id.sequence := by
    intro same
    have address := only e.address t there same
    rw [address] at there
    exact stale t there same
  intro t member
  rcases mem_append.mp member with listed | waiting
  · obtain ⟨e, _, there⟩ := (mem_timersOf ..).mp listed
    exact elsewhere e t there
  · unfold awaiting at waiting
    split at waiting
    · obtain ⟨e, _, there⟩ := (mem_timersOf ..).mp (mem_filter.mp waiting).1
      exact elsewhere e t there
    · cases waiting

theorem mem_scheduled_remove {q : TimerQueue} {out : List Entry} (c : Consistent q out) (e : Entry)
    (t : Timer) (there : q.heap e.address = some t) (u : Timer) :
    u ∈ (q.remove e).scheduled ↔ u ∈ q.scheduled ∧ u.sequence ≠ t.sequence := by
  have removed : q.remove e = { q.free e.address t with timers := q.timers.erase e } := by
    simp only [remove, there]
  rw [removed]
  simp only [scheduled, mem_timersOf, free, ← SortedSet.mem_def, SortedSet.mem_erase]
  constructor
  · rintro ⟨f, ⟨other, inside⟩, holds⟩
    by_cases address : f.address = e.address
    · simp [address] at holds
    · rw [Function.update_of_ne address] at holds
      exact ⟨⟨f, inside, holds⟩, fun same => address (c.distinct _ _ u t holds there same)⟩
  · rintro ⟨⟨f, inside, holds⟩, other⟩
    have address : f.address ≠ e.address := by
      intro same
      rw [same, there] at holds
      cases holds
      exact other rfl
    refine ⟨f, ⟨fun same => address (same ▸ rfl), inside⟩, ?_⟩
    rw [Function.update_of_ne address]
    exact holds

section Exact

variable {q : TimerQueue} (id : TimerId) (stale : Timestamp) (a : Address)

theorem not_cancelsOwn_freed (kept : Kept q) (given : id ∈ q.issued) (timer : id.timer = some a)
    (unused : q.heap a = none) : ¬CancelsOwn q (.cancel id stale) := by
  intro own
  have ended := over_of_stale kept id a given timer (fun t there => by simp [unused] at there)
  have unlisted : entry (q.expirationAt a stale) a ∉ q.timers := by
    intro listed
    obtain ⟨t, there, _⟩ := kept.consistent.heap_of_timers listed
    have here : q.heap a = some t := there
    simp [unused] at here
  have freed : (q.cancel id stale).freedReads = q.freedReads ++ [a] := by
    rw [cancel_unlisted id stale a timer unlisted]
    simp only [reads, unused, if_true]
    split <;> rfl
  have same := (own.2.2 ended).2.2
  rw [freed] at same
  simp at same

theorem cancelsOwn_unlisted (t : Timer) (timer : id.timer = some a) (there : q.heap a = some t)
    (unlisted : entry t.expiration a ∉ q.timers) : CancelsOwn q (.cancel id stale) := by
  have missing : entry (q.expirationAt a stale) a ∉ q.timers := by
    simp only [expirationAt, there]
    exact unlisted
  have reads : q.reads a = q := by simp [reads, there]
  have cancelled := cancel_unlisted id stale a timer missing
  rw [reads] at cancelled
  -- the set, the heap and the active sequence numbers are as before
  have same : (q.cancel id stale).timers = q.timers ∧ (q.cancel id stale).heap = q.heap ∧
      (q.cancel id stale).activeSequences = q.activeSequences ∧
      (q.cancel id stale).freedReads = q.freedReads ∧
      (q.cancel id stale).cancelling ⊆ Insert.insert id.sequence q.cancelling := by
    rw [cancelled]
    split
    · exact ⟨rfl, rfl, rfl, rfl, Finset.Subset.refl _⟩
    · exact ⟨rfl, rfl, rfl, rfl, Finset.subset_insert ..⟩
  obtain ⟨timers, heap, active, freed, cancelling⟩ := same
  refine ⟨fun u inside absent => ?_, fun s kept new => ?_, fun _ => ⟨by rw [timers], active, freed⟩⟩
  · unfold scheduled at absent
    rw [timers, heap] at absent
    exact absurd inside absent
  · exact (Finset.mem_insert.mp (cancelling kept)).resolve_right new

theorem cancelsOwn_listed (kept : Kept q) (t : Timer) (timer : id.timer = some a)
    (there : q.heap a = some t) (listed : entry t.expiration a ∈ q.timers) :
    CancelsOwn q (.cancel id stale) ↔ t.sequence = id.sequence := by
  have inside : t ∈ q.scheduled := (mem_timersOf ..).mpr ⟨_, listed, there⟩
  have noted := kept.note (.cancel id.sequence)
  have left (u : Timer) := mem_scheduled_remove noted.consistent (entry t.expiration a) t there u
  have cancelled := cancel_listed id stale a t timer there listed
  rw [← cancelled] at left
  constructor
  · intro own
    exact own.1 t inside (fun member => ((left t).mp member).2 rfl)
  · intro same
    refine ⟨fun u member absent => ?_, fun s member new => absurd ?_ new, fun ended => ?_⟩
    · rw [left, not_and, not_not] at absent
      exact (absent member).trans same
    · rw [cancelled] at member
      simp only [remove, show (q.note (.cancel id.sequence)).heap (entry t.expiration a).address =
        some t from there] at member
      exact member
    · exact absurd same (ended t (mem_append_left _ inside))

end Exact

theorem cancelsOwn_iff {q q' : TimerQueue} (kept : Kept q) (event : Event)
    (stepped : q.step event = some q') : CancelsOwn q event ↔ Harmless q event := by
  cases moves_step stepped with
  | addTimer | handleRead | turn | reset => exact Iff.rfl
  | cancel id stale handle =>
    cases timer : id.timer with
    | none =>
      have unchanged : q.cancel id stale = q := by simp only [cancel, timer]
      constructor
      · rintro - a h
        rw [timer] at h
        exact absurd h (Option.not_mem_none a)
      · rintro -
        unfold CancelsOwn
        dsimp only
        rw [unchanged]
        exact ⟨fun t h absent => absurd h absent, fun s h absent => absurd h absent,
          fun _ => ⟨rfl, rfl, rfl⟩⟩
    | some a =>
      have given : id ∈ q.issued := handle.resolve_left (by simp [timer])
      cases there : q.heap a with
      | none =>
        have stuck := not_cancelsOwn_freed id stale a kept given timer there
        simp [Harmless, timer, there, stuck]
      | some t =>
        by_cases listed : entry t.expiration a ∈ q.timers
        · rw [cancelsOwn_listed id stale a kept t timer there listed]
          simp [Harmless, timer, there, listed]
        · have own := cancelsOwn_unlisted id stale a t timer there listed
          simp [Harmless, timer, there, listed, own]

/-- Every `cancel` of a run cancels its own timer and nothing else exactly when the address
of its handle always belongs to its own timer or to a timer that is not in the set. -/
theorem cancelsOwn_iff_harmless (events : List Event) :
    Machine.Meets step CancelsOwn {} events ↔ Machine.Meets step Harmless {} events :=
  Machine.meets_congr (fun _ event _ kept => cancelsOwn_iff kept event) _ events
    (kept_always events)

/-- A one-shot timer fires and is freed, and the next timer gets its address; then the first
handle is used. -/
def cancelledLate : List Event :=
  [.addTimer 64 0 5 0 1, .handleRead 9, .turn, .reset 9, .addTimer 64 0 50 0 10,
    .cancel ⟨some 64, 1⟩ 0]

/-- The second timer is gone, although it was not cancelled. -/
theorem cancelledLate_cancelsOther :
    (Machine.run step {} cancelledLate).map (fun q => (q.issued, q.scheduled)) =
      some ([⟨some 64, 1⟩, ⟨some 64, 2⟩], []) ∧
    ¬Machine.Meets step CancelsOwn {} cancelledLate := by
  decide +kernel

end Cox.Reactor.TimerQueue

import Cox.Reactor.TimerCancel

/-!
# The timer queue as a schedule

`TimerQueue` refines the abstract schedule of `Cox.Lib.Schedule`, as long as only timers
that have not been freed are cancelled: adding and cancelling are what they say, and a whole
`handleRead` is a round. The set holds the jobs of the schedule that are not part of the
round; `cancelling_` holds the members of the round that were cancelled during it.
-/
namespace Cox.Reactor.TimerQueue

open Cox.Lib Cox.Lib.Schedule List Function

/-- Timers as jobs: a repeating one is due again an interval after the round. -/
def discipline : Discipline Timer Nat Timestamp where
  key t := t.sequence
  deadline t := t.expiration
  renew now t :=
    if 0 < t.intervalMs then some { t with expiration := now + t.intervalMs * 1000 } else none

theorem renew_eq (now : Timestamp) (t : Timer) :
    discipline.renew now t = if t.repeats then some (t.restart now) else none := by
  simp only [discipline, Timer.repeats, Timer.restart, addMilliseconds, decide_eq_true_eq]
  split
  · simp
  · rfl

/-! ### What is scheduled -/

section Scheduled

variable {q : TimerQueue} {out : List Entry}

theorem mem_timersOf_iff (c : Consistent q out) (entries : List Entry)
    (listed : ∀ e ∈ entries, e ∈ q.timers ∨ e ∈ out) (t : Timer) :
    t ∈ timersOf q.heap entries ↔ ∃ a, q.heap a = some t ∧ entry t.expiration a ∈ entries := by
  rw [mem_timersOf]
  constructor
  · rintro ⟨e, inside, there⟩
    obtain ⟨u, there', time⟩ := (c.stored e).mp (listed e inside)
    rw [there] at there'
    cases there'
    have same : entry t.expiration e.address = e := Entry.ext time rfl
    exact ⟨e.address, there, same ▸ inside⟩
  · rintro ⟨a, there, inside⟩
    exact ⟨entry t.expiration a, inside, there⟩

theorem mem_scheduled (c : Consistent q out) (t : Timer) :
    t ∈ q.scheduled ↔ ∃ a, q.heap a = some t ∧ entry t.expiration a ∈ q.timers :=
  mem_timersOf_iff c q.timers.elements (fun _ => .inl) t

theorem address_apart (c : Consistent q out) {e f : Entry} (taken : e ∈ out) (listed : f ∈ q.timers) :
    e.address ≠ f.address := by
  intro address
  have same := c.unique (.inr taken) (.inl listed) address
  exact c.apart e taken (same ▸ listed)

theorem sequence_apart (c : Consistent q out) {t u : Timer} (inside : t ∈ q.scheduled) {a : Address}
    (there : q.heap a = some u) (taken : entry u.expiration a ∈ out) : t.sequence ≠ u.sequence := by
  intro same
  obtain ⟨b, here, listed⟩ := (mem_scheduled c t).mp inside
  have address := c.distinct b a t u here there same
  subst address
  rw [here] at there
  cases there
  exact c.apart _ taken listed

theorem timersOf_ordered (c : Consistent q out) (entries : List Entry)
    (listed : ∀ e ∈ entries, e ∈ q.timers ∨ e ∈ out) (sorted : entries.Pairwise (· < ·)) :
    (timersOf q.heap entries).Nodup ∧
      (timersOf q.heap entries).Pairwise fun t u => t.expiration ≤ u.expiration := by
  have both : (timersOf q.heap entries).Pairwise
      fun t u => t ≠ u ∧ t.expiration ≤ u.expiration := by
    refine List.Pairwise.filterMap _ ?_ (sorted.imp_of_mem fun {e f} he hf before =>
      (⟨before, listed e he, listed f hf⟩ :
        e < f ∧ (e ∈ q.timers ∨ e ∈ out) ∧ (f ∈ q.timers ∨ f ∈ out)))
    rintro e f ⟨before, first, second⟩ t there u there'
    obtain ⟨t', holds, time⟩ := (c.stored e).mp first
    obtain ⟨u', holds', time'⟩ := (c.stored f).mp second
    cases holds.symm.trans there
    cases holds'.symm.trans there'
    refine ⟨fun same => ?_, ?_⟩
    · have address := c.distinct _ _ t u there there' (congrArg Timer.sequence same)
      exact ne_of_lt before (c.unique first second address)
    · rw [time, time']
      exact time_le_of_lt before
  exact ⟨both.imp And.left, both.imp And.right⟩

/-! ### What `reset` leaves -/

theorem resetTimer_other (now : Timestamp) (q : TimerQueue) (e : Entry) (a : Address)
    (other : a ≠ e.address) : (q.resetTimer now e).heap a = q.heap a := by
  unfold resetTimer
  split
  · split
    · exact update_of_ne other ..
    · exact update_of_ne other ..
  · unfold reads
    split <;> rfl

theorem resetTimer_own (now : Timestamp) (e : Entry) (t : Timer)
    (there : q.heap e.address = some t) :
    (q.resetTimer now e).heap e.address =
        (if t.repeats ∧ t.sequence ∉ q.cancelling then some (t.restart now) else none) ∧
      (q.resetTimer now e).cancelling = q.cancelling := by
  simp only [resetTimer, there]
  split
  · exact ⟨update_self .., rfl⟩
  · exact ⟨update_self .., rfl⟩

theorem resetAll_other (now : Timestamp) (entries : List Entry) (q : TimerQueue) (a : Address)
    (others : ∀ e ∈ entries, e.address ≠ a) :
    (entries.foldl (resetTimer now) q).heap a = q.heap a := by
  induction entries generalizing q with
  | nil => rfl
  | cons e entries ih =>
    rw [foldl_cons, ih _ fun f member => others f (mem_cons_of_mem _ member),
      resetTimer_other now q e a (others e (mem_cons_self ..)).symm]

theorem resetAll_own (c : Consistent q out) (now : Timestamp) (e : Entry) (t : Timer)
    (taken : e ∈ out) (there : q.heap e.address = some t) :
    (out.foldl (resetTimer now) q).heap e.address =
      if t.repeats ∧ t.sequence ∉ q.cancelling then some (t.restart now) else none := by
  induction out generalizing q with
  | nil => cases taken
  | cons f out ih =>
    obtain ⟨u, first, _⟩ := c.heap_of_out (mem_cons_self ..)
    obtain ⟨own, cancelling⟩ := resetTimer_own now f u first
    have elsewhere (g : Entry) (later : g ∈ out) : g.address ≠ f.address := by
      intro address
      have same := c.unique (.inr (mem_cons_of_mem _ later))
        (.inr (mem_cons_self ..)) address
      exact (nodup_cons.mp c.once).1 (same ▸ later)
    rw [foldl_cons]
    rcases mem_cons.mp taken with rfl | later
    -- its own turn; the entries behind it have other addresses
    · cases first.symm.trans there
      rw [resetAll_other now out _ _ elsewhere, own]
    · have next := c.resetTimer now f (mem_cons_self ..)
      rw [erase_cons_head] at next
      rw [ih next later (by rw [resetTimer_other now q f _ (elsewhere e later)]; exact there),
        cancelling]

theorem resetAll_heap (c : Consistent q out) (now : Timestamp) (a : Address) (u : Timer)
    (there : (out.foldl (resetTimer now) q).heap a = some u) :
    (q.heap a = some u ∧ ∀ e ∈ out, e.address ≠ a) ∨
      ∃ t, q.heap a = some t ∧ entry t.expiration a ∈ out ∧ t.repeats = true ∧
        t.sequence ∉ q.cancelling ∧ u = t.restart now := by
  by_cases taken : ∃ e ∈ out, e.address = a
  · obtain ⟨e, taken, rfl⟩ := taken
    obtain ⟨t, before, time⟩ := c.heap_of_out taken
    rw [resetAll_own c now e t taken before] at there
    by_cases renewed : t.repeats ∧ t.sequence ∉ q.cancelling
    · rw [if_pos renewed] at there
      cases there
      have same : entry t.expiration e.address = e := Entry.ext time rfl
      exact .inr ⟨t, before, same ▸ taken, renewed.1, renewed.2, rfl⟩
    · rw [if_neg renewed] at there
      cases there
  -- not one of those that were taken out: `reset` does not touch it
  · have others : ∀ e ∈ out, e.address ≠ a := fun e member same => taken ⟨e, member, same⟩
    rw [resetAll_other now out q a others] at there
    exact .inl ⟨there, others⟩

theorem mem_scheduled_resetAll (c : Consistent q out) (now : Timestamp) (u : Timer) :
    u ∈ (out.foldl (resetTimer now) q).scheduled ↔ u ∈ q.scheduled ∨
      ∃ t ∈ timersOf q.heap out, t.repeats = true ∧ t.sequence ∉ q.cancelling ∧
        u = t.restart now := by
  have done := c.resetAll now
  have listed (a : Address) (v : Timer) (there : (out.foldl (resetTimer now) q).heap a = some v) :
      entry v.expiration a ∈ (out.foldl (resetTimer now) q).timers :=
    (done.entry_of_heap there).resolve_right not_mem_nil
  simp only [mem_scheduled done, mem_scheduled c, mem_timersOf_iff c out (fun _ => .inr)]
  constructor
  · rintro ⟨a, there, _⟩
    rcases resetAll_heap c now a u there with ⟨before, others⟩ | ⟨t, before, taken, renewed⟩
    · exact .inl ⟨a, before, (c.entry_of_heap before).resolve_right fun h => others _ h rfl⟩
    · exact .inr ⟨t, ⟨a, before, taken⟩, renewed⟩
  · rintro (⟨a, there, inside⟩ | ⟨t, ⟨a, before, taken⟩, repeats, kept, rfl⟩)
    · have others : ∀ e ∈ out, e.address ≠ a := fun e taken => address_apart c taken inside
      have after : (out.foldl (resetTimer now) q).heap a = some u := by
        rw [resetAll_other now out q a others]
        exact there
      exact ⟨a, after, listed a u after⟩
    · have after := resetAll_own c now (entry t.expiration a) t taken before
      rw [if_pos ⟨repeats, kept⟩] at after
      exact ⟨a, after, listed a _ after⟩

/-! ### Adding and cancelling -/

theorem addTimer_fields (q : TimerQueue) (address : Address) (t : Timer) (clock : Timestamp) :
    (q.addTimer address t clock).heap = update q.heap address (some t) ∧
      (q.addTimer address t clock).timers = q.timers.insert (entry t.expiration address) ∧
      (q.addTimer address t clock).cancelling = q.cancelling ∧
      (q.addTimer address t clock).numCreated = t.sequence ∧
      (q.addTimer address t clock).ran = q.ran ∧
      (q.addTimer address t clock).batch = (q.note (.add t)).batch := by
  unfold addTimer
  dsimp only
  split <;> exact ⟨rfl, rfl, rfl, rfl, rfl, rfl⟩

theorem mem_scheduled_addTimer (c : Consistent q out) (address : Address) (t : Timer)
    (clock : Timestamp) (unused : q.heap address = none) (u : Timer) :
    u ∈ (q.addTimer address t clock).scheduled ↔ u = t ∨ u ∈ q.scheduled := by
  -- the entries of the set have other addresses
  have old (e : Entry) (listed : e ∈ q.timers) :
      update q.heap address (some t) e.address = q.heap e.address := by
    refine update_of_ne ?_ ..
    rintro rfl
    obtain ⟨v, there, _⟩ := c.heap_of_timers listed
    rw [unused] at there
    cases there
  obtain ⟨heap, timers, _⟩ := addTimer_fields q address t clock
  simp only [scheduled, heap, timers, mem_timersOf, ← SortedSet.mem_def, SortedSet.mem_insert]
  constructor
  · rintro ⟨e, rfl | listed, there⟩
    · have own : update q.heap address (some t) address = some u := there
      rw [update_self] at own
      cases own
      exact .inl rfl
    · rw [old e listed] at there
      exact .inr ⟨e, listed, there⟩
  · rintro (rfl | ⟨e, listed, there⟩)
    · exact ⟨_, .inl rfl, update_self ..⟩
    · exact ⟨e, .inr listed, (old e listed).trans there⟩

def Unfreed (q : TimerQueue) (id : TimerId) : Prop :=
  ∀ a ∈ id.timer, ∃ t ∈ q.heap a, t.sequence = id.sequence

instance (q : TimerQueue) : (id : TimerId) → Decidable (q.Unfreed id)
  | ⟨none, _⟩ => isTrue fun _ h => (nomatch h)
  | ⟨some a, sequence⟩ =>
    decidable_of_iff (∃ t ∈ q.heap a, t.sequence = sequence) (by simp [Unfreed])

theorem timersOf_update (heap : Address → Option Timer) (a : Address) (x : Option Timer)
    (entries : List Entry) (others : ∀ e ∈ entries, e.address ≠ a) :
    timersOf (update heap a x) entries = timersOf heap entries :=
  filterMap_congr fun e member => update_of_ne (others e member) ..

/-- What `cancel` does with a timer that has not been freed. -/
structure Cancelled (q q' : TimerQueue) (sequence : Nat) : Prop where
  batch : q'.batch = (q.note (.cancel sequence)).batch
  ran : q'.ran = q.ran
  created : q'.numCreated = q.numCreated
  scheduled : ∀ u, u ∈ q'.scheduled ↔ u ∈ q.scheduled ∧ u.sequence ≠ sequence
  heap : ∀ a u, q'.heap a = some u → q.heap a = some u
  taken : ∀ e ∈ q.expired, q'.heap e.address = q.heap e.address
  marks : ∀ u ∈ timersOf q.heap q.expired,
    u.sequence ∈ q'.cancelling ↔ u.sequence ∈ q.cancelling ∨ u.sequence = sequence

variable (kept : Kept q) (id : TimerId) (stale : Timestamp) (a : Address) (t : Timer)
  (timer : id.timer = some a) (there : q.heap a = some t) (own : t.sequence = id.sequence)
include kept timer there own

theorem cancelled_listed (listed : entry t.expiration a ∈ q.timers) :
    Cancelled q (q.cancel id stale) id.sequence := by
  have c := kept.consistent
  have noted := (kept.note (.cancel id.sequence)).consistent
  have left (u : Timer) := mem_scheduled_remove noted (entry t.expiration a) t there u
  rw [← cancel_listed id stale a t timer there listed, own] at left
  have cancelled : q.cancel id stale = { (q.note (.cancel id.sequence)).free a t with
      timers := q.timers.erase (entry t.expiration a) } := by
    have here : (q.note (.cancel id.sequence)).heap (entry t.expiration a).address = some t := there
    rw [cancel_listed id stale a t timer there listed]
    simp only [remove, here]
    rfl
  rw [cancelled] at left ⊢
  refine ⟨rfl, rfl, rfl, left, fun b u holds => ?_, fun e taken => ?_, fun u member => ?_⟩
  · have holds : update q.heap a none b = some u := holds
    by_cases same : b = a
    · simp [same] at holds
    · rwa [update_of_ne same] at holds
  · exact update_of_ne (address_apart c taken listed) ..
  -- the members of the batch have other sequence numbers
  · obtain ⟨b, holds, taken⟩ := (mem_timersOf_iff c q.expired (fun _ => .inr) u).mp member
    have inside : t ∈ q.scheduled := (mem_scheduled c t).mpr ⟨a, there, listed⟩
    have other := (sequence_apart c inside holds taken).symm
    rw [own] at other
    exact ⟨.inl, fun h => h.resolve_right other⟩

theorem cancelled_taken (unlisted : entry t.expiration a ∉ q.timers) :
    Cancelled q (q.cancel id stale) id.sequence := by
  have c := kept.consistent
  have missing : entry (q.expirationAt a stale) a ∉ q.timers := by
    simp only [expirationAt, there]
    exact unlisted
  have taken : entry t.expiration a ∈ q.expired := (c.entry_of_heap there).resolve_left unlisted
  -- only a running batch takes timers out of the set
  have calling : q.callingExpiredCallbacks = true := by
    rw [kept.calling]
    unfold expired at taken
    cases batch : q.batch with
    | none => simp [batch] at taken
    | some b => rfl
  have reads : q.reads a = q := by simp [reads, there]
  have cancelled : q.cancel id stale = { q.note (.cancel id.sequence) with
      cancelling := Insert.insert id.sequence q.cancelling } := by
    rw [cancel_unlisted id stale a timer missing, reads]
    exact if_pos calling
  rw [cancelled]
  refine ⟨rfl, rfl, rfl, fun u => ?_, fun b u holds => holds, fun _ _ => rfl, fun u _ => ?_⟩
  · refine ⟨fun inside => ⟨inside, ?_⟩, And.left⟩
    rw [← own]
    exact sequence_apart c inside there taken
  · rw [Finset.mem_insert, or_comm]

theorem cancel_unfreed : Cancelled q (q.cancel id stale) id.sequence := by
  by_cases listed : entry t.expiration a ∈ q.timers
  · exact cancelled_listed kept id stale a t timer there own listed
  · exact cancelled_taken kept id stale a t timer there own listed

end Scheduled

/-! ### The round under way -/

/-- The running `handleRead` is a round under way. -/
structure Going (q : TimerQueue) (b : Batch) : Prop where
  progress : Progress discipline b.now { t | t ∈ b.before } b.deeds b.ran (timersOf q.heap b.turns)
    { t | t ∈ q.scheduled }
  members : ∀ t, t ∈ timersOf q.heap b.expired ↔ t ∈ b.before ∧ t.expiration ≤ b.now
  marked : ∀ t ∈ timersOf q.heap b.expired,
    t.sequence ∈ q.cancelling ↔ t.sequence ∈ cancels b.deeds
  older : ∀ s ∈ cancels b.deeds, s ≤ q.numCreated

section Going

variable {q q' : TimerQueue} {b : Batch}

theorem going_handleRead (kept : Kept q) (idle : q.batch = none) (now : Timestamp) :
    ∀ b ∈ (q.handleRead now).batch, Going (q.handleRead now) b := by
  have c := kept.consistent
  simp only [expired, idle] at c
  have part (e : Entry) (member : e ∈ q.timers.upTo (sentinel now)) : e ∈ q.timers ∨ e ∈ [] :=
    .inl ((SortedSet.mem_upTo ..).mp member).1
  have time (t : Timestamp) (a : Address) : (entry t a).time = t := rfl
  -- the cut at the sentinel is a cut by expiration
  have due (t : Timer) : t ∈ timersOf q.heap (q.timers.upTo (sentinel now)) ↔
      t ∈ q.scheduled ∧ t.expiration ≤ now := by
    rw [mem_timersOf_iff c _ part, mem_scheduled c]
    simp only [SortedSet.mem_upTo, le_sentinel, time, ← and_assoc, exists_and_right]
  have later (t : Timer) : t ∈ (q.handleRead now).scheduled ↔
      t ∈ q.scheduled ∧ now < t.expiration := by
    rw [mem_scheduled (c.getExpired now), mem_scheduled c]
    simp only [handleRead, readTimerfd, SortedSet.mem_above, sentinel_lt, time, ← and_assoc,
      exists_and_right]
  obtain ⟨once, ordered⟩ := timersOf_ordered c _ part (q.timers.upTo_sorted (sentinel now))
  intro b same
  cases same
  exact ⟨Progress.start _ _ due once ordered later, due, fun t _ => by simp [handleRead, cancels],
    fun s h => by cases h⟩

theorem Going.add (going : Going q b) (address : Address) (t : Timer) (clock : Timestamp)
    (c : Consistent q b.expired) (turns : b.turns <:+ b.expired) (unused : q.heap address = none)
    (new : q.numCreated < t.sequence) :
    Going (q.addTimer address t clock) { b with deeds := b.deeds ++ [.add t] } := by
  obtain ⟨heap, _, cancelling, created, _⟩ := addTimer_fields q address t clock
  -- the expired timers are still on the heap, so the new one has another address
  have elsewhere (e : Entry) (taken : e ∈ b.expired) : e.address ≠ address := by
    rintro rfl
    obtain ⟨v, there, _⟩ := c.heap_of_out taken
    rw [unused] at there
    cases there
  have expired : timersOf (q.addTimer address t clock).heap b.expired = timersOf q.heap b.expired := by
    rw [heap]
    exact timersOf_update q.heap address _ _ elsewhere
  have waiting : timersOf (q.addTimer address t clock).heap b.turns = timersOf q.heap b.turns := by
    rw [heap]
    exact timersOf_update q.heap address _ _ fun e member => elsewhere e (turns.subset member)
  -- sequence numbers are not reused, so no earlier cancellation means the new timer
  have fresh : discipline.key t ∉ cancels b.deeds := by
    intro old
    have known : t.sequence ≤ q.numCreated := going.older _ old
    omega
  refine ⟨?_, ?_, ?_, ?_⟩
  · rw [waiting]
    exact going.progress.add t fresh _ (mem_scheduled_addTimer c address t clock unused)
  · rw [expired]
    exact going.members
  · rw [expired, cancelling]
    simpa [cancels] using going.marked
  · rw [created]
    simp only [cancels_append, cancels, append_nil]
    intro s old
    have := going.older s old
    omega

theorem Going.cancel (going : Going q b) (s : Nat) (known : s ≤ q.numCreated)
    (created : q'.numCreated = q.numCreated)
    (removed : ∀ u, u ∈ q'.scheduled ↔ u ∈ q.scheduled ∧ u.sequence ≠ s)
    (waiting : timersOf q'.heap b.turns = timersOf q.heap b.turns)
    (expired : timersOf q'.heap b.expired = timersOf q.heap b.expired)
    (marks : ∀ u ∈ timersOf q.heap b.expired,
      u.sequence ∈ q'.cancelling ↔ u.sequence ∈ q.cancelling ∨ u.sequence = s) :
    Going q' { b with deeds := b.deeds ++ [.cancel s] } := by
  refine ⟨?_, ?_, ?_, ?_⟩
  · rw [waiting]
    exact going.progress.cancel s _ removed
  · rw [expired]
    exact going.members
  · rw [expired]
    intro t member
    rw [marks t member, going.marked t member]
    simp [cancels]
  · rw [created]
    simp only [cancels_append, cancels, mem_append, mem_singleton]
    rintro r (old | rfl)
    · exact going.older r old
    · exact known

theorem Going.turn (going : Going q b) (e : Entry) (rest : List Entry) (t : Timer)
    (turns : b.turns <:+ b.expired) (first : b.turns = e :: rest)
    (there : q.heap e.address = some t) : ∀ b' ∈ (q.takeTurn b t rest).batch,
      Going (q.takeTurn b t rest) b' := by
  have taken : t ∈ timersOf q.heap b.expired :=
    (mem_timersOf ..).mpr ⟨e, turns.subset (first ▸ mem_cons_self ..), there⟩
  have head : timersOf q.heap b.turns = t :: timersOf q.heap rest := by
    rw [first]
    exact filterMap_cons_some there
  have progress := going.progress
  rw [head] at progress
  have next := progress.turn
  have marked : discipline.key t ∈ cancels b.deeds ↔ t.sequence ∈ q.cancelling :=
    (going.marked t taken).symm
  have noted : cancels (b.deeds ++ [.turn t]) = cancels b.deeds := by simp [cancels]
  intro b' same
  unfold takeTurn at same ⊢
  split at same
  next skipped =>
    cases same
    rw [if_pos (marked.mpr skipped), append_nil] at next
    rw [if_pos skipped]
    exact ⟨next, going.members, by rw [noted]; exact going.marked, by rw [noted]; exact going.older⟩
  next goes =>
    cases same
    rw [if_neg (fun gone => goes (marked.mp gone))] at next
    rw [if_neg goes]
    exact ⟨next, going.members, by rw [noted]; exact going.marked, by rw [noted]; exact going.older⟩

theorem Going.finish (going : Going q b) (clock : Timestamp) (c : Consistent q b.expired)
    (last : b.turns = []) :
    Round discipline b.now { t | t ∈ b.before } b.deeds b.ran
      { t | t ∈ (q.reset b clock).scheduled } := by
  have progress := going.progress
  rw [last] at progress
  refine progress.finish _ (fun u => ?_)
  have ended : Consistent { q with callingExpiredCallbacks := false } b.expired :=
    c.same rfl rfl rfl rfl rfl
  have same : (q.reset b clock).scheduled =
      (b.expired.foldl (resetTimer b.now) { q with callingExpiredCallbacks := false }).scheduled := by
    unfold reset rearm
    split <;> rfl
  show u ∈ (q.reset b clock).scheduled ↔ u ∈ q.scheduled ∨ _
  rw [same, mem_scheduled_resetAll ended b.now u]
  refine or_congr Iff.rfl ⟨?_, ?_⟩
  · rintro ⟨t, taken, repeats, kept, rfl⟩
    obtain ⟨before, due⟩ := (going.members t).mp taken
    refine ⟨t, before, due, fun gone => kept ((going.marked t taken).mpr gone), ?_⟩
    rw [renew_eq, if_pos repeats]
  · rintro ⟨t, before, due, kept, renewed⟩
    have taken := (going.members t).mpr ⟨before, due⟩
    rw [renew_eq] at renewed
    split at renewed <;> cases renewed
    next repeats =>
      exact ⟨t, taken, repeats, fun gone => kept ((going.marked t taken).mp gone), rfl⟩

end Going

/-! ### Timers that do not repeat -/

/-- A timer that does not repeat and has run is one of those that were taken out, behind
the turn of which the round is, or it has been freed. -/
structure OneShots (q : TimerQueue) : Prop where
  spent : ∀ t ∈ q.ran, t.repeats = false → t.sequence ≤ q.numCreated ∧
    ∀ a u, q.heap a = some u → u.sequence = t.sequence → u.repeats = false ∧
      ∃ b ∈ q.batch, entry u.expiration a ∈ b.expired ∧ entry u.expiration a ∉ b.turns
  once : ((q.ran.filter (!·.repeats)).map Timer.sequence).Nodup

section OneShots

variable {q q' : TimerQueue} {b : Batch}

theorem OneShots.idle (shots : OneShots q) (ran : q'.ran = q.ran)
    (created : q.numCreated ≤ q'.numCreated)
    (heap : ∀ a u, q'.heap a = some u → q.heap a = some u ∨ q.numCreated < u.sequence)
    (batch : ∀ b ∈ q.batch, ∃ b' ∈ q'.batch, b'.expired = b.expired ∧ b'.turns = b.turns) :
    OneShots q' := by
  refine ⟨fun t member oneShot => ?_, ?_⟩
  · rw [ran] at member
    obtain ⟨old, where'⟩ := shots.spent t member oneShot
    refine ⟨old.trans created, fun a u there same => ?_⟩
    rcases heap a u there with there | new
    · obtain ⟨u_oneShot, b, running, taken, had⟩ := where' a u there same
      obtain ⟨b', running', expired, turns⟩ := batch b running
      exact ⟨u_oneShot, b', running', expired ▸ taken, turns ▸ had⟩
    · omega
  · rw [ran]
    exact shots.once

theorem note_batch (q : TimerQueue) (deed : Deed Timer Nat) :
    ∀ b ∈ q.batch, ∃ b' ∈ (q.note deed).batch, b'.expired = b.expired ∧ b'.turns = b.turns := by
  intro b running
  exact ⟨_, Option.mem_map_of_mem _ running, rfl, rfl⟩

theorem OneShots.behind (shots : OneShots q) (running : q.batch = some b) (t : Timer)
    (inside : t ∈ q.ran) (oneShot : t.repeats = false) (a : Address) (u : Timer)
    (there : q.heap a = some u) (same : u.sequence = t.sequence) :
    u.repeats = false ∧ entry u.expiration a ∈ b.expired ∧ entry u.expiration a ∉ b.turns := by
  obtain ⟨u_oneShot, b', running', taken, had⟩ := (shots.spent t inside oneShot).2 a u there same
  cases running.symm.trans running'
  exact ⟨u_oneShot, taken, had⟩

theorem OneShots.turn (shots : OneShots q) (e : Entry) (rest : List Entry) (t : Timer)
    (running : q.batch = some b) (c : Consistent q b.expired) (turns : b.turns <:+ b.expired)
    (first : b.turns = e :: rest) (there : q.heap e.address = some t) :
    OneShots (q.takeTurn b t rest) := by
  rw [first] at turns
  have member : e ∈ b.expired := turns.subset (mem_cons_self ..)
  have mine : entry t.expiration e.address = e := by
    obtain ⟨u, holds, time⟩ := c.heap_of_out member
    cases holds.symm.trans there
    exact Entry.ext time rfl
  have passed : e ∉ rest := (nodup_cons.mp (c.once.sublist turns.sublist)).1
  -- those that had their turn before do not have it now
  have before (u : Timer) (inside : u ∈ q.ran) (oneShot : u.repeats = false) (x : Batch)
      (expired : x.expired = b.expired) (remaining : x.turns = rest) :
      u.sequence ≤ q.numCreated ∧ ∀ a v, q.heap a = some v → v.sequence = u.sequence →
        v.repeats = false ∧ ∃ b ∈ some x, entry v.expiration a ∈ b.expired ∧
          entry v.expiration a ∉ b.turns := by
    refine ⟨(shots.spent u inside oneShot).1, fun a v holds same => ?_⟩
    obtain ⟨v_oneShot, taken, had⟩ := shots.behind running u inside oneShot a v holds same
    rw [first] at had
    rw [← expired] at taken
    refine ⟨v_oneShot, x, rfl, taken, ?_⟩
    rw [remaining]
    exact fun h => had (mem_cons_of_mem _ h)
  unfold takeTurn
  split
  · refine ⟨fun u inside oneShot => ?_, shots.once⟩
    exact before u inside oneShot _ rfl rfl
  · refine ⟨fun u inside oneShot => ?_, ?_⟩
    · rcases mem_append.mp inside with inside | inside
      · exact before u inside oneShot _ rfl rfl
      · cases mem_singleton.mp inside
        refine ⟨(c.created _ t there).2, fun a v holds same => ?_⟩
        cases c.distinct a e.address v t holds there same
        cases holds.symm.trans there
        exact ⟨oneShot, _, rfl, mine.symm ▸ member, mine.symm ▸ passed⟩
    · show (((q.ran ++ [t]).filter (!·.repeats)).map Timer.sequence).Nodup
      rw [filter_append, map_append]
      refine nodup_append.mpr ⟨shots.once, List.Nodup.map_on ?_ (List.Nodup.filter _ ?_), ?_⟩
      · simp
      · simp
      · rintro r ran s now rfl
        obtain ⟨u, u_ran, u_sequence⟩ := mem_map.mp ran
        obtain ⟨v, v_now, v_sequence⟩ := mem_map.mp now
        simp only [mem_filter, mem_singleton, Bool.not_eq_true'] at u_ran v_now
        obtain ⟨rfl, _⟩ := v_now
        obtain ⟨_, _, had⟩ := shots.behind running u u_ran.1 u_ran.2 _ v there
          (v_sequence.trans u_sequence.symm)
        rw [mine, first] at had
        exact had (mem_cons_self ..)

theorem OneShots.reset (shots : OneShots q) (clock : Timestamp) (running : q.batch = some b)
    (c : Consistent q b.expired) : OneShots (q.reset b clock) := by
  have ended : Consistent { q with callingExpiredCallbacks := false } b.expired :=
    c.same rfl rfl rfl rfl rfl
  obtain ⟨heap, _, _, created, _, _, ran⟩ :=
    rearm_same (b.expired.foldl (resetTimer b.now) { q with callingExpiredCallbacks := false }) clock
  obtain ⟨_, ran', created'⟩ :=
    resetAll_same b.now b.expired { q with callingExpiredCallbacks := false }
  have same_ran : (q.reset b clock).ran = q.ran := ran.trans ran'
  have same_created : (q.reset b clock).numCreated = q.numCreated := created.trans created'
  refine ⟨fun t inside oneShot => ?_, ?_⟩
  · rw [same_ran] at inside
    rw [same_created]
    -- no timer with its sequence number is left: it was taken out, and it does not repeat
    refine ⟨(shots.spent t inside oneShot).1, fun a u there same => ?_⟩
    have there : (b.expired.foldl (resetTimer b.now)
        { q with callingExpiredCallbacks := false }).heap a = some u := heap ▸ there
    rcases resetAll_heap ended b.now a u there with ⟨before, others⟩ | ⟨v, before, _, again, _, rfl⟩
    · obtain ⟨_, taken, _⟩ := shots.behind running t inside oneShot a u before same
      exact absurd rfl (others _ taken)
    · obtain ⟨oneShot', _⟩ := shots.behind running t inside oneShot a v before same
      rw [again] at oneShot'
      cases oneShot'
  · rw [same_ran]
    exact shots.once

end OneShots

/-! ### Whole runs -/

/-- What holds between any two steps, as long as no timer is cancelled after it was freed. -/
structure Refining (q : TimerQueue) : Prop where
  kept : Kept q
  going : ∀ b ∈ q.batch, Going q b
  shots : OneShots q

theorem refining_initial : Refining {} :=
  ⟨kept_initial, fun _ h => (nomatch h), ⟨fun _ h => (nomatch h), .nil⟩⟩

/-- Only timers that have not been freed are cancelled. -/
def CancelsUnfreed (q : TimerQueue) : Event → Prop
  | .cancel id _ => q.Unfreed id
  | _ => True

instance (q : TimerQueue) (event : Event) : Decidable (q.CancelsUnfreed event) := by
  apply @Event.casesOn (fun event => Decidable (CancelsUnfreed q event)) event <;> intros <;> unfold CancelsUnfreed <;>
    infer_instance

section Refining

variable {q q' : TimerQueue}

section Refining

variable (refining : Refining q)
include refining

theorem Refining.addTimer (address : Address) (t : Timer) (clock : Timestamp)
    (unused : q.heap address = none) (new : q.numCreated < t.sequence) :
    Refining (q.addTimer address t clock) := by
  obtain ⟨heap, _, _, created, ran, batch⟩ := addTimer_fields q address t clock
  refine ⟨refining.kept.addTimer address t clock unused new, fun b running => ?_, ?_⟩
  · rw [batch] at running
    obtain ⟨b', running', rfl⟩ := Option.map_eq_some_iff.mp running
    obtain ⟨c, _, turns⟩ := refining.kept.batch running'
    exact (refining.going b' running').add address t clock c turns unused new
  · refine refining.shots.idle ran (by omega) (fun a u there => ?_) ?_
    · rw [heap] at there
      by_cases here : a = address
      · subst here
        rw [update_self] at there
        cases there
        exact .inr new
      · rw [update_of_ne here] at there
        exact .inl there
    · rw [batch]
      exact note_batch q _

theorem Refining.cancel (id : TimerId) (stale : Timestamp) (unfreed : q.Unfreed id) :
    Refining (q.cancel id stale) := by
  have kept := refining.kept.cancel id stale
  cases timer : id.timer with
  | none =>
    have same : q.cancel id stale = q := by simp only [TimerQueue.cancel, timer]
    rw [same]
    exact refining
  | some a =>
    obtain ⟨t, there, own⟩ := unfreed a timer
    obtain ⟨batch, ran, created, removed, heap, expired, marks⟩ :=
      cancel_unfreed refining.kept id stale a t timer there own
    have known := (refining.kept.consistent.created a t there).2
    rw [own] at known
    refine ⟨kept, fun b running => ?_, ?_⟩
    · rw [batch] at running
      obtain ⟨b', running', rfl⟩ := Option.map_eq_some_iff.mp running
      obtain ⟨_, _, turns⟩ := refining.kept.batch running'
      simp only [TimerQueue.expired, running'] at expired marks
      refine (refining.going b' running').cancel id.sequence known created removed ?_ ?_ marks
      · exact filterMap_congr fun e member => expired e (turns.subset member)
      · exact filterMap_congr expired
    · refine refining.shots.idle ran (by omega) (fun a u there => .inl (heap a u there)) ?_
      rw [batch]
      exact note_batch q _

theorem Refining.handleRead (now : Timestamp) (idle : q.batch = none)
    (kept : Kept (q.handleRead now)) : Refining (q.handleRead now) := by
  refine ⟨kept, going_handleRead refining.kept idle now, ⟨fun t inside oneShot => ?_, ?_⟩⟩
  · obtain ⟨old, where'⟩ := refining.shots.spent t inside oneShot
    refine ⟨old, fun a u there same => ?_⟩
    -- outside `handleRead`, such a timer is not on the heap
    obtain ⟨_, b, running, _⟩ := where' a u there same
    rw [idle] at running
    cases running
  · exact refining.shots.once

theorem Refining.turn (b : Batch) (e : Entry) (rest : List Entry) (running : q.batch = some b)
    (first : b.turns = e :: rest) : Refining (q.turn b e rest) := by
  have kept := refining.kept.turn b e rest running first
  obtain ⟨c, _, turns⟩ := refining.kept.batch running
  have member : e ∈ b.expired := turns.subset (first ▸ mem_cons_self ..)
  obtain ⟨t, there, _⟩ := c.heap_of_out member
  have taken : q.turn b e rest = q.takeTurn b t rest := by simp only [TimerQueue.turn, there]
  rw [taken] at kept ⊢
  exact ⟨kept, (refining.going b running).turn e rest t turns first there,
    refining.shots.turn e rest t running c turns first there⟩

theorem Refining.step (event : Event) (unfreed : q.CancelsUnfreed event)
    (stepped : q.step event = some q') : Refining q' := by
  have kept := refining.kept.step event stepped
  cases moves_step stepped with
  | addTimer address elsewhere when intervalMs clock unused =>
    exact refining.addTimer address _ clock unused (newTimer_fresh ..)
  | cancel id stale => exact refining.cancel id stale unfreed
  | handleRead now idle => exact refining.handleRead now idle kept
  | turn b e rest running first => exact refining.turn b e rest running first
  | reset clock b running =>
    obtain ⟨c, _, _⟩ := refining.kept.batch running
    exact ⟨kept, fun _ h => (nomatch h), refining.shots.reset clock running c⟩

end Refining

/-- What a step does to the schedule: a timer is added, the timer of the handle is
cancelled, or the `handleRead` that ends was a round. -/
def RefinesSchedule (q : TimerQueue) : Event → Prop
  | .addTimer address elsewhere when intervalMs clock =>
    let t := q.newTimer elsewhere when intervalMs
    ∀ u, u ∈ (q.addTimer address t clock).scheduled ↔ u = t ∨ u ∈ q.scheduled
  | .cancel id stale =>
    ∀ u, u ∈ (q.cancel id stale).scheduled ↔
      u ∈ q.scheduled ∧ (id.timer ≠ none → u.sequence ≠ id.sequence)
  | .reset clock =>
    ∀ b ∈ q.batch, Round discipline b.now { t | t ∈ b.before } b.deeds b.ran
      { t | t ∈ (q.reset b clock).scheduled }
  | .handleRead _ | .turn => True

/-- The active sequence numbers are those of the timers that are scheduled; while
`handleRead` runs, the timers that it has taken out count as well. -/
def ActiveScheduled (q : TimerQueue) : Prop :=
  ∀ s, s ∈ q.activeSequences ↔ ∃ t ∈ q.scheduled ++ timersOf q.heap q.expired, t.sequence = s

def OneShotsOnce (q : TimerQueue) : Prop :=
  ((q.ran.filter (!·.repeats)).map Timer.sequence).Nodup

theorem Refining.active (refining : Refining q) : q.ActiveScheduled := by
  have c := refining.kept.consistent
  intro s
  simp only [c.active, mem_append, mem_scheduled c,
    mem_timersOf_iff c q.expired (fun _ => .inr)]
  constructor
  · rintro ⟨a, t, there, same⟩
    refine ⟨t, ?_, same⟩
    exact (c.entry_of_heap there).imp (fun listed => ⟨a, there, listed⟩)
      (fun taken => ⟨a, there, taken⟩)
  · rintro ⟨t, ⟨a, there, _⟩ | ⟨a, there, _⟩, same⟩
    · exact ⟨a, t, there, same⟩
    · exact ⟨a, t, there, same⟩

theorem Refining.refines (refining : Refining q) (event : Event) (unfreed : q.CancelsUnfreed event)
    (stepped : q.step event = some q') : q.RefinesSchedule event := by
  cases moves_step stepped with
  | addTimer address elsewhere when intervalMs clock unused =>
    exact mem_scheduled_addTimer refining.kept.consistent address _ clock unused
  | cancel id stale =>
    intro u
    cases timer : id.timer with
    | none => simp [TimerQueue.cancel, timer]
    | some a =>
      obtain ⟨t, there, own⟩ := unfreed a timer
      have cancelled := cancel_unfreed refining.kept id stale a t timer there own
      simp [cancelled.scheduled u]
  | handleRead now => trivial
  | turn => trivial
  | reset clock b running last =>
    intro b' same
    cases running.symm.trans same
    obtain ⟨c, _, _⟩ := refining.kept.batch running
    exact (refining.going b running).finish clock c last

end Refining

/-- **Refinement**: as long as only timers are cancelled that have not been freed, the
queue is a schedule. -/
theorem refinesSchedule_always (events : List Event)
    (unfreed : Machine.Meets step CancelsUnfreed {} events) :
    Machine.Meets step RefinesSchedule {} events ∧
      Machine.Always step (fun q => q.ActiveScheduled ∧ q.OneShotsOnce) {} events := by
  have always : Machine.Always step Refining {} events :=
    Machine.always_of_meets
      (fun q event q' (refining : Refining q) met stepped => refining.step event met stepped)
      {} events refining_initial unfreed
  constructor
  · exact Machine.Meets.imp
      (fun q event q' (refining : Refining q) stepped met => refining.refines event met stepped)
      {} events always unfreed
  · exact Machine.Always.mono
      (fun q (refining : Refining q) => ⟨refining.active, refining.shots.once⟩) {} events always

/-- Three timers expire together. The callback of the first cancels itself and the third,
and adds another timer. -/
def cancelsInBatch : List Event :=
  [.addTimer 8 0 1 2 0, .addTimer 16 0 2 0 0, .addTimer 24 1 3 5 0, .handleRead 9, .turn,
    .cancel ⟨some 8, 1⟩ 0, .cancel ⟨some 24, 4⟩ 0, .addTimer 32 0 4 0 0, .turn, .turn, .reset 9,
    .handleRead 10, .turn, .reset 10]

theorem refinesSchedule_cancelsInBatch :
    (Machine.run step {} cancelsInBatch).map (fun q => (q.ran.map Timer.sequence, q.scheduled)) =
        some ([1, 2, 5], []) ∧
      Machine.Meets step RefinesSchedule {} cancelsInBatch ∧
      Machine.Always step (fun q => q.ActiveScheduled ∧ q.OneShotsOnce) {} cancelsInBatch :=
  ⟨by decide +kernel, refinesSchedule_always cancelsInBatch (by decide +kernel)⟩

end Cox.Reactor.TimerQueue

import Cox.Reactor.TimerQueue

/-!
# No timer is missed

The timerfd is set anew only when a timer is added in front of all others, and at the end of
`handleRead`. Cancelling and adding other timers leave it alone. Outside `handleRead` it is
nevertheless always set early enough for the first timer of the set: cancelling can only make
the first timer a later one, and a timer that is not in front of the others does not change it.
-/
namespace Cox.Reactor.TimerQueue

open Cox.Lib

/-- The reading of the clock when the timerfd was set last. -/
def moment (q : TimerQueue) (e : Event) (last : Timestamp) : Timestamp :=
  match e with
  | .addTimer _ _ when _ clock => if q.earliestChanged when then clock else last
  | .reset clock =>
    match (q.step e).bind fun next => next.timers.first? with
    | some _ => clock
    | none => last
  | .cancel _ _ | .handleRead _ | .turn => last

/-- The timerfd is set (or has expired and was not read) for a time not later than the first
expiration, or than a microsecond after it was set. -/
def Armed (q : TimerQueue) (last : Timestamp) : Prop :=
  ∀ first, q.timers.first? = some first →
    ∃ time, q.timerfd = some time ∧ time ≤ max (first.time.val : Int) (last.val + 1)

/-- While callbacks run, the timerfd may be left unset until the end of `handleRead`. -/
def NotMissed (x : TimerQueue × Timestamp) : Prop := x.1.batch = none → Armed x.1 x.2

theorem bmod_le (n m : Nat) (small : n < m) : (n : Int).bmod m ≤ n := by
  rw [Int.bmod_def, Int.emod_eq_of_lt (Int.natCast_nonneg _) (Int.ofNat_lt.mpr small)]
  split
  · exact le_rfl
  · exact Int.sub_le_self _ (Int.natCast_nonneg _)

theorem toInt64_le (t : Timestamp) : toInt64 t ≤ t.val := bmod_le t.val (2 ^ 64) t.isLt

theorem resetTimerfd_le (expiration clock : Timestamp) :
    toInt64 clock + howMuchTimeFromNow expiration clock ≤
      max (expiration.val : Int) (clock.val + 1) := by
  have left := toInt64_le expiration
  have right := toInt64_le clock
  unfold howMuchTimeFromNow
  omega

theorem Entry.time_le {e f : Entry} (le : e ≤ f) : e.time ≤ f.time := by
  rcases Prod.Lex.le_iff.mp le with before | ⟨same, _⟩
  · exact before.le
  · exact same.le

section Steps

variable {q q' : TimerQueue} {last : Timestamp}

theorem NotMissed.later (notMissed : NotMissed (q, last)) (batch : q'.batch = none → q.batch = none)
    (same : q'.timerfd = q.timerfd)
    (behind : ∀ e ∈ q'.timers, ∃ f ∈ q.timers, f.time ≤ e.time) : NotMissed (q', last) := by
  intro outside first found
  obtain ⟨f, inside, before⟩ := behind first (SortedSet.mem_of_first? found)
  obtain ⟨old, found', least⟩ := SortedSet.first?_le inside
  obtain ⟨time, armed, early⟩ := notMissed (batch outside) old found'
  refine ⟨time, same.trans armed, early.trans ?_⟩
  have ordered : old.time.val ≤ first.time.val := (Entry.time_le least).trans before
  exact max_le_max (Int.ofNat_le.mpr ordered) le_rfl

theorem armed_resetTimerfd (expiration clock : Timestamp)
    (front : ∀ e ∈ q.timers, expiration ≤ e.time) : Armed (q.resetTimerfd expiration clock) clock := by
  intro first found
  refine ⟨_, rfl, (resetTimerfd_le expiration clock).trans ?_⟩
  have ordered : expiration.val ≤ first.time.val := front first (SortedSet.mem_of_first? found)
  exact max_le_max (Int.ofNat_le.mpr ordered) le_rfl

theorem NotMissed.addTimer (notMissed : NotMissed (q, last)) (address : Address) (t : Timer)
    (clock : Timestamp) :
    NotMissed (q.addTimer address t clock,
      if q.earliestChanged t.expiration then clock else last) := by
  have members (e : Entry) : e ∈ q.timers.insert (entry t.expiration address) ↔
      e = entry t.expiration address ∨ e ∈ q.timers := SortedSet.mem_insert ..
  unfold TimerQueue.addTimer
  dsimp only
  by_cases changed : q.earliestChanged t.expiration = true
  · rw [if_pos changed, if_pos changed]
    refine fun _ => armed_resetTimerfd t.expiration clock fun e member => ?_
    rcases (members e).mp member with rfl | old
    · exact le_rfl
    · obtain ⟨first, found, least⟩ := SortedSet.first?_le old
      simp only [earliestChanged, found, decide_eq_true_eq] at changed
      exact changed.le.trans (Entry.time_le least)
  · rw [if_neg changed, if_neg changed]
    refine notMissed.later ?_ rfl fun e member => ?_
    · exact Option.map_eq_none_iff.mp
    · rcases (members e).mp member with rfl | old
      · -- there is a first timer, and the new one is not before it
        cases found : q.timers.first? with
        | none => simp [earliestChanged, found] at changed
        | some first =>
          simp only [earliestChanged, found, decide_eq_true_eq, not_lt] at changed
          exact ⟨first, SortedSet.mem_of_first? found, changed⟩
      · exact ⟨e, old, le_rfl⟩

theorem reads_same (q : TimerQueue) (address : Address) :
    (q.reads address).batch = q.batch ∧ (q.reads address).timerfd = q.timerfd ∧
      (q.reads address).timers = q.timers := by
  unfold reads
  split <;> exact ⟨rfl, rfl, rfl⟩

theorem NotMissed.remove (notMissed : NotMissed (q, last)) (e : Entry) :
    NotMissed (q.remove e, last) := by
  have fewer (f : Entry) (member : f ∈ q.timers.erase e) : ∃ g ∈ q.timers, g.time ≤ f.time :=
    ⟨f, ((SortedSet.mem_erase _ _ _).mp member).2, le_rfl⟩
  unfold TimerQueue.remove
  split
  · exact notMissed.later id rfl fewer
  · obtain ⟨batch, timerfd, _⟩ := reads_same q e.address
    exact notMissed.later (fun outside => batch ▸ outside) timerfd fewer

theorem NotMissed.cancel (notMissed : NotMissed (q, last)) (id : TimerId) (stale : Timestamp) :
    NotMissed (q.cancel id stale, last) := by
  unfold TimerQueue.cancel
  split
  · exact notMissed
  next address _ =>
    have noted : NotMissed ((q.reads address).note (.cancel id.sequence), last) := by
      obtain ⟨batch, timerfd, timers⟩ := reads_same q address
      refine notMissed.later (fun outside => ?_) timerfd fun e member => ?_
      · rw [← batch]
        exact Option.map_eq_none_iff.mp outside
      · exact ⟨e, timers ▸ member, le_rfl⟩
    dsimp only
    split
    · exact noted.remove _
    · split
      · exact noted.later (fun outside => outside) rfl fun e member => ⟨e, member, le_rfl⟩
      · exact noted

theorem armed_rearm (clock : Timestamp) :
    Armed (q.rearm clock) (match (q.rearm clock).timers.first? with
      | some _ => clock
      | none => last) := by
  unfold rearm
  cases found : q.timers.first? with
  | none =>
    intro first found'
    exact absurd (found'.symm.trans found) (by simp)
  | some first =>
    have front (e : Entry) (member : e ∈ q.timers) : first.time ≤ e.time := by
      obtain ⟨least, found', le⟩ := SortedSet.first?_le member
      rw [found] at found'
      cases found'
      exact Entry.time_le le
    dsimp only
    rw [show (q.resetTimerfd first.time clock).timers.first? = some first from found]
    exact armed_resetTimerfd first.time clock front

theorem notMissed_inside (inside : q.batch ≠ none) : NotMissed (q, last) :=
  fun outside => absurd outside inside

theorem turn_inside (q : TimerQueue) (b : Batch) (e : Entry) (rest : List Entry) :
    (q.turn b e rest).batch ≠ none := by
  unfold turn takeTurn
  split
  · split <;> simp [note]
  · simp

theorem NotMissed.step (notMissed : NotMissed (q, last)) (e : Event) (stepped : q.step e = some q') :
    NotMissed (q', q.moment e last) := by
  cases e with
  | addTimer address elsewhere when intervalMs clock =>
    simp only [TimerQueue.step] at stepped
    split at stepped <;> cases stepped
    exact notMissed.addTimer address (q.newTimer elsewhere when intervalMs) clock
  | cancel id stale =>
    simp only [TimerQueue.step] at stepped
    split at stepped <;> cases stepped
    exact notMissed.cancel id stale
  | handleRead now =>
    simp only [TimerQueue.step] at stepped
    split at stepped <;> cases stepped
    exact notMissed_inside (by simp [handleRead])
  | turn =>
    simp only [TimerQueue.step] at stepped
    split at stepped
    · split at stepped <;> cases stepped
      exact notMissed_inside (turn_inside _ _ _ _)
    · cases stepped
  | reset clock =>
    simp only [moment, stepped, Option.bind_some]
    simp only [TimerQueue.step] at stepped
    split at stepped
    · split at stepped <;> cases stepped
      exact fun _ => armed_rearm clock
    · cases stepped

end Steps

/-- **No timer is missed.** Whatever is added and cancelled, by callbacks too, and whenever the
expired timers are handled. -/
theorem notMissed_always (clock : Timestamp) (events : List Event) :
    Machine.Always (Machine.remembering step moment) NotMissed ({}, clock) events := by
  refine Machine.always_of_keeps (fun x e x' notMissed moved => ?_) _ events ?_
  · obtain ⟨q', stepped, rfl⟩ := Option.map_eq_some_iff.mp moved
    exact NotMissed.step notMissed e stepped
  · intro _ first found
    cases found

end Cox.Reactor.TimerQueue

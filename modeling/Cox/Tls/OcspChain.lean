import Cox.Tls.OcspRefresh

/-!
# The chain of refreshes

The timer leads to the task in the pool, that to the task on the loop, and that to the next
timer. As long as nobody stops it the chain has exactly one link at any time; a pool that
refuses the task or runs it in place only skips links. Once it is stopped no timer is armed
any more, and at most the fetch that waits in the pool is still made.
-/
namespace Cox.Tls.OcspRefresh

open Cox.Lib List Option

/-- The refresh was started on the loop thread: there is at most one continuation, exactly one
until it is stopped, and the number of the timer is known. -/
structure Linked (s : OcspRefresh) : Prop where
  started : s.auto ≠ none
  single : s.continuations ≤ 1
  one : s.stopped = false → s.continuations = 1
  known : ∀ timer ∈ s.timers ++ s.expired, timer ∈ s.cancels
  onLoop : .addTimer ∉ s.pendingTasks

section Linked

variable {s s' : OcspRefresh}

theorem linked_of_stopped (idle : Idle s) (started : s.auto ≠ none) (stopped : s.stopped = true) :
    Linked s := by
  obtain ⟨_, pendingTasks, timers, expired⟩ := idle.lists
  refine ⟨started, ?_, fun going => ?_, ?_, ?_⟩
  · rw [idle]
    exact Nat.zero_le _
  · rw [stopped] at going
    cases going
  · rw [timers, expired]
    nofun
  · rw [pendingTasks]
    exact not_mem_nil

theorem linked_scheduleNextRefresh (idle : Idle s) (started : s.auto ≠ none) :
    Linked (s.scheduleNextRefresh true) := by
  obtain ⟨pool, pendingTasks, timers, expired⟩ := idle.lists
  obtain ⟨ar, auto⟩ := ne_none_iff_exists'.mp started
  by_cases stopped : ar.stopped = true
  · have same : s.scheduleNextRefresh true = s := by
      simp only [scheduleNextRefresh, auto, stopped, if_true]
    rw [same]
    exact linked_of_stopped idle started (by simp [OcspRefresh.stopped, auto, stopped])
  · simp only [scheduleNextRefresh, auto, stopped, Bool.false_eq_true, if_false, if_true]
    refine ⟨some_ne_none _, ?_, fun _ => ?_, ?_, ?_⟩
    · simp [addTimer, continuations, pool, pendingTasks, timers, expired]
    · simp [addTimer, continuations, pool, pendingTasks, timers, expired]
    · simp [addTimer, cancels, timers, expired]
    · simp [addTimer, pendingTasks]

theorem linked_doRefreshCycle (idle : Idle s) (started : s.auto ≠ none)
    (admission : Admission) : Linked (s.doRefreshCycle admission) := by
  obtain ⟨pool, pendingTasks, timers, expired⟩ := idle.lists
  obtain ⟨ar, auto⟩ := ne_none_iff_exists'.mp started
  by_cases stopped : ar.stopped = true
  · have same : s.doRefreshCycle admission = s := by
      simp only [doRefreshCycle, auto, stopped, if_true]
    rw [same]
    exact linked_of_stopped idle started (by simp [OcspRefresh.stopped, auto, stopped])
  · simp only [doRefreshCycle, auto, stopped, Bool.false_eq_true, if_false]
    cases admission with
    | queued =>
      refine ⟨some_ne_none _, ?_, fun _ => ?_, ?_, ?_⟩
      · simp [continuations, pool, pendingTasks, timers, expired]
      · simp [continuations, pool, pendingTasks, timers, expired]
      · simp [timers, expired]
      · simp [pendingTasks]
    -- the task was refused, or has run in place and found the flag unset
    | refused | inline => exact linked_scheduleNextRefresh idle (some_ne_none _)

theorem Linked.moved (linked : Linked s) (auto : s'.auto = s.auto)
    (less : s'.continuations ≤ s.continuations)
    (same : s.stopped = false → s'.continuations = s.continuations)
    (timers : ∀ timer ∈ s'.timers ++ s'.expired, timer ∈ s.timers ++ s.expired)
    (tasks : .addTimer ∉ s'.pendingTasks) : Linked s' := by
  refine ⟨auto ▸ linked.started, less.trans linked.single, fun going => ?_,
    fun timer member => ?_, tasks⟩
  · have before : s.stopped = false := by
      rw [← going, stopped, stopped, auto]
    rw [same before]
    exact linked.one before
  · have known := linked.known timer (timers timer member)
    rwa [cancels, auto]

theorem Linked.poolStep (linked : Linked s) (alive : s.alive = true) (i : Nat) (stores : Bool)
    (stepped : s.poolStep i stores = some s') : Linked s' := by
  unfold OcspRefresh.poolStep touch at stepped
  simp only [alive, if_true, ite_self] at stepped
  split at stepped
  next => cases stepped
  next =>
    cases stepped
    exact linked.moved rfl (by simp [continuations]) (by simp [continuations]) (fun _ => id)
      linked.onLoop
  next =>
    cases stepped
    exact linked.moved rfl (by simp [continuations]) (by simp [continuations]) (fun _ => id)
      linked.onLoop
  next =>
    cases stepped
    -- if the flag is not set, the task goes on to the loop
    refine linked.moved rfl ?_ (fun going => by simp [continuations, going]) (fun _ => id)
      linked.onLoop
    have shorter : (if s.stopped then s.pool.eraseIdx i else s.pool.set i .hop).length ≤
        s.pool.length := by
      split
      · exact length_eraseIdx_le s.pool i
      · exact Nat.le_of_eq length_set
    exact Nat.add_le_add_right (Nat.add_le_add_right shorter _) _
  next here =>
    obtain ⟨within, _⟩ := List.getElem?_eq_some_iff.mp here
    cases stepped
    have hopped : (s.pool.eraseIdx i).length + (s.pendingTasks.length + 1) =
        s.pool.length + s.pendingTasks.length := by
      have shorter := length_eraseIdx_of_lt within
      omega
    refine linked.moved rfl ?_ (fun _ => ?_) (fun _ => id) ?_
    · simp only [continuations, length_append, length_singleton]
      omega
    · simp only [continuations, length_append, length_singleton]
      omega
    · simpa using linked.onLoop

theorem Linked.timers_stopAutoRefresh (linked : Linked s) :
    s.stopAutoRefresh.timers = [] ∧ s.stopAutoRefresh.expired = [] := by
  obtain ⟨_, _, timers, expired⟩ := stopAutoRefresh_frame s
  rw [timers, expired]
  constructor
  · simpa using fun timer member => linked.known timer (mem_append_left _ member)
  · simpa using fun timer member => linked.known timer (mem_append_right _ member)

theorem Linked.stopped_stopAutoRefresh (linked : Linked s) :
    s.stopAutoRefresh.auto ≠ none ∧ s.stopAutoRefresh.stopped = true := by
  obtain ⟨ar, auto⟩ := ne_none_iff_exists'.mp linked.started
  simp only [OcspRefresh.stopAutoRefresh, auto]
  split <;> exact ⟨some_ne_none _, rfl⟩

theorem Linked.stopAutoRefresh (linked : Linked s) : Linked s.stopAutoRefresh := by
  obtain ⟨timers, expired⟩ := linked.timers_stopAutoRefresh
  obtain ⟨pool, pendingTasks, _⟩ := stopAutoRefresh_frame s
  obtain ⟨started, stopped⟩ := linked.stopped_stopAutoRefresh
  have single := linked.single
  refine ⟨started, ?_, fun going => ?_, ?_, ?_⟩
  · unfold continuations at single ⊢
    rw [pool, pendingTasks, timers, expired, length_nil]
    omega
  · rw [stopped] at going
    cases going
  · rw [timers, expired]
    nofun
  · rw [pendingTasks]
    exact linked.onLoop

theorem Linked.idle (linked : Linked s) (less : s'.continuations + 1 ≤ s.continuations) :
    Idle s' := by
  have single := linked.single
  unfold Idle
  omega

theorem Linked.step (linked : Linked s) (alive : s.alive = true) (event : Event)
    (other : event ≠ .destroy) (stepped : s.step event = some s') : Linked s' := by
  cases event with
  | start onLoop refreshNow admission =>
    simp [OcspRefresh.step, linked.started] at stepped
  | stop =>
    simp only [OcspRefresh.step, alive, if_true] at stepped
    cases stepped
    exact linked.stopAutoRefresh
  | destroy => exact absurd rfl other
  | task admission =>
    simp only [OcspRefresh.step] at stepped
    split at stepped
    next => cases stepped
    next task rest pending =>
      have idle : Idle { s with pendingTasks := rest } := by
        refine linked.idle ?_
        simp only [continuations, pending, length_cons]
        omega
      cases stepped
      have still : ({ s with pendingTasks := rest } : OcspRefresh).alive = true := alive
      cases task with
      | doRefreshCycle =>
        rw [runTask, touch_alive still]
        exact linked_doRefreshCycle idle linked.started admission
      | scheduleNextRefresh =>
        rw [runTask, touch_alive still]
        exact linked_scheduleNextRefresh idle linked.started
      | addTimer => exact absurd (by rw [pending]; exact mem_cons_self ..) linked.onLoop
  | expire due =>
    simp only [OcspRefresh.step] at stepped
    split at stepped
    next none =>
      cases stepped
      -- an expired timer is still one
      have same := Schedule.filter_due_perm (· ∈ due) s.timers
      have length := same.length_eq
      rw [length_append] at length
      have kept : s.timers.length + s.expired.length = s.timers.length := by rw [none]; rfl
      refine linked.moved rfl ?_ (fun _ => ?_) (fun timer member => ?_) linked.onLoop
      · simp only [continuations]
        omega
      · simp only [continuations]
        omega
      · rw [none, append_nil]
        exact same.mem_iff.mp member
    next => cases stepped
  | turn admission =>
    simp only [OcspRefresh.step] at stepped
    split at stepped
    next => cases stepped
    next timer rest turn =>
      have idle : Idle { s with expired := rest } := by
        refine linked.idle ?_
        simp only [continuations, turn, length_cons]
        omega
      cases stepped
      rw [touch_alive (s := { s with expired := rest }) alive]
      exact linked_doRefreshCycle idle linked.started admission
  | pool i stores => exact linked.poolStep alive i stores stepped

theorem linked_startAutoRefresh (idle : Idle s) (refreshNow : Bool) (admission : Admission) :
    Linked (s.startAutoRefresh true refreshNow admission) := by
  have begun : Idle { s with auto := some {} } := idle
  cases refreshNow with
  | false => exact linked_scheduleNextRefresh begun (some_ne_none _)
  | true => exact linked_doRefreshCycle begun (some_ne_none _) admission

end Linked

/-! ### After the stop -/

/-- No timer is there and none was created since; `limit` bounds the fetches made and those
still to be made. -/
structure Ended (created limit : Nat) (s : OcspRefresh) : Prop where
  stopped : s.alive = true → s.stopped = true
  timers : s.timers = []
  expired : s.expired = []
  onLoop : .addTimer ∉ s.pendingTasks
  created : s.timersCreated = created
  fetches : s.refreshes + s.pool.count .fetch ≤ limit

section Ended

variable {created limit : Nat} {s s' : OcspRefresh}

theorem stays_of_stopped (stopped : s.stopped = true) (admission : Admission) :
    s.doRefreshCycle admission = s ∧ s.scheduleNextRefresh true = s := by
  unfold OcspRefresh.stopped at stopped
  unfold doRefreshCycle scheduleNextRefresh
  cases auto : s.auto with
  | none => exact ⟨rfl, rfl⟩
  | some ar =>
    rw [auto, any_some] at stopped
    simp only [stopped, if_true, and_self]

section Ended

variable (ended : Ended created limit s)
include ended

theorem Ended.touch (act : OcspRefresh → OcspRefresh)
    (acted : s.alive = true → Ended created limit (act s)) : Ended created limit (s.touch act) := by
  by_cases alive : s.alive = true
  · rw [touch_alive alive]
    exact acted alive
  · rw [touch_gone (eq_false_of_ne_true alive)]
    exact { ended with stopped := ended.stopped }

theorem Ended.untouched (act : OcspRefresh → OcspRefresh) (stays : s.stopped = true → act s = s) :
    Ended created limit (s.touch act) := by
  apply ended.touch
  intro alive
  rw [stays (ended.stopped alive)]
  exact ended

theorem Ended.stopAutoRefresh : Ended created limit s.stopAutoRefresh := by
  unfold OcspRefresh.stopAutoRefresh
  split
  next => exact ended
  next ar auto =>
    split
    next =>
      exact { ended with
        stopped := fun _ => rfl
        timers := by simp [ended.timers]
        expired := by simp [ended.expired] }
    next => exact { ended with stopped := fun _ => rfl }

theorem Ended.pool (pool : List PoolTask) (fewer : pool.count .fetch ≤ s.pool.count .fetch) :
    Ended created limit { s with pool } := by
  refine { ended with fetches := ?_ }
  have before := ended.fetches
  dsimp only
  omega

end Ended

theorem count_set_le (pool : List PoolTask) (i : Nat) (task : PoolTask) (other : task ≠ .fetch) :
    (pool.set i task).count .fetch ≤ pool.count .fetch := by
  by_cases within : i < pool.length
  · have new : (if task == PoolTask.fetch then 1 else 0) = 0 := if_neg (by simpa using other)
    rw [count_set within, new]
    omega
  · rw [set_eq_of_length_le (Nat.le_of_not_lt within)]

theorem Ended.poolStep (ended : Ended created limit s) (i : Nat) (stores : Bool)
    (stepped : s.poolStep i stores = some s') : Ended created limit s' := by
  unfold OcspRefresh.poolStep at stepped
  split at stepped
  next => cases stepped
  next here =>
    cases stepped
    apply ended.touch
    intro _
    -- the fetch that was waiting is the one that is made
    obtain ⟨within, task⟩ := List.getElem?_eq_some_iff.mp here
    have waiting : 0 < s.pool.count .fetch := by
      apply count_pos_iff.mpr
      rw [← task]
      exact getElem_mem within
    have taken : (s.pool.set i .store).count .fetch = s.pool.count .fetch - 1 := by
      rw [count_set within, task]
      rfl
    refine { ended with fetches := ?_ }
    have before := ended.fetches
    dsimp only
    omega
  next =>
    cases stepped
    have looks := ended.pool (s.pool.set i .look) (count_set_le _ _ _ (by decide))
    split
    next =>
      apply ended.touch
      exact fun _ => looks
    next => exact looks
  next =>
    cases stepped
    apply ended.touch
    intro alive
    rw [ended.stopped alive, if_pos rfl]
    exact ended.pool _ (List.Sublist.count_le _ (eraseIdx_sublist s.pool i))
  next =>
    cases stepped
    have left := ended.pool _ (List.Sublist.count_le _ (eraseIdx_sublist s.pool i))
    exact { left with stopped := left.stopped, onLoop := by simpa using ended.onLoop }

theorem Ended.step (ended : Ended created limit s) (started : s.alive = true → s.auto ≠ none)
    (event : Event) (stepped : s.step event = some s') : Ended created limit s' := by
  cases event with
  | start onLoop refreshNow admission =>
    simp only [OcspRefresh.step] at stepped
    split at stepped
    next new => exact absurd new.2 (started new.1)
    next => cases stepped
  | stop =>
    simp only [OcspRefresh.step] at stepped
    split at stepped <;> cases stepped
    exact ended.stopAutoRefresh
  | destroy =>
    simp only [OcspRefresh.step] at stepped
    split at stepped <;> cases stepped
    exact { ended.stopAutoRefresh with stopped := fun alive => by cases alive }
  | task admission =>
    simp only [OcspRefresh.step] at stepped
    split at stepped
    next => cases stepped
    next task rest pending =>
      have onLoop := ended.onLoop
      rw [pending, mem_cons, not_or] at onLoop
      have left : Ended created limit { s with pendingTasks := rest } :=
        { ended with stopped := ended.stopped, onLoop := onLoop.2 }
      cases stepped
      cases task with
      | doRefreshCycle =>
        exact left.untouched (·.doRefreshCycle admission) fun stopped =>
          (stays_of_stopped stopped admission).1
      | scheduleNextRefresh =>
        exact left.untouched (·.scheduleNextRefresh true) fun stopped =>
          (stays_of_stopped stopped admission).2
      | addTimer => exact absurd rfl onLoop.1
  | expire due =>
    simp only [OcspRefresh.step] at stepped
    split at stepped <;> cases stepped
    exact { ended with
      stopped := ended.stopped
      timers := by simp [ended.timers]
      expired := by simp [ended.timers] }
  | turn admission => simp [OcspRefresh.step, ended.expired] at stepped
  | pool i stores => exact ended.poolStep i stores stepped

end Ended

/-! ### Whole runs -/

/-- After `stopAutoRefresh` there is no timer and none is created, and at most one more
`refresh` is made, whatever happens. -/
def StopsForGood (s : OcspRefresh) : Prop :=
  ∀ later, Machine.Always step (fun t => t.timers = [] ∧ t.expired = [] ∧
    t.timersCreated = s.stopAutoRefresh.timersCreated ∧
    t.refreshes ≤ s.stopAutoRefresh.refreshes + 1) s.stopAutoRefresh later

section Runs

variable {s s' : OcspRefresh}

theorem linked_step (linked : s.alive = true → Linked s) (event : Event)
    (stepped : s.step event = some s') (alive : s'.alive = true) : Linked s' := by
  obtain ⟨before, other⟩ := alive_step event stepped alive
  exact (linked before).step before event other stepped

theorem Linked.ended (linked : Linked s) :
    Ended s.stopAutoRefresh.timersCreated (s.stopAutoRefresh.refreshes + 1) s.stopAutoRefresh := by
  obtain ⟨timers, expired⟩ := linked.timers_stopAutoRefresh
  have single := linked.stopAutoRefresh.single
  unfold continuations at single
  refine ⟨fun _ => linked.stopped_stopAutoRefresh.2, timers, expired, linked.stopAutoRefresh.onLoop,
    rfl, ?_⟩
  have waiting := count_le_length (a := PoolTask.fetch) (l := s.stopAutoRefresh.pool)
  omega

theorem Linked.stopsForGood (linked : Linked s) : StopsForGood s := by
  intro later
  have kept : Machine.Always OcspRefresh.step (fun t => (t.alive = true → Linked t) ∧
      Ended s.stopAutoRefresh.timersCreated (s.stopAutoRefresh.refreshes + 1) t)
      s.stopAutoRefresh later := by
    apply Machine.always_of_keeps
    · intro t event t' inv stepped
      exact ⟨linked_step inv.1 event stepped,
        inv.2.step (fun alive => (inv.1 alive).started) event stepped⟩
    · exact ⟨fun _ => linked.stopAutoRefresh, linked.ended⟩
  apply Machine.Always.mono _ _ later kept
  intro t inv
  have fetches := inv.2.fetches
  exact ⟨inv.2.timers, inv.2.expired, inv.2.created, by omega⟩

end Runs

/-- After one `startAutoRefresh` on the loop thread, and as long as the stapler exists, there is
never more than one continuation and exactly one until the refresh is stopped; when it is
stopped, no timer is armed again and at most one more fetch is made. -/
theorem singleChain_always (refreshNow : Bool) (admission : Admission) (events : List Event) :
    Machine.Always step (fun s => s.alive = true →
        s.continuations ≤ 1 ∧ (s.stopped = false → s.continuations = 1) ∧ s.StopsForGood)
      (startAutoRefresh {} true refreshNow admission) events := by
  refine Machine.Always.mono (fun s (linked : s.alive = true → Linked s) alive => ?_) _ events
    (Machine.always_of_keeps (fun s event s' linked stepped => linked_step linked event stepped)
      _ events fun _ => linked_startAutoRefresh (s := {}) rfl refreshNow admission)
  have now := linked alive
  exact ⟨now.single, now.one, now.stopsForGood⟩

end Cox.Tls.OcspRefresh

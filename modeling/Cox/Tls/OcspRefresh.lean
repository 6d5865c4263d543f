import Cox.Lib.Machine
import Cox.Lib.Schedule

/-!
# Automatic refresh of the stapled response

`startAutoRefresh` of tls/ocsp_stapler.h and what follows from it: a timer on the loop, a task
in the pool that fetches the response, and a task on the loop that arms the timer again. Each
of them holds a plain pointer to the stapler, and the task in the pool one to its
`AutoRefresh` record as well.

`stopAutoRefresh` sets a flag and cancels the timer, if it knows its number: `runAfter` has none
to give when it is called on another thread than that of the loop. The destructor calls it and
then takes the stapler away; nobody waits for what is under way. What touches the stapler after
that is counted.
-/
namespace Cox.Tls

open Cox.Lib List Machine

namespace OcspRefresh

/-- The task in the pool, by what it does next. -/
inductive PoolTask where
  /-- To begin `refresh`. -/
  | fetch
  /-- To end it, perhaps by caching a response. -/
  | store
  /-- To look at the flag. -/
  | look
  /-- To queue the task on the loop. -/
  | hop
  deriving DecidableEq

inductive LoopTask where
  | doRefreshCycle
  | scheduleNextRefresh
  /-- What `runAfter` queues on another thread. -/
  | addTimer
  deriving DecidableEq

/-- What `tryRun` does with the task: it queues it, refuses it, or runs it in place. -/
inductive Admission where
  | queued
  | refused
  | inline
  deriving DecidableEq

structure AutoRefresh where
  /-- The `TimerId`, which may be empty. -/
  timer : Option Nat := none
  timerArmed : Bool := false
  stopped : Bool := false
  deriving DecidableEq

end OcspRefresh

structure OcspRefresh where
  /-- The stapler exists. -/
  alive : Bool := true
  /-- `auto_`. -/
  auto : Option OcspRefresh.AutoRefresh := none
  pool : List OcspRefresh.PoolTask := []
  pendingTasks : List OcspRefresh.LoopTask := []
  timers : List Nat := []
  /-- The timers that have expired and wait for their turn. -/
  expired : List Nat := []
  timersCreated : Nat := 0
  -- what has happened
  refreshes : Nat := 0
  /-- How often the stapler was touched after its destruction. -/
  stale : Nat := 0
  deriving DecidableEq

namespace OcspRefresh

/-- Something is done with the stapler, if it is still there. -/
def touch (s : OcspRefresh) (act : OcspRefresh → OcspRefresh) : OcspRefresh :=
  if s.alive then act s else { s with stale := s.stale + 1 }

/-! ### The loop -/

/-- A timer has the number of the timers created before. -/
def addTimer (s : OcspRefresh) : OcspRefresh :=
  { s with timers := s.timers ++ [s.timersCreated], timersCreated := s.timersCreated + 1 }

/-- `runAfter` adds the timer, or queues that and returns an empty `TimerId`. -/
def scheduleNextRefresh (s : OcspRefresh) (onLoop : Bool) : OcspRefresh :=
  match s.auto with
  | none => s
  | some ar =>
    if ar.stopped then s
    else if onLoop then
      { s.addTimer with auto := some { ar with timer := some s.timersCreated, timerArmed := true } }
    else
      { s with
        pendingTasks := s.pendingTasks ++ [.addTimer]
        auto := some { ar with timer := none, timerArmed := true } }

def doRefreshCycle (s : OcspRefresh) (admission : Admission) : OcspRefresh :=
  match s.auto with
  | none => s
  | some ar =>
    if ar.stopped then s
    else
      let s := { s with auto := some { ar with timerArmed := false } }
      match admission with
      | .queued => { s with pool := s.pool ++ [.fetch] }
      | .refused => s.scheduleNextRefresh true
      -- on the loop thread, where `runInLoop` schedules in place
      | .inline => { s with refreshes := s.refreshes + 1 }.scheduleNextRefresh true

/-- Called once, on the loop thread or on another one. -/
def startAutoRefresh (s : OcspRefresh) (onLoop refreshNow : Bool) (admission : Admission) :
    OcspRefresh :=
  let s := { s with auto := some {} }
  if refreshNow then
    -- `runInLoop`
    if onLoop then s.doRefreshCycle admission
    else { s with pendingTasks := s.pendingTasks ++ [.doRefreshCycle] }
  else s.scheduleNextRefresh onLoop

/-- A timer of the current batch that is cancelled is skipped. An empty `TimerId` is that of no
timer. -/
def stopAutoRefresh (s : OcspRefresh) : OcspRefresh :=
  match s.auto with
  | none => s
  | some ar =>
    if ar.timerArmed then
      { s with
        timers := s.timers.filter fun timer => ar.timer ≠ some timer
        expired := s.expired.filter fun timer => ar.timer ≠ some timer
        auto := some { ar with stopped := true, timerArmed := false } }
    else { s with auto := some { ar with stopped := true } }

/-- The destructor. -/
def destroy (s : OcspRefresh) : OcspRefresh :=
  { s.stopAutoRefresh with alive := false, auto := none }

def runTask (s : OcspRefresh) (admission : Admission) : LoopTask → OcspRefresh
  | .doRefreshCycle => s.touch (·.doRefreshCycle admission)
  | .scheduleNextRefresh => s.touch (·.scheduleNextRefresh true)
  -- the queue of the loop is not the stapler's
  | .addTimer => s.addTimer

/-! ### The pool -/

def stopped (s : OcspRefresh) : Bool := s.auto.any (·.stopped)

/-- The next action of a task in the pool; `refresh` ends with a response or without. -/
def poolStep (s : OcspRefresh) (i : Nat) (stores : Bool) : Option OcspRefresh :=
  match s.pool[i]? with
  | none => none
  | some .fetch =>
    some (s.touch fun s =>
      { s with pool := s.pool.set i .store, refreshes := s.refreshes + 1 })
  | some .store =>
    -- without a response the stapler is left alone
    some (if stores then s.touch fun s => { s with pool := s.pool.set i .look }
      else { s with pool := s.pool.set i .look })
  | some .look =>
    -- the flag is in the record, which goes with the stapler
    some (s.touch fun s =>
      { s with pool := if s.stopped then s.pool.eraseIdx i else s.pool.set i .hop })
  | some .hop =>
    some { s with
      pool := s.pool.eraseIdx i
      pendingTasks := s.pendingTasks ++ [.scheduleNextRefresh] }

/-! ### The machine -/

inductive Event where
  | start (onLoop refreshNow : Bool) (admission : Admission)
  | stop
  | destroy
  /-- The next pending task of the loop. -/
  | task (admission : Admission)
  | expire (due : List Nat)
  /-- The turn of the next expired timer. -/
  | turn (admission : Admission)
  | pool (i : Nat) (stores : Bool)
  deriving DecidableEq

def step (s : OcspRefresh) : Event → Option OcspRefresh
  | .start onLoop refreshNow admission =>
    if s.alive ∧ s.auto = none then some (s.startAutoRefresh onLoop refreshNow admission) else none
  | .stop => if s.alive then some s.stopAutoRefresh else none
  | .destroy => if s.alive then some s.destroy else none
  | .task admission =>
    match s.pendingTasks with
    | [] => none
    | task :: rest => some ({ s with pendingTasks := rest }.runTask admission task)
  | .expire due =>
    if s.expired = [] then
      some { s with
        timers := s.timers.filter fun timer => timer ∉ due
        expired := s.timers.filter fun timer => timer ∈ due }
    else none
  | .turn admission =>
    match s.expired with
    | [] => none
    | _ :: rest => some ({ s with expired := rest }.touch (·.doRefreshCycle admission))
  | .pool i stores => s.poolStep i stores

/-! ### Without the stapler -/

/-- The timer, the task in the pool, and the task on the loop. -/
def continuations (s : OcspRefresh) : Nat :=
  s.pool.length + s.pendingTasks.length + (s.timers.length + s.expired.length)

def Idle (s : OcspRefresh) : Prop := s.continuations = 0

/-- The stapler is gone and was not touched since, and nothing is left that could touch it. -/
structure Over (s : OcspRefresh) : Prop where
  gone : s.alive = false
  idle : Idle s
  clean : s.stale = 0

section Touch

variable {s s' : OcspRefresh}

theorem touch_alive (alive : s.alive = true) (act : OcspRefresh → OcspRefresh) :
    s.touch act = act s :=
  if_pos alive

theorem touch_gone (gone : s.alive = false) (act : OcspRefresh → OcspRefresh) :
    s.touch act = { s with stale := s.stale + 1 } :=
  if_neg (by rw [gone]; nofun)

theorem Idle.lists (idle : Idle s) :
    s.pool = [] ∧ s.pendingTasks = [] ∧ s.timers = [] ∧ s.expired = [] := by
  unfold Idle continuations at idle
  refine ⟨?_, ?_, ?_, ?_⟩ <;> exact length_eq_zero_iff.mp (by omega)

theorem Over.step (ended : Over s) (event : Event) (stepped : s.step event = some s') :
    Over s' := by
  obtain ⟨pool, pendingTasks, timers, expired⟩ := ended.idle.lists
  have gone := ended.gone
  -- there is nothing left that could have its turn
  cases event with
  | start | stop | destroy => simp [OcspRefresh.step, gone] at stepped
  | task => simp [OcspRefresh.step, pendingTasks] at stepped
  | turn => simp [OcspRefresh.step, expired] at stepped
  | pool => simp [OcspRefresh.step, poolStep, pool] at stepped
  | expire due =>
    simp only [OcspRefresh.step, expired, if_true] at stepped
    cases stepped
    refine ⟨gone, ?_, ended.clean⟩
    simp [Idle, continuations, pool, pendingTasks, timers]

theorem stale_scheduleNextRefresh (s : OcspRefresh) (onLoop : Bool) :
    (s.scheduleNextRefresh onLoop).stale = s.stale := by
  unfold scheduleNextRefresh
  split
  · rfl
  · split
    · rfl
    · split <;> rfl

theorem stale_doRefreshCycle (s : OcspRefresh) (admission : Admission) :
    (s.doRefreshCycle admission).stale = s.stale := by
  unfold doRefreshCycle
  split
  · rfl
  · split
    · rfl
    · dsimp only
      split
      · rfl
      all_goals exact stale_scheduleNextRefresh _ true

theorem stale_stopAutoRefresh (s : OcspRefresh) : s.stopAutoRefresh.stale = s.stale := by
  unfold stopAutoRefresh
  split
  · rfl
  · split <;> rfl

theorem stale_poolStep (alive : s.alive = true) (i : Nat) (stores : Bool)
    (stepped : s.poolStep i stores = some s') : s'.stale = s.stale := by
  unfold poolStep touch at stepped
  simp only [alive, if_true, ite_self] at stepped
  split at stepped <;> cases stepped <;> rfl

theorem stale_step (alive : s.alive = true) (event : Event) (other : event ≠ .destroy)
    (stepped : s.step event = some s') : s'.stale = s.stale := by
  cases event with
  | start onLoop refreshNow admission =>
    simp only [step] at stepped
    split at stepped <;> cases stepped
    unfold startAutoRefresh
    dsimp only
    split
    · split
      · exact stale_doRefreshCycle _ admission
      · rfl
    · exact stale_scheduleNextRefresh _ onLoop
  | stop =>
    simp only [step, alive, if_true] at stepped
    cases stepped
    exact stale_stopAutoRefresh s
  | destroy => exact absurd rfl other
  | task admission =>
    simp only [step] at stepped
    split at stepped
    next => cases stepped
    next task rest _ =>
      cases stepped
      have still : ({ s with pendingTasks := rest } : OcspRefresh).alive = true := alive
      cases task with
      | addTimer => rfl
      | doRefreshCycle =>
        rw [runTask, touch_alive still]
        exact stale_doRefreshCycle _ admission
      | scheduleNextRefresh =>
        rw [runTask, touch_alive still]
        exact stale_scheduleNextRefresh _ true
  | expire due =>
    simp only [step] at stepped
    split at stepped <;> cases stepped
    rfl
  | turn admission =>
    simp only [step] at stepped
    split at stepped
    next => cases stepped
    next rest _ =>
      cases stepped
      rw [touch_alive (s := { s with expired := rest }) alive]
      exact stale_doRefreshCycle _ admission
  | pool i stores => exact stale_poolStep alive i stores stepped

theorem gone_touch (gone : s.alive = false) (act : OcspRefresh → OcspRefresh) :
    (s.touch act).alive = false := by
  rw [touch_gone gone]
  exact gone

theorem gone_poolStep (gone : s.alive = false) (i : Nat) (stores : Bool)
    (stepped : s.poolStep i stores = some s') : s'.alive = false := by
  unfold poolStep at stepped
  split at stepped
  next => cases stepped
  next =>
    cases stepped
    exact gone_touch gone _
  next =>
    cases stepped
    split
    · exact gone_touch gone _
    · exact gone
  next =>
    cases stepped
    exact gone_touch gone _
  next =>
    cases stepped
    exact gone

theorem gone_step (gone : s.alive = false) (event : Event) (stepped : s.step event = some s') :
    s'.alive = false := by
  cases event with
  | start | stop | destroy => simp [step, gone] at stepped
  | task admission =>
    simp only [step] at stepped
    split at stepped
    next => cases stepped
    next task rest _ =>
      cases stepped
      cases task with
      | addTimer => exact gone
      | doRefreshCycle | scheduleNextRefresh =>
        exact gone_touch (s := { s with pendingTasks := rest }) gone _
  | expire due =>
    simp only [step] at stepped
    split at stepped
    · cases stepped
      exact gone
    · cases stepped
  | turn admission =>
    simp only [step] at stepped
    split at stepped
    next => cases stepped
    next rest _ =>
      cases stepped
      exact gone_touch (s := { s with expired := rest }) gone _
  | pool i stores => exact gone_poolStep gone i stores stepped

theorem alive_step (event : Event) (stepped : s.step event = some s') (alive : s'.alive = true) :
    s.alive = true ∧ event ≠ .destroy := by
  constructor
  · by_contra gone
    rw [gone_step (eq_false_of_ne_true gone) event stepped] at alive
    cases alive
  · rintro rfl
    simp only [step] at stepped
    split at stepped
    · cases stepped
      cases alive
    · cases stepped

end Touch

/-! ### Destruction -/

def Untouched (s : OcspRefresh) : Prop := s.stale = 0

instance (s : OcspRefresh) : Decidable s.Untouched := inferInstanceAs (Decidable (_ = _))

/-- If the stapler is destroyed now, it is not touched any more, whatever happens. -/
def DestroyedSafely (s : OcspRefresh) : Prop :=
  ∀ later, Machine.Always step Untouched s.destroy later

def cancels (s : OcspRefresh) : List Nat :=
  match s.auto with
  | none => []
  | some ar => if ar.timerArmed then ar.timer.toList else []

/-- Neither a task in the pool nor one on the loop is under way, and the number of the timer, if
there is one, is known. -/
def Quiet (s : OcspRefresh) : Prop :=
  s.pool = [] ∧ s.pendingTasks = [] ∧ ∀ timer ∈ s.timers ++ s.expired, timer ∈ s.cancels

section Destroy

variable {s : OcspRefresh}

theorem stopAutoRefresh_frame (s : OcspRefresh) :
    s.stopAutoRefresh.pool = s.pool ∧ s.stopAutoRefresh.pendingTasks = s.pendingTasks ∧
      s.stopAutoRefresh.timers = s.timers.filter (· ∉ s.cancels) ∧
      s.stopAutoRefresh.expired = s.expired.filter (· ∉ s.cancels) := by
  unfold stopAutoRefresh cancels
  split
  next => simp
  next ar _ =>
    split
    · simp [Option.mem_toList]
    · simp

theorem destroy_frame (s : OcspRefresh) :
    s.destroy.pool = s.pool ∧ s.destroy.pendingTasks = s.pendingTasks ∧
      s.destroy.timers = s.timers.filter (· ∉ s.cancels) ∧
      s.destroy.expired = s.expired.filter (· ∉ s.cancels) := stopAutoRefresh_frame s

theorem Quiet.destroy (quiet : s.Quiet) (clean : s.stale = 0) : Over s.destroy := by
  obtain ⟨pool, pendingTasks, timers, expired⟩ := destroy_frame s
  obtain ⟨noPool, noTask, known⟩ := quiet
  have none (list : List Nat) (listed : ∀ timer ∈ list, timer ∈ s.cancels) :
      list.filter (· ∉ s.cancels) = [] := by
    simpa using listed
  rw [none _ fun timer member => known timer (mem_append_left _ member)] at timers
  rw [none _ fun timer member => known timer (mem_append_right _ member)] at expired
  refine ⟨rfl, ?_, (stale_stopAutoRefresh s).trans clean⟩
  simp [Idle, continuations, pool, pendingTasks, timers, expired, noPool, noTask]

theorem Over.destroyedSafely (ended : Over s.destroy) : DestroyedSafely s := by
  intro later
  refine Always.mono (P := Over) (fun s ended => ended.clean) _ later ?_
  exact always_of_keeps (fun s event s' ended stepped => ended.step event stepped) _ later
    ended

def Harmful (s : OcspRefresh) : Prop := ∃ later, ¬Always step Untouched s later

theorem harmful_of_step (event : Event) (s' : OcspRefresh) (stepped : s.step event = some s')
    (harmful : Harmful s') : Harmful s := by
  obtain ⟨later, touched⟩ := harmful
  refine ⟨event :: later, fun always => ?_⟩
  have rest := always.2
  rw [stepped] at rest
  exact touched rest

theorem harmful_of_stale (stale : s.stale ≠ 0) : Harmful s := ⟨[], stale⟩

/-- A timer that is not cancelled expires at some time, and its callback touches the stapler. -/
theorem harmful_of_timer (gone : s.alive = false) (armed : s.timers ++ s.expired ≠ []) :
    Harmful s := by
  have turns (t : OcspRefresh) (gone : t.alive = false) (due : t.expired ≠ []) : Harmful t := by
    obtain ⟨timer, rest, expired⟩ := exists_cons_of_ne_nil due
    have stepped : t.step (.turn .refused) =
        some { t with expired := rest, stale := t.stale + 1 } := by
      simp only [step, expired, touch_gone (s := { t with expired := rest }) gone]
    exact harmful_of_step _ _ stepped (harmful_of_stale (Nat.succ_ne_zero _))
  by_cases due : s.expired = []
  · have stepped : s.step (.expire s.timers) = some { s with
        timers := s.timers.filter fun timer => timer ∉ s.timers
        expired := s.timers.filter fun timer => timer ∈ s.timers } := by
      simp only [step, due, if_true]
    refine harmful_of_step _ _ stepped (turns _ gone ?_)
    rw [due, append_nil] at armed
    simpa using exists_mem_of_ne_nil _ armed
  · exact turns s gone due

theorem harmful_of_task (gone : s.alive = false) (pending : s.pendingTasks ≠ []) : Harmful s := by
  obtain ⟨task, rest, tasks⟩ := exists_cons_of_ne_nil pending
  have stepped : s.step (.task .refused) =
      some ({ s with pendingTasks := rest }.runTask .refused task) := by simp only [step, tasks]
  refine harmful_of_step _ _ stepped ?_
  cases task with
  | addTimer => exact harmful_of_timer gone (by simp [runTask, addTimer])
  | doRefreshCycle | scheduleNextRefresh =>
    rw [runTask, touch_gone (s := { s with pendingTasks := rest }) gone]
    exact harmful_of_stale (Nat.succ_ne_zero _)

theorem harmful_of_pool (gone : s.alive = false) (running : s.pool ≠ []) : Harmful s := by
  obtain ⟨task, rest, tasks⟩ := exists_cons_of_ne_nil running
  have here : s.pool[0]? = some task := by rw [tasks]; rfl
  have stale : Harmful { s with stale := s.stale + 1 } := harmful_of_stale (Nat.succ_ne_zero _)
  cases task with
  | fetch | look =>
    refine harmful_of_step (.pool 0 true) _ ?_ stale
    simp only [step, poolStep, here]
    exact congrArg some (touch_gone gone _)
  | store =>
    refine harmful_of_step (.pool 0 true) _ ?_ stale
    simp only [step, poolStep, here, if_true]
    exact congrArg some (touch_gone gone _)
  | hop =>
    -- past its look at the flag it does it on the loop
    refine harmful_of_step (.pool 0 true) { s with
      pool := s.pool.eraseIdx 0
      pendingTasks := s.pendingTasks ++ [.scheduleNextRefresh] } ?_ ?_
    · simp only [step, poolStep, here]
    · exact harmful_of_task gone (concat_ne_nil _ _)

theorem DestroyedSafely.quiet (safe : DestroyedSafely s) : s.Quiet := by
  have harmless : ¬Harmful s.destroy := fun ⟨later, touched⟩ => touched (safe later)
  obtain ⟨pool, pendingTasks, timers, expired⟩ := destroy_frame s
  refine ⟨?_, ?_, fun timer member => ?_⟩
  · rw [← pool]
    by_contra busy
    exact harmless (harmful_of_pool rfl busy)
  · rw [← pendingTasks]
    by_contra busy
    exact harmless (harmful_of_task rfl busy)
  · by_contra unknown
    refine harmless (harmful_of_timer rfl (ne_nil_of_mem (a := timer) ?_))
    rw [timers, expired, ← filter_append]
    simpa [mem_filter, unknown] using member

end Destroy

/-- In every state of every run, the stapler can be destroyed safely exactly if neither a task in
the pool nor one on the loop is under way, and no timer is armed whose number
`startAutoRefresh` was not given because it was called on another thread. -/
theorem destroyedSafely_iff_quiet (events : List Event) :
    Machine.Always step (fun s => s.alive = true → (s.DestroyedSafely ↔ s.Quiet)) {} events := by
  have untouched : Machine.Always step (fun s => s.alive = true → s.stale = 0) {} events := by
    refine Machine.always_of_keeps (fun s event s' clean stepped alive => ?_) _ events fun _ => rfl
    obtain ⟨before, other⟩ := alive_step event stepped alive
    exact (stale_step before event other stepped).trans (clean before)
  refine Machine.Always.mono (fun s clean alive => ?_) _ events untouched
  constructor
  · exact DestroyedSafely.quiet
  · exact fun quiet => (quiet.destroy (clean alive)).destroyedSafely

/-- The first fetch is queued in the pool when the refresh is stopped and the stapler destroyed; and
a timer that was started from another thread goes off after the destruction. -/
theorem destroyed_refreshesLater :
    let events : List Event := [.start true true .queued, .stop, .destroy, .pool 0 true]
    let late : List Event :=
      [.start false false .queued, .task .queued, .stop, .destroy, .expire [0], .turn .queued]
    (¬Machine.Always step Untouched {} events ∧
      (Machine.run step {} events).map (fun s => (s.alive, s.stale)) = some (false, 1)) ∧
    ¬Machine.Always step Untouched {} late ∧
      (Machine.run step {} late).map (fun s => (s.alive, s.stale)) = some (false, 1) := by
  decide

end OcspRefresh

end Cox.Tls

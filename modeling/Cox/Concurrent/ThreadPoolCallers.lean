import Cox.Concurrent.ThreadPoolTasks

/-!
# Who runs the tasks

A pool is there so that a task does not run inside the call that brings it. `run` and `tryRun` run
a task in place when `threads_` is empty, which is meant for a pool that was started without
workers; but `stop` empties `threads_` as well. A call that comes after it does not drop the
task, it executes it.
-/
namespace Cox.Concurrent.ThreadPool

open Cox.Lib List Bool

/-! ### What is noted -/

def Event.brings : Event → Bool
  | .run _ | .tryRun _ => true
  | .producer _ _ | .worker _ | .wakeWorker _ | .wakeProducer _ | .stop | .stopper => false

def Event.ofCaller : Event → Bool
  | .run _ | .tryRun _ | .producer _ _ => true
  | .worker _ | .wakeWorker _ | .wakeProducer _ | .stop | .stopper => false

/-- A call of `stop` returns: at once if the pool is stopping already, or after the join. -/
def stopReturns (p : ThreadPool) : Event → Bool
  | .stop => !p.running
  | .stopper => p.stopper == .clear
  | .run _ | .tryRun _ | .producer _ _ | .worker _ | .wakeWorker _ | .wakeProducer _ => false

def executes (p : ThreadPool) (event : Event) : List Nat :=
  match p.step event with
  | some p' => p'.executed.drop p.executed.length
  | none => []

structure History where
  /-- The tasks that were executed by a thread that is in `run` or `tryRun`. -/
  inPlace : List Nat := []
  /-- A call of `stop` has returned. -/
  stopped : Bool := false
  /-- The tasks of the calls made after that. -/
  late : List Nat := []

def noteCalls (p : ThreadPool) (event : Event) (h : History) : History where
  inPlace := if event.ofCaller then h.inPlace ++ p.executes event else h.inPlace
  stopped := h.stopped || p.stopReturns event
  late := if event.brings && h.stopped then h.late ++ [p.calls] else h.late

/-- The task has been refused, or the next action of its call refuses it. -/
def TurnedAway (p : ThreadPool) (task : Nat) : Prop :=
  task ∈ p.refused ∨
    ∃ thread, (p.producers thread).map Call.task = some task ∧
      ∀ woken, p.producerStep thread woken = some (p.refuse thread task)

/-- No task is executed inside the call that brings it, and the tasks brought after `stop` are
turned away. -/
structure OffCaller (x : ThreadPool × History) : Prop where
  inPlace : x.2.inPlace = []
  late : ∀ task ∈ x.2.late, TurnedAway x.1 task ∧ task ∉ x.1.accepted ∧ task ∉ x.1.executed

theorem of_brings {p p' : ThreadPool} (event : Event) (brings : event.brings = true)
    (stepped : p.step event = some p') :
    event.ofCaller = true ∧ ∃ thread call, p.producers thread = none ∧
      (call = Call.run ∨ call = Call.tryRun) ∧ p' = p.call thread call := by
  cases event with
  | run thread =>
    simp only [step] at stepped
    split at stepped
    next idle => exact ⟨rfl, thread, .run, idle, .inl rfl, (Option.some.inj stepped).symm⟩
    next => cases stepped
  | tryRun thread =>
    simp only [step] at stepped
    split at stepped
    next idle => exact ⟨rfl, thread, .tryRun, idle, .inr rfl, (Option.some.inj stepped).symm⟩
    next => cases stepped
  | producer thread woken | worker w | wakeWorker w | wakeProducer w | stop | stopper =>
    cases brings

/-! ### A pool that is stopping -/

def Pending (p : ThreadPool) (thread task : Nat) : Prop :=
  p.producers thread = some (.run task) ∨ p.producers thread = some (.tryRun task)

section Stopping

variable {p p' : ThreadPool}

theorem Pending.task {thread task : Nat} (pending : Pending p thread task) :
    (p.producers thread).map Call.task = some task := by
  rcases pending with calls | calls
  · rw [calls]; rfl
  · rw [calls]; rfl

theorem run_stopping (stopping : p.running = false) (thread task : Nat) (woken : List Nat) :
    p.run thread task woken = some (p.refuse thread task) := by
  simp [run, stopping]

theorem tryRun_stopping (stopping : p.running = false) (thread task : Nat) (woken : List Nat) :
    p.tryRun thread task woken = some (p.refuse thread task) := by
  simp [tryRun, stopping]

theorem Pending.turnedAway {thread task : Nat} (pending : Pending p thread task)
    (stopping : p.running = false) : TurnedAway p task := by
  refine .inr ⟨thread, pending.task, fun woken => ?_⟩
  rcases pending with calls | calls
  · simp only [producerStep, calls, run_stopping stopping]
  · simp only [producerStep, calls, tryRun_stopping stopping]

theorem producerStep_stopping (stopping : p.running = false) (thread : Nat) (woken : List Nat)
    (stepped : p.producerStep thread woken = some p') :
    ∃ call, p.producers thread = some call ∧ p' = p.refuse thread call.task := by
  unfold producerStep at stepped
  split at stepped
  next => cases stepped
  next task calls =>
    rw [run_stopping stopping] at stepped
    exact ⟨_, calls, (Option.some.inj stepped).symm⟩
  next task calls =>
    split at stepped
    · cases stepped
    · rw [run_stopping stopping] at stepped
      exact ⟨_, calls, (Option.some.inj stepped).symm⟩
  next task calls =>
    rw [tryRun_stopping stopping] at stepped
    exact ⟨_, calls, (Option.some.inj stepped).symm⟩

theorem running_step (stopping : p.running = false) (event : Event)
    (stepped : p.step event = some p') : p'.running = false := by
  cases event with
  | run thread | tryRun thread =>
    obtain ⟨_, _, _, _, _, rfl⟩ := of_brings _ rfl stepped
    unfold call
    dsimp only
    split <;> exact stopping
  | producer thread woken =>
    obtain ⟨call, _, rfl⟩ := producerStep_stopping stopping thread woken stepped
    exact stopping
  | worker w => exact (frame_workerStep w stepped).running.trans stopping
  | wakeWorker w | wakeProducer w =>
    cases stepped
    exact stopping
  | stop =>
    cases stepped
    rw [stop, if_pos stopping]
    exact stopping
  | stopper => exact (frame_stopperStep stepped).running.trans stopping

end Stopping

/-! ### One step -/

/-- The task has been refused, or its call has not had to wait. -/
def Answered (p : ThreadPool) (task : Nat) : Prop :=
  task ∈ p.refused ∨ ∃ thread, Pending p thread task

/-- The workers are not looked for after `stop` has cleared them. -/
def FindsWorkers (p : ThreadPool) (event : Event) : Prop := event.brings = true → p.threads ≠ 0

section Step

variable {p p' : ThreadPool}

theorem call_staffed (staffed : p.threads ≠ 0) (thread : Nat) (call : Nat → Call) :
    p.call thread call =
      { p with calls := p.calls + 1 }.setProducer thread (some (call p.calls)) :=
  if_neg staffed

theorem Answered.frame {task : Nat} (answered : Answered p task) (frame : Frame p p') :
    Answered p' task := by
  unfold Answered Pending at *
  rwa [frame.refused, frame.producers]

theorem Pending.other {thread task : Nat} (pending : Pending p thread task) (busy : Nat)
    (call : Option Call) (apart : thread ≠ busy) :
    Pending (p.setProducer busy call) thread task := by
  unfold Pending setProducer at *
  dsimp only
  rwa [Function.update_of_ne apart]

theorem Answered.call {task : Nat} (answered : Answered p task) (staffed : p.threads ≠ 0)
    (thread : Nat) (idle : p.producers thread = none) (call : Nat → Call) :
    Answered (p.call thread call) task := by
  rw [call_staffed staffed]
  rcases answered with refused | ⟨other, pending⟩
  · exact .inl refused
  · refine .inr ⟨other, Pending.other pending thread _ ?_⟩
    rintro rfl
    have task := pending.task
    rw [idle] at task
    cases task

theorem Answered.refuse {task : Nat} (answered : Answered p task) (thread : Nat) (call : Call)
    (calls : p.producers thread = some call) : Answered (p.refuse thread call.task) task := by
  rcases answered with refused | ⟨other, pending⟩
  · exact .inl (mem_append_left _ refused)
  · by_cases same : other = thread
    · -- this is the call that is refused
      subst same
      have task := pending.task
      rw [calls] at task
      cases task
      exact .inl (mem_append_right _ (mem_singleton_self _))
    · exact .inr ⟨other, pending.other thread none same⟩

theorem Answered.step {task : Nat} (answered : Answered p task) (stopping : p.running = false)
    (event : Event) (finds : FindsWorkers p event) (stepped : p.step event = some p') :
    Answered p' task := by
  cases event with
  | run thread | tryRun thread =>
    obtain ⟨_, thread, call, idle, _, rfl⟩ := of_brings _ rfl stepped
    exact answered.call (finds rfl) thread idle call
  | producer thread woken =>
    obtain ⟨call, calls, rfl⟩ := producerStep_stopping stopping thread woken stepped
    exact answered.refuse thread call calls
  | worker w => exact answered.frame (frame_workerStep w stepped)
  | wakeWorker w | wakeProducer w =>
    cases stepped
    exact answered
  | stop =>
    cases stepped
    rw [stop, if_pos stopping]
    exact answered
  | stopper => exact answered.frame (frame_stopperStep stepped)

theorem answered_new (event : Event) (brings : event.brings = true) (finds : FindsWorkers p event)
    (stepped : p.step event = some p') : Answered p' p.calls := by
  obtain ⟨_, thread, call, _, which, rfl⟩ := of_brings event brings stepped
  rw [call_staffed (finds brings)]
  have waits : ({ p with calls := p.calls + 1 }.setProducer thread
      (some (call p.calls))).producers thread = some (call p.calls) := Function.update_self ..
  rcases which with rfl | rfl
  · exact .inr ⟨thread, .inl waits⟩
  · exact .inr ⟨thread, .inr waits⟩

theorem executes_of_step (event : Event) (stepped : p.step event = some p')
    (same : p'.executed = p.executed) : p.executes event = [] := by
  rw [executes, stepped]
  simp only [same, drop_length]

theorem executes_caller (event : Event) (finds : FindsWorkers p event)
    (caller : event.ofCaller = true) (stepped : p.step event = some p') :
    p.executes event = [] := by
  apply executes_of_step event stepped
  cases event with
  | run thread | tryRun thread =>
    obtain ⟨_, thread, call, _, _, rfl⟩ := of_brings _ rfl stepped
    rw [call_staffed (finds rfl)]
    rfl
  | producer thread woken =>
    cases produces_producerStep thread woken stepped with
    | waits call calls full waits => rw [waits]; rfl
    | refuses call calls refused => rw [refused]; rfl
    | pushes call calls running room pushed =>
      obtain ⟨notEmpty, _, rfl⟩ := Option.map_eq_some_iff.mp pushed
      rfl
  | worker w | wakeWorker w | wakeProducer w | stop | stopper => cases caller

theorem executes_unstaffed (event : Event) (finds : ¬FindsWorkers p event)
    (stepped : p.step event = some p') :
    event.ofCaller = true ∧ p.executes event = [p.calls] := by
  unfold FindsWorkers at finds
  push Not at finds
  obtain ⟨brings, empty⟩ := finds
  rw [executes, stepped]
  obtain ⟨caller, thread, call, _, _, rfl⟩ := of_brings event brings stepped
  refine ⟨caller, ?_⟩
  simp only [ThreadPool.call, if_pos empty, drop_left]

theorem Sound.stopReturns (sound : Sound p) (event : Event) (stepped : p.step event = some p')
    (returns : p.stopReturns event = true) : p.running = false := by
  cases event with
  | stop => simpa [ThreadPool.stopReturns] using returns
  | stopper => exact sound.stopped (stopper_of_stopperStep stepped)
  | run thread | tryRun thread | producer thread woken | worker w | wakeWorker w
  | wakeProducer w => cases returns

end Step

/-! ### Whole runs -/

structure Kept (x : ThreadPool × History) : Prop where
  sound : Sound x.1
  unique : x.1.tickets.Unique
  inPlace : x.2.inPlace = []
  stopping : x.2.stopped = true → x.1.running = false
  late : ∀ task ∈ x.2.late, x.2.stopped = true ∧ Answered x.1 task

section Run

variable {p p' : ThreadPool} {h : History}

theorem Kept.offCaller (kept : Kept (p, h)) : OffCaller (p, h) := by
  refine ⟨kept.inPlace, fun task late => ?_⟩
  obtain ⟨stopped, answered⟩ := kept.late task late
  have stopping := kept.stopping stopped
  have rejected : task ∉ p.accepted := by
    rcases answered with refused | ⟨thread, pending⟩
    · exact kept.unique.apart task refused
    · exact (kept.unique.pending thread task pending.task).2.1
  refine ⟨?_, rejected, fun executed => rejected ?_⟩
  · rcases answered with refused | ⟨thread, pending⟩
    · exact .inl refused
    · exact pending.turnedAway stopping
  · have partition := (kept.sound.exactlyOnce kept.unique).partition
    exact partition.mem_iff.mpr (mem_append_left _ executed)

theorem Kept.step (kept : Kept (p, h)) (event : Event) (finds : FindsWorkers p event)
    (stepped : p.step event = some p') : Kept (p', p.noteCalls event h) := by
  refine ⟨kept.sound.step event stepped, tickets_step kept.unique event stepped, ?_, ?_, ?_⟩
  · have before : h.inPlace = [] := kept.inPlace
    simp only [noteCalls, before, nil_append]
    split
    next caller => exact executes_caller event finds caller stepped
    next => rfl
  · intro stopped
    apply running_step _ event stepped
    rcases or_eq_true_iff.mp stopped with before | returns
    · exact kept.stopping before
    · exact kept.sound.stopReturns event stepped returns
  · intro task late
    have old (member : task ∈ h.late) :
        (p.noteCalls event h).stopped = true ∧ Answered p' task := by
      obtain ⟨stopped, answered⟩ := kept.late task member
      refine ⟨?_, answered.step (kept.stopping stopped) event finds stepped⟩
      exact or_eq_true_iff.mpr (.inl stopped)
    simp only [noteCalls] at late
    split at late
    next brought =>
      obtain ⟨brings, stopped⟩ := and_eq_true_iff.mp brought
      rcases mem_append.mp late with member | new
      · exact old member
      · rw [mem_singleton.mp new]
        exact ⟨or_eq_true_iff.mpr (.inl stopped), answered_new event brings finds stepped⟩
    next => exact old late

end Run

/-- **No work on the caller.** However many workers the pool was started with, and whatever the
threads do, no task is executed inside the call that brings it and the tasks brought after `stop`
are turned away, exactly as long as no call looks for workers after `stop` has cleared them. -/
theorem offCaller_iff (maxQueueSize takeBatchSize n : Nat) (events : List Event) :
    Machine.Always (Machine.remembering step noteCalls) OffCaller
        (start maxQueueSize takeBatchSize (n + 1), {}) events ↔
      Machine.Meets (Machine.remembering step noteCalls) (fun x => FindsWorkers x.1)
        (start maxQueueSize takeBatchSize (n + 1), {}) events := by
  apply Machine.always_iff_meets (fun x (kept : Kept x) => kept.offCaller)
  · rintro ⟨p, h⟩ event x kept finds stepped
    obtain ⟨p', moved, rfl⟩ := Option.map_eq_some_iff.mp stepped
    exact kept.step event finds moved
  · rintro ⟨p, h⟩ event x kept lacks stepped holds
    obtain ⟨p', moved, rfl⟩ := Option.map_eq_some_iff.mp stepped
    obtain ⟨caller, executes⟩ := executes_unstaffed event lacks moved
    have none := holds.inPlace
    simp [noteCalls, caller, executes] at none
  · exact ⟨Sound.start maxQueueSize takeBatchSize n,
      ⟨nofun, nofun, List.nodup_nil, nofun, nofun, nofun⟩, rfl, nofun, nofun⟩

/-- One worker; `stop` has returned, and then `run`, or `tryRun`, executes its task. -/
theorem stopped_runsInPlace :
    let stop : List Event := [.stop, .stopper, .stopper, .worker 0, .stopper, .stopper]
    let seen := fun (x : ThreadPool × History) =>
      (x.1.stopper, x.2.late, x.2.inPlace, x.1.executed, x.1.refused)
    let after := fun event => (Machine.run (Machine.remembering step noteCalls) (start 0 32 1, {})
      (stop ++ [event])).map seen
    after (.run 7) = some (.returned, [0], [0], [0], []) ∧
      after (.tryRun 7) = some (.returned, [0], [0], [0], []) ∧
      ¬Machine.Always (Machine.remembering step noteCalls) OffCaller (start 0 32 1, {})
        (stop ++ [.run 7]) := by
  refine ⟨by decide, by decide, fun always => ?_⟩
  have ran : ∃ x, Machine.run (Machine.remembering step noteCalls) (start 0 32 1, {})
      ([.stop, .stopper, .stopper, .worker 0, .stopper, .stopper] ++ [.run 7]) = some x ∧
        x.2.inPlace = [0] := ⟨_, rfl, rfl⟩
  obtain ⟨x, ran, executed⟩ := ran
  have none := (Machine.Always.last _ x _ always ran).inPlace
  rw [executed] at none
  cases none

end Cox.Concurrent.ThreadPool

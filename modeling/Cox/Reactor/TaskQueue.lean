import Cox.Reactor.EventLoop

/-!
# The task queue and the wakeups

Tasks run in the order in which they were queued. Whether the loop sleeps on a queued task
is another matter: `queueInLoop` writes the eventfd for other threads and while a channel
is being dispatched, but a task that is queued from a task, or before `loop()`, has to
find the eventfd written already.
-/
namespace Cox.Reactor.EventLoop

open Cox.Lib List

section Steps

variable {Task : Type} {e e' : EventLoop Task}

/-! ### The order of the tasks -/

def Draining : LoopPhase Task → Prop
  | .betweenTasks | .runningTask _ => True
  | _ => False

/-- The queued tasks are those begun, those taken and those pending, in this order. -/
structure Orderly (e : EventLoop Task) : Prop where
  inOrder : e.begun ++ e.tasks ++ e.pendingTasks = e.queued
  taken : ¬Draining e.phase → e.tasks = []

section Orderly

variable (orderly : Orderly e)
include orderly

theorem Orderly.same (begun : e'.begun = e.begun) (tasks : e'.tasks = e.tasks)
    (pending : e'.pendingTasks = e.pendingTasks) (queued : e'.queued = e.queued)
    (taken : ¬Draining e'.phase → e.tasks = []) : Orderly e' := by
  refine ⟨?_, fun other => tasks.trans (taken other)⟩
  rw [begun, tasks, pending, queued]
  exact orderly.inOrder

theorem Orderly.queueInLoop (t : ThreadId) (task : Task) : Orderly (e.queueInLoop t task) := by
  refine ⟨?_, orderly.taken⟩
  simp only [EventLoop.queueInLoop, enter, ← append_assoc]
  rw [orderly.inOrder]

theorem Orderly.wakeup : Orderly e.wakeup := by
  unfold EventLoop.wakeup
  split
  · exact orderly.same rfl rfl rfl rfl orderly.taken
  · exact orderly

theorem Orderly.continueCall (t : ThreadId) (phase : CallPhase) :
    Orderly (e.continueCall t phase) := by
  have left {d : EventLoop Task} (orderly : Orderly d) : Orderly (d.leave t) :=
    orderly.same rfl rfl rfl rfl orderly.taken
  cases phase with
  | queued =>
    unfold EventLoop.continueCall
    dsimp only
    split
    · exact left orderly.wakeup
    · exact left orderly
  | quitting => exact left orderly.wakeup

theorem Orderly.go (event : Event Task) (went : e.go event = some e') : Orderly e' := by
  -- only the three steps of `doPendingTasks` touch the tasks
  have elsewhere {d : EventLoop Task} (other : ¬Draining e.phase) (begun : d.begun = e.begun)
      (tasks : d.tasks = e.tasks) (pending : d.pendingTasks = e.pendingTasks)
      (queued : d.queued = e.queued) : Orderly d :=
    orderly.same begun tasks pending queued (fun _ => orderly.taken other)
  cases event with
  | loop | checkQuit | poll | nextChannel | handleWakeup | handled | dispatched =>
    simp only [EventLoop.go] at went
    split at went
    · have other : ¬Draining e.phase := by simp [*, Draining]
      (repeat' split at went) <;> cases went <;> exact elsewhere other rfl rfl rfl rfl
    · cases went
  | doPendingTasks =>
    simp only [EventLoop.go] at went
    split at went <;> cases went
    next phase =>
      have empty := orderly.taken (by simp [phase, Draining])
      refine ⟨?_, fun other => absurd trivial other⟩
      simpa [goTo, empty] using orderly.inOrder
  | nextTask =>
    simp only [EventLoop.go] at went
    split at went <;> cases went
    next task rest _ taken =>
      refine ⟨?_, fun other => absurd trivial other⟩
      simpa [goTo, taken] using orderly.inOrder
  | taskDone =>
    simp only [EventLoop.go] at went
    split at went <;> cases went
    exact orderly.same rfl rfl rfl rfl (fun other => absurd trivial other)
  | tasksDone =>
    simp only [EventLoop.go] at went
    split at went <;> cases went
    next empty => exact orderly.same rfl rfl rfl rfl (fun _ => empty)
  | _ => cases went

theorem Orderly.step (event : Event Task) (stepped : e.step event = some e') : Orderly e' := by
  cases moves_step stepped with
  | queueInLoop t task => exact orderly.queueInLoop t task
  | runInLoop t task =>
    unfold runInLoop
    split
    · exact orderly
    · exact orderly.queueInLoop t task
  | updateChannel => exact orderly.same rfl rfl rfl rfl orderly.taken
  | removeChannel channel => cases channel <;> exact orderly.same rfl rfl rfl rfl orderly.taken
  | quit t =>
    unfold setQuit
    split <;> exact orderly.same rfl rfl rfl rfl orderly.taken
  | proceed t phase => exact orderly.continueCall t phase
  | goes went => exact orderly.go _ went

end Orderly

/-! ### Wakeups -/

def Drains : LoopPhase Task → Prop
  | .dispatching | .handling _ | .draining => True
  | _ => False

instance : (phase : LoopPhase Task) → Decidable (Drains phase)
  | .dispatching | .handling _ | .draining => isTrue trivial
  | .outside | .checking | .polling | .betweenTasks | .runningTask _ => isFalse id

/-- Another thread is in a call that ends with a write to the eventfd. -/
def Awaited (e : EventLoop Task) : Prop := ∃ call ∈ e.calls, call.1 ≠ e.loopThreadId

/-- The eventfd was written since it was last read, or is about to be. -/
def Woken (e : EventLoop Task) : Prop := e.wakeupCount ≠ 0 ∨ e.Awaited

instance (e : EventLoop Task) : Decidable e.Woken :=
  inferInstanceAs (Decidable (_ ∨ ∃ call ∈ _, _))

/-- Nothing is pending that the loop does not come to by itself or is woken for. -/
def Prompt (e : EventLoop Task) : Prop := ¬Drains e.phase → e.pendingTasks ≠ [] → e.Woken

/-- A task is queued from the loop thread only in a channel handler, or when the loop will
be woken anyway. -/
def QueuedPromptly (e : EventLoop Task) : Event Task → Prop
  | .queueInLoop t _ => t = e.loopThreadId → Drains e.phase ∨ e.Woken
  | _ => True

instance (e : EventLoop Task) (event : Event Task) : Decidable (QueuedPromptly e event) := by
  apply @Event.casesOn _ (fun event => Decidable (QueuedPromptly e event)) event <;> intros <;> unfold QueuedPromptly <;>
    infer_instance

theorem woken_wakeup (e : EventLoop Task) : e.wakeup.wakeupCount ≠ 0 := by
  unfold wakeup
  split
  · exact Nat.succ_ne_zero _
  next full => exact fun empty => full (by rw [empty]; decide)

theorem Prompt.same (prompt : Prompt e) (phase : Drains e.phase → Drains e'.phase)
    (pending : e'.pendingTasks = e.pendingTasks) (woken : e.Woken → e'.Woken) : Prompt e' := by
  intro other nonempty
  rw [pending] at nonempty
  exact woken (prompt (fun drains => other (phase drains)) nonempty)

theorem Awaited.leave (awaited : e.Awaited) (t : ThreadId) (own : t = e.loopThreadId) :
    (e.leave t).Awaited := by
  obtain ⟨call, inside, other⟩ := awaited
  refine ⟨call, mem_filter.mpr ⟨inside, ?_⟩, other⟩
  rw [own]
  exact bne_iff_ne.mpr other

theorem Prompt.wakeup (e : EventLoop Task) (t : ThreadId) : Prompt (e.wakeup.leave t) :=
  fun _ _ => .inl (woken_wakeup e)

theorem Prompt.continueCall (prompt : Prompt e) (t : ThreadId) (phase : CallPhase) :
    Prompt (e.continueCall t phase) := by
  cases phase with
  | quitting => exact Prompt.wakeup e t
  | queued =>
    unfold EventLoop.continueCall
    dsimp only
    split
    · exact Prompt.wakeup e t
    next quiet =>
      -- only the loop thread leaves without a write
      have own : t = e.loopThreadId := by
        simp only [needsWakeup, isInLoopThread, Bool.or_eq_true, not_or] at quiet
        simpa using quiet.1
      exact prompt.same id rfl (Or.imp_right (fun awaited => awaited.leave t own))

theorem prompt_queueInLoop (t : ThreadId) (task : Task)
    (promptly : t = e.loopThreadId → Drains e.phase ∨ e.Woken) :
    Prompt (e.queueInLoop t task) := by
  intro other _
  by_cases own : t = e.loopThreadId
  -- the loop thread may skip the write, which is where the condition is needed
  · rcases promptly own with drains | woken
    · exact absurd drains other
    · refine woken.imp_right (fun ⟨call, inside, apart⟩ => ?_)
      exact ⟨call, mem_cons_of_mem _ inside, apart⟩
  -- another thread always goes on to write
  · exact .inr ⟨(t, .queued), mem_cons_self .., own⟩

theorem Prompt.go (prompt : Prompt e) (event : Event Task) (went : e.go event = some e') :
    Prompt e' := by
  cases event with
  | poll | nextChannel | handleWakeup | handled | dispatched =>
    -- the queue is drained later in this round
    simp only [EventLoop.go] at went
    split at went
    · (repeat' split at went) <;> cases went
      all_goals exact fun other => absurd trivial other
    · cases went
  | doPendingTasks =>
    simp only [EventLoop.go] at went
    split at went <;> cases went
    -- the queue was just swapped out
    exact fun _ nonempty => absurd rfl nonempty
  | loop | checkQuit | nextTask | taskDone | tasksDone =>
    -- the loop does not read the eventfd on its way to the next `poll`
    simp only [EventLoop.go] at went
    split at went
    · have before : ¬Drains e.phase := by simp [*, Drains]
      (repeat' split at went) <;> cases went <;>
        exact prompt.same (fun drains => absurd drains before) rfl id
    · cases went
  | _ => cases went

theorem Prompt.step (prompt : Prompt e) (event : Event Task) (promptly : QueuedPromptly e event)
    (stepped : e.step event = some e') : Prompt e' := by
  cases moves_step stepped with
  | queueInLoop t task => exact prompt_queueInLoop t task promptly
  | runInLoop t task =>
    unfold runInLoop
    split
    · exact prompt
    next other =>
      refine prompt_queueInLoop t task (fun own => absurd ?_ other)
      simp [isInLoopThread, own]
  | updateChannel => exact prompt.same id rfl id
  | removeChannel channel => cases channel <;> exact prompt.same id rfl id
  | quit t =>
    unfold setQuit
    split
    · exact prompt.same id rfl id
    · refine prompt.same id rfl (Or.imp_right (fun ⟨call, inside, apart⟩ => ?_))
      exact ⟨call, mem_cons_of_mem _ inside, apart⟩
  | proceed t phase => exact prompt.continueCall t phase
  | goes went => exact prompt.go _ went

end Steps

/-! ### Runs -/

section Runs

variable {Task : Type} (loopThreadId : ThreadId) (wakeupChannel timerChannel : Channel)

/-- Tasks are begun in the order in which they were queued, each once. -/
theorem begun_prefix_queued (events : List (Event Task)) :
    Machine.Always step (fun e : EventLoop Task => e.begun <+: e.queued)
      (initial loopThreadId wakeupChannel timerChannel) events := by
  refine Machine.Always.mono (fun e (orderly : Orderly e) => ?_) _ events
    (Machine.always_of_keeps (fun _ event _ orderly => orderly.step event) _ events
      ⟨rfl, fun _ => rfl⟩)
  rw [← orderly.inOrder, append_assoc]
  exact prefix_append ..

/-- The loop does not go to sleep on a pending task: the eventfd was written since it was
last read, or another thread has yet to return from the call that writes it. -/
def NoLostWakeup (e : EventLoop Task) : Prop :=
  e.phase = .polling → e.pendingTasks ≠ [] → e.Woken

/-- No wakeup is lost along every run in which the loop thread queues tasks from channel
handlers, or when the loop will be woken anyway. -/
theorem noLostWakeup_always (events : List (Event Task))
    (promptly : Machine.Meets step QueuedPromptly
      (initial loopThreadId wakeupChannel timerChannel) events) :
    Machine.Always step NoLostWakeup
      (initial loopThreadId wakeupChannel timerChannel) events := by
  refine Machine.Always.mono (fun e (prompt : Prompt e) polling => ?_) _ events
    (Machine.always_of_meets (fun _ event _ prompt => prompt.step event) _ events
      (fun _ nonempty => absurd rfl nonempty) promptly)
  exact prompt (by simp [polling, Drains])

end Runs

def newLoop : EventLoop Nat := initial 1 ⟨5, 0⟩ ⟨6, 1⟩

/-- Another thread queues a task, which wakes the loop; while it runs, a second one arrives,
and the task queues a third one. -/
def queuedWhileWoken : List (Event Nat) :=
  [.loop, .checkQuit, .queueInLoop 2 10, .proceed 2, .poll [⟨5, 0⟩], .nextChannel, .handleWakeup,
    .dispatched, .doPendingTasks, .nextTask, .queueInLoop 2 20, .queueInLoop 1 30, .proceed 1,
    .proceed 2, .taskDone, .tasksDone, .checkQuit]

theorem noLostWakeup_queuedWhileWoken :
    (Machine.run step newLoop queuedWhileWoken).map
        (fun e => (e.phase, e.pendingTasks, e.wakeupCount)) = some (.polling, [20, 30], 1) ∧
    Machine.Always step NoLostWakeup newLoop queuedWhileWoken :=
  ⟨by decide +kernel, noLostWakeup_always 1 ⟨5, 0⟩ ⟨6, 1⟩ queuedWhileWoken (by decide +kernel)⟩

/-- Another thread queues a task, and the task queues one itself. -/
def queuedByTask : List (Event Nat) :=
  [.loop, .checkQuit, .queueInLoop 2 10, .proceed 2, .poll [⟨5, 0⟩], .nextChannel, .handleWakeup,
    .dispatched, .doPendingTasks, .nextTask, .queueInLoop 1 20, .proceed 1, .taskDone, .tasksDone,
    .checkQuit]

/-- The loop is about to block with a task pending, the eventfd read and no call going on. -/
theorem queuedByTask_lostWakeup :
    (Machine.run step newLoop queuedByTask).map
        (fun e => (e.phase, e.pendingTasks, e.wakeupCount, e.calls)) =
      some (.polling, [20], 0, []) ∧
    ¬Machine.Always step NoLostWakeup newLoop queuedByTask := by
  have reached : (Machine.run step newLoop queuedByTask).map
      (fun e => (e.phase, e.pendingTasks, e.wakeupCount, e.calls)) =
        some (.polling, [20], 0, []) := by decide +kernel
  refine ⟨reached, fun always => ?_⟩
  obtain ⟨e, ran, seen⟩ := Option.map_eq_some_iff.mp reached
  simp only [Prod.mk.injEq] at seen
  obtain ⟨polling, pending, unwritten, calls⟩ := seen
  rcases Machine.Always.last _ e queuedByTask always ran polling (by simp [pending]) with h | h
  · exact h unwritten
  · simp [Awaited, calls] at h

end Cox.Reactor.EventLoop

import Mathlib.Algebra.Group.Nat.Defs
import Mathlib.Logic.Function.Basic
import Cox.Lib.Machine

/-!
# The event loop

`EventLoop` of reactor/event_loop.cc with the poller's table of channels
(reactor/poller/epoll_poller.cc) and the eventfd that wakes it.

The loop thread goes round `loop()`; channel handlers, tasks and the code outside `loop()`
are arbitrary code that makes calls on the loop. `queueInLoop` takes the mutex twice, once
to push the task and once to write the eventfd, so a call is two steps and the steps of
other threads fall between them. The loop is not destroyed, so `wakeup_fd_` stays valid.
-/
namespace Cox.Reactor

open Cox.Lib

abbrev ThreadId := Nat

/-- A channel is an object with a descriptor; a later object may have the same one. -/
structure Channel where
  fd : Nat
  id : Nat
  deriving DecidableEq

/-- Where the loop thread stands. -/
inductive LoopPhase (Task : Type) where
  | outside
  /-- At the head of `while (!quit_)`. -/
  | checking
  /-- About to block in `poll`. -/
  | polling
  /-- Between two active channels. -/
  | dispatching
  /-- In `handleEvents` of a channel. -/
  | handling (channel : Channel)
  /-- After the dispatch, about to swap the queue. -/
  | draining
  /-- In `doPendingTasks`, between two tasks. -/
  | betweenTasks
  | runningTask (task : Task)
  deriving DecidableEq

/-- What is left of a call after its first step. -/
inductive CallPhase where
  /-- `queueInLoop` has pushed its task. -/
  | queued
  /-- `quit` has set the flag, on another thread. -/
  | quitting
  deriving DecidableEq

structure EventLoop (Task : Type) where
  loopThreadId : ThreadId
  wakeupChannel : Channel
  /-- The channel that the kernel has for a descriptor. -/
  channels : Nat → Option Channel
  quit : Bool := false
  processingChannel : Option Channel := none
  /-- The active channels that are still to be dispatched. -/
  activeChannels : List Channel := []
  pendingTasks : List Task := []
  /-- What `doPendingTasks` has taken and not begun. -/
  tasks : List Task := []
  /-- The counter of the eventfd. -/
  wakeupCount : Nat := 0
  phase : LoopPhase Task := .outside
  calls : List (ThreadId × CallPhase) := []
  -- the history: all tasks ever queued, and those begun
  queued : List Task := []
  begun : List Task := []

namespace EventLoop

variable {Task : Type}

/-! ### The operations -/

def isInLoopThread (e : EventLoop Task) (t : ThreadId) : Bool := t == e.loopThreadId

/-- An eventfd holds at most this; a `write` beyond it fails with `EAGAIN`. -/
def maxWakeupCount : Nat := 2 ^ 64 - 2

def wakeup (e : EventLoop Task) : EventLoop Task :=
  if e.wakeupCount < maxWakeupCount then { e with wakeupCount := e.wakeupCount + 1 } else e

def handleWakeup (e : EventLoop Task) : EventLoop Task := { e with wakeupCount := 0 }

def enter (e : EventLoop Task) (t : ThreadId) (phase : CallPhase) : EventLoop Task :=
  { e with calls := (t, phase) :: e.calls }

def leave (e : EventLoop Task) (t : ThreadId) : EventLoop Task :=
  { e with calls := e.calls.filter (·.1 != t) }

/-- `queueInLoop`, up to the end of its first critical section. -/
def queueInLoop (e : EventLoop Task) (t : ThreadId) (task : Task) : EventLoop Task :=
  { e with
    pendingTasks := e.pendingTasks ++ [task]
    queued := e.queued ++ [task] }.enter t .queued

/-- On the loop thread the task runs in place: what it does are further calls of the code
that is running. -/
def runInLoop (e : EventLoop Task) (t : ThreadId) (task : Task) : EventLoop Task :=
  if e.isInLoopThread t then e else e.queueInLoop t task

/-- The test with which `queueInLoop` decides to write the eventfd. -/
def needsWakeup (e : EventLoop Task) (t : ThreadId) : Bool :=
  !e.isInLoopThread t || e.processingChannel.isSome

def setQuit (e : EventLoop Task) (t : ThreadId) : EventLoop Task :=
  if e.isInLoopThread t then { e with quit := true }
  else { e with quit := true }.enter t .quitting

def continueCall (e : EventLoop Task) (t : ThreadId) : CallPhase → EventLoop Task
  | .queued => (if e.needsWakeup t then e.wakeup else e).leave t
  | .quitting => e.wakeup.leave t

/-- `EPollPoller::updateChannel`: the descriptor is added or modified. -/
def updateChannel (e : EventLoop Task) (channel : Channel) : EventLoop Task :=
  { e with channels := Function.update e.channels channel.fd (some channel) }

/-- `removeChannel` with `EPollPoller::removeChannel`; a null pointer is only logged. -/
def removeChannel (e : EventLoop Task) : Option Channel → EventLoop Task
  | some channel =>
    { e with
      processingChannel :=
        if e.processingChannel = some channel then none else e.processingChannel
      channels := Function.update e.channels channel.fd none }
  | none => e

def goTo (e : EventLoop Task) (phase : LoopPhase Task) : EventLoop Task := { e with phase }

/-! ### Runs -/

inductive Event (Task : Type) where
  -- the loop thread goes round `loop()`
  | loop
  | checkQuit
  /-- `poll` returns, with the channels that the kernel reports. -/
  | poll (active : List Channel)
  | nextChannel
  /-- The wakeup channel is readable, and its handler reads the eventfd. -/
  | handleWakeup
  /-- The handlers of a channel return. -/
  | handled
  | dispatched
  | doPendingTasks
  | nextTask
  | taskDone
  | tasksDone
  -- calls on the loop thread
  | updateChannel (channel : Channel)
  | removeChannel (channel : Option Channel)
  -- calls on any thread
  | queueInLoop (t : ThreadId) (task : Task)
  | runInLoop (t : ThreadId) (task : Task)
  | quit (t : ThreadId)
  | proceed (t : ThreadId)

/-- The loop thread is in code that may make calls: outside `loop()`, in a handler or in a
task. -/
def Calls : LoopPhase Task → Prop
  | .outside | .handling _ | .runningTask _ => True
  | _ => False

instance (phase : LoopPhase Task) : Decidable (Calls phase) := by
  cases phase <;> unfold Calls <;> infer_instance

def Free (e : EventLoop Task) (t : ThreadId) : Prop := ∀ call ∈ e.calls, call.1 ≠ t

instance (e : EventLoop Task) (t : ThreadId) : Decidable (e.Free t) :=
  inferInstanceAs (Decidable (∀ call ∈ _, _))

def MayCall (e : EventLoop Task) (t : ThreadId) : Prop :=
  e.Free t ∧ (t = e.loopThreadId → Calls e.phase)

instance (e : EventLoop Task) (t : ThreadId) : Decidable (e.MayCall t) :=
  inferInstanceAs (Decidable (_ ∧ _))

/-- The way of the loop thread round `loop()`. -/
def go (e : EventLoop Task) : Event Task → Option (EventLoop Task)
  | .loop =>
    match e.phase with
    | .outside => some (e.goTo .checking)
    | _ => none
  | .checkQuit =>
    match e.phase with
    | .checking =>
      if e.quit then some (e.goTo .outside)
      else some ({ e with activeChannels := [] }.goTo .polling)
    | _ => none
  | .poll active =>
    match e.phase with
    | .polling =>
      if ∀ channel ∈ active, e.channels channel.fd = some channel then
        some ({ e with activeChannels := active }.goTo .dispatching)
      else none
    | _ => none
  | .nextChannel =>
    match e.phase, e.activeChannels with
    | .dispatching, channel :: rest =>
      some ({ e with activeChannels := rest, processingChannel := some channel }.goTo
        (.handling channel))
    | _, _ => none
  | .handleWakeup =>
    match e.phase with
    | .handling channel =>
      if channel = e.wakeupChannel then some (e.handleWakeup.goTo .dispatching) else none
    | _ => none
  | .handled =>
    match e.phase with
    | .handling _ => some (e.goTo .dispatching)
    | _ => none
  | .dispatched =>
    match e.phase, e.activeChannels with
    | .dispatching, [] => some ({ e with processingChannel := none }.goTo .draining)
    | _, _ => none
  | .doPendingTasks =>
    match e.phase with
    | .draining =>
      some ({ e with tasks := e.pendingTasks, pendingTasks := [] }.goTo .betweenTasks)
    | _ => none
  | .nextTask =>
    match e.phase, e.tasks with
    | .betweenTasks, task :: rest =>
      some ({ e with tasks := rest, begun := e.begun ++ [task] }.goTo (.runningTask task))
    | _, _ => none
  | .taskDone =>
    match e.phase with
    -- a task that throws is over as well
    | .runningTask _ => some (e.goTo .betweenTasks)
    | _ => none
  | .tasksDone =>
    match e.phase, e.tasks with
    | .betweenTasks, [] => some (e.goTo .checking)
    | _, _ => none
  | _ => none

def step (e : EventLoop Task) : Event Task → Option (EventLoop Task)
  | .updateChannel channel =>
    if e.MayCall e.loopThreadId then some (e.updateChannel channel) else none
  | .removeChannel channel =>
    if e.MayCall e.loopThreadId then some (e.removeChannel channel) else none
  | .queueInLoop t task => if e.MayCall t then some (e.queueInLoop t task) else none
  | .runInLoop t task => if e.MayCall t then some (e.runInLoop t task) else none
  | .quit t => if e.MayCall t then some (e.setQuit t) else none
  | .proceed t =>
    match e.calls.lookup t with
    | some phase => some (e.continueCall t phase)
    | none => none
  -- the loop thread goes on only when its own call has returned
  | event => if e.Free e.loopThreadId then e.go event else none

inductive Moves (e : EventLoop Task) : Event Task → EventLoop Task → Prop where
  | updateChannel (channel : Channel) : Moves e (.updateChannel channel) (e.updateChannel channel)
  | removeChannel (channel : Option Channel) :
      Moves e (.removeChannel channel) (e.removeChannel channel)
  | queueInLoop (t : ThreadId) (task : Task) : Moves e (.queueInLoop t task) (e.queueInLoop t task)
  | runInLoop (t : ThreadId) (task : Task) : Moves e (.runInLoop t task) (e.runInLoop t task)
  | quit (t : ThreadId) : Moves e (.quit t) (e.setQuit t)
  | proceed (t : ThreadId) (phase : CallPhase) : Moves e (.proceed t) (e.continueCall t phase)
  | goes {event : Event Task} {e' : EventLoop Task} (went : e.go event = some e') : Moves e event e'

theorem moves_step {e e' : EventLoop Task} {event : Event Task} (stepped : e.step event = some e') :
    Moves e event e' := by
  cases event with
  | updateChannel | removeChannel | queueInLoop | runInLoop | quit | proceed =>
    simp only [step] at stepped
    split at stepped <;> cases stepped
    constructor
  | _ =>
    simp only [step] at stepped
    split at stepped
    · exact .goes stepped
    · cases stepped

/-- A new loop, with the channels of the eventfd and of the timer queue. -/
def initial (loopThreadId : ThreadId) (wakeupChannel timerChannel : Channel) : EventLoop Task :=
  ({ loopThreadId, wakeupChannel, channels := fun _ => none : EventLoop Task }.updateChannel
    wakeupChannel).updateChannel timerChannel

end EventLoop

end Cox.Reactor

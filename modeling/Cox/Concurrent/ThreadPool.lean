import Mathlib.Logic.Function.Basic
import Cox.Lib.CondVar
import Cox.Lib.Machine

/-!
# The thread pool

`ThreadPool` of concurrent/thread_pool.h, once it has been started: its workers, any number
of threads that call `run` and `tryRun`, and the call of `stop` that ends it. A critical
section is one step, with the notifications made in it; the looks at `threads_`, which are
taken without the lock, are steps of their own. A thread that waits goes on when it has been
notified or wakes by itself.

Tasks are numbered in the order of the calls that bring them. A task that calls into the
pool does so as a thread of its own.
-/
namespace Cox.Concurrent

open Cox.Lib

namespace ThreadPool

/-- A worker thread, by what it does next. -/
inductive Worker where
  /-- The lock, and a look at the queue. -/
  | enter
  /-- In `wait`. -/
  | waiting
  /-- The rest of its batch. -/
  | busy (batch : List Nat)
  | exited
  deriving DecidableEq

/-- A call of `run` or `tryRun` with its task. -/
inductive Call where
  /-- Before the lock. -/
  | run (task : Nat)
  /-- In `wait`. -/
  | waiting (task : Nat)
  | tryRun (task : Nat)
  deriving DecidableEq

/-- The call of `stop` that finds the pool running, by what it does next. -/
inductive Stopper where
  /-- There is no such call yet. -/
  | none
  | notifyWorkers
  | notifyProducers
  | join
  | clear
  | returned
  deriving DecidableEq

/-- A batch, with the number of tasks that were queued. -/
structure Take where
  queued : Nat
  taken : Nat
  deriving DecidableEq

end ThreadPool

structure ThreadPool where
  maxQueueSize : Nat
  takeBatchSize : Nat
  /-- The size of `threads_`. -/
  threads : Nat
  running : Bool := true
  queue : List Nat := []
  notEmpty : CondVar Nat := {}
  notFull : CondVar Nat := {}
  workers : List ThreadPool.Worker
  /-- The calls of `run` and `tryRun`, by their threads. -/
  producers : Nat → Option ThreadPool.Call := fun _ => none
  stopper : ThreadPool.Stopper := .none
  -- what has happened
  calls : Nat := 0
  accepted : List Nat := []
  /-- The tasks for which `tryRun` returned false or that `run` dropped. -/
  refused : List Nat := []
  /-- The tasks that have left the queue, in this order. -/
  taken : List Nat := []
  takes : List ThreadPool.Take := []
  executed : List Nat := []

namespace ThreadPool

def start (maxQueueSize takeBatchSize numThreads : Nat) : ThreadPool where
  maxQueueSize := maxQueueSize
  takeBatchSize := takeBatchSize
  threads := numThreads
  workers := List.replicate numThreads .enter

def isFull (p : ThreadPool) : Prop := p.maxQueueSize > 0 ∧ p.queue.length ≥ p.maxQueueSize

instance (p : ThreadPool) : Decidable p.isFull := inferInstanceAs (Decidable (_ ∧ _))

/-! ### The producers -/

def setProducer (p : ThreadPool) (thread : Nat) (call : Option Call) : ThreadPool :=
  { p with producers := Function.update p.producers thread call }

/-- The look at `threads_`: without workers the task is run in place. -/
def call (p : ThreadPool) (thread : Nat) (call : Nat → Call) : ThreadPool :=
  let task := p.calls
  let p := { p with calls := p.calls + 1 }
  if p.threads = 0 then
    { p with
      accepted := p.accepted ++ [task]
      taken := p.taken ++ [task]
      executed := p.executed ++ [task] }
  else p.setProducer thread (some (call task))

def refuse (p : ThreadPool) (thread task : Nat) : ThreadPool :=
  { p.setProducer thread none with refused := p.refused ++ [task] }

/-- The task is queued, and `notify_one` wakes some workers. -/
def push (p : ThreadPool) (thread task : Nat) (woken : List Nat) : Option ThreadPool :=
  (p.notEmpty.notifyOne woken).map fun notEmpty =>
    { p.setProducer thread none with
      queue := p.queue ++ [task]
      accepted := p.accepted ++ [task]
      notEmpty := notEmpty }

def run (p : ThreadPool) (thread task : Nat) (woken : List Nat) : Option ThreadPool :=
  -- the condition of the wait, looked at again after each wake
  if p.isFull ∧ p.running then
    some { p.setProducer thread (some (.waiting task)) with notFull := p.notFull.wait thread }
  else if p.running = false then some (p.refuse thread task)
  else p.push thread task woken

def tryRun (p : ThreadPool) (thread task : Nat) (woken : List Nat) : Option ThreadPool :=
  if p.running = false then some (p.refuse thread task)
  else if p.isFull then some (p.refuse thread task)
  else p.push thread task woken

def producerStep (p : ThreadPool) (thread : Nat) (woken : List Nat) : Option ThreadPool :=
  match p.producers thread with
  | none => none
  | some (.run task) => p.run thread task woken
  | some (.waiting task) => if thread ∈ p.notFull.waiting then none else p.run thread task woken
  | some (.tryRun task) => p.tryRun thread task woken

/-! ### The workers -/

def setWorker (p : ThreadPool) (w : Nat) (worker : Worker) : ThreadPool :=
  { p with workers := p.workers.set w worker }

/-- A fair share of the queue, up to the batch size. -/
def batchSize (p : ThreadPool) : Nat :=
  let workers := if p.threads = 0 then 1 else p.threads
  let fairShare := (p.queue.length + workers - 1) / workers
  let cap := if p.takeBatchSize > 0 then p.takeBatchSize else 1
  min (min cap fairShare) p.queue.length

def takeBatch (p : ThreadPool) (w : Nat) : ThreadPool :=
  if p.queue.isEmpty ∧ p.running then
    { p.setWorker w .waiting with notEmpty := p.notEmpty.wait w }
  else if p.queue.isEmpty then p.setWorker w .exited
  else
    { p.setWorker w (.busy (p.queue.take p.batchSize)) with
      queue := p.queue.drop p.batchSize
      -- the queue was full before the batch was taken
      notFull := if p.isFull then p.notFull.notifyAll else p.notFull
      taken := p.taken ++ p.queue.take p.batchSize
      takes := p.takes ++ [⟨p.queue.length, p.batchSize⟩] }

def workerStep (p : ThreadPool) (w : Nat) : Option ThreadPool :=
  match p.workers[w]? with
  | none => none
  | some .enter => some (p.takeBatch w)
  | some .waiting => if w ∈ p.notEmpty.waiting then none else some (p.takeBatch w)
  | some (.busy (task :: rest)) =>
    some { p.setWorker w (.busy rest) with executed := p.executed ++ [task] }
  | some (.busy []) => some (p.setWorker w .enter)
  | some .exited => none

/-! ### Stop -/

def stop (p : ThreadPool) : ThreadPool :=
  if p.running = false then p else { p with running := false, stopper := .notifyWorkers }

def stopperStep (p : ThreadPool) : Option ThreadPool :=
  match p.stopper with
  | .none => none
  | .notifyWorkers =>
    some { p with notEmpty := p.notEmpty.notifyAll, stopper := .notifyProducers }
  | .notifyProducers => some { p with notFull := p.notFull.notifyAll, stopper := .join }
  | .join =>
    if ∀ worker ∈ p.workers, worker = .exited then some { p with stopper := .clear } else none
  | .clear => some { p with threads := 0, stopper := .returned }
  | .returned => none

/-! ### The machine -/

inductive Event where
  | run (thread : Nat)
  | tryRun (thread : Nat)
  /-- The next action of its call, and the workers that are woken if it notifies one. -/
  | producer (thread : Nat) (woken : List Nat)
  | worker (w : Nat)
  /-- A thread that waits wakes by itself. -/
  | wakeWorker (w : Nat)
  | wakeProducer (thread : Nat)
  | stop
  | stopper
  deriving DecidableEq

def step (p : ThreadPool) : Event → Option ThreadPool
  | .run thread => if p.producers thread = none then some (p.call thread .run) else none
  | .tryRun thread => if p.producers thread = none then some (p.call thread .tryRun) else none
  | .producer thread woken => p.producerStep thread woken
  | .worker w => p.workerStep w
  | .wakeWorker w => some { p with notEmpty := p.notEmpty.wake [w] }
  | .wakeProducer thread => some { p with notFull := p.notFull.wake [thread] }
  | .stop => some p.stop
  | .stopper => p.stopperStep

/-! ### What a call can do -/

def Call.task : Call → Nat
  | .run task | .waiting task | .tryRun task => task

/-- A call waits for room, is refused, or queues its task while there is room. -/
inductive Produces (p : ThreadPool) (thread : Nat) (woken : List Nat) (p' : ThreadPool) : Prop where
  | waits (call : Call) (calls : p.producers thread = some call) (full : p.isFull)
      (waits : p' = { p.setProducer thread (some (.waiting call.task)) with
        notFull := p.notFull.wait thread })
  | refuses (call : Call) (calls : p.producers thread = some call)
      (refused : p' = p.refuse thread call.task)
  | pushes (call : Call) (calls : p.producers thread = some call) (running : p.running = true)
      (room : ¬p.isFull) (pushed : p.push thread call.task woken = some p')

section Produces

variable {p p' : ThreadPool}

section Call

variable (thread : Nat) (woken : List Nat) (call : Call) (calls : p.producers thread = some call)
include calls

theorem produces_run (ran : p.run thread call.task woken = some p') :
    Produces p thread woken p' := by
  unfold run at ran
  split at ran
  next full => exact .waits call calls full.1 (Option.some.inj ran).symm
  next free =>
    split at ran
    next => exact .refuses call calls (Option.some.inj ran).symm
    next running =>
      have running : p.running = true := eq_true_of_ne_false running
      exact .pushes call calls running (fun full => free ⟨full, running⟩) ran

theorem produces_tryRun (ran : p.tryRun thread call.task woken = some p') :
    Produces p thread woken p' := by
  unfold tryRun at ran
  split at ran
  next => exact .refuses call calls (Option.some.inj ran).symm
  next running =>
    split at ran
    next => exact .refuses call calls (Option.some.inj ran).symm
    next room => exact .pushes call calls (eq_true_of_ne_false running) room ran

end Call

theorem produces_producerStep (thread : Nat) (woken : List Nat)
    (stepped : p.producerStep thread woken = some p') : Produces p thread woken p' := by
  unfold producerStep at stepped
  split at stepped
  next => cases stepped
  next task calls => exact produces_run thread woken (.run task) calls stepped
  next task calls =>
    split at stepped
    · cases stepped
    · exact produces_run thread woken (.waiting task) calls stepped
  next task calls => exact produces_tryRun thread woken (.tryRun task) calls stepped

theorem stopper_of_stopperStep (stepped : p.stopperStep = some p') : p.stopper ≠ .none := by
  intro none
  simp [stopperStep, none] at stepped

end Produces

/-! ### What the others leave as it is -/

/-- The calls are where they were, and none has been accepted or refused. -/
structure Frame (p p' : ThreadPool) : Prop where
  calls : p'.calls = p.calls
  producers : p'.producers = p.producers
  accepted : p'.accepted = p.accepted
  refused : p'.refused = p.refused
  running : p'.running = p.running

section Frame

variable {p p' : ThreadPool}

theorem frame_takeBatch (p : ThreadPool) (w : Nat) : Frame p (p.takeBatch w) := by
  unfold takeBatch
  split
  · exact ⟨rfl, rfl, rfl, rfl, rfl⟩
  · split <;> exact ⟨rfl, rfl, rfl, rfl, rfl⟩

theorem frame_workerStep (w : Nat) (stepped : p.workerStep w = some p') : Frame p p' := by
  unfold workerStep at stepped
  split at stepped
  next => cases stepped
  next =>
    cases stepped
    exact frame_takeBatch p w
  next =>
    split at stepped
    · cases stepped
    · cases stepped
      exact frame_takeBatch p w
  next =>
    cases stepped
    exact ⟨rfl, rfl, rfl, rfl, rfl⟩
  next =>
    cases stepped
    exact ⟨rfl, rfl, rfl, rfl, rfl⟩
  next => cases stepped

theorem frame_stopperStep (stepped : p.stopperStep = some p') : Frame p p' := by
  unfold stopperStep at stepped
  split at stepped
  next => cases stepped
  next =>
    cases stepped
    exact ⟨rfl, rfl, rfl, rfl, rfl⟩
  next =>
    cases stepped
    exact ⟨rfl, rfl, rfl, rfl, rfl⟩
  next =>
    split at stepped
    · cases stepped
      exact ⟨rfl, rfl, rfl, rfl, rfl⟩
    · cases stepped
  next =>
    cases stepped
    exact ⟨rfl, rfl, rfl, rfl, rfl⟩
  next => cases stepped

end Frame

end ThreadPool

end Cox.Concurrent

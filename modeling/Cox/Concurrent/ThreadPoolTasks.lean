import Cox.Lib.Conveyor
import Cox.Lib.Tickets
import Cox.Concurrent.ThreadPool

/-!
# What becomes of the tasks

A task that is accepted is queued, then in the batch of a worker, then executed, and each of
these once; a task that is refused is never executed. The workers leave only when the queue
is empty and the pool is stopping, so that nothing is left when `stop` returns.

That is `stop` where it finds the pool running. Another call made meanwhile finds it
stopping and returns at once, whatever is left to do.
-/
namespace Cox.Concurrent.ThreadPool

open Cox.Lib List Function

/-! ### The tasks -/

def Worker.batch : Worker → List Nat
  | .busy batch => batch
  | .enter | .waiting | .exited => []

def conveyor (p : ThreadPool) : Conveyor Nat where
  accepted := p.accepted
  queue := p.queue
  taken := p.taken
  hands := p.workers.map Worker.batch
  done := p.executed

def tickets (p : ThreadPool) : Tickets Nat where
  issued := p.calls
  held := fun thread => (p.producers thread).map Call.task
  accepted := p.accepted
  refused := p.refused

section Tickets

variable {p p' : ThreadPool}

theorem task_update (producers : Nat → Option Call) (thread : Nat) (call : Option Call)
    (other : Nat) : (update producers thread call other).map Call.task =
      if other = thread then call.map Call.task else (producers other).map Call.task := by
  rw [update_apply]
  split <;> rfl

theorem tickets_call (p : ThreadPool) (thread : Nat) (call : Nat → Call)
    (brings : ∀ task, (call task).task = task) : p.tickets.Step (p.call thread call).tickets := by
  unfold ThreadPool.call
  dsimp only
  split
  next => exact .direct
  next =>
    refine .issue thread _ fun other => (task_update ..).trans ?_
    rw [Option.map_some, brings]
    rfl

theorem tickets_refuse (p : ThreadPool) (thread task : Nat)
    (holds : p.tickets.held thread = some task) : p.tickets.Step (p.refuse thread task).tickets :=
  .refuse thread task holds _ fun other => task_update p.producers thread none other

theorem tickets_push (thread task : Nat) (woken : List Nat)
    (holds : p.tickets.held thread = some task) (pushed : p.push thread task woken = some p') :
    p.tickets.Step p'.tickets := by
  obtain ⟨notEmpty, _, rfl⟩ := Option.map_eq_some_iff.mp pushed
  exact .accept thread task holds _ fun other => task_update p.producers thread none other

theorem tickets_producerStep (thread : Nat) (woken : List Nat)
    (stepped : p.producerStep thread woken = some p') : p.tickets.Step p'.tickets := by
  have holds (call : Call) (calls : p.producers thread = some call) :
      p.tickets.held thread = some call.task := by
    simp [tickets, calls]
  cases produces_producerStep thread woken stepped with
  | waits call calls full waits =>
    -- the call keeps its task
    have same : (fun other => (update p.producers thread
        (some (.waiting call.task)) other).map Call.task) = p.tickets.held := by
      funext other
      rw [task_update]
      split
      next here => rw [here, holds call calls]; rfl
      next => rfl
    have stays : p.tickets.Step { p.tickets with held := fun other =>
        (update p.producers thread (some (.waiting call.task)) other).map Call.task } := by
      rw [same]
      exact .rest
    rw [waits]
    exact stays
  | refuses call calls refused =>
    rw [refused]
    exact tickets_refuse p thread call.task (holds call calls)
  | pushes call calls running room pushed =>
    exact tickets_push thread call.task woken (holds call calls) pushed

theorem Frame.tickets (frame : Frame p p') : p'.tickets = p.tickets := by
  unfold ThreadPool.tickets
  rw [frame.calls, frame.producers, frame.accepted, frame.refused]

end Tickets

/-! ### The queue and the workers -/

/-- A share of the queue: at least one task, and no more than the batch size or a fair share. A
batch size of zero counts as one. -/
def Take.Fair (take : Take) (batchSize workers : Nat) : Prop :=
  1 ≤ take.taken ∧
    take.taken ≤
      min (if batchSize = 0 then 1 else batchSize) ((take.queued + workers - 1) / workers)

structure Sound (p : ThreadPool) : Prop where
  lossless : p.conveyor.Lossless
  bound : p.maxQueueSize > 0 → p.queue.length ≤ p.maxQueueSize
  fair : ∀ take ∈ p.takes, take.Fair p.takeBatchSize p.workers.length
  stopped : p.stopper ≠ .none → p.running = false
  exited : .exited ∈ p.workers → p.running = false ∧ p.queue = []
  joined : p.stopper = .clear ∨ p.stopper = .returned → ∀ worker ∈ p.workers, worker = .exited
  threads : p.threads = p.workers.length ∨ p.stopper = .returned
  somebody : p.workers ≠ []

section Flow

variable {p p' : ThreadPool}

theorem Sound.start (maxQueueSize takeBatchSize n : Nat) :
    Sound (start maxQueueSize takeBatchSize (n + 1)) where
  lossless := by
    refine ⟨rfl, ?_⟩
    have idle : ∀ m, ((List.replicate m Worker.enter).map Worker.batch).flatten = [] := by
      intro m
      simp [Worker.batch]
    show ([] : List Nat).Perm
      ([] ++ ((List.replicate (n + 1) Worker.enter).map Worker.batch).flatten)
    rw [idle]
    exact .refl _
  bound := fun _ => Nat.zero_le _
  fair := nofun
  stopped := fun other => absurd rfl other
  exited := fun gone => nomatch (mem_replicate.mp gone).2
  joined := fun ended => ended.elim nofun nofun
  threads := .inl length_replicate.symm
  somebody := by simp [ThreadPool.start]

section Sound

variable (sound : Sound p)
include sound

theorem Sound.queue_empty (ended : p.stopper = .clear ∨ p.stopper = .returned) : p.queue = [] := by
  obtain ⟨worker, member⟩ := exists_mem_of_ne_nil _ sound.somebody
  have gone := sound.joined ended worker member
  exact (sound.exited (gone ▸ member)).2

theorem Sound.call (thread : Nat) (call : Nat → Call) : Sound (p.call thread call) := by
  unfold ThreadPool.call
  dsimp only
  split
  next none =>
    -- the workers are gone
    have ended : p.stopper = .returned := by
      rcases sound.threads with all | ended
      · exact absurd (length_eq_zero_iff.mp (all ▸ none)) sound.somebody
      · exact ended
    have queue := sound.queue_empty (.inr ended)
    exact { sound with lossless := sound.lossless.step (.pass p.calls queue) }
  next => exact { sound with }

theorem Sound.push (thread task : Nat) (woken : List Nat) (running : p.running = true)
    (room : ¬p.isFull) (pushed : p.push thread task woken = some p') : Sound p' := by
  obtain ⟨notEmpty, _, rfl⟩ := Option.map_eq_some_iff.mp pushed
  refine { sound with lossless := sound.lossless.step (.enter task), bound := fun limited => ?_
                      exited := fun gone => ?_ }
  · have less : ¬p.queue.length ≥ p.maxQueueSize := fun full => room ⟨limited, full⟩
    show (p.queue ++ [task]).length ≤ p.maxQueueSize
    rw [length_append, length_singleton]
    omega
  · -- a worker has left only after the stop
    have stopped := (sound.exited gone).1
    rw [running] at stopped
    cases stopped

theorem Sound.producerStep (thread : Nat) (woken : List Nat)
    (stepped : p.producerStep thread woken = some p') : Sound p' := by
  cases produces_producerStep thread woken stepped with
  | waits call calls full waits =>
    rw [waits]
    exact { sound with }
  | refuses call calls refused =>
    rw [refused]
    exact { sound with }
  | pushes call calls running room pushed =>
    exact sound.push thread call.task woken running room pushed

theorem Sound.works (w : Nat) (was worker : Worker) (here : p.workers[w]? = some was)
    (alive : was ≠ .exited) (workers : p'.workers = p.workers.set w worker)
    (lossless : p'.conveyor.Lossless)
    (bound : p'.maxQueueSize > 0 → p'.queue.length ≤ p'.maxQueueSize)
    (fair : ∀ take ∈ p'.takes, take.Fair p'.takeBatchSize p.workers.length)
    (stopper : p'.stopper = p.stopper) (threads : p'.threads = p.threads)
    (running : p'.running = p.running) (fewer : p.queue = [] → p'.queue = [])
    (leaves : worker = .exited → p.running = false ∧ p'.queue = []) :
    Sound p' where
  lossless := lossless
  bound := bound
  fair := by rwa [workers, length_set]
  stopped := by
    rw [stopper, running]
    exact sound.stopped
  exited := by
    intro gone
    rw [workers] at gone
    rw [running]
    rcases mem_or_eq_of_mem_set gone with before | now
    · exact ⟨(sound.exited before).1, fewer (sound.exited before).2⟩
    · exact leaves now.symm
  joined := by
    intro ended
    rw [stopper] at ended
    exact absurd (sound.joined ended was (mem_of_getElem? here)) alive
  threads := by
    rw [threads, stopper, workers, length_set]
    exact sound.threads
  somebody := by
    rw [workers, Ne, set_eq_nil_iff]
    exact sound.somebody

theorem batchSize_fair (w : Nat) (was : Worker) (here : p.workers[w]? = some was)
    (alive : was ≠ .exited) (queued : p.queue ≠ []) :
    Take.Fair ⟨p.queue.length, p.batchSize⟩ p.takeBatchSize p.workers.length := by
  have positive : 0 < p.queue.length := length_pos_of_ne_nil queued
  have crew : 0 < p.workers.length := length_pos_of_ne_nil sound.somebody
  -- `threads_` is cleared only after the workers have left
  have all : p.threads = p.workers.length := by
    rcases sound.threads with all | ended
    · exact all
    · exact absurd (sound.joined (.inr ended) was (mem_of_getElem? here)) alive
  have share : 1 ≤ (p.queue.length + p.workers.length - 1) / p.workers.length :=
    Nat.div_pos (by omega) crew
  unfold Take.Fair batchSize
  rw [all, if_neg (Nat.ne_of_gt crew)]
  dsimp only
  split <;> split <;> omega

theorem Sound.takeBatch (w : Nat) (was : Worker) (here : p.workers[w]? = some was)
    (alive : was ≠ .exited) (free : was.batch = []) : Sound (p.takeBatch w) := by
  have hand : p.conveyor.hands[w]? = some [] := by
    simp [conveyor, here, free]
  -- a worker that takes nothing
  have idle (worker : Worker) (none : worker.batch = []) :
      (p.setWorker w worker).conveyor.Lossless := by
    have step := sound.lossless.step (.take w 0 hand)
    simpa [conveyor, setWorker, none] using step
  unfold ThreadPool.takeBatch
  split
  next =>
    exact sound.works w was .waiting here alive rfl (idle .waiting rfl) sound.bound sound.fair rfl rfl
      rfl id nofun
  next busy =>
    split
    next empty =>
      have stopping : p.running = false := by simpa [empty] using busy
      exact sound.works w was .exited here alive rfl (idle .exited rfl) sound.bound sound.fair rfl
        rfl rfl id fun _ => ⟨stopping, isEmpty_iff.mp empty⟩
    next queued =>
      have queued : p.queue ≠ [] := fun empty => queued (isEmpty_iff.mpr empty)
      refine sound.works w was _ here alive rfl ?_ (fun limited => ?_) ?_ rfl rfl rfl
        (fun empty => absurd empty queued) nofun
      · have step := sound.lossless.step (.take w p.batchSize hand)
        simpa [conveyor, setWorker, Worker.batch] using step
      · have bound := sound.bound limited
        show (p.queue.drop p.batchSize).length ≤ p.maxQueueSize
        rw [length_drop]
        omega
      · have new := batchSize_fair sound w was here alive queued
        exact forall_mem_append.mpr ⟨sound.fair, forall_mem_singleton.mpr new⟩

theorem Sound.workerStep (w : Nat) (stepped : p.workerStep w = some p') : Sound p' := by
  unfold ThreadPool.workerStep at stepped
  split at stepped
  next => cases stepped
  next here =>
    cases stepped
    exact sound.takeBatch w .enter here nofun rfl
  next here =>
    split at stepped
    · cases stepped
    · cases stepped
      exact sound.takeBatch w .waiting here nofun rfl
  next task rest here =>
    cases stepped
    -- the task is executed
    refine sound.works w _ (.busy rest) here nofun rfl ?_ sound.bound sound.fair rfl rfl rfl id nofun
    have step := sound.lossless.step (.finish w task rest (by simp [conveyor, here, Worker.batch]))
    simpa [conveyor, setWorker, Worker.batch] using step
  next here =>
    cases stepped
    refine sound.works w _ .enter here nofun rfl ?_ sound.bound sound.fair rfl rfl rfl id nofun
    have step := sound.lossless.step (.take w 0 (by simp [conveyor, here, Worker.batch]))
    simpa [conveyor, setWorker, Worker.batch] using step
  next => cases stepped

theorem Sound.stop : Sound p.stop := by
  unfold ThreadPool.stop
  split
  next => exact sound
  next running =>
    refine { sound with
      stopped := fun _ => rfl
      exited := fun gone => absurd (sound.exited gone).1 running
      joined := fun ended => ended.elim nofun nofun
      threads := ?_ }
    -- `stop` cannot have returned before
    rcases sound.threads with all | ended
    · exact .inl all
    · exact absurd (sound.stopped (by rw [ended]; nofun)) running

theorem Sound.stopperStep (stepped : p.stopperStep = some p') : Sound p' := by
  have stopped : p.running = false := sound.stopped (stopper_of_stopperStep stepped)
  have all (other : p.stopper ≠ .returned) : p.threads = p.workers.length :=
    sound.threads.resolve_right other
  unfold ThreadPool.stopperStep at stepped
  split at stepped
  next => cases stepped
  next phase =>
    cases stepped
    exact { sound with
      stopped := fun _ => stopped
      joined := fun ended => ended.elim nofun nofun
      threads := .inl (all (by rw [phase]; nofun)) }
  next phase =>
    cases stepped
    exact { sound with
      stopped := fun _ => stopped
      joined := fun ended => ended.elim nofun nofun
      threads := .inl (all (by rw [phase]; nofun)) }
  next phase =>
    split at stepped
    next gone =>
      cases stepped
      exact { sound with
        stopped := fun _ => stopped
        joined := fun _ => gone
        threads := .inl (all (by rw [phase]; nofun)) }
    next => cases stepped
  next phase =>
    cases stepped
    exact { sound with
      stopped := fun _ => stopped
      joined := fun _ => sound.joined (.inl phase)
      threads := .inr rfl }
  next => cases stepped

theorem Sound.step (event : Event) (stepped : p.step event = some p') : Sound p' := by
  cases event with
  | run thread | tryRun thread =>
    simp only [ThreadPool.step] at stepped
    split at stepped
    · cases stepped
      exact sound.call thread _
    · cases stepped
  | producer thread woken => exact sound.producerStep thread woken stepped
  | worker w => exact sound.workerStep w stepped
  | wakeWorker w | wakeProducer w =>
    cases stepped
    exact { sound with }
  | stop =>
    cases stepped
    exact sound.stop
  | stopper => exact sound.stopperStep stepped

end Sound

theorem tickets_step (unique : p.tickets.Unique) (event : Event)
    (stepped : p.step event = some p') : p'.tickets.Unique := by
  cases event with
  | run thread | tryRun thread =>
    simp only [step] at stepped
    split at stepped
    · cases stepped
      exact unique.step (tickets_call p thread _ fun _ => rfl)
    · cases stepped
  | producer thread woken => exact unique.step (tickets_producerStep thread woken stepped)
  | worker w =>
    rw [(frame_workerStep w stepped).tickets]
    exact unique
  | wakeWorker w | wakeProducer w =>
    cases stepped
    exact unique
  | stop =>
    cases stepped
    unfold stop
    split <;> exact unique
  | stopper =>
    rw [(frame_stopperStep stepped).tickets]
    exact unique

end Flow

/-! ### Every task is executed once -/

/-- What holds at every point: the accepted tasks, none of which came twice, are executed, in
the batch of a worker, or queued; they leave the queue in the order in which they came; a
worker takes a fair share; the queue keeps to its limit; no task that was refused is
executed; and after `stop` every accepted task has been executed. -/
structure ExactlyOnce (p : ThreadPool) : Prop where
  once : p.accepted.Nodup
  partition : p.accepted.Perm (p.executed ++ ((p.workers.map Worker.batch).flatten ++ p.queue))
  fifo : p.accepted = p.taken ++ p.queue
  fair : ∀ take ∈ p.takes, take.Fair p.takeBatchSize p.workers.length
  bound : p.maxQueueSize ≠ 0 → p.queue.length ≤ p.maxQueueSize
  refused : ∀ task ∈ p.refused, task ∉ p.executed
  stopped : p.stopper = .returned → p.queue = [] ∧ p.executed.Perm p.accepted

theorem Sound.exactlyOnce {p : ThreadPool} (sound : Sound p) (unique : p.tickets.Unique) :
    ExactlyOnce p := by
  have partition : p.accepted.Perm
      (p.executed ++ ((p.workers.map Worker.batch).flatten ++ p.queue)) := by
    rw [← append_assoc]
    have fifo : p.accepted = p.taken ++ p.queue := sound.lossless.fifo
    rw [fifo]
    exact sound.lossless.partition.append_right _
  refine ⟨unique.once, partition, sound.lossless.fifo, sound.fair,
    fun limited => sound.bound (Nat.pos_of_ne_zero limited), fun task refused executed => ?_,
    fun ended => ?_⟩
  · exact unique.apart task refused (partition.mem_iff.mpr (mem_append_left _ executed))
  · have queue := sound.queue_empty (.inr ended)
    -- the workers have left with nothing in hand
    have hands : (p.workers.map Worker.batch).flatten = [] := by
      rw [flatten_eq_nil_iff]
      intro batch member
      obtain ⟨worker, here, rfl⟩ := mem_map.mp member
      rw [sound.joined (.inr ended) worker here]
      rfl
    rw [queue, hands, append_nil, append_nil] at partition
    exact ⟨queue, partition.symm⟩

/-- For every number of workers from one on, every limit and every batch size. -/
theorem exactlyOnce_always (maxQueueSize takeBatchSize n : Nat) (events : List Event) :
    Machine.Always step ExactlyOnce (start maxQueueSize takeBatchSize (n + 1)) events := by
  refine Machine.Always.mono (P := fun p => Sound p ∧ p.tickets.Unique)
    (fun p inv => inv.1.exactlyOnce inv.2) _ events ?_
  refine Machine.always_of_keeps (fun p event p' inv stepped => ?_) _ events
    ⟨Sound.start maxQueueSize takeBatchSize n, nofun, nofun, List.nodup_nil, nofun, nofun, nofun⟩
  exact ⟨inv.1.step event stepped, tickets_step inv.2 event stepped⟩

/-- A second call of `stop`, made before the first has joined the workers, returns at once, with
a task still queued; and with a batch size of zero a worker takes one task. -/
theorem secondStop_leavesTask :
    let state := fun (p : ThreadPool) => (p.stopper, p.queue, p.executed)
    let events : List Event := [.run 7, .producer 7 [], .stop]
    (Machine.run step (start 0 32 1) events).map state = some (.notifyWorkers, [0], []) ∧
      (Machine.run step (start 0 32 1) (events ++ [.stop])).map state =
        some (.notifyWorkers, [0], []) ∧
      (Machine.run step (start 0 0 1) [.run 7, .producer 7 [], .worker 0]).map takes =
        some [⟨1, 1⟩] := by
  decide

end Cox.Concurrent.ThreadPool

import Cox.Concurrent.ThreadPool

/-!
# Nobody waits for nothing

A producer waits only while the queue is full, and the worker that makes room in a full queue
wakes all of them. A worker waits only while the queue is empty, and whoever queues a task
wakes one worker at least; that worker looks at the queue again before it waits. Nobody waits
on what `stop` has notified.
-/
namespace Cox.Concurrent.ThreadPool

open Cox.Lib List

def Ready (p : ThreadPool) (w : Nat) : Prop :=
  (∃ worker, p.workers[w]? = some worker ∧ worker ≠ .exited) ∧ w ∉ p.notEmpty.waiting

/-- While the pool is running, a producer that waits and has not been notified waits for a full
queue, and for tasks that are queued there is a worker that does not wait. -/
def Awake (p : ThreadPool) : Prop :=
  p.running = true →
    (p.notFull.waiting ≠ [] → p.isFull) ∧ (p.queue ≠ [] → ∃ w, p.Ready w)

structure Attentive (p : ThreadPool) : Prop where
  awake : Awake p
  /-- Those who wait on `not_empty_` are workers in their wait. -/
  waiting : ∀ w ∈ p.notEmpty.waiting, p.workers[w]? = some .waiting
  present : p.running = true → .exited ∉ p.workers
  somebody : p.workers ≠ []
  stopped : p.stopper ≠ .none → p.running = false

section Steps

variable {p p' : ThreadPool}

theorem Attentive.start (maxQueueSize takeBatchSize n : Nat) :
    Attentive (start maxQueueSize takeBatchSize (n + 1)) where
  awake := fun _ => ⟨fun waits => absurd rfl waits, fun queued => absurd rfl queued⟩
  waiting := nofun
  present := fun _ gone => nomatch (mem_replicate.mp gone).2
  somebody := by simp [ThreadPool.start]
  stopped := fun other => absurd rfl other

theorem Attentive.push (attentive : Attentive p) (thread task : Nat) (woken : List Nat)
    (running : p.running = true) (room : ¬p.isFull)
    (pushed : p.push thread task woken = some p') : Attentive p' := by
  obtain ⟨notEmpty, notified, rfl⟩ := Option.map_eq_some_iff.mp pushed
  obtain ⟨fewer, someone⟩ := CondVar.notifyOne_spec notified
  -- a producer waits only for a full queue, and there is room
  have nobody : p.notFull.waiting = [] := by
    by_contra waits
    exact room ((attentive.awake running).1 waits)
  refine { attentive with awake := fun _ => ⟨fun waits => absurd nobody waits, fun _ => ?_⟩
                          waiting := fun w waits => attentive.waiting w (fewer w waits) }
  rcases someone with none | ⟨w, waits, left⟩
  · -- nobody waited, so any worker will do
    obtain ⟨worker, member⟩ := exists_mem_of_ne_nil _ attentive.somebody
    obtain ⟨w, here⟩ := mem_iff_getElem?.mp member
    have stays : worker ≠ .exited := fun gone => attentive.present running (gone ▸ member)
    refine ⟨w, ⟨worker, here, stays⟩, fun waits => ?_⟩
    have before := fewer w waits
    rw [none] at before
    cases before
  · exact ⟨w, ⟨.waiting, attentive.waiting w waits, nofun⟩, left⟩

theorem Attentive.producerStep (attentive : Attentive p) (thread : Nat) (woken : List Nat)
    (stepped : p.producerStep thread woken = some p') : Attentive p' := by
  cases produces_producerStep thread woken stepped with
  | waits call calls full waits =>
    rw [waits]
    exact { attentive with awake := fun running => ⟨fun _ => full, (attentive.awake running).2⟩ }
  | refuses call calls refused =>
    rw [refused]
    exact { attentive with }
  | pushes call calls running room pushed =>
    exact attentive.push thread call.task woken running room pushed

theorem Attentive.free (attentive : Attentive p) {w : Nat} {was : Worker}
    (here : p.workers[w]? = some was) (busy : was ≠ .waiting) : w ∉ p.notEmpty.waiting := by
  intro waits
  have waiting := attentive.waiting w waits
  rw [here] at waiting
  exact busy (Option.some.inj waiting)

theorem waiting_set (attentive : Attentive p) (w : Nat) (worker : Worker)
    (free : w ∉ p.notEmpty.waiting) (other : Nat) (waits : other ∈ p.notEmpty.waiting) :
    (p.workers.set w worker)[other]? = some .waiting := by
  have apart : w ≠ other := fun same => free (same ▸ waits)
  rw [List.getElem?_set_ne apart]
  exact attentive.waiting other waits

theorem ready_set {w : Nat} {worker : Worker} (within : w < p.workers.length)
    (alive : worker ≠ .exited) (free : w ∉ p.notEmpty.waiting) : (p.setWorker w worker).Ready w :=
  ⟨⟨worker, List.getElem?_set_self within, alive⟩, free⟩

theorem not_mem_set {w : Nat} {worker : Worker} (present : .exited ∉ p.workers)
    (alive : worker ≠ .exited) : .exited ∉ p.workers.set w worker := by
  intro gone
  rcases mem_or_eq_of_mem_set gone with before | now
  · exact present before
  · exact alive now.symm

variable (attentive : Attentive p)
include attentive

theorem Attentive.takeBatch (w : Nat) (within : w < p.workers.length)
    (free : w ∉ p.notEmpty.waiting) : Attentive (p.takeBatch w) := by
  have crew (worker : Worker) : p.workers.set w worker ≠ [] := by
    rw [Ne, set_eq_nil_iff]
    exact attentive.somebody
  unfold ThreadPool.takeBatch
  split
  next idle =>
    -- it waits because nothing is queued
    have empty : p.queue = [] := isEmpty_iff.mp idle.1
    refine ⟨fun running => ⟨(attentive.awake running).1, fun queued => absurd empty queued⟩,
      fun other waits => ?_, fun running => not_mem_set (attentive.present running) nofun,
      crew _, attentive.stopped⟩
    rcases mem_cons.mp waits with rfl | waits
    · exact List.getElem?_set_self within
    · exact waiting_set attentive w .waiting free other waits
  next busy =>
    split
    next empty =>
      have stopping : ¬p.running = true := by simpa [empty] using busy
      exact ⟨fun running => absurd running stopping,
        fun other waits => waiting_set attentive w .exited free other waits,
        fun running => absurd running stopping, crew _, attentive.stopped⟩
    next =>
      refine ⟨fun running => ⟨fun waits => ?_, fun _ => ⟨w, ready_set within nofun free⟩⟩,
        fun other waits => waiting_set attentive w _ free other waits,
        fun running => not_mem_set (attentive.present running) nofun, crew _, attentive.stopped⟩
      -- either all the producers have been notified, or none was waiting
      dsimp only at waits
      split at waits
      next => exact absurd rfl waits
      next room => exact absurd ((attentive.awake running).1 waits) room

theorem Attentive.works (w : Nat) (was worker : Worker) (here : p.workers[w]? = some was)
    (busy : was ≠ .waiting) (alive : worker ≠ .exited) : Attentive (p.setWorker w worker) := by
  have within : w < p.workers.length := (List.getElem?_eq_some_iff.mp here).1
  have free : w ∉ p.notEmpty.waiting := attentive.free here busy
  refine ⟨fun running => ⟨(attentive.awake running).1, fun _ => ⟨w, ready_set within alive free⟩⟩,
    fun other waits => waiting_set attentive w worker free other waits,
    fun running => not_mem_set (attentive.present running) alive, ?_, attentive.stopped⟩
  show p.workers.set w worker ≠ []
  rw [Ne, set_eq_nil_iff]
  exact attentive.somebody

theorem Attentive.workerStep (w : Nat) (stepped : p.workerStep w = some p') : Attentive p' := by
  unfold ThreadPool.workerStep at stepped
  split at stepped
  next => cases stepped
  next here =>
    cases stepped
    exact attentive.takeBatch w (List.getElem?_eq_some_iff.mp here).1 (attentive.free here nofun)
  next here =>
    split at stepped
    next => cases stepped
    next notified =>
      cases stepped
      exact attentive.takeBatch w (List.getElem?_eq_some_iff.mp here).1 notified
  next task rest here =>
    cases stepped
    exact { attentive.works w _ (.busy rest) here nofun nofun with }
  next here =>
    cases stepped
    exact attentive.works w _ .enter here nofun nofun
  next => cases stepped

theorem Attentive.stopperStep (stepped : p.stopperStep = some p') : Attentive p' := by
  have still : p.running = false := attentive.stopped (stopper_of_stopperStep stepped)
  have stopped : ¬p.running = true := by
    rw [still]
    exact Bool.false_ne_true
  unfold ThreadPool.stopperStep at stepped
  split at stepped
  next => cases stepped
  next =>
    cases stepped
    exact ⟨fun running => absurd running stopped, nofun, fun running => absurd running stopped,
      attentive.somebody, fun _ => still⟩
  next =>
    cases stepped
    exact ⟨fun running => absurd running stopped, attentive.waiting,
      fun running => absurd running stopped, attentive.somebody, fun _ => still⟩
  next =>
    split at stepped
    · cases stepped
      exact { attentive with stopped := fun _ => still }
    · cases stepped
  next =>
    cases stepped
    exact { attentive with stopped := fun _ => still }
  next => cases stepped

theorem Attentive.step (event : Event) (stepped : p.step event = some p') : Attentive p' := by
  cases event with
  | run thread | tryRun thread =>
    simp only [ThreadPool.step] at stepped
    split at stepped
    · cases stepped
      unfold call
      dsimp only
      split <;> exact { attentive with }
    · cases stepped
  | producer thread woken => exact attentive.producerStep thread woken stepped
  | worker w => exact attentive.workerStep w stepped
  | wakeWorker w =>
    cases stepped
    refine { attentive with
      awake := fun running => ⟨(attentive.awake running).1, fun queued => ?_⟩
      waiting := fun other waits => attentive.waiting other (CondVar.mem_wake.mp waits).1 }
    -- a worker that was ready stays so
    obtain ⟨ready, alive, free⟩ := (attentive.awake running).2 queued
    exact ⟨ready, alive, fun waits => free (CondVar.mem_wake.mp waits).1⟩
  | wakeProducer thread =>
    cases stepped
    refine { attentive with
      awake := fun running => ⟨fun waits => (attentive.awake running).1 fun none => waits ?_,
        (attentive.awake running).2⟩ }
    show p.notFull.waiting.filter _ = []
    rw [none, filter_nil]
  | stop =>
    cases stepped
    unfold stop
    split
    · exact attentive
    · exact { attentive with awake := nofun, present := nofun, stopped := fun _ => rfl }
  | stopper => exact attentive.stopperStep stepped

end Steps

/-- In every run of a pool with at least one worker. -/
theorem awake_always (maxQueueSize takeBatchSize n : Nat) (events : List Event) :
    Machine.Always step Awake (start maxQueueSize takeBatchSize (n + 1)) events := by
  refine Machine.Always.mono (P := Attentive) (fun p attentive => attentive.awake) _ events ?_
  exact Machine.always_of_keeps (fun p event p' attentive stepped => attentive.step event stepped) _
    events (Attentive.start maxQueueSize takeBatchSize n)

/-! ### The end -/

structure Released (p : ThreadPool) : Prop where
  stopped : p.stopper ≠ .none → p.running = false
  workers : p.stopper ∉ [.none, .notifyWorkers] → p.notEmpty.waiting = []
  producers : p.stopper ∉ [.none, .notifyWorkers, .notifyProducers] → p.notFull.waiting = []

theorem Released.step {p p' : ThreadPool} (released : Released p) (event : Event)
    (stepped : p.step event = some p') : Released p' := by
  obtain ⟨stopped, workers, producers⟩ := released
  cases event with
  | run | tryRun | producer =>
    simp only [ThreadPool.step, call, producerStep, run, tryRun, push] at stepped
    constructor <;> grind [refuse, setProducer, CondVar.notifyOne, CondVar.wake]
  | worker | wakeWorker | wakeProducer | stop | stopper =>
    simp only [ThreadPool.step, workerStep, takeBatch, stop, stopperStep] at stepped
    constructor <;> grind [setWorker, CondVar.notifyAll, CondVar.wake]

/-- **`stop` is never stuck**: it can go on, or a worker can; and once it joins the workers, every
call of `run` and `tryRun` can go on. -/
theorem stopGoesOn_always (maxQueueSize takeBatchSize n : Nat) (events : List Event) :
    Machine.Always step (fun p =>
      (p.stopper ∉ [.none, .returned] → p.stopperStep.isSome ∨ ∃ w, (p.workerStep w).isSome) ∧
      (p.stopper ∈ [.join, .clear, .returned] → ∀ thread, (p.producers thread).isSome →
        (p.producerStep thread []).isSome)) (start maxQueueSize takeBatchSize n) events := by
  refine Machine.Always.mono (fun p (released : Released p) => ⟨fun called => ?_, fun joins => ?_⟩)
    _ events (Machine.always_of_keeps (fun _ event _ released => released.step event) _ events
      (by constructor <;> simp [start]))
  · by_cases goes : p.stopperStep.isSome
    · exact .inl goes
    · -- it waits for a worker, who has been notified
      obtain ⟨joins, worker, member, stays⟩ :
          p.stopper = .join ∧ ∃ worker ∈ p.workers, worker ≠ .exited := by grind [stopperStep]
      obtain ⟨w, here⟩ := mem_iff_getElem?.mp member
      have nobody := released.workers (by simp [joins])
      exact .inr ⟨w, by grind [workerStep]⟩
  · have nobody := released.producers (by grind)
    have stopped := released.stopped (by grind)
    grind [producerStep, run, tryRun]

end Cox.Concurrent.ThreadPool

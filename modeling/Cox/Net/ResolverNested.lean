import Mathlib.Data.List.Perm.Basic
import Cox.Net.Resolver

/-!
# Calls from callbacks

Every call of the resolver is to be answered once, also one that is made in a callback. A
callback that is answered from the cache runs while its own thread holds `mutex_`, and a call
made there waits for the lock that it has itself. Apart from that nothing is lost: each call
is a task of the pool, a task of the loop, or has been answered.
-/
namespace Cox.Net.Resolver

open Cox.Lib List Bool

/-! ### The property -/

/-- An answer has addresses or an error, and not both. -/
def Proper (addrs : List InetAddress) (error : Bytes) : Prop :=
  (addrs ≠ [] ∧ error = []) ∨ (addrs = [] ∧ error ≠ [])

/-- A callback for one address has one, or the address of the default constructor and an error. -/
def Answer.Proper : Answer → Prop
  | .list addrs error => Resolver.Proper addrs error
  | .single addr error =>
    (addr.isSome = true ∧ error = []) ∨ (addr = some (.ofPort 0 false false) ∧ error ≠ [])

def Quiet (r : Resolver) : Prop := r.jobs = [] ∧ r.pending = [] ∧ r.stack = []

/-- An event other than a new call or a new setting. -/
def Event.internal : Event → Bool
  | .resolve .. | .setCacheTtl _ => false
  | .returns | .runPending | .getaddrinfo .. | .store .. | .post _ => true

/-- The steps that a task of the pool still takes, with those of its callback. -/
def Stage.work : Stage → Nat
  | .lookup => 5
  | .store _ _ => 4
  | .post _ _ => 3

/-- The steps that are left until nothing is queued and nothing runs. -/
def work (r : Resolver) : Nat :=
  (r.jobs.map (·.stage.work)).sum + 2 * r.pending.length + r.stack.length

/-- No thread waits for itself, the work goes on and comes to an end, and then each call has been
answered once, and properly. -/
structure Answers (form : IpText) (r : Resolver) : Prop where
  free : r.hung = false
  goesOn : ¬r.Quiet → ∃ event, event.internal = true ∧ (r.step form event).isSome = true
  ends : ∀ event r', event.internal = true → r.step form event = some r' → r'.work < r.work
  once : r.Quiet → (r.invoked.map (·.1)).Perm (List.range r.calls)
  proper : ∀ x ∈ r.invoked, x.2.Proper

/-- The call is not made by a callback that is answered from the cache. -/
def Outside (r : Resolver) : Event → Prop
  | .resolve .. => .cached ∉ r.stack
  | .setCacheTtl _ | .returns | .runPending | .getaddrinfo .. | .store .. | .post _ => True

/-! ### Answers -/

theorem Want.proper_answer (want : Want) {addrs : List InetAddress} {error : Bytes}
    (proper : Proper addrs error) : (want.answer addrs error).Proper := by
  cases want with
  | all => exact proper
  | one =>
    rcases proper with ⟨some, rfl⟩ | ⟨rfl, failed⟩
    · refine .inl ⟨?_, rfl⟩
      rwa [isSome_head?]
    · have failed' : error.isEmpty = false := isEmpty_eq_false_iff.mpr failed
      simp only [answer, failed', false_eq_true, if_false]
      exact .inr ⟨rfl, failed⟩

theorem lookCache_cases (form : IpText) (r : Resolver) (host : Bytes) (port : UInt16)
    (now : UInt64) :
    r.lookCache form host port now = .miss ∨
      ∃ addrs, r.lookCache form host port now = .hit addrs ∧ addrs ≠ [] := by
  rw [lookCache_eq]
  cases r.cache host with
  | none => exact .inl rfl
  | some entry =>
    dsimp only
    split
    · exact .inr ⟨_, rfl, fun empty => entry.usable.some (map_eq_nil_iff.mp empty)⟩
    · exact .inl rfl

theorem resolveBlocking_error (lookup : Lookup) (port : UInt16) (error : Bytes)
    (failed : resolveBlocking lookup port = .error error) : error ≠ [] := by
  unfold resolveBlocking at failed
  cases lookup with
  | failed message nonempty =>
    cases failed
    exact nonempty
  | found infos =>
    simp only at failed
    split at failed
    · cases failed
      decide
    · cases failed

/-! ### The invariant -/

def Stage.Proper : Stage → Prop
  | .lookup | .store _ _ => True
  | .post addrs error => Resolver.Proper addrs error

theorem Stage.proper_found (lookup : Lookup) (port : UInt16) : (found lookup port).Proper := by
  unfold found
  cases result : resolveBlocking lookup port with
  | ok found => trivial
  | error error => exact .inr ⟨rfl, resolveBlocking_error lookup port error result⟩

structure Orderly (r : Resolver) : Prop where
  free : r.hung = false
  /-- The lock is held by the one callback that is answered from the cache. -/
  holder : r.stack.count .cached = if r.held then 1 else 0
  once : (r.jobs.map (·.call) ++ (r.pending.map (·.call) ++ r.invoked.map (·.1))).Perm
    (List.range r.calls)
  jobs : ∀ job ∈ r.jobs, job.stage.Proper
  pending : ∀ task ∈ r.pending, task.answer.Proper
  invoked : ∀ x ∈ r.invoked, x.2.Proper

section Step

variable {r r' : Resolver}

theorem orderly_start (cacheTtl : UInt32) (cache : Bytes → Option CacheEntry) :
    Orderly (start cacheTtl cache) :=
  ⟨rfl, rfl, .refl _, nofun, nofun, nofun⟩

section Orderly

variable (orderly : Orderly r)
include orderly

theorem Orderly.held_iff : r.held = false ↔ .cached ∉ r.stack := by
  rw [← count_eq_zero, orderly.holder]
  cases r.held <;> simp

theorem Orderly.resolve (form : IpText) (want : Want) (host : Bytes) (port : UInt16) (now : UInt64)
    (outside : r.held = false) : Orderly (r.resolve form want host port now) := by
  have holder := orderly.holder
  rw [outside] at holder
  unfold Resolver.resolve
  dsimp only
  rw [if_neg (by rw [outside]; exact false_ne_true)]
  rcases lookCache_cases form { r with calls := r.calls + 1 } host port now with
    missed | ⟨addrs, found, some⟩
  · rw [missed]
    refine { orderly with once := ?_, jobs := ?_ }
    · have more := orderly.once.append_right [r.calls]
      rw [← range_succ] at more
      refine List.Perm.trans ?_ more
      simp only [map_append, map_cons, map_nil, append_assoc]
      exact List.Perm.append_left _ (perm_append_comm.trans (.of_eq (append_assoc ..)))
    · exact forall_mem_append.mpr ⟨orderly.jobs, forall_mem_singleton.mpr trivial⟩
  · rw [found]
    refine { orderly with holder := ?_, once := ?_, invoked := ?_ }
    · rw [count_cons_self, holder]
      rfl
    · have more := orderly.once.append_right [r.calls]
      rw [← range_succ] at more
      simpa only [map_append, map_cons, map_nil, append_assoc] using more
    · have proper := want.proper_answer (.inl ⟨some, rfl⟩)
      exact forall_mem_append.mpr ⟨orderly.invoked, forall_mem_singleton.mpr proper⟩

theorem Orderly.returns (returned : r.returns = some r') : Orderly r' := by
  have holder := orderly.holder
  unfold Resolver.returns at returned
  cases stack : r.stack with
  | nil => simp only [stack, reduceCtorEq] at returned
  | cons frame rest =>
    rw [stack] at holder
    cases frame with
    | cached =>
      simp only [stack, Option.some.injEq] at returned
      subst returned
      refine { orderly with holder := ?_ }
      -- there was no other
      rw [count_cons_self] at holder
      simp only [false_eq_true, if_false]
      split at holder <;> omega
    | posted =>
      simp only [stack, Option.some.injEq] at returned
      subst returned
      exact { orderly with holder := holder }

theorem Orderly.runPending (ran : r.runPending = some r') : Orderly r' := by
  have holder := orderly.holder
  have once := orderly.once
  have proper := orderly.pending
  unfold Resolver.runPending at ran
  split at ran
  next task rest stack pending =>
    cases ran
    rw [stack] at holder
    rw [pending] at once proper
    refine { orderly with holder := holder, once := ?_, pending := ?_, invoked := ?_ }
    · refine List.Perm.trans (List.Perm.append_left _ ?_) once
      simp only [map_append, map_cons, map_nil, ← append_assoc]
      exact perm_append_comm
    · intro other member
      exact proper other (mem_cons_of_mem _ member)
    · exact forall_mem_append.mpr
        ⟨orderly.invoked, forall_mem_singleton.mpr (proper task mem_cons_self)⟩
  next => cases ran
  next => cases ran

theorem Orderly.setStage (i : Nat) (job : Job) (here : r.jobs[i]? = some job) (stage : Stage)
    (proper : stage.Proper) : Orderly (r.setStage i job stage) := by
  refine { orderly with once := ?_, jobs := ?_ }
  · have same : (r.jobs.set i { job with stage := stage }).map (·.call) = r.jobs.map (·.call) := by
      obtain ⟨within, rfl⟩ := List.getElem?_eq_some_iff.mp here
      have within' : i < (r.jobs.map (·.call)).length := by rwa [length_map]
      have self : (r.jobs.map (·.call)).set i (r.jobs.map (·.call))[i] = _ :=
        set_getElem_self within'
      rw [map_set]
      rwa [getElem_map] at self
    show (List.map _ (r.jobs.set i { job with stage := stage }) ++ _).Perm _
    rw [same]
    exact orderly.once
  · intro other member
    rcases mem_or_eq_of_mem_set member with old | new
    · exact orderly.jobs other old
    · rw [new]
      exact proper

theorem Orderly.getaddrinfo (i : Nat) (lookup : Lookup) (looked : r.getaddrinfo i lookup = some r') :
    Orderly r' := by
  obtain ⟨job, here, _, rfl⟩ := of_getaddrinfo i lookup looked
  exact orderly.setStage i job here _ (Stage.proper_found lookup job.port)

theorem Orderly.store (i : Nat) (now : UInt64) (stored : r.store i now = some r') : Orderly r' := by
  obtain ⟨job, addrs, usable, here, _, rfl⟩ := of_store i now stored
  exact { orderly.setStage i job here (.post addrs []) (.inl ⟨usable.some, rfl⟩) with }

theorem Orderly.post (i : Nat) (posted : r.post i = some r') : Orderly r' := by
  obtain ⟨job, addrs, error, here, stage, rfl⟩ := of_post i posted
  obtain ⟨within, rfl⟩ := List.getElem?_eq_some_iff.mp here
  refine { orderly with once := ?_, jobs := ?_, pending := ?_ }
  · have apart := (getElem_cons_eraseIdx_perm within).map (·.call)
    refine List.Perm.trans ?_ ((apart.append_right _).trans orderly.once)
    simp only [map_append, map_cons, map_nil, append_assoc, cons_append]
    rw [← append_assoc, ← append_assoc]
    exact perm_middle
  · intro other member
    exact orderly.jobs other (mem_of_mem_eraseIdx member)
  · have proper := orderly.jobs _ (getElem_mem within)
    rw [stage] at proper
    exact forall_mem_append.mpr
      ⟨orderly.pending, forall_mem_singleton.mpr (Want.proper_answer _ proper)⟩

theorem Orderly.step (form : IpText) (event : Event) (outside : Outside r event)
    (stepped : r.step form event = some r') : Orderly r' := by
  have free := orderly.free
  cases event with
  | resolve want host port now =>
    simp only [Resolver.step, free, false_eq_true, if_false, Option.some.injEq] at stepped
    subst stepped
    exact orderly.resolve form want host port now (orderly.held_iff.mpr outside)
  | setCacheTtl seconds =>
    simp only [Resolver.step, free, false_eq_true, if_false, Option.some.injEq] at stepped
    subst stepped
    exact { orderly with free := rfl }
  | returns =>
    simp only [Resolver.step, free, false_eq_true, if_false] at stepped
    exact orderly.returns stepped
  | runPending =>
    simp only [Resolver.step, free, false_eq_true, if_false] at stepped
    exact orderly.runPending stepped
  | getaddrinfo i lookup => exact orderly.getaddrinfo i lookup stepped
  | store i now => exact orderly.store i now stepped
  | post i => exact orderly.post i stepped

theorem Orderly.goesOn (form : IpText) (busy : ¬r.Quiet) :
    ∃ event, event.internal = true ∧ (r.step form event).isSome = true := by
  have free := orderly.free
  have holder := orderly.holder
  cases stack : r.stack with
  | cons frame rest =>
    refine ⟨.returns, rfl, ?_⟩
    cases frame <;> simp [Resolver.step, free, Resolver.returns, stack]
  | nil =>
    have unlocked : r.held = false := by
      rw [stack] at holder
      by_contra held
      simp [held] at holder
    cases pending : r.pending with
    | cons task rest =>
      exact ⟨.runPending, rfl, by simp [Resolver.step, free, Resolver.runPending, stack, pending]⟩
    | nil =>
      cases jobs : r.jobs with
      | nil => exact absurd ⟨jobs, pending, stack⟩ busy
      | cons job rest =>
        cases stage : job.stage with
        | lookup =>
          exact ⟨.getaddrinfo 0 (.found []), rfl, by
            simp [Resolver.step, Resolver.getaddrinfo, jobs, stage]⟩
        | store addrs usable =>
          exact ⟨.store 0 0, rfl, by simp [Resolver.step, Resolver.store, jobs, stage, unlocked]⟩
        | post addrs error =>
          exact ⟨.post 0, rfl, by simp [Resolver.step, Resolver.post, jobs, stage]⟩

end Orderly

theorem work_jobs (jobs : List Job) (i : Nat) (job : Job) (here : jobs[i]? = some job) :
    (jobs.map (·.stage.work)).sum =
      job.stage.work + ((jobs.eraseIdx i).map (·.stage.work)).sum := by
  obtain ⟨within, rfl⟩ := List.getElem?_eq_some_iff.mp here
  have apart := (getElem_cons_eraseIdx_perm within).map (·.stage.work)
  rw [← apart.sum_nat, map_cons, sum_cons]

theorem work_setStage (i : Nat) (job : Job) (here : r.jobs[i]? = some job) (stage : Stage)
    (less : stage.work < job.stage.work) : (r.setStage i job stage).work < r.work := by
  obtain ⟨within, _⟩ := List.getElem?_eq_some_iff.mp here
  have before := work_jobs r.jobs i job here
  have after := work_jobs (r.jobs.set i { job with stage := stage }) i { job with stage := stage }
    (List.getElem?_set_self within)
  rw [eraseIdx_set_eq] at after
  simp only [work, setStage, before, after]
  omega

theorem work_getaddrinfo (i : Nat) (lookup : Lookup)
    (looked : r.getaddrinfo i lookup = some r') : r'.work < r.work := by
  obtain ⟨job, here, stage, rfl⟩ := of_getaddrinfo i lookup looked
  apply work_setStage i job here
  rw [stage, Stage.found]
  cases resolveBlocking lookup job.port with
  | ok found => exact Nat.lt_succ_self 4
  | error error => exact Nat.lt_add_of_pos_right Nat.two_pos

theorem work_store (i : Nat) (now : UInt64) (stored : r.store i now = some r') :
    r'.work < r.work := by
  obtain ⟨job, addrs, usable, here, stage, rfl⟩ := of_store i now stored
  have less : (Stage.post addrs []).work < job.stage.work := by
    rw [stage]
    exact Nat.lt_succ_self 3
  exact work_setStage i job here (.post addrs []) less

theorem work_post (i : Nat) (posted : r.post i = some r') : r'.work < r.work := by
  obtain ⟨job, addrs, error, here, stage, rfl⟩ := of_post i posted
  have before := work_jobs r.jobs i job here
  rw [stage, Stage.work] at before
  simp only [work, before, length_append, length_singleton]
  omega

theorem work_returns (returned : r.returns = some r') : r'.work < r.work := by
  unfold returns at returned
  split at returned
  next => cases returned
  next rest stack =>
    cases returned
    simp [work, stack]
  next rest stack =>
    cases returned
    simp [work, stack]

theorem work_runPending (ran : r.runPending = some r') : r'.work < r.work := by
  unfold runPending at ran
  split at ran
  next task rest stack pending =>
    cases ran
    simp only [work, stack, pending, length_cons, length_nil]
    omega
  next => cases ran
  next => cases ran

theorem work_step (form : IpText) (event : Event) (internal : event.internal = true)
    (stepped : r.step form event = some r') : r'.work < r.work := by
  cases event with
  | resolve want host port now | setCacheTtl seconds => cases internal
  | returns =>
    simp only [step] at stepped
    split at stepped
    · cases stepped
    · exact work_returns stepped
  | runPending =>
    simp only [step] at stepped
    split at stepped
    · cases stepped
    · exact work_runPending stepped
  | getaddrinfo i lookup => exact work_getaddrinfo i lookup stepped
  | store i now => exact work_store i now stepped
  | post i => exact work_post i stepped

theorem Orderly.answers (orderly : Orderly r) (form : IpText) : Answers form r := by
  refine ⟨orderly.free, orderly.goesOn form, fun event r' => work_step form event,
    fun quiet => ?_, orderly.invoked⟩
  have once := orderly.once
  rw [quiet.1, quiet.2.1] at once
  exact once

theorem hung_of_inside (orderly : Orderly r) (form : IpText) (event : Event)
    (inside : ¬Outside r event) (stepped : r.step form event = some r') : r'.hung = true := by
  cases event with
  | resolve want host port now =>
    have held : r.held = true := eq_true_of_ne_false fun free => inside (orderly.held_iff.mp free)
    simp only [step] at stepped
    split at stepped
    · cases stepped
    · cases stepped
      simp only [resolve, held, if_true]
  | setCacheTtl seconds | returns | runPending | getaddrinfo i lookup | store i now | post i =>
    exact absurd trivial inside

end Step

/-! ### Whole runs -/

/-- **Nested calls.** Whatever the cache holds at first, no call waits for its own thread and
every call is answered once, exactly as long as no call is made by a callback that is answered
from the cache. -/
theorem answers_iff (form : IpText) (cacheTtl : UInt32) (cache : Bytes → Option CacheEntry)
    (events : List Event) :
    Machine.Always (step form) (Answers form) (start cacheTtl cache) events ↔
      Machine.Meets (step form) Outside (start cacheTtl cache) events := by
  apply Machine.always_iff_meets (fun r (orderly : Orderly r) => orderly.answers form)
  · intro r event r' orderly outside stepped
    exact orderly.step form event outside stepped
  · intro r event r' orderly inside stepped answers
    have free := answers.free
    rw [hung_of_inside orderly form event inside stepped] at free
    cases free
  · exact orderly_start cacheTtl cache

theorem usable_inet (addr : SockaddrIn) : Usable [.inet addr] := by
  refine ⟨cons_ne_nil _ _, fun a member => ?_⟩
  obtain rfl := mem_singleton.mp member
  rfl

/-- The cache has an address of the host; the callback of a first call makes a second. -/
def warm : Bytes → Option CacheEntry := fun host =>
  if host = text "a" then some ⟨[.ofPort 80 true false], usable_inet _, 0⟩ else none

theorem nested_hangs :
    let events : List Event := [.resolve .all (text "a") 80 0, .resolve .all (text "a") 80 0]
    let seen := fun (r : Resolver) => (r.held, r.hung, r.calls, r.invoked.map (·.1))
    (Machine.run (step .plain) (start 60 warm) events).map seen = some (true, true, 2, [0]) ∧
      ¬Machine.Always (step .plain) (Answers .plain) (start 60 warm) events := by
  have ran : ∃ r, Machine.run (step .plain) (start 60 warm)
      [.resolve .all (text "a") 80 0, .resolve .all (text "a") 80 0] = some r ∧
        r.hung = true := ⟨_, rfl, rfl⟩
  obtain ⟨r, ran, hung⟩ := ran
  refine ⟨by decide, fun always => ?_⟩
  have free := (Machine.Always.last _ r _ always ran).free
  rw [hung] at free
  cases free

end Cox.Net.Resolver

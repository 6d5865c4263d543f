import Cox.Http.PoolPartition

/-!
# The limits of a plaintext pool

The number of connections stays within `max_connections`, and a request is queued only
while no connection is idle and no further one may be opened. Every handler keeps this;
the ones that drop a connection use the queue to open its replacement.
-/
namespace Cox.Http.ConnectionPool

open Cox.Lib List

/-- The pool stays within its limit, and queues only when every connection is taken. -/
structure Capped (p : ConnectionPool) : Prop where
  limit : p.total ≤ p.maxConnections
  queued : p.queue ≠ [] → p.idle = [] ∧ p.maxConnections ≤ p.total

namespace Capped

variable {p : ConnectionPool}

theorem same {q : ConnectionPool} (capped : Capped p) (lists : SameLists p q) : Capped q := by
  obtain ⟨limit, queued⟩ := capped
  constructor
  · simpa only [total, lists.idle, lists.busy, lists.connecting, lists.maxConnections] using limit
  · simpa only [total, lists.idle, lists.busy, lists.connecting, lists.queue,
      lists.maxConnections] using queued

variable (capped : Capped p)
include capped

theorem modify (c : ConnId) (f : PooledConn → PooledConn) : Capped (p.modify c f) :=
  capped.same ⟨rfl, rfl, rfl, rfl, rfl⟩

theorem start (c : ConnId) (pending : Pending) : Capped (p.start c pending) :=
  capped.same (start_lists p c pending)

theorem dispatch (pending : Pending) : Capped (p.dispatch pending) := by
  unfold ConnectionPool.dispatch
  split
  next c found =>
    -- an idle connection is reused: the total stays, and nothing was queued
    have last := dropLast_append_getLast? c found
    have idle : p.idle ≠ [] := ne_nil_of_mem (mem_of_getLast? found)
    have length : p.idle.length = p.idle.dropLast.length + 1 := by
      rw [← last]
      simp
    apply start
    constructor
    · have limit := capped.limit
      simp only [total, length_append, length_singleton] at limit ⊢
      omega
    · exact fun queued => absurd (capped.queued queued).1 idle
  next found =>
    have idle : p.idle = [] := List.getLast?_eq_none_iff.mp found
    split
    next room =>
      constructor
      · simp only [total, newConn, length_append, length_singleton] at room ⊢
        omega
      · intro queued
        have full := (capped.queued queued).2
        omega
    next full => exact ⟨capped.limit, fun _ => ⟨idle, Nat.not_lt.mp full⟩⟩

theorem dispatchAll (waiting : List Pending) :
    Capped (waiting.foldl ConnectionPool.dispatch p) := by
  induction waiting generalizing p with
  | nil => exact capped
  | cons pending waiting ih => exact ih (capped.dispatch pending)

theorem request (req : HttpRequest) : Capped (p.request req) := by
  have counted : Capped { p with issued := p.issued + 1 } := capped.same ⟨rfl, rfl, rfl, rfl, rfl⟩
  unfold ConnectionPool.request
  dsimp only
  split
  · exact counted.dispatch _
  · exact counted.same ⟨rfl, rfl, rfl, rfl, rfl⟩

theorem onFree (c : ConnId) (member : c ∈ p.busy) : Capped (p.onFree c) := by
  have length := length_erase_add_one member
  have limit := capped.limit
  unfold ConnectionPool.onFree
  dsimp only
  split
  next pending queue next =>
    -- the connection goes back to `busy_` with a queued request, so the pool stays full
    have queued := capped.queued (by simp [next])
    apply start
    simp only [total] at limit queued
    constructor
    · simp only [total, length_append, length_singleton]
      omega
    · intro _
      simp only [total, length_append, length_singleton]
      exact ⟨queued.1, by omega⟩
  next empty =>
    constructor
    · simp only [total, length_append, length_singleton] at limit ⊢
      omega
    · exact fun queued => absurd empty queued

theorem unlisted (c : ConnId) : Capped { p with idle := p.idle.erase c } := by
  have length : (p.idle.erase c).length ≤ p.idle.length := length_erase_le
  have limit := capped.limit
  constructor
  · simp only [total] at limit ⊢
    omega
  · intro queued
    obtain ⟨idle, full⟩ := capped.queued queued
    have same : p.idle.erase c = p.idle := by simp [idle]
    simp only [total, same] at full ⊢
    exact ⟨idle, full⟩

theorem evictIdle (now : UInt64) : Capped (p.evictIdle now) :=
  evictIdle_keeps (fun _ c kept => (kept.unlisted c).modify c _) p now capped

variable (tidy : Tidy p) (c : ConnId)
include tidy

/-- At most one connection is dropped, so a queue is left only if the replacement fills
the pool again. -/
theorem onClosed : Capped (p.onClosed c) := by
  have dropped : (p.idle.erase c).length + (p.busy.erase c).length + (p.connecting.erase c).length ≤
        p.total ∧
      p.total ≤
        (p.idle.erase c).length + (p.busy.erase c).length + (p.connecting.erase c).length + 1 := by
    obtain ⟨idle, busy, connecting⟩ := tidy.exclusive c
    simp only [total, length_erase]
    grind
  have limit := capped.limit
  unfold ConnectionPool.onClosed
  dsimp only
  split
  next pending queue next =>
    -- the pool was full; with a replacement it is full again
    obtain ⟨idle, full⟩ := capped.queued (by simp [next])
    have empty : p.idle.erase c = [] := by simp [idle]
    split
    next room =>
      simp only [total] at room
      constructor
      · simp only [total, newConn, length_append, length_singleton]
        omega
      · intro _
        simp only [total, newConn, length_append, length_singleton]
        exact ⟨empty, by omega⟩
    next still =>
      simp only [total, Nat.not_lt] at still
      constructor
      · simp only [total] at dropped limit ⊢
        omega
      · exact fun _ => ⟨empty, still⟩
  next none =>
    constructor
    · simp only [total] at dropped limit ⊢
      omega
    · exact fun queued => absurd none queued

theorem exec (tasks : List Task) (ok : ∀ t ∈ tasks, TaskOk p t) : Capped (exec tasks p) := by
  induction tasks generalizing p with
  | nil => exact capped
  | cons t rest ih =>
    obtain ⟨first, later⟩ := forall_mem_cons.mp ok
    cases t with
    | invoke id resp err => exact capped.same ⟨rfl, rfl, rfl, rfl, rfl⟩
    | close c =>
      exact ih (capped.modify c _) (tidy.close c) (fun t h => taskOk_close p c t (later t h))
    | onClosed c =>
      exact ih (capped.onClosed tidy c) (tidy.onClosed c first.2.1 first.2.2.1)
        (fun t h => taskOk_onClosed p c t (later t h))
    | tlsStatus => exact first.elim

theorem onResolved (addrs : List Bytes) (err : Bytes) :
    Capped (finish (p.onResolved addrs err)) := by
  unfold ConnectionPool.onResolved
  dsimp only
  split
  · have unparked : Tidy { p with resolving := false, waitingOnDns := [] } :=
      { tidy with suspended := tidy.suspended }
    have same : Capped { p with resolving := false, waitingOnDns := [] } :=
      capped.same ⟨rfl, rfl, rfl, rfl, rfl⟩
    refine same.exec unparked _ (fun t inside => ?_)
    obtain ⟨w, _, rfl⟩ := mem_map.mp inside
    trivial
  · apply dispatchAll
    exact capped.same ⟨rfl, rfl, rfl, rfl, rfl⟩

theorem onConnectionUp (outcome : Handshake) (now : UInt64) (member : c ∈ p.connecting) :
    Capped ((p.modify c (·.withTcp .connected)).onConnectionUp c outcome now) := by
  obtain ⟨pending, waits⟩ := Option.ne_none_iff_exists'.mp ((tidy.waiting c).mpr member)
  rw [onConnectionUp_eq p c outcome now pending tidy.plain waits]
  apply start
  -- the connection changes from one list to another
  have moved : p.idle.length + (p.busy ++ [c]).length + (p.connecting.erase c).length = p.total := by
    have length := length_erase_add_one member
    simp only [total, length_append, length_singleton]
    omega
  constructor
  · exact moved.trans_le capped.limit
  · exact fun queued => ⟨(capped.queued queued).1, (capped.queued queued).2.trans_eq moved.symm⟩

theorem consume (now : UInt64) (member : c ∈ p.busy) (idling : p.stack = []) :
    Capped (finish (p.consume c now)) := by
  unfold ConnectionPool.consume
  dsimp only
  split
  · refine (capped.modify c _).exec (tidy.malformed c) _ (taskOk_answer _ _ _ _ _ ?_)
    simp [TaskOk]
  · split
    · rw [← append_nil (List.map _ _)]
      split
      · exact ((capped.modify c _).onFree c member).exec (tidy.freed c now member idling) _
          (taskOk_answer _ _ _ _ _ (by simp))
      · exact ((capped.modify c _).modify c _).exec ((tidy.completed c now).close c) _
          (taskOk_answer _ _ _ _ _ (by simp))
    · exact capped.modify c _

theorem onConnectionDown (up : (p.conns c).tcp ≠ .connecting) (below : c < p.nextConn) :
    Capped (finish ((p.modify c (·.withTcp .disconnected)).onConnectionDown c)) := by
  rw [onConnectionDown_eq]
  split
  next flying =>
    refine (capped.modify c _).exec (tidy.givenUp c up) _
      (taskOk_answer _ _ _ _ _ (fun t h => ?_))
    rw [mem_singleton.mp h]
    exact taskOk_dropped p tidy c below flying
  next resting =>
    exact (capped.modify c _).onClosed (tidy.lost c up (tidy.free_of_resting c resting)) c

end Capped

end Cox.Http.ConnectionPool

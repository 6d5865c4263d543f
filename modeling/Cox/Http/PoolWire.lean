import Cox.Http.PoolPartition

/-!
# What the pool sends for a request

A request may be parked behind the resolver, wait for its connection or stand in the queue
before `start` sends it. Whatever way it takes, and whatever else happens, the bytes that are
sent for it are those of the request as it was handed in, with the Host header that the pool
was created with.
-/
namespace Cox.Http.ConnectionPool

open Cox.Lib List Function

def requestBytes (host : Bytes) (req : HttpRequest) : Bytes :=
  (req.addHeader (text "Connection") (text "keep-alive")).appendTo host

/-- The requests that were handed in are `asked`, by their numbers; what the pool holds of them
and what it has ever sent is theirs. -/
structure Writes (asked : List HttpRequest) (host : Bytes) (p : ConnectionPool) : Prop where
  fixed : p.host = host
  issued : p.issued = asked.length
  parked : ∀ w ∈ p.waitingOnDns, asked[w.id]? = some w.req
  queued : ∀ w ∈ p.queue, asked[w.id]? = some w.req
  pending : ∀ c w, p.pending c = some w → asked[w.id]? = some w.req
  sent : ∀ c carried wire, .sent c carried wire ∈ p.log →
    ∃ id req, carried = some id ∧ asked[id]? = some req ∧ wire = requestBytes host req

section Writes

variable {asked : List HttpRequest} {host : Bytes} {p q : ConnectionPool}
variable (writes : Writes asked host p) (c : ConnId)
include writes

theorem Writes.modify (f : PooledConn → PooledConn) : Writes asked host (p.modify c f) where
  __ := writes

theorem Writes.note (n : Note)
    (known : ∀ c carried wire, n = .sent c carried wire →
      ∃ id req, carried = some id ∧ asked[id]? = some req ∧ wire = requestBytes host req) :
    Writes asked host (p.note n) := by
  refine { writes with sent := fun d carried wire member => ?_ }
  rcases mem_append.mp member with old | new
  · exact writes.sent d carried wire old
  · exact known d carried wire (mem_singleton.mp new).symm

theorem Writes.forceClose : Writes asked host (p.forceClose c) := by
  unfold ConnectionPool.forceClose tlsDown
  split
  · exact (writes.note (.down c (p.carried c)) nofun).modify c (·.tcpClosed)
  · exact writes

theorem Writes.send (id : ReqId) (req : HttpRequest) (carries : (p.conns c).callback = some id)
    (known : asked[id]? = some req) : Writes asked host (p.send c (requestBytes host req)) := by
  have sent := writes.note (.sent c (p.conns c).callback (requestBytes host req)) (by
    rintro _ _ _ ⟨⟩
    exact ⟨id, req, carries, known, rfl⟩)
  unfold ConnectionPool.send
  split
  · split
    · exact writes
    · split
      · exact writes.forceClose c
      · exact sent
  · split
    · exact sent
    · exact writes

theorem Writes.start (pending : Pending) (known : asked[pending.id]? = some pending.req) :
    Writes asked host (p.start c pending) := by
  unfold ConnectionPool.start
  dsimp only
  rw [writes.fixed]
  refine Writes.send ?_ c pending.id pending.req ?_ known
  · exact (writes.note (.started c (p.conns c).callback) nofun).modify c _
  · rw [modify_conns_self]
    rfl

theorem Writes.newConn (pending : Pending) (known : asked[pending.id]? = some pending.req) :
    Writes asked host (p.newConn pending) := by
  refine { writes with pending := fun c w waits => ?_ }
  have held : update p.pending p.nextConn (some pending) c = some w := waits
  rw [update_apply] at held
  split at held
  · cases held
    exact known
  · exact writes.pending c w held

theorem Writes.unpend (idle busy : List ConnId) (connecting : List ConnId) :
    Writes asked host
      { p with idle, busy, connecting, pending := update p.pending c none } := by
  refine { writes with pending := fun d w held => ?_ }
  have left : update p.pending c none d = some w := held
  rw [update_apply] at left
  split at left
  · cases left
  · exact writes.pending d w left

theorem Writes.refile (idle busy connecting : List ConnId) :
    Writes asked host { p with idle, busy, connecting } where
  __ := writes

theorem Writes.dispatch (pending : Pending) (known : asked[pending.id]? = some pending.req) :
    Writes asked host (p.dispatch pending) := by
  unfold ConnectionPool.dispatch
  split
  next c _ => exact (writes.refile _ _ p.connecting).start c pending known
  next =>
    split
    · exact writes.newConn pending known
    · refine { writes with queued := ?_ }
      exact forall_mem_append.mpr ⟨writes.queued, forall_mem_singleton.mpr known⟩

theorem Writes.dispatchAll (waiting : List Pending)
    (known : ∀ w ∈ waiting, asked[w.id]? = some w.req) :
    Writes asked host (waiting.foldl ConnectionPool.dispatch p) := by
  induction waiting generalizing p with
  | nil => exact writes
  | cons w waiting ih =>
    exact ih (writes.dispatch w (known w (mem_cons_self ..)))
      fun v later => known v (mem_cons_of_mem _ later)

theorem Writes.request (req : HttpRequest) : Writes (asked ++ [req]) host (p.request req) := by
  -- the numbers given out before stand for the same requests
  have older (id : ReqId) (old : HttpRequest) (known : asked[id]? = some old) :
      (asked ++ [req])[id]? = some old :=
    List.getElem?_append_left (List.getElem?_eq_some_iff.mp known).1 ▸ known
  have own : (asked ++ [req])[p.issued]? = some req := by
    rw [writes.issued]
    exact List.getElem?_concat_length
  have counted : Writes (asked ++ [req]) host { p with issued := p.issued + 1 } :=
    { fixed := writes.fixed
      issued := by
        rw [length_append, ← writes.issued]
        rfl
      parked := fun w member => older _ _ (writes.parked w member)
      queued := fun w member => older _ _ (writes.queued w member)
      pending := fun c w waits => older _ _ (writes.pending c w waits)
      sent := fun c carried wire sent => by
        obtain ⟨id, old, carries, known, bytes⟩ := writes.sent c carried wire sent
        exact ⟨id, old, carries, older id old known, bytes⟩ }
  unfold ConnectionPool.request
  dsimp only
  split
  · exact counted.dispatch ⟨p.issued, req⟩ own
  · refine { counted with parked := ?_ }
    exact forall_mem_append.mpr ⟨counted.parked, forall_mem_singleton.mpr own⟩

theorem Writes.onReady : Writes asked host (p.onReady c) := by
  unfold ConnectionPool.onReady
  dsimp only
  split
  next pending waits =>
    exact (writes.unpend c p.idle _ _).start c pending (writes.pending c pending waits)
  next => exact writes.refile _ _ _

theorem Writes.onFree : Writes asked host (p.onFree c) := by
  unfold ConnectionPool.onFree
  dsimp only
  split
  next pending queue next =>
    have known : ∀ w ∈ pending :: queue, asked[w.id]? = some w.req := next ▸ writes.queued
    refine Writes.start ?_ c pending (known pending (mem_cons_self ..))
    exact { writes with queued := fun w member => known w (mem_cons_of_mem _ member) }
  next => exact writes.refile _ _ p.connecting

theorem Writes.onClosed : Writes asked host (p.onClosed c) := by
  have forgotten := writes.unpend c (p.idle.erase c) (p.busy.erase c) (p.connecting.erase c)
  unfold ConnectionPool.onClosed
  dsimp only
  split
  next pending queue next =>
    have known : ∀ w ∈ pending :: queue, asked[w.id]? = some w.req := next ▸ writes.queued
    split
    · refine Writes.newConn ?_ pending (known pending (mem_cons_self ..))
      exact { forgotten with queued := fun w member => known w (mem_cons_of_mem _ member) }
    · exact forgotten
  next => exact forgotten

theorem Writes.afterRead (status : TlsStatus) : Writes asked host (p.afterRead c status) := by
  cases status with
  | ok | wantIo => exact writes
  | error => exact writes.forceClose c
  | closed => exact writes.modify c _

theorem Writes.exec (tasks : List Task) : Writes asked host (exec tasks p) := by
  induction tasks generalizing p with
  | nil => exact writes
  | cons task rest ih =>
    cases task with
    | invoke id resp err => exact { writes.note (.invoked id resp err) nofun with }
    | close c => exact ih (writes.modify c _)
    | onClosed c => exact ih (writes.onClosed c)
    | tlsStatus c status => exact ih (writes.afterRead c status)

theorem Writes.consume (now : UInt64) : Writes asked host (p.consume c now).1 := by
  unfold ConnectionPool.consume
  dsimp only
  split
  · exact writes.modify c _
  · split
    · have completed := writes.modify c (·.completed now)
      dsimp only
      split
      · exact completed.onFree c
      · exact completed.modify c _
    · exact writes.modify c _

theorem Writes.driveHandshake (outcome : Handshake) (now : UInt64) :
    Writes asked host (p.driveHandshake c outcome now) := by
  unfold ConnectionPool.driveHandshake
  split
  · exact writes
  · cases outcome with
    | pending => exact writes
    | error => exact writes.forceClose c
    | done => exact ((writes.modify c (·.secured)).modify c (·.madeReady now)).onReady c

theorem Writes.onConnectionUp (outcome : Handshake) (now : UInt64) :
    Writes asked host (p.onConnectionUp c outcome now) := by
  have up := writes.modify c (·.connectedAt now)
  unfold ConnectionPool.onConnectionUp
  dsimp only
  split
  · exact (up.modify c (·.wrapped)).driveHandshake c outcome now
  · exact (up.modify c (·.madeReady now)).onReady c

theorem Writes.onConnectionDown : Writes asked host (finish (p.onConnectionDown c)) := by
  have lost := writes.modify c (·.lost)
  unfold ConnectionPool.onConnectionDown finish
  dsimp only
  split
  · exact (lost.modify c (·.givenUp)).exec _
  · exact lost.exec _

theorem Writes.onTlsMessage (outcome : Handshake) (plaintext : Bytes) (status : TlsStatus)
    (now : UInt64) :
    Writes asked host (finish (p.onTlsMessage c outcome plaintext status now)) := by
  have driven : Writes asked host
      (if handshaking (p.conns c) then p.driveHandshake c outcome now else p) := by
    split
    · exact writes.driveHandshake c outcome now
    · exact writes
  unfold ConnectionPool.onTlsMessage finish
  dsimp only
  generalize (if handshaking (p.conns c) then p.driveHandshake c outcome now else p) = r at driven ⊢
  split
  · exact driven.exec _
  · split
    · exact driven.exec _
    · exact ((driven.modify c (·.receive plaintext)).consume c now).exec _

theorem Writes.onResolved (addrs : List Bytes) (err : Bytes) :
    Writes asked host (finish (p.onResolved addrs err)) := by
  have emptied (resolved : Bool) : Writes asked host
      { p with resolving := false, waitingOnDns := [], resolved } :=
    { writes with parked := nofun }
  unfold ConnectionPool.onResolved finish
  dsimp only
  split
  · exact (emptied p.resolved).exec _
  · exact (emptied true).dispatchAll _ writes.parked

theorem Writes.loopStep (e : LoopEvent) (stepped : p.loopStep e = some q) :
    Writes asked host q := by
  -- an event is lost on a connection that the pool has dropped
  have delivered (c : ConnId) (handled : ConnectionPool) (ok : Writes asked host handled)
      (given : p.deliver c handled = some q) : Writes asked host q := by
    unfold deliver at given
    split at given <;> cases given
    · exact ok
    · exact writes
  cases e with
  | established c outcome now =>
    simp only [ConnectionPool.loopStep] at stepped
    split at stepped
    · have up := writes.modify c (·.withTcp .connected)
      exact delivered c _ (up.onConnectionUp c outcome now) stepped
    · cases stepped
  | received c data now =>
    simp only [ConnectionPool.loopStep] at stepped
    split at stepped
    · cases stepped
    · have received := writes.modify c (·.receive data)
      exact delivered c _ ((received.consume c now).exec _) stepped
  | decrypted c outcome plaintext status now =>
    simp only [ConnectionPool.loopStep] at stepped
    split at stepped
    · cases stepped
    · exact delivered c _ (writes.onTlsMessage c outcome plaintext status now) stepped
  | down c =>
    have told := writes.note (.down c (p.carried c)) (by simp)
    simp only [ConnectionPool.loopStep] at stepped
    split at stepped
    · cases stepped
    · split at stepped
      · exact delivered c _ (told.modify c (·.tcpClosed)) stepped
      · have closed := told.modify c (·.withTcp .disconnected)
        exact delivered c _ (closed.onConnectionDown c) stepped
  | evict now =>
    cases stepped
    refine evictIdle_keeps (fun r c kept => ?_) p now writes
    exact (kept.refile _ r.busy r.connecting).modify c _

theorem Writes.step (e : Event) (other : ∀ req, e ≠ .request req) (stepped : p.step e = some q) :
    Writes asked host q := by
  cases e with
  | request req => exact absurd rfl (other req)
  | resolved addrs err =>
    simp only [ConnectionPool.step] at stepped
    split at stepped <;> cases stepped
    exact writes.onResolved addrs err
  | returns =>
    simp only [ConnectionPool.step] at stepped
    split at stepped <;> cases stepped
    next stack _ =>
      have unwound : Writes asked host { p with stack } := { writes with }
      exact unwound.exec _
  | engine c fails =>
    cases stepped
    exact writes.modify c _
  | loop e =>
    simp only [ConnectionPool.step] at stepped
    split at stepped
    · exact writes.loopStep e stepped
    · cases stepped

end Writes

theorem writes_initial (tls : Bool) (host : Bytes) (maxConnections : Nat) (idleTimeoutS : UInt32)
    (resolved : Bool) : Writes [] host (initial tls host maxConnections idleTimeoutS resolved) where
  fixed := rfl
  issued := rfl
  parked := nofun
  queued := nofun
  pending := nofun
  sent := nofun

end Cox.Http.ConnectionPool

import Cox.Http.PoolPartition

/-!
# Dead connections of a TLS pool

When a TLS pool's connection is up, `TlsConnection::start` points the callback slots of
the TCP connection at the `TlsConnection`. Its handler for a disconnect only notes the
fact, and the pool sets no close callback on it, so no handler of the pool runs and the
connection stays in its list for good.
-/
namespace Cox.Http.ConnectionPool

open Cox.Lib List

/-- A TCP connection that is or was up reports to the `TlsConnection`. -/
def Wrapped (x : PooledConn) : Prop := x.tcp ≠ .connecting → x.slot = .tlsConnection

/-- A suspended task of a TLS pool: only connections that the pool holds are read from,
and none is dropped. -/
def TaskHeld (p : ConnectionPool) : Task → Prop
  | .onClosed _ => False
  | .tlsStatus c _ => p.holds c
  | .invoke _ _ _ | .close _ => True

/-- The pool `q` holds what `p` holds, and every connection that has gone down in
between. -/
structure Retains (p q : ConnectionPool) : Prop where
  tls : q.tls = p.tls
  held : ∀ c, p.holds c → q.holds c
  downs : ∀ c k, Note.down c k ∈ q.log → Note.down c k ∈ p.log ∨ q.holds c
  wraps : (∀ c, Wrapped (p.conns c)) → ∀ c, Wrapped (q.conns c)
  frames : ∀ frame ∈ q.stack, frame ∈ p.stack ∨ ∀ t ∈ frame, TaskHeld q t

namespace Retains

theorem refl (p : ConnectionPool) : Retains p p :=
  ⟨rfl, fun _ h => h, fun _ _ h => .inl h, fun h => h, fun _ h => .inl h⟩

theorem taskHeld {p q : ConnectionPool} (retains : Retains p q) (t : Task) (ok : TaskHeld p t) :
    TaskHeld q t := by
  cases t with
  | tlsStatus c status => exact retains.held c ok
  | onClosed | invoke | close => exact ok

theorem trans {p q r : ConnectionPool} (first : Retains p q) (second : Retains q r) :
    Retains p r where
  tls := second.tls.trans first.tls
  held c h := second.held c (first.held c h)
  downs c k h := by
    rcases second.downs c k h with old | held
    · exact (first.downs c k old).imp id (second.held c)
    · exact .inr held
  wraps h := second.wraps (first.wraps h)
  frames frame h := by
    rcases second.frames frame h with old | ok
    · exact (first.frames frame old).imp id (fun ok t inside => second.taskHeld t (ok t inside))
    · exact .inr ok

theorem of_lists {p q : ConnectionPool} (tls : q.tls = p.tls) (log : q.log = p.log)
    (conns : q.conns = p.conns) (stack : q.stack = p.stack)
    (held : ∀ c, p.holds c → q.holds c) : Retains p q where
  tls := tls
  held := held
  downs _ _ h := .inl (log ▸ h)
  wraps h c := conns ▸ h c
  frames _ h := .inl (stack ▸ h)

end Retains

theorem mem_erase_or (l : List ConnId) (c d : ConnId) (member : d ∈ l) : d ∈ l.erase c ∨ d = c := by
  by_cases here : d = c
  · exact .inr here
  · exact .inl ((mem_erase_of_ne here).mpr member)

section Frame

variable (p : ConnectionPool) (c : ConnId)

theorem retains_modify (f : PooledConn → PooledConn)
    (wraps : Wrapped (p.conns c) → Wrapped (f (p.conns c))) :
    Retains p (p.modify c f) where
  tls := rfl
  held _ h := h
  downs _ _ h := .inl h
  wraps all d := by
    by_cases here : d = c
    · subst here
      rw [modify_conns_self]
      exact wraps (all d)
    · rw [modify_conns_of_ne p c d f here]
      exact all d
  frames _ h := .inl h

theorem retains_note (n : Note) (held : ∀ c k, n = .down c k → p.holds c) :
    Retains p (p.note n) where
  tls := rfl
  held _ h := h
  downs c k h := by
    rcases mem_append.mp h with old | new
    · exact .inl old
    · exact .inr (held c k (mem_singleton.mp new).symm)
  wraps all := all
  frames _ h := .inl h

theorem retains_tlsDown (up : (p.conns c).tcp ≠ .connecting) (held : p.holds c) :
    Retains p (p.tlsDown c) :=
  (retains_note p _ (fun _ _ h => by cases h; exact held)).trans
    (retains_modify _ c _ (fun wrapped _ => wrapped up))

theorem retains_forceClose (held : p.holds c) : Retains p (p.forceClose c) := by
  unfold forceClose
  split
  next open' =>
    -- `forceClose` does nothing to a connection that is not up yet
    refine retains_tlsDown p c (fun connecting => ?_) held
    simp [connecting] at open'
  · exact Retains.refl p

theorem retains_shutdown : Retains p (p.modify c (·.shutdown)) := by
  refine retains_modify p c _ (fun wrapped => ?_)
  unfold PooledConn.shutdown
  split
  next connected => exact fun _ => wrapped (by simp [connected])
  · exact wrapped

theorem retains_close : Retains p (p.modify c (·.close)) := by
  obtain ⟨_, slot, _, _, _, tcp⟩ := close_same (p.conns c)
  exact retains_modify p c _ (fun wrapped up => slot.trans (wrapped (fun h => up (tcp.mpr h))))

theorem retains_send (wire : Bytes) (held : p.holds c) : Retains p (p.send c wire) := by
  have sent : Retains p (p.note (.sent c (p.conns c).callback wire)) :=
    retains_note p _ (fun _ _ h => by cases h)
  unfold send
  split
  · split
    · exact Retains.refl p
    · split
      · exact retains_forceClose p c held
      · exact sent
  · split
    · exact sent
    · exact Retains.refl p

theorem retains_start (pending : Pending) (held : p.holds c) : Retains p (p.start c pending) := by
  have noted : Retains p (p.note (.started c (p.conns c).callback)) :=
    retains_note p _ (fun _ _ h => by cases h)
  have begun := noted.trans (retains_modify _ c (·.begin pending.id) (fun wrapped => wrapped))
  exact begun.trans (retains_send _ c _ held)

theorem retains_newConn (pending : Pending) : Retains p (p.newConn pending) where
  tls := rfl
  held c h := by
    rcases h with h | h | h
    · exact .inl h
    · exact .inr (.inl h)
    · exact .inr (.inr (mem_append_left _ h))
  downs _ _ h := .inl h
  wraps all d := by
    by_cases here : d = p.nextConn
    · simp [newConn, here, Wrapped]
    · simp only [newConn, Function.update_of_ne here]
      exact all d
  frames _ h := .inl h

theorem retains_dispatch (pending : Pending) : Retains p (p.dispatch pending) := by
  unfold dispatch
  split
  next c found =>
    have last := dropLast_append_getLast? c found
    -- the connection changes lists and stays held
    have moved : Retains p { p with idle := p.idle.dropLast, busy := p.busy ++ [c] } := by
      refine Retains.of_lists rfl rfl rfl rfl (fun d h => ?_)
      simp only [holds] at h ⊢
      rw [← last] at h
      simp only [mem_append, mem_singleton] at h ⊢
      tauto
    exact moved.trans (retains_start _ c pending (by simp [holds]))
  · split
    · exact retains_newConn p pending
    · exact Retains.of_lists rfl rfl rfl rfl (fun _ h => h)

theorem retains_dispatchAll (waiting : List Pending) : Retains p (waiting.foldl dispatch p) := by
  induction waiting generalizing p with
  | nil => exact Retains.refl p
  | cons pending waiting ih => exact (retains_dispatch p pending).trans (ih _)

theorem retains_request (req : HttpRequest) : Retains p (p.request req) := by
  have counted : Retains p { p with issued := p.issued + 1 } :=
    Retains.of_lists rfl rfl rfl rfl (fun _ h => h)
  unfold request
  dsimp only
  split
  · exact counted.trans (retains_dispatch _ _)
  · exact Retains.of_lists rfl rfl rfl rfl (fun _ h => h)

theorem retains_onReady : Retains p (p.onReady c) := by
  have others := mem_erase_or p.connecting c
  unfold onReady
  dsimp only
  split
  next pending waits =>
    have moved : Retains p { p with
        connecting := p.connecting.erase c
        busy := p.busy ++ [c]
        pending := Function.update p.pending c none } := by
      refine Retains.of_lists rfl rfl rfl rfl (fun d h => ?_)
      have other := others d
      simp only [holds, mem_append, mem_singleton] at h ⊢
      tauto
    exact moved.trans (retains_start _ c pending (by simp [holds]))
  · refine Retains.of_lists rfl rfl rfl rfl (fun d h => ?_)
    have other := others d
    simp only [holds, mem_append, mem_singleton] at h ⊢
    tauto

theorem retains_onFree : Retains p (p.onFree c) := by
  have others := mem_erase_or p.busy c
  unfold onFree
  dsimp only
  split
  next pending queue next =>
    have moved : Retains p { p with queue, busy := p.busy.erase c ++ [c] } := by
      refine Retains.of_lists rfl rfl rfl rfl (fun d h => ?_)
      have other := others d
      simp only [holds, mem_append, mem_singleton] at h ⊢
      tauto
    exact moved.trans (retains_start _ c pending (by simp [holds]))
  · refine Retains.of_lists rfl rfl rfl rfl (fun d h => ?_)
    have other := others d
    simp only [holds, mem_append, mem_singleton] at h ⊢
    tauto

theorem retains_afterRead (status : TlsStatus) (held : p.holds c) :
    Retains p (p.afterRead c status) := by
  cases status with
  | ok | wantIo => exact Retains.refl p
  | closed => exact retains_shutdown p c
  | error => exact retains_forceClose p c held

theorem retains_exec (tasks : List Task) (ok : ∀ t ∈ tasks, TaskHeld p t) :
    Retains p (exec tasks p) := by
  induction tasks generalizing p with
  | nil => exact Retains.refl p
  | cons t rest ih =>
    obtain ⟨first, later⟩ := forall_mem_cons.mp ok
    have onward (q : ConnectionPool) (retains : Retains p q) : Retains p (exec rest q) :=
      retains.trans (ih q (fun t h => retains.taskHeld t (later t h)))
    cases t with
    | invoke id resp err =>
      have noted : Retains p (p.note (.invoked id resp err)) :=
        retains_note p _ (fun _ _ h => by cases h)
      -- what follows the callback is the only new frame
      exact { noted with
        frames := forall_mem_cons.mpr ⟨.inr later, fun _ => .inl⟩ }
    | close c => exact onward _ (retains_close p c)
    | onClosed c => exact first.elim
    | tlsStatus c status => exact onward _ (retains_afterRead p c status first)

/-! ### The handlers -/

theorem taskHeld_answer (taken : Option ReqId) (resp : HttpResponse) (err : Bytes)
    (after : List Task) (ok : ∀ t ∈ after, TaskHeld p t) :
    ∀ t ∈ (taken.toList.map fun id => Task.invoke id resp err) ++ after, TaskHeld p t := by
  refine forall_mem_append.mpr ⟨?_, ok⟩
  simp [TaskHeld]

theorem retains_consume (now : UInt64) :
    Retains p (p.consume c now).1 ∧ ∀ q, ∀ t ∈ (p.consume c now).2, TaskHeld q t := by
  unfold consume
  dsimp only
  split
  · constructor
    · exact retains_modify p c _ (fun wrapped => wrapped)
    · exact fun q => taskHeld_answer q _ _ _ _ (by simp [TaskHeld])
  -- a complete response hands the connection on or closes it; neither drops it
  · split
    · have completed : Retains p (p.modify c (·.completed now)) :=
        retains_modify p c _ (fun wrapped => wrapped)
      constructor
      · dsimp only
        split
        · exact completed.trans (retains_onFree _ c)
        · exact completed.trans (retains_close _ c)
      · intro q t inside
        obtain ⟨id, _, rfl⟩ := mem_map.mp inside
        trivial
    · constructor
      · exact retains_modify p c _ (fun wrapped => wrapped)
      · simp

theorem retains_driveHandshake (outcome : Handshake) (now : UInt64) (held : p.holds c) :
    Retains p (p.driveHandshake c outcome now) := by
  unfold driveHandshake
  split
  · exact Retains.refl p
  · cases outcome with
    | pending => exact Retains.refl p
    | error => exact retains_forceClose p c held
    | done =>
      have secured := retains_modify p c (·.secured) (fun wrapped => wrapped)
      have ready := retains_modify (p.modify c (·.secured)) c (·.madeReady now)
        (fun wrapped => wrapped)
      exact (secured.trans ready).trans (retains_onReady _ c)

theorem retains_onConnectionUp (secure : p.tls = true) (c : ConnId) (outcome : Handshake)
    (now : UInt64) (held : p.holds c) :
    Retains p ((p.modify c (·.withTcp .connected)).onConnectionUp c outcome now) := by
  unfold onConnectionUp
  dsimp only
  rw [if_pos (by simp [modify, secure]), modify_modify, modify_modify]
  exact (retains_modify p c _ (fun _ _ => rfl)).trans (retains_driveHandshake _ c outcome now held)

theorem retains_onTlsMessage (outcome : Handshake) (plaintext : Bytes) (status : TlsStatus)
    (now : UInt64) (held : p.holds c) :
    Retains p (finish (p.onTlsMessage c outcome plaintext status now)) := by
  have driven : Retains p
      (if handshaking (p.conns c) then p.driveHandshake c outcome now else p) := by
    split
    · exact retains_driveHandshake p c outcome now held
    · exact Retains.refl p
  unfold onTlsMessage
  dsimp only
  -- `q` is the pool after the handshake has been driven on
  generalize (if handshaking (p.conns c) then p.driveHandshake c outcome now else p) = q
    at driven ⊢
  split
  · exact driven
  · split
    · refine driven.trans (retains_exec q _ (forall_mem_singleton.mpr ?_))
      exact driven.held c held
    · obtain ⟨consumed, tasks⟩ := retains_consume (q.modify c (·.receive plaintext)) c now
      have received := retains_modify q c (·.receive plaintext) (fun wrapped => wrapped)
      have whole := (driven.trans received).trans consumed
      refine whole.trans (retains_exec _ _ (forall_mem_append.mpr ⟨tasks _, ?_⟩))
      exact forall_mem_singleton.mpr (whole.held c held)

end Frame

/-! ### Runs -/

/-- The pool is a TLS pool, and no handler of it drops a connection. -/
structure Secured (p : ConnectionPool) : Prop where
  tls : p.tls = true
  wraps : ∀ c, Wrapped (p.conns c)
  frames : ∀ frame ∈ p.stack, ∀ t ∈ frame, TaskHeld p t

theorem Retains.secured {p q : ConnectionPool} (retains : Retains p q) (secured : Secured p) :
    Secured q where
  tls := retains.tls.trans secured.tls
  wraps := retains.wraps secured.wraps
  frames frame inStack t inside := by
    rcases retains.frames frame inStack with old | ok
    · exact retains.taskHeld t (secured.frames frame old t inside)
    · exact ok t inside

theorem retains_loopStep (p p' : ConnectionPool) (e : LoopEvent) (secured : Secured p)
    (stays : ∀ now, e ≠ .evict now) (stepped : p.loopStep e = some p') : Retains p p' := by
  have unheld := Retains.refl p
  cases e with
  | established c outcome now =>
    simp only [loopStep] at stepped
    split at stepped
    · exact deliver_keeps (P := Retains p) stepped unheld
        (retains_onConnectionUp p secured.tls c outcome now)
    · cases stepped
  | received c data now =>
    -- the slots lead to the `TlsConnection`
    simp only [loopStep] at stepped
    split at stepped
    · cases stepped
    next up =>
      rw [not_or] at up
      exact absurd (secured.wraps c up.1) up.2
  | decrypted c outcome plaintext status now =>
    simp only [loopStep] at stepped
    split at stepped
    · cases stepped
    · exact deliver_keeps (P := Retains p) stepped unheld
        (retains_onTlsMessage p c outcome plaintext status now)
  | down c =>
    simp only [loopStep] at stepped
    split at stepped
    · cases stepped
    next up =>
      -- the slot of a connection that was up leads to `TlsConnection`, which drops nothing
      rw [secured.wraps c up] at stepped
      exact deliver_keeps (P := Retains p) stepped unheld (retains_tlsDown p c up)
  | evict now => exact absurd rfl (stays now)

theorem Secured.evictIdle {p : ConnectionPool} (secured : Secured p) (now : UInt64)
    (idling : p.stack = []) : Secured (p.evictIdle now) ∧ (p.evictIdle now).log = p.log := by
  have kept := evictIdle_keeps (P := fun q => Secured q ∧ q.stack = [] ∧ q.log = p.log)
    (fun q c kept => ?_) p now ⟨secured, idling, rfl⟩
  · exact ⟨kept.1, kept.2.2⟩
  · have shorter : Secured { q with idle := q.idle.erase c } :=
      { kept.1 with frames := by simp [kept.2.1] }
    exact ⟨(retains_close _ c).secured shorter, kept.2⟩

/-- Whatever happens, a connection that goes down in a step is held after it. -/
theorem Secured.step {p p' : ConnectionPool} (secured : Secured p) (e : Event)
    (stepped : p.step e = some p') :
    Secured p' ∧ ∀ c k, Note.down c k ∈ p'.log → Note.down c k ∈ p.log ∨ p'.holds c := by
  have keeps (retains : Retains p p') :
      Secured p' ∧ ∀ c k, Note.down c k ∈ p'.log → Note.down c k ∈ p.log ∨ p'.holds c :=
    ⟨retains.secured secured, retains.downs⟩
  cases moves_step stepped with
  | request req => exact keeps (retains_request p req)
  | resolved addrs err =>
    apply keeps
    unfold onResolved
    dsimp only
    split
    · have unparked : Retains p { p with resolving := false, waitingOnDns := [] } :=
        Retains.of_lists rfl rfl rfl rfl (fun _ h => h)
      refine unparked.trans (retains_exec _ _ (fun t inside => ?_))
      obtain ⟨w, _, rfl⟩ := mem_map.mp inside
      trivial
    · have ready : Retains p { p with resolving := false, waitingOnDns := [], resolved := true } :=
        Retains.of_lists rfl rfl rfl rfl (fun _ h => h)
      exact ready.trans (retains_dispatchAll _ p.waitingOnDns)
  | returns frame stack framed =>
    have member : frame ∈ p.stack := framed ▸ mem_cons_self ..
    have popped : Retains p { p with stack } :=
      ⟨rfl, fun _ h => h, fun _ _ h => .inl h, fun h => h,
        fun _ h => .inl (framed ▸ mem_cons_of_mem _ h)⟩
    exact keeps (popped.trans (retains_exec _ frame (secured.frames frame member)))
  | engine c fails => exact keeps (retains_modify p c _ (fun wrapped => wrapped))
  | loop e idling looped =>
    cases e with
    | evict now =>
      cases looped
      obtain ⟨kept, log⟩ := secured.evictIdle now idling
      exact ⟨kept, fun c k h => .inl (log ▸ h)⟩
    | established | received | decrypted | down =>
      exact keeps (retains_loopStep p p' _ secured (by simp) looped)

/-- The pool has dropped every connection that has gone down, and answered the request
it carried or was about to carry with an error. -/
def NoticesDead (p : ConnectionPool) : Prop :=
  ∀ c carried, Note.down c carried ∈ p.log →
    ¬p.holds c ∧ p.pending c = none ∧
    ∀ id, carried = some id → ∃ resp err, Note.invoked id resp err ∈ p.log ∧ err ≠ []

/-- No connection of the pool has delivered a disconnect notification. -/
def NothingDown (p : ConnectionPool) : Prop := ∀ c carried, Note.down c carried ∉ p.log

/-- A TLS pool notices no dead connection at all: along a run it meets what is asked of it
exactly as long as no connection goes down. -/
theorem noticesDead_iff (host : Bytes) (maxConnections : Nat) (idleTimeoutS : UInt32)
    (resolved : Bool) (events : List Event) :
    let start := initial true host maxConnections idleTimeoutS resolved
    Machine.Always step NoticesDead start events ↔ Machine.Always step NothingDown start events := by
  intro start
  have secured : Secured start := by
    constructor
    · rfl
    · exact fun _ up => absurd rfl up
    · exact fun _ h => by cases h
  constructor
  · intro always
    -- the first connection that goes down is still held then, against `NoticesDead`
    refine Machine.Always.carries (fun _ e _ secured stepped => (Secured.step secured e stepped).1)
      (fun p e p' secured quiet stepped noticed c k down => ?_) start events secured
      (fun _ _ h => by cases h) always
    rcases (Secured.step secured e stepped).2 c k down with old | held
    · exact quiet c k old
    · exact (noticed c k down).1 held
  · exact Machine.Always.mono (fun p quiet c k down => absurd down (quiet c k)) start events

/-- The handshake of the only connection fails. -/
def failedHandshake : List Event :=
  [.request { method := .get, path := text "/" }, .loop (.established 0 .error 5)]

/-- The connection stays in `connecting_` with its request, which is never answered. -/
theorem failedHandshake_unnoticed :
    ¬Machine.Always step NoticesDead (initial true (text "origin") 2 60 true) failedHandshake := by
  intro always
  have ran : (Machine.run step (initial true (text "origin") 2 60 true) failedHandshake).map
      (fun p => (p.connecting, p.log)) = some ([0], [.down 0 (some 0)]) := by decide +kernel
  obtain ⟨last, reached, seen⟩ := Option.map_eq_some_iff.mp ran
  obtain ⟨connecting, log⟩ := Prod.mk.injEq .. ▸ seen
  have noticed := (always.last _ _ _ reached) 0 (some 0) (by rw [log]; exact List.mem_singleton.mpr rfl)
  exact noticed.1 (Or.inr (Or.inr (by rw [connecting]; exact List.mem_singleton.mpr rfl)))

end Cox.Http.ConnectionPool

import Cox.Lib.Holdings
import Cox.Http.PoolCapacity

/-!
# No request is lost or answered twice

In a plaintext pool whose server sends bytes only while a request is in flight, every
request that was issued has either been answered once or is in exactly one place, the
number of connections stays within its limit, and requests are queued only when all
connections are taken.
-/
namespace Cox.Http

open Cox.Lib List Function

def Note.answers : Note → Option ReqId
  | .invoked id _ _ => some id
  | .started _ _ | .sent _ _ _ | .down _ _ => none

def Task.answers : Task → Option ReqId
  | .invoke id _ _ => some id
  | .close _ | .onClosed _ | .tlsStatus _ _ => none

namespace ConnectionPool

/-! ### Where the requests are -/

def callbackOf (p : ConnectionPool) (c : ConnId) : Option ReqId := (p.conns c).callback

def pendingOf (p : ConnectionPool) (c : ConnId) : Option ReqId := (p.pending c).map (·.id)

def answered (p : ConnectionPool) : List ReqId := p.log.filterMap Note.answers

/-- The requests that the pool holds: parked, queued, waiting for their connection, or
on one. -/
def places (p : ConnectionPool) : List ReqId :=
  p.waitingOnDns.map (·.id) ++ p.queue.map (·.id) ++ holdings p.pendingOf p.connecting ++
    holdings p.callbackOf p.busy

/-- The requests that a suspended handler is about to answer, of which there are none
while no handler is running. -/
def onStack (p : ConnectionPool) : List ReqId := p.stack.flatten.filterMap Task.answers

def occurrences (p : ConnectionPool) (id : ReqId) : Nat :=
  p.answered.count id + p.places.count id + p.onStack.count id

/-- The pool `q` has the requests of `p`, and those in the list. -/
structure Gains (p q : ConnectionPool) (ids : List ReqId) : Prop where
  issued : q.issued = p.issued
  occurs : ∀ id, q.occurrences id = p.occurrences id + ids.count id

theorem Gains.refl (p : ConnectionPool) : Gains p p [] := ⟨rfl, fun _ => rfl⟩

theorem Gains.trans {p q r : ConnectionPool} {ids ids' : List ReqId} (first : Gains p q ids)
    (second : Gains q r ids') : Gains p r (ids ++ ids') where
  issued := second.issued.trans first.issued
  occurs id := by
    rw [second.occurs id, first.occurs id, count_append]
    omega

theorem Gains.back {p q r : ConnectionPool} {ids : List ReqId} (taken : Gains q p ids)
    (again : Gains q r ids) : Gains p r [] where
  issued := again.issued.trans taken.issued.symm
  occurs id := by
    rw [again.occurs id, taken.occurs id]
    rfl

theorem Gains.after {p q r : ConnectionPool} {ids : List ReqId} (taken : Gains q p ids)
    (moved : Gains q r []) : Gains r p ids where
  issued := taken.issued.trans moved.issued.symm
  occurs id := by
    rw [taken.occurs id, moved.occurs id]
    rfl

theorem gains_of_same {p q : ConnectionPool} (issued : q.issued = p.issued)
    (answered : q.answered = p.answered) (places : q.places = p.places)
    (onStack : q.onStack = p.onStack) : Gains p q [] where
  issued := issued
  occurs id := by
    simp only [occurrences, answered, places, onStack]
    rfl

section Modify

variable (p : ConnectionPool) (c : ConnId) (f : PooledConn → PooledConn)
  (same : (f (p.conns c)).callback = (p.conns c).callback)
include same

theorem callbackOf_modify : (p.modify c f).callbackOf = p.callbackOf := by
  funext d
  by_cases here : d = c
  · subst here
    simp only [callbackOf, modify_conns_self, same]
  · simp only [callbackOf, modify_conns_of_ne p c d f here]

theorem gains_modify : Gains p (p.modify c f) [] := by
  refine gains_of_same rfl rfl ?_ rfl
  simp only [places, callbackOf_modify p c f same]
  rfl

end Modify

section Moves

variable (p : ConnectionPool) (c : ConnId)

theorem occurrences_modify (f : PooledConn → PooledConn) (single : p.busy.count c = 1)
    (id : ReqId) :
    (p.modify c f).occurrences id + (p.conns c).callback.toList.count id =
      p.occurrences id + (f (p.conns c)).callback.toList.count id := by
  -- the other places do not look at what connections carry
  have changed := count_holdings_change p.callbackOf (p.modify c f).callbackOf p.busy c id single
    (fun d other => by simp only [callbackOf, modify_conns_of_ne p c d f other])
  have now : (p.modify c f).callbackOf c = (f (p.conns c)).callback := by
    simp only [callbackOf, modify_conns_self]
  have before : p.callbackOf c = (p.conns c).callback := rfl
  rw [now, before] at changed
  have pendings : (p.modify c f).pendingOf = p.pendingOf := rfl
  simp only [occurrences, places, count_append, pendings]
  simp only [answered, onStack, modify] at changed ⊢
  omega

theorem gains_taken (tidy : Tidy p) (c : ConnId) (f : PooledConn → PooledConn)
    (dropped : (f (p.conns c)).callback = none) :
    Gains (p.modify c f) p (p.conns c).callback.toList := by
  -- only a busy connection carries something, and it is in `busy_` once
  cases carried : (p.conns c).callback with
  | none =>
    have same := gains_modify p c f (dropped.trans carried.symm)
    exact ⟨same.issued.symm, fun id => (same.occurs id).symm⟩
  | some old =>
    have busy := (tidy.carrying c (by simp [carried])).1
    refine ⟨rfl, fun id => ?_⟩
    have moved := occurrences_modify p c f ((tidy.exclusive c).2.1 busy).1 id
    rw [dropped, carried] at moved
    simpa using moved.symm

theorem gains_note (n : Note) : Gains p (p.note n) n.answers.toList := by
  refine ⟨rfl, fun id => ?_⟩
  have more : (p.note n).answered = p.answered ++ n.answers.toList := by
    simp only [answered, note, filterMap_append]
    cases n <;> rfl
  have rest : (p.note n).places = p.places ∧ (p.note n).onStack = p.onStack := ⟨rfl, rfl⟩
  simp only [occurrences, more, rest, count_append]
  omega

theorem gains_send (tidy : Tidy p) (c : ConnId) (wire : Bytes) : Gains p (p.send c wire) [] := by
  unfold send
  rw [tidy.noTls c]
  dsimp only
  split
  · exact gains_note p _
  · exact Gains.refl p

theorem gains_start (tidy : Tidy p) (c : ConnId) (pending : Pending) (member : c ∈ p.busy)
    (free : (p.conns c).callback = none) (stays : ∀ frame ∈ p.stack, Task.onClosed c ∉ frame) :
    Gains p (p.start c pending) [pending.id] := by
  have noted : Tidy (p.note (.started c (p.conns c).callback)) :=
    tidy.note _ (fun _ _ h => by cases h; exact free)
  -- note, begin and send: only the second moves the request
  have begun := noted.begin c pending.id member stays
  have first := gains_note p (.started c (p.conns c).callback)
  have second : Gains (p.note (.started c (p.conns c).callback))
      ((p.note (.started c (p.conns c).callback)).modify c (·.begin pending.id)) [pending.id] := by
    refine ⟨rfl, fun id => ?_⟩
    have moved := occurrences_modify (p.note (.started c (p.conns c).callback)) c
      (·.begin pending.id) ((tidy.exclusive c).2.1 member).1 id
    have nothing : ((p.note (.started c (p.conns c).callback)).conns c).callback = none := free
    rw [nothing] at moved
    simpa [PooledConn.begin] using moved
  exact (first.trans second).trans (gains_send _ begun c _)

theorem gains_newConn (tidy : Tidy p) (pending : Pending) :
    Gains p (p.newConn pending) [pending.id] := by
  have absent : ¬p.holds p.nextConn := fun h => Nat.lt_irrefl _ (tidy.known _ h)
  simp only [holds, not_or] at absent
  -- the request waits for the new connection, which nothing else refers to
  have waits : holdings (p.newConn pending).pendingOf (p.newConn pending).connecting =
      holdings p.pendingOf p.connecting ++ [pending.id] := by
    have others : holdings (p.newConn pending).pendingOf p.connecting =
        holdings p.pendingOf p.connecting :=
      holdings_congr _ _ _ (fun c h => by
        have other : c ≠ p.nextConn := fun same => absent.2.2 (same ▸ h)
        simp [pendingOf, newConn, other])
    have here : (p.newConn pending).pendingOf p.nextConn = some pending.id := by
      simp [pendingOf, newConn]
    have lists : (p.newConn pending).connecting = p.connecting ++ [p.nextConn] := rfl
    rw [lists, holdings_append, others, holdings_singleton, here]
    rfl
  have carried : holdings (p.newConn pending).callbackOf p.busy = holdings p.callbackOf p.busy :=
    holdings_congr _ _ _ (fun c h => by
      have other : c ≠ p.nextConn := fun same => absent.2.1 (same ▸ h)
      simp [callbackOf, newConn, other])
  refine ⟨rfl, fun id => ?_⟩
  have lists : (p.newConn pending).busy = p.busy := rfl
  simp only [occurrences, places, waits, lists, carried, count_append]
  simp only [answered, onStack, newConn]
  omega

theorem gains_parked (waitingOnDns queue : List Pending) (resolving resolved : Bool)
    (ids : List ReqId)
    (more : ∀ id, (waitingOnDns.map (·.id)).count id + (queue.map (·.id)).count id =
      (p.waitingOnDns.map (·.id)).count id + (p.queue.map (·.id)).count id + ids.count id) :
    Gains p { p with waitingOnDns, queue, resolving, resolved } ids where
  issued := rfl
  occurs id := by
    have counts := more id
    have callbacks : callbackOf { p with waitingOnDns, queue, resolving, resolved } =
      p.callbackOf := rfl
    have pendings : pendingOf { p with waitingOnDns, queue, resolving, resolved } =
      p.pendingOf := rfl
    simp only [occurrences, places, callbacks, pendings, count_append]
    simp only [answered, onStack]
    omega

theorem gains_refile (idle busy : List ConnId)
    (same : ∀ id, (holdings p.callbackOf busy).count id = (holdings p.callbackOf p.busy).count id) :
    Gains p { p with idle, busy } [] where
  issued := rfl
  occurs id := by
    have callbacks : callbackOf { p with idle, busy } = p.callbackOf := rfl
    have pendings : pendingOf { p with idle, busy } = p.pendingOf := rfl
    simp only [occurrences, places, callbacks, pendings, count_append, same id]
    rfl

theorem count_holdings_busy_erase (id : ReqId) (free : (p.conns c).callback = none) :
    (holdings p.callbackOf (p.busy.erase c)).count id = (holdings p.callbackOf p.busy).count id := by
  by_cases member : c ∈ p.busy
  · have erased := count_holdings_erase p.callbackOf p.busy c id member
    have nothing : p.callbackOf c = none := free
    rw [nothing] at erased
    simpa using erased
  · rw [erase_of_not_mem member]

theorem holdings_snoc_free (busy : List ConnId) (c : ConnId) (free : (p.conns c).callback = none) :
    holdings p.callbackOf (busy ++ [c]) = holdings p.callbackOf busy := by
  have nothing : p.callbackOf c = none := free
  rw [holdings_append, holdings_singleton, nothing]
  exact append_nil _

theorem gains_dispatch (tidy : Tidy p) (pending : Pending) :
    Gains p (p.dispatch pending) [pending.id] := by
  unfold dispatch
  split
  next c found =>
    have last : p.idle = p.idle.dropLast ++ [c] := (dropLast_append_getLast? c found).symm
    have idle : c ∈ p.idle := mem_of_getLast? found
    have free := (tidy.rested c idle).2
    -- an idle connection carries nothing, so refiling it moves no request
    have moved : Gains p { p with idle := p.idle.dropLast, busy := p.busy ++ [c] } [] :=
      gains_refile p _ _ (fun id => by rw [holdings_snoc_free p _ c free])
    refine moved.trans (gains_start _ (tidy.reuse _ c last) c pending (by simp) free ?_)
    intro frame inStack inside
    exact (tidy.suspended frame inStack _ inside).2.2.2 idle
  · split
    · exact gains_newConn p tidy pending
    · exact gains_parked p p.waitingOnDns (p.queue ++ [pending]) p.resolving p.resolved _
        (fun id => by simp [Nat.add_assoc])

theorem gains_dispatchAll (tidy : Tidy p) (waiting : List Pending) :
    Gains p (waiting.foldl dispatch p) (waiting.map (·.id)) := by
  induction waiting generalizing p with
  | nil => exact Gains.refl p
  | cons pending waiting ih =>
    exact (gains_dispatch p tidy pending).trans (ih _ (tidy.dispatch pending))

theorem gains_close : Gains p (p.modify c (·.close)) [] := by
  obtain ⟨_, _, callback, _⟩ := close_same (p.conns c)
  exact gains_modify p c _ callback

theorem gains_dequeue (pending : Pending) (queue : List Pending) (next : p.queue = pending :: queue) :
    Gains { p with queue } p [pending.id] :=
  gains_parked { p with queue } p.waitingOnDns p.queue p.resolving p.resolved _ (fun id => by
    simp only [next, map_cons, count_cons, count_nil]
    omega)

theorem gains_onFree (tidy : Tidy p) (c : ConnId) (member : c ∈ p.busy)
    (rest : (p.conns c).busy = false) (free : (p.conns c).callback = none) (idling : p.stack = []) :
    Gains p (p.onFree c) [] := by
  obtain ⟨again, idle⟩ := tidy.refile c member rest free idling
  unfold onFree
  dsimp only
  split
  next pending queue next =>
    -- the request leaves the queue and is on the connection in the end
    have moved : Gains { p with queue } { p with queue, busy := p.busy.erase c ++ [c] } [] :=
      gains_refile { p with queue } p.idle _ (fun id => by
        rw [holdings_snoc_free { p with queue } _ c free]
        exact count_holdings_busy_erase p c id free)
    have ready : Tidy { p with queue, busy := p.busy.erase c ++ [c] } :=
      { again with suspended := again.suspended }
    have started := gains_start _ ready c pending (by simp) free (by simp [idling])
    exact (gains_dequeue p pending queue next).back (moved.trans started)
  · exact gains_refile p _ _ (fun id => count_holdings_busy_erase p c id free)

theorem gains_onClosed (tidy : Tidy p) (c : ConnId) (up : (p.conns c).tcp ≠ .connecting)
    (free : (p.conns c).callback = none) : Gains p (p.onClosed c) [] := by
  have absent : c ∉ p.connecting := fun h => up ((tidy.phase c).mp h).2
  have nothing : p.pending c = none := by
    by_contra h
    exact absent ((tidy.waiting c).mp h)
  have pendings : update p.pending c none = p.pending := by
    rw [← nothing, update_eq_self]
  have forgotten := tidy.forget c up free
  -- the connection carries nothing, so nothing is lost with it
  have dropped : Gains p { p with idle := p.idle.erase c, busy := p.busy.erase c } [] :=
    gains_refile p _ _ (fun id => count_holdings_busy_erase p c id free)
  rw [pendings, erase_of_not_mem absent] at forgotten
  unfold onClosed
  dsimp only
  rw [pendings, erase_of_not_mem absent]
  split
  next pending queue next =>
    split
    · -- the replacement takes over the request from the head of the queue
      have shorter : Tidy { p with idle := p.idle.erase c, busy := p.busy.erase c, queue } :=
        { forgotten with suspended := forgotten.suspended }
      have taken := gains_dequeue { p with idle := p.idle.erase c, busy := p.busy.erase c }
        pending queue next
      exact dropped.trans (taken.back (gains_newConn _ shorter pending))
    · exact dropped
  · exact dropped

theorem gains_suspend (frame : List Task) :
    Gains p { p with stack := frame :: p.stack } (frame.filterMap Task.answers) where
  issued := rfl
  occurs id := by
    have stacked : onStack { p with stack := frame :: p.stack } =
        frame.filterMap Task.answers ++ p.onStack := by
      simp only [onStack, flatten_cons, filterMap_append]
    have rest : places { p with stack := frame :: p.stack } = p.places := rfl
    simp only [occurrences, stacked, rest, count_append]
    simp only [answered]
    omega

theorem gains_exec (tidy : Tidy p) (tasks : List Task) (ok : ∀ t ∈ tasks, TaskOk p t) :
    Gains p (exec tasks p) (tasks.filterMap Task.answers) := by
  induction tasks generalizing p with
  | nil => exact Gains.refl p
  | cons t rest ih =>
    obtain ⟨first, later⟩ := forall_mem_cons.mp ok
    cases t with
    | invoke id resp err =>
      -- the callback is invoked, and the answers that follow wait on the stack
      exact (gains_note p (.invoked id resp err)).trans (gains_suspend _ rest)
    | close c =>
      exact (gains_close p c).trans
        (ih _ (tidy.close c) (fun t h => taskOk_close p c t (later t h)))
    | onClosed c =>
      exact (gains_onClosed p tidy c first.2.1 first.2.2.1).trans
        (ih _ (tidy.onClosed c first.2.1 first.2.2.1)
          (fun t h => taskOk_onClosed p c t (later t h)))
    | tlsStatus => exact first.elim

end Moves

theorem gains_answer (p q : ConnectionPool) (tidy : Tidy q) (carried : Option ReqId)
    (taken : Gains q p carried.toList) (resp : HttpResponse) (err : Bytes) (after : List Task)
    (ok : ∀ t ∈ after, TaskOk q t) (quiet : after.filterMap Task.answers = []) :
    Gains p (exec ((carried.toList.map fun id => Task.invoke id resp err) ++ after) q) [] := by
  have handled := gains_exec q tidy _ (taskOk_answer q carried resp err after ok)
  have answers : ((carried.toList.map fun id => Task.invoke id resp err) ++ after).filterMap
      Task.answers = carried.toList := by
    rw [filterMap_append, quiet]
    cases carried <;> rfl
  rw [answers] at handled
  exact taken.back handled

section Tidy

variable (p : ConnectionPool) (tidy : Tidy p) (c : ConnId)
include tidy

theorem gains_established (f : PooledConn → PooledConn) (member : c ∈ p.connecting)
    (pending : Pending) (waits : p.pending c = some pending) (free : (p.conns c).callback = none)
    (same : (f (p.conns c)).callback = (p.conns c).callback) :
    Gains { p.modify c f with
      connecting := p.connecting.erase c
      busy := p.busy ++ [c]
      pending := update p.pending c none } p [pending.id] := by
  -- `q` is the pool without the request, which is then started on the connection
  generalize moved : { p.modify c f with
      connecting := p.connecting.erase c
      busy := p.busy ++ [c]
      pending := update p.pending c none } = q
  have gone : c ∉ p.connecting.erase c := by
    have single := ((tidy.exclusive c).2.2 member).1
    rw [← count_pos_iff, count_erase_self]
    omega
  have waiting : holdings q.pendingOf q.connecting =
      holdings p.pendingOf (p.connecting.erase c) := by
    rw [← moved]
    exact holdings_congr _ _ _ (fun d h => by
      have other : d ≠ c := fun here => gone (here ▸ h)
      simp [pendingOf, other])
  have carried : holdings q.callbackOf q.busy = holdings p.callbackOf p.busy := by
    rw [← holdings_snoc_free p p.busy c free, ← callbackOf_modify p c f same, ← moved]
    rfl
  have rest : q.answered = p.answered ∧ q.onStack = p.onStack ∧ q.queue = p.queue ∧
      q.waitingOnDns = p.waitingOnDns := by
    rw [← moved]
    exact ⟨rfl, rfl, rfl, rfl⟩
  refine ⟨by rw [← moved]; rfl, fun id => ?_⟩
  have erased := count_holdings_erase p.pendingOf p.connecting c id member
  have here : p.pendingOf c = some pending.id := by simp [pendingOf, waits]
  rw [here, Option.toList_some] at erased
  simp only [occurrences, places, waiting, carried, rest, count_append]
  omega

theorem gains_onConnectionUp (outcome : Handshake) (now : UInt64) (member : c ∈ p.connecting)
    (idling : p.stack = []) :
    Gains p ((p.modify c (·.withTcp .connected)).onConnectionUp c outcome now) [] := by
  have free := tidy.free_of_connecting c member
  obtain ⟨pending, waits⟩ := Option.ne_none_iff_exists'.mp ((tidy.waiting c).mpr member)
  rw [onConnectionUp_eq p c outcome now pending tidy.plain waits]
  have ready := tidy.establish c
    (fun x => ((x.withTcp .connected).connectedAt now).madeReady now) member (tidy.noTls c)
    (tidy.slots c) (fun h => by cases h) free idling
  refine (gains_established p tidy c _ member pending waits free rfl).back
    (gains_start _ ready c pending (by simp) ?_ ?_)
  · dsimp only
    rw [modify_conns_self]
    exact free
  · show ∀ frame ∈ p.stack, _
    simp [idling]

theorem gains_consume (now : UInt64) (member : c ∈ p.busy) (idling : p.stack = []) :
    Gains p (finish (p.consume c now)) [] := by
  unfold consume
  dsimp only
  split
  · exact gains_answer p _ (tidy.malformed c) _ (gains_taken p tidy c _ rfl) _ _ _
      (by simp [TaskOk]) rfl
  · split
    -- complete: the callback is taken off, the connection handed on or closed, then answered
    · rw [← append_nil (List.map _ _)]
      have taken := gains_taken p tidy c (·.completed now) rfl
      split
      · have freed := gains_onFree _ (tidy.completed c now) c member
          (by rw [modify_conns_self]; rfl) (by rw [modify_conns_self]; rfl) idling
        exact gains_answer p _ (tidy.freed c now member idling) _ (taken.after freed) _ _ _
          (by simp) rfl
      · exact gains_answer p _ ((tidy.completed c now).close c) _
          (taken.after (gains_close _ c)) _ _ _ (by simp) rfl
    · exact gains_modify p c (·.waiting) rfl

theorem gains_onConnectionDown (up : (p.conns c).tcp ≠ .connecting) (below : c < p.nextConn) :
    Gains p (finish ((p.modify c (·.withTcp .disconnected)).onConnectionDown c)) [] := by
  rw [onConnectionDown_eq]
  split
  next flying =>
    refine gains_answer p _ (tidy.givenUp c up) _ (gains_taken p tidy c _ rfl) _ _ _
      (fun t h => ?_) rfl
    rw [mem_singleton.mp h]
    exact taskOk_dropped p tidy c below flying
  next resting =>
    have free := tidy.free_of_resting c resting
    refine (gains_modify p c _ rfl).trans (gains_onClosed _ (tidy.lost c up free) c ?_ ?_)
    · rw [modify_conns_self]
      exact fun h => by cases h
    · rw [modify_conns_self]
      exact free

end Tidy

theorem gains_evictIdle (p : ConnectionPool) (now : UInt64) : Gains p (p.evictIdle now) [] := by
  refine evictIdle_keeps (P := fun q => Gains p q []) (fun q c kept => ?_) p now (Gains.refl p)
  have dropped : Gains q { q with idle := q.idle.erase c } [] :=
    gains_refile q (q.idle.erase c) q.busy (fun _ => rfl)
  exact kept.trans (dropped.trans (gains_close _ c))

theorem gains_onResolved (p : ConnectionPool) (tidy : Tidy p) (addrs : List Bytes) (err : Bytes) :
    Gains p (finish (p.onResolved addrs err)) [] := by
  -- the parked requests are taken out, and each of them goes to one place again
  have unparked (resolved : Bool) :
      Gains { p with resolving := false, waitingOnDns := [], resolved } p
        (p.waitingOnDns.map (·.id)) :=
    gains_parked { p with resolving := false, waitingOnDns := [], resolved } p.waitingOnDns p.queue
      p.resolving p.resolved _ (fun id => by
        simp only [map_nil, count_nil]
        omega)
  have emptied (resolved : Bool) :
      Tidy { p with resolving := false, waitingOnDns := [], resolved } :=
    { tidy with suspended := tidy.suspended }
  unfold onResolved
  dsimp only
  split
  · -- every parked request is answered with the error
    generalize (if err = [] then text "no usable address" else err) = msg
    refine (unparked p.resolved).back ?_
    have answered := gains_exec _ (emptied p.resolved) (p.waitingOnDns.map fun w =>
      Task.invoke w.id {} (text "DNS resolution failed: " ++ msg)) (fun t inside => by
        obtain ⟨w, _, rfl⟩ := mem_map.mp inside
        trivial)
    have answers : ((p.waitingOnDns.map fun w =>
        Task.invoke w.id {} (text "DNS resolution failed: " ++ msg)).filterMap Task.answers) =
          p.waitingOnDns.map (·.id) := by
      rw [filterMap_map]
      exact congrFun filterMap_eq_map p.waitingOnDns
    rw [answers] at answered
    exact answered
  · exact (unparked true).back (gains_dispatchAll _ (emptied true) p.waitingOnDns)

/-! ### The ledger -/

/-- Every request that was issued occurs once, and no other. -/
def Ledger (p : ConnectionPool) : Prop :=
  ∀ id, p.occurrences id = if id < p.issued then 1 else 0

theorem Ledger.gains {p q : ConnectionPool} (ledger : Ledger p) (same : Gains p q []) :
    Ledger q := by
  intro id
  rw [same.occurs id, same.issued]
  exact ledger id

theorem Ledger.request {p : ConnectionPool} (ledger : Ledger p) (tidy : Tidy p)
    (req : HttpRequest) : Ledger (p.request req) := by
  have counted : Tidy { p with issued := p.issued + 1 } :=
    { tidy with suspended := tidy.suspended }
  have gained : Gains { p with issued := p.issued + 1 } (p.request req) [p.issued] := by
    unfold ConnectionPool.request
    dsimp only
    split
    · exact gains_dispatch _ counted _
    · exact gains_parked { p with issued := p.issued + 1 } (p.waitingOnDns ++ [⟨p.issued, req⟩])
        p.queue true p.resolved [p.issued] (fun id => by
          simp only [map_append, map_cons, map_nil, count_append]
          omega)
  intro id
  have before := ledger id
  rw [gained.occurs id, gained.issued]
  change p.occurrences id + _ = if id < p.issued + 1 then 1 else 0
  rw [before, count_singleton]
  grind

/-! ### Runs -/

/-- The server sends bytes on a connection only while a request is in flight on it. -/
def BytesInFlight (p : ConnectionPool) : Event → Prop
  | .loop (.received c _ _) => (p.conns c).inFlight = true
  | _ => True

instance (p : ConnectionPool) (e : Event) : Decidable (BytesInFlight p e) := by
  unfold BytesInFlight
  split <;> infer_instance

structure Sound (p : ConnectionPool) : Prop where
  tidy : Tidy p
  capped : Capped p
  ledger : Ledger p

theorem sound_initial (host : Bytes) (maxConnections : Nat) (idleTimeoutS : UInt32)
    (resolved : Bool) : Sound (initial false host maxConnections idleTimeoutS resolved) where
  tidy := tidy_initial host maxConnections idleTimeoutS resolved
  capped := ⟨Nat.zero_le _, fun queued => absurd rfl queued⟩
  ledger _ := rfl

theorem BytesInFlight.calm {p : ConnectionPool} (tidy : Tidy p) (e : Event)
    (flying : BytesInFlight p e) : NothingFreesIdle p e := by
  unfold NothingFreesIdle
  split
  next c data now => exact fun idle => absurd idle (tidy.inFlight_not_idle c flying)
  · trivial

theorem gains_loopStep (p p' : ConnectionPool) (e : LoopEvent) (sound : Sound p)
    (flying : BytesInFlight p (.loop e)) (idling : p.stack = [])
    (stepped : p.loopStep e = some p') : Gains p p' [] ∧ Capped p' := by
  obtain ⟨tidy, capped, _⟩ := sound
  have unheld : Gains p p [] ∧ Capped p := ⟨Gains.refl p, capped⟩
  cases e with
  | established c outcome now =>
    simp only [loopStep] at stepped
    split at stepped
    next waits =>
      have member := (tidy.phase c).mpr waits
      exact deliver_keeps (P := fun q => Gains p q [] ∧ Capped q) stepped unheld (fun _ =>
        ⟨gains_onConnectionUp p tidy c outcome now member idling,
          capped.onConnectionUp tidy c outcome now member⟩)
    · cases stepped
  | received c data now =>
    simp only [loopStep] at stepped
    split at stepped
    · cases stepped
    next up =>
      rw [not_or] at up
      refine deliver_keeps (P := fun q => Gains p q [] ∧ Capped q) stepped unheld (fun held => ?_)
      -- a request is in flight on it, so it is busy
      have busy : c ∈ p.busy := by
        rcases held with h | h | h
        · exact absurd h (tidy.inFlight_not_idle c flying)
        · exact h
        · exact absurd ((tidy.phase c).mp h).2 up.1
      have fed : Tidy (p.modify c (·.receive data)) :=
        tidy.modify c _ (tidy.noTls c) (tidy.slots c) Iff.rfl (fun h => h) (fun h => ⟨h, rfl⟩)
      constructor
      · exact (gains_modify p c _ rfl).trans (gains_consume _ fed c now busy idling)
      · exact (capped.modify c _).consume fed c now busy idling
  | decrypted c outcome plaintext status now =>
    simp only [loopStep, tidy.slots c, or_true, if_true] at stepped
    cases stepped
  | down c =>
    simp only [loopStep, tidy.slots c] at stepped
    split at stepped
    · cases stepped
    next up =>
      refine deliver_keeps (P := fun q => Gains p q [] ∧ Capped q) stepped unheld (fun held => ?_)
      have noted : Tidy (p.note (.down c (p.carried c))) := tidy.note _ (fun _ _ h => by cases h)
      have same : Capped (p.note (.down c (p.carried c))) := capped.same ⟨rfl, rfl, rfl, rfl, rfl⟩
      constructor
      · exact (gains_note p _).trans (gains_onConnectionDown _ noted c up (tidy.known c held))
      · exact same.onConnectionDown noted c up (tidy.known c held)
  | evict now =>
    cases stepped
    exact ⟨gains_evictIdle p now, capped.evictIdle now⟩

theorem Sound.step {p p' : ConnectionPool} (sound : Sound p) (e : Event)
    (flying : BytesInFlight p e) (stepped : p.step e = some p') : Sound p' := by
  -- `Tidy` is kept on its own; the other two use it before the step
  have tidied := sound.tidy.step e (flying.calm sound.tidy e) stepped
  have keeps (kept : Gains p p' [] ∧ Capped p') : Sound p' :=
    ⟨tidied, kept.2, sound.ledger.gains kept.1⟩
  cases moves_step stepped with
  | request req => exact ⟨tidied, sound.capped.request req, sound.ledger.request sound.tidy req⟩
  | resolved addrs err =>
    exact keeps ⟨gains_onResolved p sound.tidy addrs err, sound.capped.onResolved sound.tidy addrs err⟩
  | returns frame stack framed =>
    -- the frame leaves the stack and gives its answers
    have popped := sound.tidy.popped frame stack framed
    have ok : ∀ t ∈ frame, TaskOk { p with stack } t := fun t inside =>
      sound.tidy.suspended frame (framed ▸ mem_cons_self ..) t inside
    have taken : Gains { p with stack } p (frame.filterMap Task.answers) := by
      have pushed := gains_suspend { p with stack } frame
      rwa [← framed] at pushed
    have same : Capped { p with stack } := sound.capped.same ⟨rfl, rfl, rfl, rfl, rfl⟩
    exact keeps ⟨taken.back (gains_exec _ popped frame ok), same.exec popped frame ok⟩
  | engine c fails => exact keeps ⟨gains_modify p c _ rfl, sound.capped.modify c _⟩
  | loop e idling looped => exact keeps (gains_loopStep p p' e sound flying idling looped)

/-- Every request that was issued was either answered, once, or is in one place, and the
pool is within its limits. The places are those in `held`. -/
def Accounted (held : ConnectionPool → List ReqId) (p : ConnectionPool) : Prop :=
  (∀ id < p.issued, (p.answered.count id = 1 ∧ (held p).count id = 0) ∨
    (p.answered.count id = 0 ∧ (held p).count id = 1)) ∧
  p.total ≤ p.maxConnections ∧
  (p.queue ≠ [] → p.idle = [] ∧ p.maxConnections ≤ p.total)

instance (held : ConnectionPool → List ReqId) (p : ConnectionPool) : Decidable (Accounted held p) :=
  inferInstanceAs (Decidable ((∀ id < p.issued, _ ∨ _) ∧ _ ∧ (_ → _ ∧ _)))

def placesAndStack (p : ConnectionPool) : List ReqId := p.places ++ p.onStack

/-- The accounts while callbacks are running: the answers that are still to be given are
those of a failed resolution to the requests that were parked behind it. -/
def AccountedInside (p : ConnectionPool) : Prop :=
  Accounted placesAndStack p ∧ (∀ frame ∈ p.stack, ∀ t ∈ frame, OfResolver t) ∧
    (p.stack = [] → Accounted places p)

theorem Sound.accounted {p : ConnectionPool} (sound : Sound p) : AccountedInside p := by
  have inside : Accounted placesAndStack p := by
    refine ⟨fun id issued => ?_, sound.capped.limit, sound.capped.queued⟩
    have once := sound.ledger id
    rw [if_pos issued] at once
    simp only [occurrences] at once
    simp only [placesAndStack, count_append]
    omega
  refine ⟨inside, sound.tidy.owed, fun idling => ?_⟩
  have nothing : p.onStack = [] := by simp [onStack, idling]
  have same : placesAndStack p = places p := by
    rw [placesAndStack, nothing, append_nil]
  obtain ⟨counts, limits⟩ := inside
  rw [same] at counts
  exact ⟨counts, limits⟩

/-- In every run of a plaintext pool whose server sends bytes only while a request is in
flight, no request is lost or answered twice, at any point. -/
theorem accounted_always (host : Bytes) (maxConnections : Nat) (idleTimeoutS : UInt32)
    (resolved : Bool) (events : List Event)
    (flying : Machine.Meets step BytesInFlight
      (initial false host maxConnections idleTimeoutS resolved) events) :
    Machine.Always step AccountedInside
      (initial false host maxConnections idleTimeoutS resolved) events :=
  Machine.Always.mono (fun _ sound => sound.accounted) _ events
    (Machine.always_of_meets (fun _ e _ sound flying stepped => Sound.step sound e flying stepped)
      _ events (sound_initial host maxConnections idleTimeoutS resolved) flying)

/-- Two requests share one connection, with a request from the first callback. -/
def sharedConnection : List Event :=
  let request : Event := .request { method := .get, path := text "/" }
  let response : Bytes := text "HTTP/1.1 200 OK\r\nContent-Length: 2\r\n\r\nok"
  [request, request, .loop (.established 0 .pending 0), .loop (.received 0 (response.take 20) 1),
    .loop (.received 0 (response.drop 20) 2), request, .returns, .loop (.received 0 response 3),
    .returns, .loop (.down 0), .returns, .loop (.down 0), .loop (.evict 9)]

theorem accounted_sharedConnection :
    Machine.Meets step BytesInFlight (initial false (text "origin") 1 60 true) sharedConnection ∧
    Machine.Always step AccountedInside (initial false (text "origin") 1 60 true)
      sharedConnection := by
  have flying : Machine.Meets step BytesInFlight (initial false (text "origin") 1 60 true)
      sharedConnection := by decide +kernel
  exact ⟨flying, accounted_always _ _ _ _ _ flying⟩

/-- Two parked requests, a failed resolution, and a request from the first callback. -/
def failedResolution : List Event :=
  let request : Event := .request { method := .get, path := text "/" }
  [request, request, .resolved [] (text "host not found"), request]

/-- While the first callback runs, the second request is in none of the places. -/
theorem failedResolution_unaccounted :
    Machine.Meets step BytesInFlight (initial false (text "origin") 2 60 false) failedResolution ∧
    ¬Machine.Always step (Accounted places) (initial false (text "origin") 2 60 false)
      failedResolution := by
  decide +kernel

end ConnectionPool

end Cox.Http

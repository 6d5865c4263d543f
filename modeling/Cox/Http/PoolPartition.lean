import Mathlib.Data.List.Nodup
import Cox.Http.Pool

/-!
# The lists of a plaintext pool

A connection is in at most one of `idle_`, `busy_` and `connecting_`, an idle connection
carries nothing, and `start` is only called on a connection that carries nothing. All of
this holds as long as no complete keep-alive response arrives on an idle connection. One
that does is handed to `onFree` like an expected one, which files the connection a
second time.
-/
namespace Cox.Http.ConnectionPool

open Cox.Lib List Function

theorem close_same (x : PooledConn) : x.close.tlsConn = x.tlsConn ∧ x.close.slot = x.slot ∧
    x.close.callback = x.callback ∧ x.close.busy = x.busy ∧ x.close.done = x.done ∧
    (x.close.tcp = .connecting ↔ x.tcp = .connecting) := by
  have shut : (x.shutdown.tcp = .connecting ↔ x.tcp = .connecting) := by
    unfold PooledConn.shutdown
    split <;> simp_all
  have same : x.shutdown = { x with tcp := x.shutdown.tcp } := by
    unfold PooledConn.shutdown
    split <;> rfl
  unfold PooledConn.close
  split
  · split
    · simp
    · rw [same]
      simpa using shut
  · split
    · rw [same]
      simpa using shut
    · simp

theorem deliver_keeps {P : ConnectionPool → Prop} {p p' : ConnectionPool} {c : ConnId}
    {handled : ConnectionPool} (delivered : p.deliver c handled = some p') (unheld : P p)
    (good : p.holds c → P handled) : P p' := by
  unfold deliver at delivered
  split at delivered <;> cases delivered
  next held => exact good held
  · exact unheld

theorem evictIdle_keeps {P : ConnectionPool → Prop}
    (keeps : ∀ p c, P p → P (modify { p with idle := p.idle.erase c } c (·.close)))
    (p : ConnectionPool) (now : UInt64) (initial : P p) : P (p.evictIdle now) := by
  unfold evictIdle
  dsimp only
  -- which connections are dropped does not matter
  generalize (p.idle.filter fun c => (p.conns c).expired now p.idleTimeoutS) = toClose
  induction toClose generalizing p with
  | nil => exact initial
  | cons c toClose ih => exact ih _ (keeps p c initial)

/-! ### The invariant -/

/-- What a suspended task needs: its connection is down, carries nothing and is not
idle, so nothing can be started on it in the meantime. -/
def TaskOk (p : ConnectionPool) : Task → Prop
  | .onClosed c => c < p.nextConn ∧ (p.conns c).tcp ≠ .connecting ∧
      (p.conns c).callback = none ∧ c ∉ p.idle
  | .tlsStatus _ _ => False
  | .invoke _ _ _ | .close _ => True

/-- An answer of the handler for a failed name resolution, or no answer at all. -/
def OfResolver : Task → Prop
  | .invoke _ _ err => text "DNS resolution failed: " <+: err
  | .close _ | .onClosed _ | .tlsStatus _ _ => True

structure Tidy (p : ConnectionPool) : Prop where
  plain : p.tls = false
  noTls : ∀ c, (p.conns c).tlsConn = none
  slots : ∀ c, (p.conns c).slot = .pooledConn
  once : ∀ c, p.idle.count c + p.busy.count c + p.connecting.count c ≤ 1
  rested : ∀ c ∈ p.idle, (p.conns c).busy = false ∧ (p.conns c).callback = none
  carrying : ∀ c, (p.conns c).callback ≠ none → c ∈ p.busy ∧ (p.conns c).inFlight = true
  waiting : ∀ c, p.pending c ≠ none ↔ c ∈ p.connecting
  known : ∀ c, p.holds c → c < p.nextConn
  phase : ∀ c, c ∈ p.connecting ↔ c < p.nextConn ∧ (p.conns c).tcp = .connecting
  suspended : ∀ frame ∈ p.stack, ∀ t ∈ frame, TaskOk p t
  -- a response is answered once, so only a failed resolution can have answers left
  owed : ∀ frame ∈ p.stack, ∀ t ∈ frame, OfResolver t
  fresh : ∀ c k, Note.started c k ∈ p.log → k = none

theorem tidy_initial (host : Bytes) (maxConnections : Nat) (idleTimeoutS : UInt32)
    (resolved : Bool) : Tidy (initial false host maxConnections idleTimeoutS resolved) := by
  constructor <;> simp [initial, holds]

/-! ### Changes to one connection -/

theorem modify_conns_self (p : ConnectionPool) (c : ConnId) (f : PooledConn → PooledConn) :
    (p.modify c f).conns c = f (p.conns c) := by
  simp [modify]

theorem modify_conns_of_ne (p : ConnectionPool) (c d : ConnId) (f : PooledConn → PooledConn)
    (other : d ≠ c) : (p.modify c f).conns d = p.conns d := by
  simp [modify, other]

structure TidyAt (p : ConnectionPool) (c : ConnId) : Prop where
  noTls : (p.conns c).tlsConn = none
  slot : (p.conns c).slot = .pooledConn
  once : p.idle.count c + p.busy.count c + p.connecting.count c ≤ 1
  rested : c ∈ p.idle → (p.conns c).busy = false ∧ (p.conns c).callback = none
  carrying : (p.conns c).callback ≠ none → c ∈ p.busy ∧ (p.conns c).inFlight = true
  waiting : p.pending c ≠ none ↔ c ∈ p.connecting
  known : p.holds c → c < p.nextConn
  phase : c ∈ p.connecting ↔ c < p.nextConn ∧ (p.conns c).tcp = .connecting

structure SameAt (p q : ConnectionPool) (d : ConnId) : Prop where
  conn : q.conns d = p.conns d
  idle : q.idle.count d = p.idle.count d
  busy : q.busy.count d = p.busy.count d
  connecting : q.connecting.count d = p.connecting.count d
  pending : q.pending d = p.pending d
  nextConn : d < q.nextConn ↔ d < p.nextConn

theorem mem_congr_count {l l' : List ConnId} {d : ConnId} (count : l'.count d = l.count d) :
    d ∈ l' ↔ d ∈ l := by
  rw [← count_pos_iff, ← count_pos_iff, count]

theorem count_append_other (l : List ConnId) {c d : ConnId} (other : d ≠ c) :
    (l ++ [c]).count d = l.count d := by
  simp [Ne.symm other]

theorem TidyAt.same {p q : ConnectionPool} {d : ConnId} (before : TidyAt p d) (same : SameAt p q d) :
    TidyAt q d := by
  have idle := mem_congr_count same.idle
  have busy := mem_congr_count same.busy
  have connecting := mem_congr_count same.connecting
  constructor
  case noTls => rw [same.conn]; exact before.noTls
  case slot => rw [same.conn]; exact before.slot
  case once => rw [same.idle, same.busy, same.connecting]; exact before.once
  case rested => rw [same.conn, idle]; exact before.rested
  case carrying => rw [same.conn, busy]; exact before.carrying
  case waiting => rw [same.pending, connecting]; exact before.waiting
  case known => rw [holds, idle, busy, connecting, same.nextConn]; exact before.known
  case phase => rw [same.conn, connecting, same.nextConn]; exact before.phase

theorem TaskOk.same {p q : ConnectionPool} {d : ConnId} (ok : TaskOk p (.onClosed d))
    (same : SameAt p q d) : TaskOk q (.onClosed d) := by
  obtain ⟨below, up, free, notIdle⟩ := ok
  refine ⟨same.nextConn.mpr below, ?_, ?_, fun idle => notIdle ((mem_congr_count same.idle).mp idle)⟩
  · rw [same.conn]
    exact up
  · rw [same.conn]
    exact free

namespace Tidy

variable {p q : ConnectionPool}

variable (tidy : Tidy p) (c : ConnId)
include tidy

theorem conn : TidyAt p c :=
  ⟨tidy.noTls c, tidy.slots c, tidy.once c, tidy.rested c, tidy.carrying c, tidy.waiting c,
    tidy.known c, tidy.phase c⟩

theorem change (tls : q.tls = p.tls) (stack : q.stack = p.stack) (log : q.log = p.log)
    (others : ∀ d, d ≠ c → SameAt p q d) (here : TidyAt q c)
    (stays : ∀ frame ∈ p.stack, .onClosed c ∈ frame → TaskOk q (.onClosed c)) : Tidy q := by
  have all (d : ConnId) : TidyAt q d := by
    by_cases same : d = c
    · rw [same]
      exact here
    · exact (tidy.conn d).same (others d same)
  constructor
  case plain => rw [tls]; exact tidy.plain
  case noTls => exact fun d => (all d).noTls
  case slots => exact fun d => (all d).slot
  case once => exact fun d => (all d).once
  case rested => exact fun d => (all d).rested
  case carrying => exact fun d => (all d).carrying
  case waiting => exact fun d => (all d).waiting
  case known => exact fun d => (all d).known
  case phase => exact fun d => (all d).phase
  case suspended =>
    rw [stack]
    intro frame inStack t inside
    have before := tidy.suspended frame inStack t inside
    cases t with
    | onClosed d =>
      by_cases same : d = c
      · subst same
        exact stays frame inStack inside
      · exact before.same (others d same)
    | invoke | close | tlsStatus => exact before
  case owed => rw [stack]; exact tidy.owed
  case fresh => rw [log]; exact tidy.fresh

theorem exclusive :
    (c ∈ p.idle → p.idle.count c = 1 ∧ c ∉ p.busy ∧ c ∉ p.connecting) ∧
    (c ∈ p.busy → p.busy.count c = 1 ∧ c ∉ p.idle ∧ c ∉ p.connecting) ∧
    (c ∈ p.connecting → p.connecting.count c = 1 ∧ c ∉ p.idle ∧ c ∉ p.busy) := by
  have once := tidy.once c
  simp only [← count_pos_iff]
  omega

theorem modify (f : PooledConn → PooledConn) (tls : (f (p.conns c)).tlsConn = none)
    (slot : (f (p.conns c)).slot = .pooledConn)
    (tcp : (f (p.conns c)).tcp = .connecting ↔ (p.conns c).tcp = .connecting)
    (rest : (p.conns c).busy = false → (f (p.conns c)).busy = false)
    (carries : (f (p.conns c)).callback ≠ none →
      (p.conns c).callback ≠ none ∧ (f (p.conns c)).inFlight = (p.conns c).inFlight) :
    Tidy (p.modify c f) := by
  have here := modify_conns_self p c f
  have drops (free : (p.conns c).callback = none) : (f (p.conns c)).callback = none := by
    by_contra carried
    exact (carries carried).1 free
  refine tidy.change c rfl rfl rfl
    (fun d other => ⟨modify_conns_of_ne p c d f other, rfl, rfl, rfl, rfl, Iff.rfl⟩) ?_ ?_
  · constructor
    case noTls => rw [here]; exact tls
    case slot => rw [here]; exact slot
    case once => exact tidy.once c
    case rested =>
      intro idle
      obtain ⟨rests, free⟩ := tidy.rested c idle
      rw [here]
      exact ⟨rest rests, drops free⟩
    case carrying =>
      rw [here]
      intro carried
      obtain ⟨before, inFlight⟩ := carries carried
      exact ⟨(tidy.carrying c before).1, inFlight.trans (tidy.carrying c before).2⟩
    case waiting => exact tidy.waiting c
    case known => exact tidy.known c
    case phase => rw [here, tcp]; exact tidy.phase c
  · intro frame inStack inside
    obtain ⟨below, up, free, notIdle⟩ := tidy.suspended frame inStack _ inside
    refine ⟨below, ?_, ?_, notIdle⟩
    · rw [here, ne_eq, tcp]
      exact up
    · rw [here]
      exact drops free

theorem note (n : Note) (free : ∀ c k, n = .started c k → k = none) : Tidy (p.note n) := by
  refine { tidy with fresh := ?_, suspended := tidy.suspended }
  intro c k member
  rcases mem_append.mp member with old | new
  · exact tidy.fresh c k old
  · exact free c k (mem_singleton.mp new).symm

theorem send (wire : Bytes) : Tidy (p.send c wire) := by
  unfold ConnectionPool.send
  rw [tidy.noTls c]
  dsimp only
  split
  · exact tidy.note _ (fun _ _ h => by cases h)
  · exact tidy

theorem begin (id : ReqId) (member : c ∈ p.busy)
    (stays : ∀ frame ∈ p.stack, Task.onClosed c ∉ frame) : Tidy (p.modify c (·.begin id)) := by
  have here := modify_conns_self p c (·.begin id)
  refine tidy.change c rfl rfl rfl
    (fun d other => ⟨modify_conns_of_ne p c d _ other, rfl, rfl, rfl, rfl, Iff.rfl⟩) ?_
    (fun frame inStack inside => absurd inside (stays frame inStack))
  constructor
  case noTls => rw [here]; exact tidy.noTls c
  case slot => rw [here]; exact tidy.slots c
  case once => exact tidy.once c
  -- a busy connection is not idle
  case rested => exact fun idle => absurd idle ((tidy.exclusive c).2.1 member).2.1
  case carrying => rw [here]; exact fun _ => ⟨member, rfl⟩
  case waiting => exact tidy.waiting c
  case known => exact tidy.known c
  case phase => rw [here]; exact tidy.phase c

theorem start (pending : Pending) (member : c ∈ p.busy) (free : (p.conns c).callback = none)
    (stays : ∀ frame ∈ p.stack, Task.onClosed c ∉ frame) : Tidy (p.start c pending) := by
  have noted : Tidy (p.note (.started c (p.conns c).callback)) :=
    tidy.note _ (fun _ _ h => by cases h; exact free)
  exact (noted.begin c pending.id member stays).send c _

theorem newConn (pending : Pending) : Tidy (p.newConn pending) := by
  have here : (p.newConn pending).conns p.nextConn = {} := by simp [ConnectionPool.newConn]
  -- the new identifier is in no list yet
  have absent : ¬p.holds p.nextConn := fun h => Nat.lt_irrefl _ (tidy.known _ h)
  simp only [holds, not_or] at absent
  refine tidy.change p.nextConn rfl rfl rfl (fun d other => ?_) ?_ (fun frame inStack inside => ?_)
  · exact ⟨update_of_ne other .., rfl, rfl, count_append_other _ other,
      update_of_ne other .., fun below =>
        Nat.lt_of_le_of_ne (Nat.le_of_lt_succ below) other, Nat.lt_succ_of_lt⟩
  · constructor
    case noTls => rw [here]
    case slot => rw [here]
    case once =>
      simp [ConnectionPool.newConn, count_eq_zero.mpr absent.1,
        count_eq_zero.mpr absent.2.1, count_eq_zero.mpr absent.2.2]
    case rested => exact fun idle => absurd idle absent.1
    case carrying => rw [here]; exact fun carried => absurd rfl carried
    case waiting => simp [ConnectionPool.newConn]
    case known => exact fun _ => Nat.lt_succ_self _
    case phase => rw [here]; simp [ConnectionPool.newConn]
  · exact absurd (tidy.suspended frame inStack _ inside).1 (Nat.lt_irrefl _)

theorem reuse (rest : List ConnId) (c : ConnId) (last : p.idle = rest ++ [c]) :
    Tidy { p with idle := rest, busy := p.busy ++ [c] } := by
  have idle : c ∈ p.idle := by simp [last]
  have once := tidy.once c
  rw [last, count_append, count_singleton_self] at once
  -- only the lists change: one connection goes from `idle_` to `busy_`
  refine tidy.change c rfl rfl rfl (fun d other => ?_) ?_ (fun frame inStack inside => ?_)
  · refine ⟨rfl, ?_, count_append_other _ other, rfl, rfl, Iff.rfl⟩
    rw [last, count_append_other _ other]
  · refine { tidy.conn c with
      once := ?_
      rested := fun _ => tidy.rested c idle
      carrying := fun carried => absurd (tidy.rested c idle).2 carried
      known := fun _ => tidy.known c (.inl idle) }
    simp only [count_append, count_singleton_self]
    omega
  · exact absurd idle (tidy.suspended frame inStack _ inside).2.2.2

theorem dispatch (pending : Pending) : Tidy (p.dispatch pending) := by
  unfold ConnectionPool.dispatch
  split
  next c found =>
    -- an idle connection is reused, the most recent one first
    have last : p.idle = p.idle.dropLast ++ [c] := (dropLast_append_getLast? c found).symm
    have idle : c ∈ p.idle := mem_of_getLast? found
    refine (tidy.reuse _ c last).start c pending (by simp) (tidy.rested c idle).2 ?_
    intro frame inStack inside
    exact (tidy.suspended frame inStack _ inside).2.2.2 idle
  · split
    -- below the limit a connection is opened, otherwise the request is queued
    · exact tidy.newConn pending
    · exact { tidy with suspended := tidy.suspended }

theorem dispatchAll (waiting : List Pending) : Tidy (waiting.foldl ConnectionPool.dispatch p) := by
  induction waiting generalizing p with
  | nil => exact tidy
  | cons pending waiting ih => exact ih (tidy.dispatch pending)

theorem request (req : HttpRequest) : Tidy (p.request req) := by
  have counted : Tidy { p with issued := p.issued + 1 } :=
    { tidy with suspended := tidy.suspended }
  unfold ConnectionPool.request
  dsimp only
  split
  · exact counted.dispatch _
  · exact { counted with suspended := counted.suspended }

section Down

variable (c : ConnId) (up : (p.conns c).tcp ≠ .connecting) (free : (p.conns c).callback = none)
include up free

theorem forget :
    Tidy { p with
      idle := p.idle.erase c
      busy := p.busy.erase c
      connecting := p.connecting.erase c
      pending := update p.pending c none } := by
  -- a connection that is not being made has no request waiting for it
  have absent : c ∉ p.connecting := fun h => up ((tidy.phase c).mp h).2
  have gone : c ∉ p.connecting.erase c := fun h => absent (mem_of_mem_erase h)
  refine tidy.change c rfl rfl rfl (fun d other => ?_) ?_ (fun frame inStack inside => ?_)
  · exact ⟨rfl, count_erase_of_ne other, count_erase_of_ne other,
      count_erase_of_ne other, update_of_ne other .., Iff.rfl⟩
  · refine { tidy.conn c with
      once := ?_
      rested := fun idle => tidy.rested c (mem_of_mem_erase idle)
      carrying := fun carried => absurd free carried
      waiting := by simp [gone]
      known := fun held => tidy.known c (held.imp mem_of_mem_erase
        (Or.imp mem_of_mem_erase mem_of_mem_erase))
      phase := iff_of_false gone (fun h => up h.2) }
    have before := tidy.once c
    simp only [count_erase_self]
    omega
  · obtain ⟨below, _, _, notIdle⟩ := tidy.suspended frame inStack _ inside
    exact ⟨below, up, free, fun idle => notIdle (mem_of_mem_erase idle)⟩

theorem onClosed : Tidy (p.onClosed c) := by
  have forgotten := tidy.forget c up free
  unfold ConnectionPool.onClosed
  dsimp only
  split
  · split
    -- a queued request gets a new connection in place of the lost one
    · apply newConn
      exact { forgotten with suspended := forgotten.suspended }
    · exact forgotten
  · exact forgotten

end Down

theorem close : Tidy (p.modify c (·.close)) := by
  obtain ⟨tls, slot, callback, busy, done, tcp⟩ := close_same (p.conns c)
  refine tidy.modify c _ (tls.trans (tidy.noTls c)) (slot.trans (tidy.slots c)) tcp
    (fun h => busy.trans h) (fun h => ⟨callback ▸ h, ?_⟩)
  simp only [PooledConn.inFlight, busy, done]

end Tidy

theorem taskOk_close (p : ConnectionPool) (c : ConnId) (t : Task) (ok : TaskOk p t) :
    TaskOk (p.modify c (·.close)) t := by
  cases t with
  | onClosed d =>
    obtain ⟨_, _, callback, _, _, tcp⟩ := close_same (p.conns c)
    by_cases same : d = c
    · subst same
      simpa [TaskOk, modify, callback, tcp] using ok
    · simpa [TaskOk, modify, same] using ok
  | invoke | close | tlsStatus => exact ok

theorem taskOk_newConn (p : ConnectionPool) (pending : Pending) (t : Task) (ok : TaskOk p t) :
    TaskOk (p.newConn pending) t := by
  cases t with
  | onClosed d =>
    have other : d ≠ p.nextConn := Nat.ne_of_lt ok.1
    have below : d < p.nextConn + 1 := Nat.lt_succ_of_lt ok.1
    have rest := ok.2
    simp only [TaskOk, newConn, update_of_ne other]
    exact ⟨below, rest⟩
  | invoke | close | tlsStatus => exact ok

theorem taskOk_onClosed (p : ConnectionPool) (c : ConnId) (t : Task) (ok : TaskOk p t) :
    TaskOk (p.onClosed c) t := by
  have forgotten : TaskOk { p with
      idle := p.idle.erase c
      busy := p.busy.erase c
      connecting := p.connecting.erase c
      pending := update p.pending c none } t := by
    cases t with
    | onClosed d =>
      exact ⟨ok.1, ok.2.1, ok.2.2.1, fun h => ok.2.2.2 (mem_of_mem_erase h)⟩
    | invoke | close | tlsStatus => exact ok
  unfold onClosed
  dsimp only
  split
  · split
    · apply taskOk_newConn
      cases t <;> exact forgotten
    · exact forgotten
  · exact forgotten

theorem Tidy.exec {p : ConnectionPool} (tidy : Tidy p) (tasks : List Task)
    (ok : ∀ t ∈ tasks, TaskOk p t) (owed : ∀ t ∈ tasks.tail, OfResolver t) :
    Tidy (exec tasks p) := by
  induction tasks generalizing p with
  | nil => exact tidy
  | cons t rest ih =>
    obtain ⟨first, later⟩ := forall_mem_cons.mp ok
    cases t with
    | invoke id resp err =>
      -- the callback runs now; the tasks behind it become a frame of the stack
      have noted := tidy.note (.invoked id resp err) (fun _ _ h => by cases h)
      exact { noted with
        suspended := forall_mem_cons.mpr ⟨later, noted.suspended⟩
        owed := forall_mem_cons.mpr ⟨owed, noted.owed⟩ }
    | close c =>
      exact ih (tidy.close c) (fun t h => taskOk_close p c t (later t h))
        (fun t h => owed t (mem_of_mem_tail h))
    | onClosed c =>
      exact ih (tidy.onClosed c first.2.1 first.2.2.1) (fun t h => taskOk_onClosed p c t (later t h))
        (fun t h => owed t (mem_of_mem_tail h))
    | tlsStatus => exact first.elim

/-! ### The handlers -/

theorem modify_modify (p : ConnectionPool) (c : ConnId) (f g : PooledConn → PooledConn) :
    (p.modify c f).modify c g = p.modify c (fun x => g (f x)) := by
  simp [modify]

theorem onConnectionUp_eq (p : ConnectionPool) (c : ConnId) (outcome : Handshake) (now : UInt64)
    (pending : Pending) (plain : p.tls = false) (waits : p.pending c = some pending) :
    (p.modify c (·.withTcp .connected)).onConnectionUp c outcome now =
      start { p.modify c (fun x => ((x.withTcp .connected).connectedAt now).madeReady now) with
        connecting := p.connecting.erase c
        busy := p.busy ++ [c]
        pending := update p.pending c none } c pending := by
  have found : (p.modify c
      (fun x => ((x.withTcp .connected).connectedAt now).madeReady now)).pending c = some pending :=
    waits
  unfold onConnectionUp
  dsimp only
  rw [if_neg (by simp [modify, plain]), modify_modify, modify_modify]
  unfold onReady
  dsimp only
  rw [found]
  rfl

namespace Tidy

variable {p : ConnectionPool} (tidy : Tidy p) (c : ConnId)
include tidy

section Rested

variable (member : c ∈ p.busy) (rest : (p.conns c).busy = false)
  (free : (p.conns c).callback = none) (idling : p.stack = [])
include member rest free idling

theorem refile :
    Tidy { p with busy := p.busy.erase c ++ [c] } ∧
      Tidy { p with busy := p.busy.erase c, idle := p.idle ++ [c] } := by
  obtain ⟨single, notIdle, notConnecting⟩ := (tidy.exclusive c).2.1 member
  have before := tidy.once c
  have below : c < p.nextConn := tidy.known c (.inr (.inl member))
  have erased (d : ConnId) (other : d ≠ c) : (p.busy.erase c).count d = p.busy.count d :=
    count_erase_of_ne other
  have again : TidyAt { p with busy := p.busy.erase c ++ [c] } c := by
    refine { tidy.conn c with
      once := ?_
      rested := fun idle => absurd idle notIdle
      carrying := fun carried => absurd free carried
      known := fun _ => below }
    simp only [count_append, count_erase_self, count_singleton_self]
    omega
  have idle : TidyAt { p with busy := p.busy.erase c, idle := p.idle ++ [c] } c := by
    refine { tidy.conn c with
      once := ?_
      rested := fun _ => ⟨rest, free⟩
      carrying := fun carried => absurd free carried
      known := fun _ => below }
    simp only [count_append, count_erase_self, count_singleton_self]
    omega
  constructor
  · refine tidy.change c rfl rfl rfl (fun d other => ?_) again (by simp [idling])
    exact ⟨rfl, rfl, (count_append_other _ other).trans (erased d other), rfl, rfl, Iff.rfl⟩
  · refine tidy.change c rfl rfl rfl (fun d other => ?_) idle (by simp [idling])
    exact ⟨rfl, count_append_other _ other, erased d other, rfl, rfl, Iff.rfl⟩

theorem onFree : Tidy (p.onFree c) := by
  obtain ⟨again, idle⟩ := tidy.refile c member rest free idling
  unfold ConnectionPool.onFree
  dsimp only
  split
  next pending queue _ =>
    -- a queued request goes on the connection at once
    have ready : Tidy { p with queue, busy := p.busy.erase c ++ [c] } :=
      { again with suspended := again.suspended }
    exact ready.start c pending (by simp) free (by simp [idling])
  · exact idle

end Rested

theorem establish (f : PooledConn → PooledConn) (member : c ∈ p.connecting)
    (tls : (f (p.conns c)).tlsConn = none) (slot : (f (p.conns c)).slot = .pooledConn)
    (up : (f (p.conns c)).tcp ≠ .connecting) (free : (f (p.conns c)).callback = none)
    (idling : p.stack = []) :
    Tidy { p.modify c f with
      connecting := p.connecting.erase c
      busy := p.busy ++ [c]
      pending := update p.pending c none } := by
  obtain ⟨single, notIdle, notBusy⟩ := (tidy.exclusive c).2.2 member
  -- it was there once, so `erase` leaves none
  have gone : c ∉ p.connecting.erase c := by
    rw [← count_pos_iff, count_erase_self]
    omega
  have here := modify_conns_self p c f
  refine tidy.change c rfl rfl rfl (fun d other => ?_) ?_ (by simp [idling])
  · exact ⟨modify_conns_of_ne p c d f other, rfl, count_append_other _ other,
      count_erase_of_ne other, update_of_ne other .., Iff.rfl⟩
  · constructor
    case noTls => exact here ▸ tls
    case slot => exact here ▸ slot
    case once =>
      have before := tidy.once c
      show p.idle.count c + (p.busy ++ [c]).count c + (p.connecting.erase c).count c ≤ 1
      rw [count_append, count_singleton_self, count_erase_self]
      omega
    case rested => exact fun idle => absurd idle notIdle
    case carrying => exact fun carried => absurd (here ▸ free) carried
    case waiting => simp [gone]
    case known => exact fun _ => ((tidy.phase c).mp member).1
    case phase => exact iff_of_false gone (fun h => up (here ▸ h.2))

theorem free_of_connecting (member : c ∈ p.connecting) : (p.conns c).callback = none := by
  by_contra h
  exact ((tidy.exclusive c).2.2 member).2.2 (tidy.carrying c h).1

theorem onConnectionUp (outcome : Handshake) (now : UInt64) (member : c ∈ p.connecting)
    (idling : p.stack = []) :
    Tidy ((p.modify c (·.withTcp .connected)).onConnectionUp c outcome now) := by
  have free := tidy.free_of_connecting c member
  obtain ⟨pending, waits⟩ := Option.ne_none_iff_exists'.mp ((tidy.waiting c).mpr member)
  rw [onConnectionUp_eq p c outcome now pending tidy.plain waits]
  refine start (tidy.establish c _ member (tidy.noTls c) (tidy.slots c) (fun h => by cases h)
    free idling) c pending (by simp) ?_ ?_
  · dsimp only
    rw [modify_conns_self]
    exact free
  · show ∀ frame ∈ p.stack, _
    simp [idling]

end Tidy

/-- The bytes in the buffer complete a response after which the server keeps the
connection open. -/
def CompletesKeepAlive (x : PooledConn) : Prop :=
  x.parsed.1.gotAll = true ∧ serverKeepsAlive x.parsed.1.response = true

instance (x : PooledConn) : Decidable (CompletesKeepAlive x) := inferInstanceAs (Decidable (_ ∧ _))

theorem taskOk_answer (p : ConnectionPool) (taken : Option ReqId) (resp : HttpResponse)
    (err : Bytes) (after : List Task) (ok : ∀ t ∈ after, TaskOk p t) :
    ∀ t ∈ (taken.toList.map fun id => Task.invoke id resp err) ++ after, TaskOk p t := by
  refine forall_mem_append.mpr ⟨?_, ok⟩
  simp [TaskOk]

theorem ofResolver_answer (taken : Option ReqId) (resp : HttpResponse) (err : Bytes)
    (after : List Task) (owed : ∀ t ∈ after, OfResolver t) :
    ∀ t ∈ ((taken.toList.map fun id => Task.invoke id resp err) ++ after).tail, OfResolver t := by
  intro t inside
  cases taken with
  | none => exact owed t (mem_of_mem_tail inside)
  | some id => exact owed t inside

section Tidy

variable {p : ConnectionPool} (tidy : Tidy p) (c : ConnId)
include tidy

theorem Tidy.malformed : Tidy (p.modify c (·.malformed)) :=
  tidy.modify c _ (tidy.noTls c) (tidy.slots c) Iff.rfl (fun h => h) (fun h => absurd rfl h)

theorem Tidy.completed (now : UInt64) : Tidy (p.modify c (·.completed now)) :=
  tidy.modify c _ (tidy.noTls c) (tidy.slots c) Iff.rfl (fun _ => rfl) (fun h => absurd rfl h)

theorem Tidy.freed (now : UInt64) (member : c ∈ p.busy) (idling : p.stack = []) :
    Tidy ((p.modify c (·.completed now)).onFree c) := by
  refine (tidy.completed c now).onFree c member ?_ ?_ idling
  · rw [modify_conns_self]
    rfl
  · rw [modify_conns_self]
    rfl

theorem Tidy.consume (now : UInt64) (member : c ∈ p.idle ∨ c ∈ p.busy) (idling : p.stack = [])
    (calm : c ∈ p.idle → ¬CompletesKeepAlive (p.conns c)) : Tidy (finish (p.consume c now)) := by
  unfold ConnectionPool.consume
  dsimp only
  split
  -- a malformed response is answered with an error and the connection closed
  · exact (tidy.malformed c).exec _ (taskOk_answer _ _ _ _ _ (by simp [TaskOk]))
      (ofResolver_answer _ _ _ _ (by simp [OfResolver]))
  · split
    next complete =>
      rw [← append_nil (List.map _ _)]
      refine Tidy.exec ?_ _ (taskOk_answer _ _ _ _ _ (by simp))
        (ofResolver_answer _ _ _ _ (by simp))
      dsimp only
      split
      -- only a busy connection may be freed: this is the condition on idle ones
      next keeps =>
        exact tidy.freed c now (member.resolve_left (fun idle => calm idle ⟨complete, keeps⟩)) idling
      · exact (tidy.completed c now).close c
    · exact tidy.modify c (·.waiting) (tidy.noTls c) (tidy.slots c) Iff.rfl (fun h => h)
        (fun h => ⟨h, rfl⟩)

theorem Tidy.givenUp (up : (p.conns c).tcp ≠ .connecting) :
    Tidy (p.modify c (fun x => (x.withTcp .disconnected).lost.givenUp)) :=
  tidy.modify c _ rfl (tidy.slots c) (iff_of_false (fun h => by cases h) up) (fun _ => rfl)
    (fun h => absurd rfl h)

theorem Tidy.lost (up : (p.conns c).tcp ≠ .connecting) (free : (p.conns c).callback = none) :
    Tidy (p.modify c (fun x => (x.withTcp .disconnected).lost)) :=
  tidy.modify c _ rfl (tidy.slots c) (iff_of_false (fun h => by cases h) up) (fun h => h)
    (fun h => absurd free h)

theorem Tidy.inFlight_not_idle (flying : (p.conns c).inFlight = true) : c ∉ p.idle := by
  intro idle
  simp [PooledConn.inFlight, (tidy.rested c idle).1] at flying

theorem Tidy.free_of_resting (resting : ¬(p.conns c).inFlight = true) :
    (p.conns c).callback = none := by
  by_contra h
  exact resting (tidy.carrying c h).2

end Tidy

theorem onConnectionDown_eq (p : ConnectionPool) (c : ConnId) :
    finish ((p.modify c (·.withTcp .disconnected)).onConnectionDown c) =
      if (p.conns c).inFlight then
        exec (((p.conns c).callback.toList.map fun id =>
            Task.invoke id (eofAnswer (p.conns c).parser.onEof).1
              (eofAnswer (p.conns c).parser.onEof).2) ++ [.onClosed c])
          (p.modify c (fun x => (x.withTcp .disconnected).lost.givenUp))
      else (p.modify c (fun x => (x.withTcp .disconnected).lost)).onClosed c := by
  unfold onConnectionDown
  dsimp only
  have flying : ((p.conns c).withTcp .disconnected).inFlight = (p.conns c).inFlight := rfl
  rw [modify_conns_self, flying]
  simp only [modify_modify]
  split <;> rfl

theorem taskOk_dropped (p : ConnectionPool) (tidy : Tidy p) (c : ConnId) (below : c < p.nextConn)
    (flying : (p.conns c).inFlight = true) :
    TaskOk (p.modify c (fun x => (x.withTcp .disconnected).lost.givenUp)) (.onClosed c) := by
  refine ⟨below, ?_, ?_, tidy.inFlight_not_idle c flying⟩
  · rw [modify_conns_self]
    exact fun h => by cases h
  · rw [modify_conns_self]
    rfl

section Tidy

variable {p : ConnectionPool} (tidy : Tidy p)
include tidy

theorem Tidy.onConnectionDown (c : ConnId) (up : (p.conns c).tcp ≠ .connecting)
    (below : c < p.nextConn) :
    Tidy (finish ((p.modify c (·.withTcp .disconnected)).onConnectionDown c)) := by
  rw [onConnectionDown_eq]
  split
  -- the request is answered first, and `onClosed` waits behind its callback
  next flying =>
    refine (tidy.givenUp c up).exec _ (taskOk_answer _ _ _ _ _ ?_)
      (ofResolver_answer _ _ _ _ (by simp [OfResolver]))
    exact forall_mem_singleton.mpr (taskOk_dropped p tidy c below flying)
  next resting =>
    -- nothing is in flight, so the connection carries nothing and is dropped at once
    have free := tidy.free_of_resting c resting
    refine (tidy.lost c up free).onClosed c ?_ ?_
    · rw [modify_conns_self]
      exact fun h => by cases h
    · rw [modify_conns_self]
      exact free

theorem Tidy.unlisted (c : ConnId) (idling : p.stack = []) :
    Tidy { p with idle := p.idle.erase c } := by
  refine { tidy with once := ?_, rested := ?_, known := ?_, suspended := ?_ }
  · intro d
    have before := tidy.once d
    have idle : (p.idle.erase c).count d ≤ p.idle.count d := erase_sublist.count_le d
    dsimp only
    omega
  · exact fun d h => tidy.rested d (mem_of_mem_erase h)
  · exact fun d held => tidy.known d (held.imp_left mem_of_mem_erase)
  · simp [idling]

theorem Tidy.evictIdle (now : UInt64) (idling : p.stack = []) : Tidy (p.evictIdle now) :=
  (evictIdle_keeps (P := fun p => Tidy p ∧ p.stack = [])
    (fun _ c kept => ⟨(kept.1.unlisted c kept.2).close c, kept.2⟩) p now ⟨tidy, idling⟩).1

theorem Tidy.onResolved (addrs : List Bytes) (err : Bytes) :
    Tidy (finish (p.onResolved addrs err)) := by
  unfold ConnectionPool.onResolved
  dsimp only
  split
  · have unparked : Tidy { p with resolving := false, waitingOnDns := [] } :=
      { tidy with suspended := tidy.suspended }
    refine unparked.exec _ (fun t inside => ?_) (fun t inside => ?_)
    · obtain ⟨w, _, rfl⟩ := mem_map.mp inside
      trivial
    · obtain ⟨w, _, rfl⟩ := mem_map.mp (mem_of_mem_tail inside)
      exact prefix_append _ _
  · have ready : Tidy { p with resolving := false, waitingOnDns := [], resolved := true } :=
      { tidy with suspended := tidy.suspended }
    exact ready.dispatchAll p.waitingOnDns

end Tidy

/-- No complete keep-alive response arrives on an idle connection. -/
def NothingFreesIdle (p : ConnectionPool) : Event → Prop
  | .loop (.received c data _) =>
    c ∈ p.idle → ¬CompletesKeepAlive ((p.conns c).receive data)
  | _ => True

theorem Tidy.loopStep {p p' : ConnectionPool} (tidy : Tidy p) (e : LoopEvent)
    (calm : NothingFreesIdle p (.loop e)) (idling : p.stack = [])
    (stepped : p.loopStep e = some p') : Tidy p' := by
  cases e with
  | established c outcome now =>
    simp only [ConnectionPool.loopStep] at stepped
    split at stepped
    next waits =>
      exact deliver_keeps stepped tidy
        (fun _ => tidy.onConnectionUp c outcome now ((tidy.phase c).mpr waits) idling)
    · cases stepped
  | received c data now =>
    simp only [ConnectionPool.loopStep] at stepped
    split at stepped
    · cases stepped
    next up =>
      rw [not_or] at up
      refine deliver_keeps stepped tidy (fun held => ?_)
      have member : c ∈ p.idle ∨ c ∈ p.busy := by
        rcases held with h | h | h
        · exact .inl h
        · exact .inr h
        -- bytes arrive on a connection that is up, so not in `connecting_`
        · exact absurd ((tidy.phase c).mp h).2 up.1
      have fed : Tidy (p.modify c (·.receive data)) :=
        tidy.modify c _ (tidy.noTls c) (tidy.slots c) Iff.rfl (fun h => h) (fun h => ⟨h, rfl⟩)
      refine fed.consume c now member idling ?_
      rw [modify_conns_self]
      exact calm
  | decrypted c outcome plaintext status now =>
    simp only [ConnectionPool.loopStep, tidy.slots c, or_true, if_true] at stepped
    cases stepped
  | down c =>
    simp only [ConnectionPool.loopStep, tidy.slots c] at stepped
    split at stepped
    · cases stepped
    next up =>
      refine deliver_keeps stepped tidy (fun held => ?_)
      have noted : Tidy (p.note (.down c (p.carried c))) := tidy.note _ (fun _ _ h => by cases h)
      exact noted.onConnectionDown c up (tidy.known c held)
  | evict now =>
    cases stepped
    exact tidy.evictIdle now idling

theorem Tidy.popped {p : ConnectionPool} (tidy : Tidy p) (frame : List Task)
    (stack : List (List Task)) (framed : p.stack = frame :: stack) : Tidy { p with stack } :=
  { tidy with
    suspended := fun f h => tidy.suspended f (framed ▸ mem_cons_of_mem _ h)
    owed := fun f h => tidy.owed f (framed ▸ mem_cons_of_mem _ h) }

inductive Moves (p : ConnectionPool) : Event → ConnectionPool → Prop where
  | request (req : HttpRequest) : Moves p (.request req) (p.request req)
  | resolved (addrs : List Bytes) (err : Bytes) :
      Moves p (.resolved addrs err) (finish (p.onResolved addrs err))
  | returns (frame : List Task) (stack : List (List Task)) (framed : p.stack = frame :: stack) :
      Moves p .returns (exec frame { p with stack })
  | engine (c : ConnId) (fails : Bool) :
      Moves p (.engine c fails) (p.modify c fun x => { x with writeFails := fails })
  | loop {p' : ConnectionPool} (e : LoopEvent) (idling : p.stack = [])
      (looped : p.loopStep e = some p') : Moves p (.loop e) p'

theorem moves_step {p p' : ConnectionPool} {e : Event} (stepped : p.step e = some p') :
    Moves p e p' := by
  cases e with
  | request req =>
    cases stepped
    exact .request req
  | resolved addrs err =>
    simp only [step] at stepped
    split at stepped <;> cases stepped
    exact .resolved addrs err
  | returns =>
    simp only [step] at stepped
    split at stepped <;> cases stepped
    next frame stack framed => exact .returns frame stack framed
  | engine c fails =>
    cases stepped
    exact .engine c fails
  | loop e =>
    simp only [step] at stepped
    split at stepped
    next idling => exact .loop e idling stepped
    · cases stepped

theorem Tidy.step {p p' : ConnectionPool} (tidy : Tidy p) (e : Event) (calm : NothingFreesIdle p e)
    (stepped : p.step e = some p') : Tidy p' := by
  cases moves_step stepped with
  | request req => exact tidy.request req
  | resolved addrs err => exact tidy.onResolved addrs err
  | returns frame stack framed =>
    have member : frame ∈ p.stack := framed ▸ mem_cons_self ..
    exact (tidy.popped frame stack framed).exec frame (tidy.suspended frame member)
      (fun t inside => tidy.owed frame member t (mem_of_mem_tail inside))
  | engine c fails =>
    exact tidy.modify c _ (tidy.noTls c) (tidy.slots c) Iff.rfl (fun h => h) (fun h => ⟨h, rfl⟩)
  | loop e idling looped => exact tidy.loopStep e calm idling looped

/-! ### Runs -/

/-- No connection is filed twice, idle connections carry nothing, and `start` is never
called on a connection that carries a request. -/
def Partition (p : ConnectionPool) : Prop :=
  (p.idle ++ p.busy ++ p.connecting).Nodup ∧
  (∀ c ∈ p.idle, (p.conns c).busy = false ∧ (p.conns c).callback = none) ∧
  ∀ c k, Note.started c k ∈ p.log → k = none

theorem Tidy.partition {p : ConnectionPool} (tidy : Tidy p) : Partition p := by
  refine ⟨?_, tidy.rested, tidy.fresh⟩
  rw [nodup_iff_count_le_one]
  intro c
  rw [count_append, count_append]
  exact tidy.once c

/-- Two pools that agree on what `dispatch` looks at. -/
structure SameLists (p q : ConnectionPool) : Prop where
  idle : q.idle = p.idle
  busy : q.busy = p.busy
  connecting : q.connecting = p.connecting
  queue : q.queue = p.queue
  maxConnections : q.maxConnections = p.maxConnections

theorem send_lists (p : ConnectionPool) (c : ConnId) (wire : Bytes) :
    SameLists p (p.send c wire) := by
  unfold send forceClose tlsDown
  repeat' split
  all_goals exact ⟨rfl, rfl, rfl, rfl, rfl⟩

theorem start_lists (p : ConnectionPool) (c : ConnId) (pending : Pending) :
    SameLists p (p.start c pending) := by
  have sent := send_lists ((p.note (.started c (p.conns c).callback)).modify c (·.begin pending.id))
    c ((pending.req.addHeader (text "Connection") (text "keep-alive")).appendTo p.host)
  exact ⟨sent.idle, sent.busy, sent.connecting, sent.queue, sent.maxConnections⟩

theorem onFree_files (p : ConnectionPool) (c : ConnId) (idle : c ∈ p.idle) :
    2 ≤ (p.onFree c).idle.count c + (p.onFree c).busy.count c + (p.onFree c).connecting.count c := by
  have once := count_pos_iff.mpr idle
  unfold onFree
  dsimp only
  split
  next pending queue _ =>
    have same := start_lists { p with queue, busy := p.busy.erase c ++ [c] } c pending
    rw [same.idle, same.busy, same.connecting]
    show 2 ≤ p.idle.count c + (p.busy.erase c ++ [c]).count c + p.connecting.count c
    rw [count_append, count_singleton_self]
    omega
  · show 2 ≤ (p.idle ++ [c]).count c + (p.busy.erase c).count c + p.connecting.count c
    rw [count_append, count_singleton_self]
    omega

theorem freesIdle_breaks (p p' : ConnectionPool) (e : Event) (tidy : Tidy p)
    (unmet : ¬NothingFreesIdle p e) (stepped : p.step e = some p') : ¬Partition p' := by
  unfold NothingFreesIdle at unmet
  split at unmet
  case h_2 => exact absurd trivial unmet
  next c data now =>
    obtain ⟨idle, complete, keeps⟩ : c ∈ p.idle ∧ CompletesKeepAlive ((p.conns c).receive data) := by
      simpa using unmet
    have free := (tidy.rested c idle).2
    have here := modify_conns_self p c (·.receive data)
    have accepted : ((p.conns c).receive data).parsed.1.hasError = false := by
      have state : ((p.conns c).receive data).parsed.1.state = .gotAll := by
        simpa [ResponseParser.gotAll] using complete
      simp [ResponseParser.hasError, state]
    -- nothing is in flight, so no callback runs and the step ends in `onFree`
    have freed : p' = ((p.modify c (·.receive data)).modify c (·.completed now)).onFree c := by
      simp only [step, loopStep, deliver] at stepped
      split at stepped
      · split at stepped
        · cases stepped
        · have held : p.holds c := .inl idle
          rw [if_pos held] at stepped
          cases stepped
          unfold consume
          dsimp only
          rw [here, if_neg (by simp [accepted]), if_pos complete, if_pos keeps]
          simp [finish, exec, PooledConn.receive, free]
      · cases stepped
    rintro ⟨nodup, _⟩
    have twice := onFree_files ((p.modify c (·.receive data)).modify c (·.completed now)) c idle
    rw [← freed] at twice
    have single := nodup_iff_count_le_one.mp nodup c
    rw [count_append, count_append] at single
    omega

/-- In a plaintext pool the lists stay a partition along a run, at every point of it and
whatever the server sends, exactly when no complete keep-alive response arrives on a
connection that is idle at that time. -/
theorem partition_iff (host : Bytes) (maxConnections : Nat) (idleTimeoutS : UInt32)
    (resolved : Bool) (events : List Event) :
    let start := initial false host maxConnections idleTimeoutS resolved
    Machine.Always step Partition start events ↔
      Machine.Meets step NothingFreesIdle start events :=
  Machine.always_iff_meets (fun _ (tidy : Tidy _) => tidy.partition)
    (fun _ e _ tidy calm stepped => tidy.step e calm stepped)
    (fun p e p' tidy unmet stepped => freesIdle_breaks p p' e tidy unmet stepped)
    _ events (tidy_initial host maxConnections idleTimeoutS resolved)

/-- One request and its response, a second response that nobody asked for, and two more
requests. -/
def unsolicitedResponse : List Event :=
  let request : Event := .request { method := .get, path := text "/" }
  let response : Bytes := text "HTTP/1.1 408 Request Timeout\r\nContent-Length: 0\r\n\r\n"
  [request, .loop (.established 0 .pending 0), .loop (.received 0 response 1), .returns,
    .loop (.received 0 response 2), request, request]

/-- Both requests go to the one connection, and the second takes the place of the first. -/
theorem unsolicitedResponse_breaks :
    ¬Machine.Always step Partition (initial false (text "origin") 2 60 true)
      unsolicitedResponse := by
  intro always
  have ran : (Machine.run step (initial false (text "origin") 2 60 true)
      unsolicitedResponse).map (·.busy) = some [0, 0] := by decide +kernel
  obtain ⟨last, reached, busy⟩ := Option.map_eq_some_iff.mp ran
  have nodup := (always.last _ _ _ reached).1
  rw [busy] at nodup
  simp [List.nodup_append] at nodup

end Cox.Http.ConnectionPool

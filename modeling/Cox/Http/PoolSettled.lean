import Cox.Http.PoolPartition

/-!
# Connections out of use

A connection of the pool is settled when it is closed, is not idle and its handshake is not
under way. Whatever the pool does next, no request is started on it and it does not become
idle, as long as `consume` does not hand it on to `onFree`.
-/
namespace Cox.Http

open Cox.Lib List

def Note.startsOn (c : ConnId) : Note → Bool
  | .started d _ => d == c
  | .invoked _ _ _ | .sent _ _ _ | .down _ _ => false

namespace ConnectionPool

def starts (p : ConnectionPool) (c : ConnId) : Nat := p.log.countP (Note.startsOn c)

def driven (p : ConnectionPool) (c : ConnId) (outcome : Handshake) (now : UInt64) :
    ConnectionPool :=
  if handshaking (p.conns c) then p.driveHandshake c outcome now else p

/-! ### One connection -/

/-- What holds for every connection: `close` reaches the TCP connection, and a request in
flight can be answered or its response is malformed. -/
structure Sane (x : PooledConn) : Prop where
  encrypted : ∀ tls, x.tlsConn = some tls → x.tcp = .connected → tls.closed = false
  plain : x.tlsConn = none → x.tcp = .connected → x.conn = true
  slot : x.slot = .pooledConn → x.tlsConn = none
  new : x.tcp = .connecting → x.tlsConn = none
  answering : x.inFlight = true → x.callback ≠ none ∨ x.parser.state = .error

/-- A connection that is closed and will not become ready. -/
structure Shut (x : PooledConn) : Prop where
  tcp : x.tcp = .disconnecting ∨ x.tcp = .disconnected
  quiet : handshaking x = false

structure Stable (x y : PooledConn) : Prop where
  sane : Sane x → Sane y
  shut : Shut x → Shut y

namespace Stable

variable (x : PooledConn)

theorem of_same {x y : PooledConn} (tcp : y.tcp = x.tcp) (conn : y.conn = x.conn)
    (slot : y.slot = x.slot) (tls : y.tlsConn = x.tlsConn)
    (answering : Sane x → y.inFlight = true → y.callback ≠ none ∨ y.parser.state = .error) :
    Stable x y where
  sane sane :=
    { encrypted := by
        rw [tls, tcp]
        exact sane.encrypted
      plain := by
        rw [tls, tcp, conn]
        exact sane.plain
      slot := by
        rw [slot, tls]
        exact sane.slot
      new := by
        rw [tcp, tls]
        exact sane.new
      answering := answering sane }
  shut shut :=
    { tcp := by
        rw [tcp]
        exact shut.tcp
      quiet := by
        unfold handshaking
        rw [tls]
        exact shut.quiet }

theorem receive (data : Bytes) : Stable x (x.receive data) :=
  of_same rfl rfl rfl rfl fun sane => sane.answering

theorem writeFails (fails : Bool) : Stable x { x with writeFails := fails } :=
  of_same rfl rfl rfl rfl fun sane => sane.answering

theorem begin (id : ReqId) : Stable x (x.begin id) :=
  of_same rfl rfl rfl rfl fun _ _ => .inl (by simp [PooledConn.begin])

theorem malformed (bad : x.parsed.1.hasError = true) : Stable x x.malformed := by
  refine of_same rfl rfl rfl rfl fun _ _ => .inr ?_
  show x.parsed.1.state = .error
  simpa [ResponseParser.hasError] using bad

theorem completed (now : UInt64) : Stable x (x.completed now) := by
  refine of_same rfl rfl rfl rfl fun _ flight => ?_
  simp [PooledConn.completed, PooledConn.inFlight] at flight

theorem waiting (good : x.parsed.1.hasError = false) : Stable x x.waiting := by
  refine of_same rfl rfl rfl rfl fun sane flight => ?_
  refine (sane.answering flight).imp_right fun bad => ?_
  have stays : x.parsed = (x.parser, x.buf) :=
    Resumable.parse_stop _ _ _ (by simp only [ResponseParser.round, bad])
  simp [stays, ResponseParser.hasError, bad] at good

theorem shutdown : Stable x x.shutdown := by
  unfold PooledConn.shutdown
  split
  next up =>
    refine ⟨fun sane => ?_, fun shut => ⟨.inl rfl, shut.quiet⟩⟩
    exact
      { encrypted := fun _ _ up => by cases up
        plain := fun _ up => by cases up
        slot := sane.slot
        new := fun new => by cases new
        answering := sane.answering }
  · exact ⟨id, id⟩

theorem close : Stable x x.close := by
  unfold PooledConn.close
  split
  · split
    · exact ⟨id, id⟩
    · exact shutdown x
  · split
    · exact shutdown x
    · exact ⟨id, id⟩

theorem tcpClosed : Stable x x.tcpClosed where
  sane sane :=
    { encrypted := fun _ _ up => by cases up
      plain := fun _ up => by cases up
      slot := fun slot => by simp [PooledConn.tcpClosed, sane.slot slot]
      new := fun new => by cases new
      answering := sane.answering }
  shut shut :=
    { tcp := .inr rfl
      quiet := by
        have quiet := shut.quiet
        unfold handshaking PooledConn.tcpClosed at *
        cases tls : x.tlsConn <;> simp_all }

theorem lost : Stable x (x.withTcp .disconnected).lost where
  sane sane :=
    { encrypted := fun _ _ up => by cases up
      plain := fun _ up => by cases up
      slot := fun _ => rfl
      new := fun _ => rfl
      answering := sane.answering }
  shut _ := ⟨.inr rfl, rfl⟩

theorem givenUp : Stable x x.givenUp := by
  refine of_same rfl rfl rfl rfl fun _ flight => ?_
  simp [PooledConn.givenUp, PooledConn.inFlight] at flight

theorem secured (now : UInt64) : Stable x (x.secured.madeReady now) where
  sane sane :=
    { encrypted := fun tls set up => by
        obtain ⟨old, before, rfl⟩ := Option.map_eq_some_iff.mp set
        exact sane.encrypted old before up
      plain := fun none up => sane.plain (Option.map_eq_none_iff.mp none) up
      slot := fun slot => by simp [PooledConn.madeReady, PooledConn.secured, sane.slot slot]
      new := fun new => by simp [PooledConn.madeReady, PooledConn.secured, sane.new new]
      answering := sane.answering }
  shut shut :=
    { tcp := shut.tcp
      quiet := by
        have quiet := shut.quiet
        unfold handshaking PooledConn.madeReady PooledConn.secured at *
        cases tls : x.tlsConn <;> simp_all }

end Stable

theorem Sane.quiet_of_plain {x : PooledConn} (sane : Sane x) (plain : x.slot ≠ .tlsConnection) :
    handshaking x = false := by
  have slot : x.slot = .pooledConn := by cases slot : x.slot <;> simp_all
  simp [handshaking, sane.slot slot]

theorem shut_of_shutdown (x : PooledConn) (up : x.tcp ≠ .connecting) :
    x.shutdown.tcp = .disconnecting ∨ x.shutdown.tcp = .disconnected := by
  unfold PooledConn.shutdown
  split
  · exact .inl rfl
  next down => cases state : x.tcp <;> simp_all

theorem shut_close (x : PooledConn) (sane : Sane x) (up : x.tcp ≠ .connecting)
    (quiet : handshaking x = false) : Shut x.close := by
  -- a connection that `close` does not reach is not connected
  have down (gone : x.tcp ≠ .connected) : x.tcp = .disconnecting ∨ x.tcp = .disconnected := by
    cases state : x.tcp <;> simp_all
  refine ⟨?_, ?_⟩
  · unfold PooledConn.close
    split
    next tls set =>
      split
      next closed =>
        refine down fun connected => ?_
        rw [sane.encrypted tls set connected] at closed
        cases closed
      · exact shut_of_shutdown x up
    next unset =>
      split
      · exact shut_of_shutdown x up
      next gone => exact down fun connected => gone (sane.plain unset connected)
  · unfold handshaking
    rw [(close_same x).1]
    exact quiet

/-! ### The pool -/

theorem starts_note (p : ConnectionPool) (n : Note) (c : ConnId) :
    (p.note n).starts c = p.starts c + if n.startsOn c then 1 else 0 := by
  simp only [starts, note, countP_append, countP_singleton]

/-- A connection is closed and stays out of use. -/
structure Settled (c : ConnId) (n : Nat) (p : ConnectionPool) : Prop where
  starts : p.starts c = n
  rests : c ∉ p.idle
  shut : Shut (p.conns c)
  known : c < p.nextConn

structure Kept (told : List (ConnId × Nat)) (p : ConnectionPool) : Prop where
  known : ∀ c, p.holds c → c < p.nextConn
  sane : ∀ c, Sane (p.conns c)
  settled : ∀ t ∈ told, Settled t.1 t.2 p

theorem kept_initial (tls : Bool) (host : Bytes) (maxConnections : Nat) (idleTimeoutS : UInt32)
    (resolved : Bool) : Kept [] (initial tls host maxConnections idleTimeoutS resolved) where
  known := by simp [initial, holds]
  sane c := by constructor <;> simp [initial, PooledConn.inFlight]
  settled := by simp

namespace Kept

variable {told : List (ConnId × Nat)} {p q : ConnectionPool}

variable (kept : Kept told p) (c : ConnId)
include kept

theorem insert (n : Nat) (settled : Settled c n p) : Kept ((c, n) :: told) p :=
  { kept with settled := forall_mem_cons.mpr ⟨settled, kept.settled⟩ }

theorem lists (conns : q.conns = p.conns) (log : q.log = p.log)
    (nextConn : q.nextConn = p.nextConn) (holds : ∀ c, q.holds c → c < p.nextConn)
    (idle : ∀ c ∈ q.idle, c ∈ p.idle ∨ ∀ t ∈ told, t.1 ≠ c) :
    Kept told q where
  known := by
    rw [nextConn]
    exact holds
  sane := by
    rw [conns]
    exact kept.sane
  settled t member := by
    have settled := kept.settled t member
    refine ⟨?_, fun inside => ?_, ?_, ?_⟩
    · simp only [starts, log]
      exact settled.starts
    · rcases idle t.1 inside with before | other
      · exact settled.rests before
      · exact other t member rfl
    · rw [conns]
      exact settled.shut
    · rw [nextConn]
      exact settled.known

theorem modify (f : PooledConn → PooledConn) (stable : Stable (p.conns c) (f (p.conns c))) :
    Kept told (p.modify c f) where
  known := kept.known
  sane d := by
    by_cases here : d = c
    · subst here
      rw [modify_conns_self]
      exact stable.sane (kept.sane d)
    · rw [modify_conns_of_ne p c d f here]
      exact kept.sane d
  settled t member := by
    have settled := kept.settled t member
    refine { settled with shut := ?_ }
    by_cases here : t.1 = c
    · subst here
      rw [modify_conns_self]
      exact stable.shut settled.shut
    · rw [modify_conns_of_ne p c t.1 f here]
      exact settled.shut

theorem note (n : Note) (other : ∀ t ∈ told, n.startsOn t.1 = false) : Kept told (p.note n) where
  known := kept.known
  sane := kept.sane
  settled t member := by
    have settled := kept.settled t member
    refine { settled with starts := ?_ }
    rw [starts_note, other t member]
    exact settled.starts

theorem forceClose : Kept told (p.forceClose c) := by
  unfold ConnectionPool.forceClose tlsDown
  split
  · exact (kept.note _ fun _ _ => rfl).modify c _ (Stable.tcpClosed _)
  · exact kept

theorem send (wire : Bytes) : Kept told (p.send c wire) := by
  have sent : Kept told (p.note (.sent c (p.conns c).callback wire)) := kept.note _ fun _ _ => rfl
  unfold ConnectionPool.send
  split
  · split
    · exact kept
    · split
      · exact kept.forceClose c
      · exact sent
  · split
    · exact sent
    · exact kept

theorem start (pending : Pending) (other : ∀ t ∈ told, t.1 ≠ c) :
    Kept told (p.start c pending) := by
  have noted : Kept told (p.note (.started c (p.conns c).callback)) := by
    refine kept.note _ fun t member => ?_
    simpa [Note.startsOn] using Ne.symm (other t member)
  exact (noted.modify c _ (Stable.begin _ pending.id)).send c _

theorem newConn (pending : Pending) : Kept told (p.newConn pending) where
  known c held := by
    show c < p.nextConn + 1
    rcases held with idle | busy | connecting
    · exact Nat.lt_succ_of_lt (kept.known c (.inl idle))
    · exact Nat.lt_succ_of_lt (kept.known c (.inr (.inl busy)))
    · rcases mem_append.mp connecting with old | new
      · exact Nat.lt_succ_of_lt (kept.known c (.inr (.inr old)))
      · rw [mem_singleton.mp new]
        exact Nat.lt_succ_self _
  sane c := by
    by_cases here : c = p.nextConn
    · subst here
      constructor <;> simp [ConnectionPool.newConn, PooledConn.inFlight]
    · simp only [ConnectionPool.newConn, Function.update_of_ne here]
      exact kept.sane c
  settled t member := by
    have settled := kept.settled t member
    -- the new connection has a number that was not in use
    have other : t.1 ≠ p.nextConn := Nat.ne_of_lt settled.known
    refine ⟨settled.starts, settled.rests, ?_, Nat.lt_succ_of_lt settled.known⟩
    simp only [ConnectionPool.newConn, Function.update_of_ne other]
    exact settled.shut

theorem other_of_idle (idle : c ∈ p.idle) : ∀ t ∈ told, t.1 ≠ c := by
  rintro t member rfl
  exact (kept.settled t member).rests idle

theorem refile (below : c < p.nextConn) (other : ∀ t ∈ told, t.1 ≠ c) (conns : q.conns = p.conns)
    (log : q.log = p.log) (nextConn : q.nextConn = p.nextConn)
    (holds : ∀ d, q.holds d → p.holds d ∨ d = c) (idle : ∀ d ∈ q.idle, d ∈ p.idle ∨ d = c) :
    Kept told q := by
  refine kept.lists conns log nextConn (fun d held => ?_) fun d inside => ?_
  · rcases holds d held with before | rfl
    · exact kept.known d before
    · exact below
  · rcases idle d inside with before | rfl
    · exact .inl before
    · exact .inr other

theorem dispatch (pending : Pending) : Kept told (p.dispatch pending) := by
  unfold ConnectionPool.dispatch
  split
  next c found =>
    have idle : c ∈ p.idle := mem_of_getLast? found
    have other := kept.other_of_idle c idle
    have moved : Kept told { p with idle := p.idle.dropLast, busy := p.busy ++ [c] } := by
      refine kept.refile c (kept.known c (.inl idle)) other rfl rfl rfl (fun d held => ?_)
        fun d inside => .inl (dropLast_subset _ inside)
      have before : d ∈ p.idle.dropLast → d ∈ p.idle := fun inside => dropLast_subset _ inside
      simp only [holds, mem_append, mem_singleton] at held ⊢
      tauto
    exact moved.start c pending other
  · split
    · exact kept.newConn pending
    · exact kept.lists rfl rfl rfl kept.known fun _ => .inl

theorem dispatchAll (waiting : List Pending) :
    Kept told (waiting.foldl ConnectionPool.dispatch p) := by
  induction waiting generalizing p with
  | nil => exact kept
  | cons pending waiting ih => exact ih (kept.dispatch pending)

theorem request (req : HttpRequest) : Kept told (p.request req) := by
  have counted : Kept told { p with issued := p.issued + 1 } :=
    kept.lists rfl rfl rfl kept.known fun _ => .inl
  unfold ConnectionPool.request
  dsimp only
  split
  · exact counted.dispatch _
  · exact kept.lists rfl rfl rfl kept.known fun _ => .inl

theorem onReady (below : c < p.nextConn) (other : ∀ t ∈ told, t.1 ≠ c) :
    Kept told (p.onReady c) := by
  have erased (d : ConnId) : d ∈ p.connecting.erase c → d ∈ p.connecting := mem_of_mem_erase
  unfold ConnectionPool.onReady
  dsimp only
  split
  next pending waits =>
    refine start ?_ c pending other
    refine kept.refile c below other rfl rfl rfl (fun d held => ?_) fun _ => .inl
    have before := erased d
    simp only [holds, mem_append, mem_singleton] at held ⊢
    tauto
  · refine kept.refile c below other rfl rfl rfl (fun d held => ?_) fun d inside => ?_
    · have before := erased d
      simp only [holds, mem_append, mem_singleton] at held ⊢
      tauto
    · simpa using inside

theorem onFree (below : c < p.nextConn) (other : ∀ t ∈ told, t.1 ≠ c) : Kept told (p.onFree c) := by
  have erased (d : ConnId) : d ∈ p.busy.erase c → d ∈ p.busy := mem_of_mem_erase
  unfold ConnectionPool.onFree
  dsimp only
  split
  next pending queue next =>
    refine start ?_ c pending other
    refine kept.refile c below other rfl rfl rfl (fun d held => ?_) fun _ => .inl
    have before := erased d
    simp only [holds, mem_append, mem_singleton] at held ⊢
    tauto
  · refine kept.refile c below other rfl rfl rfl (fun d held => ?_) fun d inside => ?_
    · have before := erased d
      simp only [holds, mem_append, mem_singleton] at held ⊢
      tauto
    · simpa using inside

theorem onClosed : Kept told (p.onClosed c) := by
  have forgotten (queue : List Pending) : Kept told { p with
      idle := p.idle.erase c
      busy := p.busy.erase c
      connecting := p.connecting.erase c
      pending := Function.update p.pending c none
      queue } := by
    refine kept.lists rfl rfl rfl (fun d held => kept.known d ?_)
      fun d inside => .inl (mem_of_mem_erase inside)
    exact held.imp mem_of_mem_erase (Or.imp mem_of_mem_erase mem_of_mem_erase)
  unfold ConnectionPool.onClosed
  dsimp only
  split
  next pending queue next =>
    split
    · exact (forgotten queue).newConn pending
    · exact forgotten p.queue
  · exact forgotten p.queue

theorem evictIdle (now : UInt64) : Kept told (p.evictIdle now) := by
  refine evictIdle_keeps (P := Kept told) (fun q c kept => ?_) p now kept
  have shorter : Kept told { q with idle := q.idle.erase c } := by
    refine kept.lists rfl rfl rfl (fun d held => kept.known d ?_)
      fun d inside => .inl (mem_of_mem_erase inside)
    exact held.imp_left mem_of_mem_erase
  exact shorter.modify c _ (Stable.close _)

theorem afterRead (status : TlsStatus) : Kept told (p.afterRead c status) := by
  cases status with
  | ok | wantIo => exact kept
  | closed => exact kept.modify c _ (Stable.shutdown _)
  | error => exact kept.forceClose c

theorem exec (tasks : List Task) : Kept told (exec tasks p) := by
  induction tasks generalizing p with
  | nil => exact kept
  | cons t rest ih =>
    cases t with
    | invoke id resp err =>
      have noted : Kept told (p.note (.invoked id resp err)) := kept.note _ fun _ _ => rfl
      exact noted.lists rfl rfl rfl noted.known fun _ => .inl
    | close c => exact ih (kept.modify c _ (Stable.close _))
    | onClosed c => exact ih (kept.onClosed c)
    | tlsStatus c status => exact ih (kept.afterRead c status)

theorem onResolved (addrs : List Bytes) (err : Bytes) :
    Kept told (finish (p.onResolved addrs err)) := by
  unfold ConnectionPool.onResolved
  dsimp only
  split
  · have unparked : Kept told { p with resolving := false, waitingOnDns := [] } :=
      kept.lists rfl rfl rfl kept.known fun _ => .inl
    exact unparked.exec _
  · have ready : Kept told { p with resolving := false, waitingOnDns := [], resolved := true } :=
      kept.lists rfl rfl rfl kept.known fun _ => .inl
    exact ready.dispatchAll p.waitingOnDns

/-! ### The handlers -/

section Handshake

variable (outcome : Handshake) (now : UInt64) (below : c < p.nextConn)
include below

theorem driveHandshake : Kept told (p.driveHandshake c outcome now) := by
  unfold ConnectionPool.driveHandshake
  split
  · exact kept
  next going =>
    cases outcome with
    | pending => exact kept
    | error => exact kept.forceClose c
    | done =>
      rw [modify_modify]
      refine (kept.modify c _ (Stable.secured _ now)).onReady c below ?_
      rintro t member rfl
      simp [(kept.settled t member).shut.quiet] at going

theorem driven : Kept told (p.driven c outcome now) := by
  unfold ConnectionPool.driven
  split
  · exact kept.driveHandshake c outcome now below
  · exact kept

theorem onConnectionUp (new : (p.conns c).tcp = .connecting) :
    Kept told ((p.modify c (·.withTcp .connected)).onConnectionUp c outcome now) := by
  have notShut : ¬Shut (p.conns c) := fun shut => by simpa [new] using shut.tcp
  unfold ConnectionPool.onConnectionUp
  dsimp only
  rw [modify_modify, modify_modify]
  split
  · refine driveHandshake (kept.modify c _ ⟨fun sane => ?_, fun shut => absurd shut notShut⟩)
      c outcome now below
    exact
      { encrypted := fun tls set _ => by
          cases set
          rfl
        plain := fun none _ => by cases none
        slot := fun slot => by cases slot
        new := fun new => by cases new
        answering := sane.answering }
  · rw [modify_modify]
    refine onReady (kept.modify c _ ⟨fun sane => ?_, fun shut => absurd shut notShut⟩)
      c below ?_
    · have bare := sane.new new
      exact
        { encrypted := fun tls set _ => by
            cases bare.symm.trans set
          plain := fun _ _ => rfl
          slot := fun _ => bare
          new := fun _ => bare
          answering := sane.answering }
    · rintro t member rfl
      exact notShut (kept.settled t member).shut

end Handshake

/-- A response is consumed, and the connection is handed on only if it may be used again. -/
theorem consume (now : UInt64) (below : c < p.nextConn)
    (free : (p.conns c).parsed.1.gotAll = true →
      serverKeepsAlive (p.conns c).parsed.1.response = true → ∀ t ∈ told, t.1 ≠ c) :
    Kept told (p.consume c now).1 := by
  unfold ConnectionPool.consume
  dsimp only
  split
  next bad => exact kept.modify c _ (Stable.malformed _ bad)
  next good =>
    split
    next complete =>
      have completed := kept.modify c (·.completed now) (Stable.completed _ now)
      dsimp only
      split
      next keeps => exact completed.onFree c below (free complete keeps)
      · exact completed.modify c _ (Stable.close _)
    · exact kept.modify c _ (Stable.waiting _ (by simpa using good))

theorem onConnectionDown :
    Kept told ((p.modify c (·.withTcp .disconnected)).onConnectionDown c).1 := by
  have lost : Kept told (p.modify c fun x => (x.withTcp .disconnected).lost) :=
    kept.modify c _ (Stable.lost _)
  rw [← modify_modify p c (·.withTcp .disconnected) (·.lost)] at lost
  unfold ConnectionPool.onConnectionDown
  dsimp only
  split
  · exact lost.modify c _ (Stable.givenUp _)
  · exact lost

end Kept

theorem consume_complete (p : ConnectionPool) (c : ConnId) (now : UInt64)
    (complete : (p.conns c).parsed.1.gotAll = true) :
    p.consume c now =
      (if serverKeepsAlive (p.conns c).parsed.1.response then (p.modify c (·.completed now)).onFree c
        else (p.modify c (·.completed now)).modify c (·.close),
        (p.conns c).callback.toList.map fun id => .invoke id (p.conns c).parsed.1.response []) := by
  have good : (p.conns c).parsed.1.hasError = false := by
    have state : (p.conns c).parsed.1.state = .gotAll := by
      simpa [ResponseParser.gotAll] using complete
    simp [ResponseParser.hasError, state]
  unfold consume
  dsimp only
  rw [if_neg (by simp [good]), if_pos complete]

theorem settled_consume {told : List (ConnId × Nat)} {p : ConnectionPool} (kept : Kept told p)
    (c : ConnId) (now : UInt64) (below : c < p.nextConn) (up : (p.conns c).tcp ≠ .connecting)
    (quiet : handshaking (p.conns c) = false) (complete : (p.conns c).parsed.1.gotAll = true)
    (closes : serverKeepsAlive (p.conns c).parsed.1.response = false) (used : c ∉ p.idle) :
    Settled c (p.starts c) (p.consume c now).1 := by
  rw [consume_complete p c now complete, closes]
  refine ⟨rfl, used, ?_, below⟩
  have sane := (Stable.completed (p.conns c) now).sane (kept.sane c)
  show Shut (((p.modify c (·.completed now)).modify c (·.close)).conns c)
  rw [modify_conns_self, modify_conns_self]
  exact shut_close _ sane up quiet

theorem settled_down (p : ConnectionPool) (c : ConnId) (below : c < p.nextConn) (used : c ∉ p.idle) :
    Settled c (p.starts c) ((p.modify c (·.withTcp .disconnected)).onConnectionDown c).1 := by
  unfold onConnectionDown
  dsimp only
  split
  · refine ⟨rfl, used, ?_, below⟩
    rw [modify_conns_self, modify_conns_self, modify_conns_self]
    exact ⟨.inr rfl, rfl⟩
  · refine ⟨rfl, used, ?_, below⟩
    rw [modify_conns_self, modify_conns_self]
    exact ⟨.inr rfl, rfl⟩

end ConnectionPool

end Cox.Http

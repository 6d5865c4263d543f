import Cox.Http.Fields
import Cox.Http.PoolSettled

/-!
# Connections that are not to be used again

A response with the header `Connection: close`, in any letter case, announces that the server
is about to close the connection. `consume` then closes it instead of handing it on, but it
finds the header only under the spelling `Connection`, and only if no later field of that name
has another value. A connection that is idle when such a response arrives stays idle, and one
that is already being closed is handed on by a second response that does not say close.
-/
namespace Cox.Http

open Cox.Lib List

/-- The header section of a response says close, in any letter case. -/
def SaysClose (raw : Bytes) : Prop :=
  ∃ line ∈ (headLines raw).tail,
    toLower (fieldName line) = text "connection" ∧ toLower (fieldValue line) = text "close"

instance (raw : Bytes) : Decidable (SaysClose raw) :=
  inferInstanceAs (Decidable (∃ line ∈ (headLines raw).tail, _))

namespace ConnectionPool

/-- The connection whose bytes an event brings to `consume`, and the pool at that moment. -/
def consuming (p : ConnectionPool) : Event → Option (ConnId × ConnectionPool)
  | .loop (.received c data _) =>
    if p.holds c then some (c, p.modify c (·.receive data)) else none
  | .loop (.decrypted c outcome plaintext _ now) =>
    let q := p.driven c outcome now
    if p.holds c ∧ handshaking (q.conns c) = false ∧ plaintext ≠ [] then
      some (c, q.modify c (·.receive plaintext))
    else none
  | _ => none

/-- The connection whose end completes a response. -/
def ending (p : ConnectionPool) : Event → Option ConnId
  | .loop (.down c) =>
    if p.holds c ∧ (p.conns c).slot = .pooledConn ∧ (p.conns c).inFlight = true ∧
        (p.conns c).parser.onEof.gotAll = true then some c
    else none
  | _ => none

structure Heard where
  /-- The bytes of the response that is being read. -/
  read : ConnId → Bytes := fun _ => []
  /-- The connections on which a response has said close, with the number of calls of `start`
  until then. -/
  told : List (ConnId × Nat) := []

/-- A complete response, and the pool when it is complete. -/
structure Answer where
  conn : ConnId
  pool : ConnectionPool
  raw : Bytes
  /-- The connection is handed on to `onFree`. -/
  freed : Bool

/-- The bytes of the responses that are being read; `start` resets the parser. -/
def sinceStart (p q : ConnectionPool) (read : ConnId → Bytes) (c : ConnId) : Bytes :=
  if q.starts c = p.starts c then read c else []

def taken (x : PooledConn) : Bytes := x.buf.take (x.buf.length - x.parsed.2.length)

def answer (p : ConnectionPool) (h : Heard) (e : Event) : Option Answer :=
  match p.consuming e with
  | some (c, q) =>
    if (q.conns c).parsed.1.gotAll then
      some ⟨c, q, sinceStart p q h.read c ++ taken (q.conns c),
        serverKeepsAlive (q.conns c).parsed.1.response⟩
    else none
  | none => (p.ending e).map fun c => ⟨c, p, h.read c, false⟩

def hear (p : ConnectionPool) (e : Event) (h : Heard) : Heard where
  read :=
    let next := (p.step e).getD p
    match p.consuming e with
    | some (c, q) =>
      let before := sinceStart p q h.read
      let raw := before c ++ taken (q.conns c)
      sinceStart q next
        (Function.update before c (if (q.conns c).parsed.1.gotAll then [] else raw))
    | none => sinceStart p next h.read
  told :=
    match p.answer h e with
    | some a => if SaysClose a.raw then (a.conn, a.pool.starts a.conn) :: h.told else h.told
    | none => h.told

/-- A connection on which a response has said close is closed, is not idle, and nothing was
started on it since. -/
def KeptClosed (x : ConnectionPool × Heard) : Prop :=
  ∀ t ∈ x.2.told, x.1.starts t.1 = t.2 ∧ t.1 ∉ x.1.idle ∧
    ((x.1.conns t.1).tcp = .disconnecting ∨ (x.1.conns t.1).tcp = .disconnected)

/-- A response that says close is found to say so and does not come to an idle connection, and
no connection is handed on after it. -/
def Heeded (x : ConnectionPool × Heard) (e : Event) : Prop :=
  ∀ a, x.1.answer x.2 e = some a →
    (SaysClose a.raw → a.freed = false ∧ a.conn ∉ a.pool.idle) ∧
      (a.freed = true → ∀ t ∈ x.2.told, t.1 ≠ a.conn)

/-! ### What is heard -/

theorem told_of_none (p : ConnectionPool) (h : Heard) (e : Event) (silent : p.answer h e = none) :
    (p.hear e h).told = h.told := by
  simp only [hear, silent]

theorem told_of_some (p : ConnectionPool) (h : Heard) (e : Event) (a : Answer)
    (heard : p.answer h e = some a) :
    (p.hear e h).told =
      if SaysClose a.raw then (a.conn, a.pool.starts a.conn) :: h.told else h.told := by
  simp only [hear, heard]

theorem kept_consuming {p q : ConnectionPool} {h : Heard} {e : Event} {c : ConnId} (now : UInt64)
    (consumes : p.consuming e = some (c, q)) (heeded : Heeded (p, h) e) (kept : Kept h.told q)
    (below : c < q.nextConn) (up : (q.conns c).tcp ≠ .connecting)
    (quiet : handshaking (q.conns c) = false) :
    Kept (p.hear e h).told (q.consume c now).1 := by
  by_cases complete : (q.conns c).parsed.1.gotAll = true
  · have heard : p.answer h e = some ⟨c, q, sinceStart p q h.read c ++ taken (q.conns c),
        serverKeepsAlive (q.conns c).parsed.1.response⟩ := by
      simp only [answer, consumes, if_pos complete]
    obtain ⟨closes, free⟩ := heeded _ heard
    have after := kept.consume c now below fun _ keeps => free keeps
    rw [told_of_some p h e _ heard]
    split
    next told =>
      obtain ⟨found, used⟩ := closes told
      exact after.insert c _ (settled_consume kept c now below up quiet complete found used)
    · exact after
  · have silent : p.answer h e = none := by simp only [answer, consumes, if_neg complete]
    rw [told_of_none p h e silent]
    exact kept.consume c now below fun complete' => absurd complete' complete

theorem kept_down {p : ConnectionPool} {h : Heard} (c : ConnId)
    (heeded : Heeded (p, h) (.loop (.down c))) (kept : Kept h.told p) (below : c < p.nextConn) :
    Kept (p.hear (.loop (.down c)) h).told (((p.note (.down c (p.carried c))).modify c
      (·.withTcp .disconnected)).onConnectionDown c).1 := by
  have noted : Kept h.told (p.note (.down c (p.carried c))) := kept.note _ fun _ _ => rfl
  have after := noted.onConnectionDown c
  cases heard : p.answer h (.loop (.down c)) with
  | none =>
    rw [told_of_none p h _ heard]
    exact after
  | some a =>
    obtain ⟨closes, _⟩ := heeded a heard
    rw [told_of_some p h _ a heard]
    have whose : a = ⟨c, p, h.read c, false⟩ := by
      simp only [answer, consuming, ending] at heard
      split at heard <;> cases heard
      rfl
    subst whose
    split
    next told =>
      refine after.insert c _ ?_
      have settled := settled_down (p.note (.down c (p.carried c))) c below (closes told).2
      rwa [starts_note] at settled
    · exact after

section Handlers

variable (p : ConnectionPool) (c : ConnId)

theorem up_send (wire : Bytes) (up : (p.conns c).tcp ≠ .connecting) :
    ((p.send c wire).conns c).tcp ≠ .connecting := by
  unfold send forceClose tlsDown
  repeat' split
  all_goals first | exact up | skip
  rw [modify_conns_self]
  simp [PooledConn.tcpClosed]

theorem up_start (pending : Pending) (up : (p.conns c).tcp ≠ .connecting) :
    ((p.start c pending).conns c).tcp ≠ .connecting := by
  refine up_send _ c _ ?_
  rw [modify_conns_self]
  exact up

theorem up_driven (outcome : Handshake) (now : UInt64) (up : (p.conns c).tcp ≠ .connecting) :
    ((p.driven c outcome now).conns c).tcp ≠ .connecting := by
  have ready : ((p.modify c fun x => x.secured.madeReady now).conns c).tcp ≠ .connecting := by
    rw [modify_conns_self]
    exact up
  unfold driven driveHandshake
  split
  · split
    · exact up
    · cases outcome with
      | pending => exact up
      | error =>
        simp only [forceClose, tlsDown]
        split
        · rw [modify_conns_self]
          simp [PooledConn.tcpClosed]
        · exact up
      | done =>
        simp only [modify_modify, onReady]
        split
        · exact up_start _ c _ ready
        · exact ready
  · exact up

theorem nextConn_send (wire : Bytes) : (p.send c wire).nextConn = p.nextConn := by
  unfold send forceClose tlsDown
  repeat' split
  all_goals rfl

theorem nextConn_driven (outcome : Handshake) (now : UInt64) :
    (p.driven c outcome now).nextConn = p.nextConn := by
  unfold driven driveHandshake
  split
  · split
    · rfl
    · cases outcome with
      | pending => rfl
      | error =>
        simp only [forceClose, tlsDown]
        split <;> rfl
      | done =>
        simp only [onReady]
        split
        · exact nextConn_send _ c _
        · rfl
  · rfl

theorem onTlsMessage_eq (outcome : Handshake) (plaintext : Bytes) (status : TlsStatus)
    (now : UInt64) :
    p.onTlsMessage c outcome plaintext status now =
      if handshaking ((p.driven c outcome now).conns c) then (p.driven c outcome now, [])
      else if plaintext = [] then (p.driven c outcome now, [.tlsStatus c status])
      else
        ((((p.driven c outcome now).modify c (·.receive plaintext)).consume c now).1,
          (((p.driven c outcome now).modify c (·.receive plaintext)).consume c now).2 ++
            [.tlsStatus c status]) := rfl

end Handlers

/-- The pool when the bytes of a connection are consumed, and what follows. -/
structure Reaches (told : List (ConnId × Nat)) (c : ConnId) (q p' : ConnectionPool) : Prop where
  kept : Kept told q
  below : c < q.nextConn
  up : (q.conns c).tcp ≠ .connecting
  quiet : handshaking (q.conns c) = false
  after : ∃ now rest, p' = exec ((q.consume c now).2 ++ rest) (q.consume c now).1 ∧
    ∀ t ∈ rest, ∃ status, t = .tlsStatus c status

section Kept

variable {told : List (ConnId × Nat)} {p p' : ConnectionPool} (kept : Kept told p) (c : ConnId)
include kept

theorem reaches_received (data : Bytes) (now : UInt64) (held : p.holds c)
    (stepped : p.loopStep (.received c data now) = some p') :
    Reaches told c (p.modify c (·.receive data)) p' := by
  simp only [loopStep, deliver, if_pos held] at stepped
  split at stepped
  · cases stepped
  next reaches =>
    rw [not_or] at reaches
    cases stepped
    refine ⟨kept.modify c _ (Stable.receive _ data), kept.known c held, ?_, ?_, now, [], ?_, ?_⟩
    · rw [modify_conns_self]
      exact reaches.1
    · rw [modify_conns_self]
      exact (kept.sane c).quiet_of_plain reaches.2
    · rw [append_nil]
      rfl
    · simp

theorem reaches_decrypted (outcome : Handshake) (plaintext : Bytes) (status : TlsStatus)
    (now : UInt64) (held : p.holds c)
    (secure : handshaking ((p.driven c outcome now).conns c) = false) (bytes : plaintext ≠ [])
    (stepped : p.loopStep (.decrypted c outcome plaintext status now) = some p') :
    Reaches told c ((p.driven c outcome now).modify c (·.receive plaintext)) p' := by
  simp only [loopStep, deliver, if_pos held] at stepped
  split at stepped
  · cases stepped
  next reaches =>
    rw [not_or] at reaches
    rw [onTlsMessage_eq, if_neg (by simp [secure]), if_neg bytes] at stepped
    cases stepped
    have driven := kept.driven c outcome now (kept.known c held)
    refine ⟨driven.modify c _ (Stable.receive _ plaintext), ?_, ?_, ?_, now,
      [.tlsStatus c status], rfl, ?_⟩
    · show c < (p.driven c outcome now).nextConn
      rw [nextConn_driven]
      exact kept.known c held
    · rw [modify_conns_self]
      exact up_driven p c outcome now reaches.1
    · rw [modify_conns_self]
      exact secure
    · intro t member
      exact ⟨status, mem_singleton.mp member⟩

end Kept

theorem reaches_consuming {told : List (ConnId × Nat)} {p q p' : ConnectionPool} {e : Event}
    {c : ConnId} (kept : Kept told p) (consumes : p.consuming e = some (c, q))
    (stepped : p.step e = some p') : Reaches told c q p' := by
  cases moves_step stepped with
  | loop e _ looped =>
    cases e with
    | received c data now =>
      simp only [consuming] at consumes
      split at consumes <;> cases consumes
      next held => exact reaches_received kept c data now held looped
    | decrypted c outcome plaintext status now =>
      simp only [consuming] at consumes
      split at consumes <;> cases consumes
      next all =>
        obtain ⟨holds, shaken, some⟩ := all
        exact reaches_decrypted kept c outcome plaintext status now holds shaken some looped
    | established | down | evict => cases consumes
  | request | resolved | returns | engine => cases consumes

theorem kept_loopStep {p p' : ConnectionPool} {h : Heard} (e : LoopEvent) (kept : Kept h.told p)
    (heeded : Heeded (p, h) (.loop e)) (idles : p.consuming (.loop e) = none)
    (stepped : p.loopStep e = some p') : Kept (p.hear (.loop e) h).told p' := by
  cases e with
  | established c outcome now =>
    rw [told_of_none p h _ rfl]
    simp only [loopStep] at stepped
    split at stepped
    next new =>
      exact deliver_keeps stepped kept fun _ => kept.onConnectionUp c outcome now new.1 new.2
    · cases stepped
  | received c data now =>
    have silent : p.answer h (.loop (.received c data now)) = none := by
      simp only [answer, idles]
      rfl
    rw [told_of_none p h _ silent]
    simp only [loopStep] at stepped
    split at stepped
    · cases stepped
    · refine deliver_keeps stepped kept fun held => ?_
      simp [consuming, held] at idles
  | decrypted c outcome plaintext status now =>
    have silent : p.answer h (.loop (.decrypted c outcome plaintext status now)) = none := by
      simp only [answer, idles]
      rfl
    rw [told_of_none p h _ silent]
    simp only [loopStep] at stepped
    split at stepped
    · cases stepped
    · refine deliver_keeps stepped kept fun held => ?_
      have driven := kept.driven c outcome now (kept.known c held)
      rw [onTlsMessage_eq]
      split
      · exact driven
      next secure =>
        split
        · exact driven.exec _
        next some => simp [consuming, held, secure, some] at idles
  | down c =>
    simp only [loopStep] at stepped
    split at stepped
    · cases stepped
    next up =>
      cases slot : (p.conns c).slot with
      | tlsConnection =>
        have silent : p.answer h (.loop (.down c)) = none := by
          simp [answer, consuming, ending, slot]
        rw [told_of_none p h _ silent]
        simp only [slot] at stepped
        exact deliver_keeps stepped kept fun _ =>
          (kept.note _ fun _ _ => rfl).modify c _ (Stable.tcpClosed _)
      | pooledConn =>
        simp only [slot, deliver] at stepped
        split at stepped <;> cases stepped
        next held => exact Kept.exec (kept_down c heeded kept (kept.known c held)) _
        next dropped =>
          have silent : p.answer h (.loop (.down c)) = none := by
            simp [answer, consuming, ending, dropped]
          rw [told_of_none p h _ silent]
          exact kept
  | evict now =>
    rw [told_of_none p h _ rfl]
    cases stepped
    exact kept.evictIdle now

theorem kept_step {p p' : ConnectionPool} {h : Heard} (e : Event) (kept : Kept h.told p)
    (heeded : Heeded (p, h) e) (stepped : p.step e = some p') : Kept (p.hear e h).told p' := by
  cases consumes : p.consuming e with
  | some consumed =>
    obtain ⟨c, q⟩ := consumed
    obtain ⟨before, below, up, quiet, now, rest, rfl, _⟩ := reaches_consuming kept consumes stepped
    exact Kept.exec (kept_consuming now consumes heeded before below up quiet) _
  | none =>
    cases moves_step stepped with
    | request req =>
      rw [told_of_none p h _ rfl]
      exact kept.request req
    | resolved addrs err =>
      rw [told_of_none p h _ rfl]
      exact kept.onResolved addrs err
    | returns frame stack framed =>
      rw [told_of_none p h _ rfl]
      have popped : Kept h.told { p with stack } :=
        kept.lists rfl rfl rfl kept.known fun _ => .inl
      exact popped.exec frame
    | engine c fails =>
      rw [told_of_none p h _ rfl]
      exact kept.modify c _ (Stable.writeFails _ fails)
    | loop e _ looped => exact kept_loopStep e kept heeded consumes looped

/-! ### Responses that are not heeded -/

theorem forceClose_uses (p : ConnectionPool) (c : ConnId) :
    (p.forceClose c).idle = p.idle ∧ ∀ d, (p.forceClose c).starts d = p.starts d := by
  unfold forceClose tlsDown
  split
  · exact ⟨rfl, fun d => starts_note p _ d⟩
  · exact ⟨rfl, fun _ => rfl⟩

theorem starts_send (p : ConnectionPool) (c d : ConnId) (wire : Bytes) :
    (p.send c wire).starts d = p.starts d := by
  unfold send
  split
  · split
    · rfl
    · split
      · exact (forceClose_uses p c).2 d
      · exact starts_note p _ d
  · split
    · exact starts_note p _ d
    · rfl

theorem onFree_uses (p : ConnectionPool) (c : ConnId) :
    c ∈ (p.onFree c).idle ∨ (p.onFree c).starts c = p.starts c + 1 := by
  unfold onFree
  dsimp only
  split
  next pending queue next =>
    right
    unfold start
    dsimp only
    rw [starts_send]
    show (note _ _).starts c = _
    rw [starts_note]
    simp [Note.startsOn]
    rfl
  · left
    exact mem_append_right _ (mem_singleton_self c)

theorem exec_uses (p : ConnectionPool) (tasks : List Task)
    (open' : ∀ t ∈ tasks, ∀ c, t ≠ .onClosed c) :
    (exec tasks p).idle = p.idle ∧ ∀ c, (exec tasks p).starts c = p.starts c := by
  induction tasks generalizing p with
  | nil => exact ⟨rfl, fun _ => rfl⟩
  | cons t rest ih =>
    have later : ∀ t ∈ rest, ∀ c, t ≠ .onClosed c :=
      fun t member => open' t (mem_cons_of_mem _ member)
    cases t with
    | invoke id resp err => exact ⟨rfl, fun c => starts_note p _ c⟩
    | close c => exact ih _ later
    | onClosed c => exact absurd rfl (open' _ (mem_cons_self ..) c)
    | tlsStatus c status =>
      obtain ⟨idle, starts⟩ := ih (p.afterRead c status) later
      cases status with
      | ok | wantIo | closed => exact ⟨idle, starts⟩
      | error =>
        obtain ⟨idle', starts'⟩ := forceClose_uses p c
        exact ⟨idle.trans idle', fun d => (starts d).trans (starts' d)⟩

theorem Reaches.uses {told : List (ConnId × Nat)} {c : ConnId} {q p' : ConnectionPool}
    (reaches : Reaches told c q p') (complete : (q.conns c).parsed.1.gotAll = true) :
    if serverKeepsAlive (q.conns c).parsed.1.response then
      c ∈ p'.idle ∨ p'.starts c = q.starts c + 1
    else p'.idle = q.idle := by
  obtain ⟨_, _, _, _, now, rest, rfl, statuses⟩ := reaches
  have open' : ∀ t ∈ (q.consume c now).2 ++ rest, ∀ d, t ≠ .onClosed d := by
    rw [consume_complete q c now complete]
    intro t member d
    rcases mem_append.mp member with answers | later
    · obtain ⟨id, _, rfl⟩ := mem_map.mp answers
      simp
    · obtain ⟨status, rfl⟩ := statuses t later
      simp
  obtain ⟨idle, starts⟩ := exec_uses (q.consume c now).1 _ open'
  rw [idle, starts c, consume_complete q c now complete]
  dsimp only
  split
  · exact onFree_uses _ c
  · rfl

theorem idle_of_ending {told : List (ConnId × Nat)} {p p' : ConnectionPool} {e : Event}
    {c : ConnId} (kept : Kept told p) (ends : p.ending e = some c)
    (stepped : p.step e = some p') : p'.idle = p.idle := by
  cases moves_step stepped with
  | loop e _ looped =>
    cases e with
    | down d =>
      simp only [ending] at ends
      split at ends <;> cases ends
      next all =>
        obtain ⟨held, slot, flight, complete⟩ := all
        -- the parser has not met an error, so the callback is still there
        have waiting : (p.conns c).callback ≠ none := by
          refine ((kept.sane c).answering flight).resolve_right fun bad => ?_
          simp [ResponseParser.onEof, ResponseParser.gotAll, bad] at complete
        obtain ⟨id, waiting⟩ := Option.ne_none_iff_exists'.mp waiting
        simp only [loopStep, slot, deliver, if_pos held] at looped
        split at looped <;> cases looped
        have here : ((p.note (.down c (p.carried c))).modify c (·.withTcp .disconnected)).conns c =
            (p.conns c).withTcp .disconnected := modify_conns_self ..
        have flight' : ((p.conns c).withTcp .disconnected).inFlight = true := flight
        have waiting' : ((p.conns c).withTcp .disconnected).callback = some id := waiting
        unfold onConnectionDown
        dsimp only
        rw [here, if_pos flight', waiting']
        rfl
    | established | received | decrypted | evict => cases ends
  | request | resolved | returns | engine => cases ends

/-- A response that is not heeded leaves a closed connection in use, or one to be used. -/
theorem unheeded_breaks {p p' : ConnectionPool} {h : Heard} (e : Event) (kept : Kept h.told p)
    (unmet : ¬Heeded (p, h) e) (stepped : p.step e = some p') : ¬KeptClosed (p', p.hear e h) := by
  intro closed
  refine unmet fun a heard => ?_
  have told := told_of_some p h e a heard
  simp only [KeptClosed, told] at closed
  cases consumes : p.consuming e with
  | some consumed =>
    obtain ⟨c, q⟩ := consumed
    simp only [answer, consumes] at heard
    split at heard <;> cases heard
    next complete =>
      have reaches := reaches_consuming kept consumes stepped
      have uses := reaches.uses complete
      dsimp only at closed ⊢
      cases keeps : serverKeepsAlive (q.conns c).parsed.1.response with
      | true =>
        rw [keeps, if_pos rfl] at uses
        constructor
        · intro close
          obtain ⟨starts, rests, _⟩ := closed (c, q.starts c) (by simp [close])
          rcases uses with idle | again
          · exact absurd idle rests
          · dsimp only at starts
            omega
        · rintro _ t member rfl
          obtain ⟨starts, rests, _⟩ := closed t (by split <;> simp [member])
          have before := (reaches.kept.settled t member).starts
          rcases uses with idle | again
          · exact rests idle
          · omega
      | false =>
        rw [keeps, if_neg (by simp)] at uses
        refine ⟨fun close => ⟨rfl, fun idle => ?_⟩, fun freed => by cases freed⟩
        obtain ⟨_, rests, _⟩ := closed (c, q.starts c) (by simp [close])
        exact rests (uses ▸ idle)
  | none =>
    simp only [answer, consumes] at heard
    obtain ⟨c, ends, rfl⟩ := Option.map_eq_some_iff.mp heard
    have idle := idle_of_ending kept ends stepped
    refine ⟨fun close => ⟨rfl, fun inside => ?_⟩, fun freed => by cases freed⟩
    obtain ⟨_, rests, _⟩ := closed (c, p.starts c) (by simp [close])
    exact rests (idle ▸ inside)

/-- **Connections are not used again** after a response that says close, exactly when every such
response is heeded. -/
theorem keptClosed_iff (tls : Bool) (host : Bytes) (maxConnections : Nat) (idleTimeoutS : UInt32)
    (resolved : Bool) (events : List Event) :
    let start := (initial tls host maxConnections idleTimeoutS resolved, ({} : Heard))
    Machine.Always (Machine.remembering step hear) KeptClosed start events ↔
      Machine.Meets (Machine.remembering step hear) Heeded start events := by
  intro start
  have stepped {x x' : ConnectionPool × Heard} {e : Event}
      (moved : Machine.remembering step hear x e = some x') :
      x.1.step e = some x'.1 ∧ x'.2 = x.1.hear e x.2 := by
    obtain ⟨p', played, rfl⟩ := Option.map_eq_some_iff.mp moved
    exact ⟨played, rfl⟩
  have good : ∀ x : ConnectionPool × Heard, Kept x.2.told x.1 → KeptClosed x := by
    intro x kept t member
    have settled := kept.settled t member
    exact ⟨settled.starts, settled.rests, settled.shut.tcp⟩
  refine Machine.always_iff_meets good ?_ ?_ start events
    (kept_initial tls host maxConnections idleTimeoutS resolved)
  · intro x e x' kept heeded moved
    obtain ⟨moved, heard⟩ := stepped moved
    rw [heard]
    exact kept_step e kept heeded moved
  · intro x e x' kept unmet moved
    obtain ⟨p', h'⟩ := x'
    obtain ⟨moved, rfl⟩ := stepped moved
    exact unheeded_breaks e kept unmet moved

/-- A request that is answered by a server with header names in lower case. -/
def lowerCaseClose : List Event :=
  let response := text "HTTP/1.1 200 OK\r\nconnection: close\r\ncontent-length: 0\r\n\r\n"
  [.request { method := .get, path := text "/" }, .loop (.established 0 .pending 0),
    .loop (.received 0 response 1)]

/-- The connection is idle afterwards, and the next request will be started on it. -/
theorem lowerCaseClose_idle :
    ¬Machine.Always (Machine.remembering step hear) KeptClosed
      (initial false (text "origin") 2 60 true, {}) lowerCaseClose := by
  intro always
  have ran : (Machine.run (Machine.remembering step hear)
      (initial false (text "origin") 2 60 true, ({} : Heard)) lowerCaseClose).map
        (fun x => (x.1.idle, x.2.told)) = some ([0], [(0, 1)]) := by decide +kernel
  obtain ⟨last, reached, seen⟩ := Option.map_eq_some_iff.mp ran
  obtain ⟨idle, told⟩ := Prod.mk.injEq .. ▸ seen
  have heard : (0, 1) ∈ last.2.told := by
    rw [told]
    exact List.mem_singleton.mpr rfl
  have rests := (always.last _ _ _ reached (0, 1) heard).2.1
  exact rests (by rw [idle]; exact List.mem_singleton.mpr rfl)

end ConnectionPool

end Cox.Http

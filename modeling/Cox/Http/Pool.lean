import Cox.Net.TcpConnection
import Cox.Http.ResponseParser

/-!
# The connection pool

`PooledConn` and `ConnectionPool::Impl` of http/connection_pool.cc, with the part of
`TlsConnection` (tls/tls_connection.cc) that stands between a TCP connection and the pool.

The pool runs on the loop thread and hands control to its users only through response
callbacks, in which they may call `request` again. A handler is therefore a state change
and a list of tasks that are still to be done; invoking a callback suspends the rest of
the list on `stack` until the callback returns. The clock, the bytes from the network
and the answers of the TLS engine come with the events.
-/
namespace Cox.Http

open Cox.Lib Cox.Net

abbrev ConnId := Nat
abbrev ReqId := Nat

/-- The object that the callback slots of the TCP connection lead to. -/
inductive Slot where
  | pooledConn
  | tlsConnection
  deriving DecidableEq, Repr

/-- `TlsConnection`. Its close callback is left out: the pool never sets it. -/
structure TlsConnection where
  handshakeDone : Bool := false
  closed : Bool := false
  deriving DecidableEq

/-- `TlsEngine::Status`. -/
inductive TlsStatus where
  | ok
  | wantIo
  | closed
  | error
  deriving DecidableEq, Repr

structure PooledConn where
  /-- The state of the TCP connection; `connecting` as long as there is none. -/
  tcp : TcpState := .connecting
  slot : Slot := .pooledConn
  /-- Whether the next write of the TLS engine fails. -/
  writeFails : Bool := false
  /-- `conn_` is set. -/
  conn : Bool := false
  tlsConn : Option TlsConnection := none
  /-- The bytes not yet consumed: the input buffer of the TCP connection, or `in_buf_`
  for TLS. -/
  buf : Bytes := []
  parser : ResponseParser := {}
  callback : Option ReqId := none
  lastUsed : UInt64 := 0
  ready : Bool := false
  busy : Bool := false
  done : Bool := false

namespace PooledConn

def withTcp (x : PooledConn) (tcp : TcpState) : PooledConn := { x with tcp }

def shutdown (x : PooledConn) : PooledConn :=
  if x.tcp = .connected then { x with tcp := .disconnecting } else x

def close (x : PooledConn) : PooledConn :=
  match x.tlsConn with
  | some tls => if tls.closed then x else x.shutdown
  | none => if x.conn then x.shutdown else x

def begin (x : PooledConn) (id : ReqId) : PooledConn :=
  { x with busy := true, done := false, parser := x.parser.reset, callback := some id }

/-- `TlsConnection::onTcpClose`, with the state of the TCP connection. -/
def tcpClosed (x : PooledConn) : PooledConn :=
  { x with
    tcp := .disconnected
    tlsConn := x.tlsConn.map fun tls => { tls with closed := true } }

def connectedAt (x : PooledConn) (now : UInt64) : PooledConn :=
  { x with conn := true, lastUsed := now }

def madeReady (x : PooledConn) (now : UInt64) : PooledConn :=
  { x with ready := true, lastUsed := now }

/-- The slots of the TCP connection go to a new `TlsConnection`. -/
def wrapped (x : PooledConn) : PooledConn :=
  { x with tlsConn := some {}, slot := .tlsConnection }

def secured (x : PooledConn) : PooledConn :=
  { x with tlsConn := x.tlsConn.map fun tls => { tls with handshakeDone := true } }

def receive (x : PooledConn) (data : Bytes) : PooledConn := { x with buf := x.buf ++ data }

def parsed (x : PooledConn) : ResponseParser × Bytes := x.parser.parse x.buf

def malformed (x : PooledConn) : PooledConn :=
  { x with parser := x.parsed.1, buf := x.parsed.2, callback := none }

def completed (x : PooledConn) (now : UInt64) : PooledConn :=
  { x with
    parser := x.parsed.1.reset
    buf := x.parsed.2
    busy := false
    done := true
    lastUsed := now
    callback := none }

def waiting (x : PooledConn) : PooledConn := { x with parser := x.parsed.1, buf := x.parsed.2 }

/-- `onConnection` forgets a connection that is down. -/
def lost (x : PooledConn) : PooledConn :=
  { x with ready := false, conn := false, tlsConn := none }

def givenUp (x : PooledConn) : PooledConn :=
  { x with busy := false, done := true, callback := none, parser := x.parser.onEof }

def inFlight (x : PooledConn) : Bool := x.busy && !x.done

/-- Idle for longer than the timeout, in the unsigned arithmetic of the source. -/
def expired (x : PooledConn) (now : UInt64) (idleTimeoutS : UInt32) : Bool :=
  (now - x.lastUsed) / 1000 > idleTimeoutS.toUInt64 * 1000

end PooledConn

/-- `ConnectionPool::Impl::Pending`; the callback is known by the number of the request. -/
structure Pending where
  id : ReqId
  req : HttpRequest

/-- What a handler has still to do. -/
inductive Task where
  | invoke (id : ReqId) (resp : HttpResponse) (err : Bytes)
  | close (c : ConnId)
  | onClosed (c : ConnId)
  | tlsStatus (c : ConnId) (status : TlsStatus)

/-- What has happened: a callback was invoked, `start` was called on a connection that
carried some request or none, bytes were sent for the request on a connection, a TCP connection
delivered its disconnect notification while some request was on it or waiting for it. -/
inductive Note where
  | invoked (id : ReqId) (resp : HttpResponse) (err : Bytes)
  | started (c : ConnId) (carried : Option ReqId)
  | sent (c : ConnId) (carried : Option ReqId) (wire : Bytes)
  | down (c : ConnId) (carried : Option ReqId)
  deriving DecidableEq

structure ConnectionPool where
  tls : Bool
  host : Bytes
  maxConnections : Nat
  idleTimeoutS : UInt32
  conns : ConnId → PooledConn := fun _ => {}
  nextConn : ConnId := 0
  idle : List ConnId := []
  busy : List ConnId := []
  connecting : List ConnId := []
  pending : ConnId → Option Pending := fun _ => none
  queue : List Pending := []
  resolved : Bool
  resolving : Bool := false
  waitingOnDns : List Pending := []
  /-- The callbacks that are running, innermost first, with what follows each. -/
  stack : List (List Task) := []
  issued : Nat := 0
  log : List Note := []

namespace ConnectionPool

def modify (p : ConnectionPool) (c : ConnId) (f : PooledConn → PooledConn) : ConnectionPool :=
  { p with conns := Function.update p.conns c (f (p.conns c)) }

def note (p : ConnectionPool) (n : Note) : ConnectionPool := { p with log := p.log ++ [n] }

def total (p : ConnectionPool) : Nat := p.idle.length + p.busy.length + p.connecting.length

/-- The request that a connection carries or is about to carry. -/
def carried (p : ConnectionPool) (c : ConnId) : Option ReqId :=
  (p.conns c).callback.or ((p.pending c).map (·.id))

/-! ### Connections -/

/-- The disconnect notification of a TCP connection whose slots lead to the
`TlsConnection`: nothing reaches the pool. -/
def tlsDown (p : ConnectionPool) (c : ConnId) : ConnectionPool :=
  (p.note (.down c (p.carried c))).modify c (·.tcpClosed)

/-- `TcpConnection::forceClose`, which only the `TlsConnection` calls. -/
def forceClose (p : ConnectionPool) (c : ConnId) : ConnectionPool :=
  if (p.conns c).tcp = .connected ∨ (p.conns c).tcp = .disconnecting then p.tlsDown c else p

/-- Send on the connection, through TLS if it has it. A failing engine closes the TCP
connection at once. -/
def send (p : ConnectionPool) (c : ConnId) (wire : Bytes) : ConnectionPool :=
  match (p.conns c).tlsConn with
  | some tls =>
    if !tls.handshakeDone || tls.closed then p
    else if (p.conns c).writeFails then p.forceClose c
    else p.note (.sent c (p.conns c).callback wire)
  | none =>
    if (p.conns c).conn && (p.conns c).tcp == .connected then
      p.note (.sent c (p.conns c).callback wire)
    else p

def start (p : ConnectionPool) (c : ConnId) (pending : Pending) : ConnectionPool :=
  let wire := (pending.req.addHeader (text "Connection") (text "keep-alive")).appendTo p.host
  ((p.note (.started c (p.conns c).callback)).modify c (·.begin pending.id)).send c wire

/-! ### The pool -/

def newConn (p : ConnectionPool) (pending : Pending) : ConnectionPool :=
  { p with
    nextConn := p.nextConn + 1
    conns := Function.update p.conns p.nextConn {}
    connecting := p.connecting ++ [p.nextConn]
    pending := Function.update p.pending p.nextConn (some pending) }

def dispatch (p : ConnectionPool) (pending : Pending) : ConnectionPool :=
  match p.idle.getLast? with
  | some c => start { p with idle := p.idle.dropLast, busy := p.busy ++ [c] } c pending
  | none =>
    if p.total < p.maxConnections then p.newConn pending
    else { p with queue := p.queue ++ [pending] }

/-- Requests are numbered in the order of the calls. A hostname that is not resolved yet
parks the request and starts the resolver unless it is running. -/
def request (p : ConnectionPool) (req : HttpRequest) : ConnectionPool :=
  let pending : Pending := ⟨p.issued, req⟩
  let p := { p with issued := p.issued + 1 }
  if p.resolved then p.dispatch pending
  else { p with waitingOnDns := p.waitingOnDns ++ [pending], resolving := true }

def onResolved (p : ConnectionPool) (addrs : List Bytes) (err : Bytes) :
    ConnectionPool × List Task :=
  let waiting := p.waitingOnDns
  let p := { p with resolving := false, waitingOnDns := [] }
  if err ≠ [] ∨ addrs = [] then
    -- a later request retries the resolution
    let msg := if err = [] then text "no usable address" else err
    (p, waiting.map fun w => .invoke w.id {} (text "DNS resolution failed: " ++ msg))
  else (waiting.foldl dispatch { p with resolved := true }, [])

def onReady (p : ConnectionPool) (c : ConnId) : ConnectionPool :=
  let p := { p with connecting := p.connecting.erase c }
  match p.pending c with
  | some pending =>
    start { p with busy := p.busy ++ [c], pending := Function.update p.pending c none } c pending
  | none => { p with idle := p.idle ++ [c] }

/-- Serve a queued request on the connection that is now free, else idle it. -/
def onFree (p : ConnectionPool) (c : ConnId) : ConnectionPool :=
  let p := { p with busy := p.busy.erase c }
  match p.queue with
  | pending :: queue => start { p with queue, busy := p.busy ++ [c] } c pending
  | [] => { p with idle := p.idle ++ [c] }

/-- Forget the connection, and open a replacement if a request waits for one. -/
def onClosed (p : ConnectionPool) (c : ConnId) : ConnectionPool :=
  let p := { p with
    idle := p.idle.erase c
    busy := p.busy.erase c
    connecting := p.connecting.erase c
    pending := Function.update p.pending c none }
  match p.queue with
  | pending :: queue =>
    if p.total < p.maxConnections then newConn { p with queue } pending else p
  | [] => p

def evictIdle (p : ConnectionPool) (now : UInt64) : ConnectionPool :=
  let toClose := p.idle.filter fun c => (p.conns c).expired now p.idleTimeoutS
  toClose.foldl (fun p c => modify { p with idle := p.idle.erase c } c (·.close)) p

/-! ### Handlers of a connection -/

/-- The server keeps the connection: no header `Connection` with the value close. -/
def serverKeepsAlive (resp : HttpResponse) : Bool :=
  toLower (resp.header (text "Connection")) != text "close"

def consume (p : ConnectionPool) (c : ConnId) (now : UInt64) : ConnectionPool × List Task :=
  let x := p.conns c
  let parser := x.parsed.1
  if parser.hasError then
    (p.modify c (·.malformed),
      (x.callback.toList.map fun id => .invoke id {} (text "malformed response")) ++ [.close c])
  else if parser.gotAll then
    let p := p.modify c (·.completed now)
    -- the connection is handed on before the callback runs
    (if serverKeepsAlive parser.response then p.onFree c else p.modify c (·.close),
      x.callback.toList.map fun id => .invoke id parser.response [])
  else (p.modify c (·.waiting), [])

def eofAnswer (parser : ResponseParser) : HttpResponse × Bytes :=
  if parser.gotAll then (parser.response, []) else ({}, text "connection closed before response")

def onConnectionDown (p : ConnectionPool) (c : ConnId) : ConnectionPool × List Task :=
  let x := p.conns c
  let p := p.modify c (·.lost)
  if x.inFlight then
    let answer := eofAnswer x.parser.onEof
    (p.modify c (·.givenUp),
      (x.callback.toList.map fun id => .invoke id answer.1 answer.2) ++ [.onClosed c])
  else (p, [.onClosed c])

/-- What the engine says to a handshake step. -/
inductive Handshake where
  | pending
  | done
  | error
  deriving DecidableEq, Repr

def handshaking (x : PooledConn) : Bool :=
  match x.tlsConn with
  | some tls => !tls.handshakeDone
  | none => false

def tlsClosed (x : PooledConn) : Bool :=
  match x.tlsConn with
  | some tls => tls.closed
  | none => false

/-- `TlsConnection::driveHandshake`, with the callback that the pool sets for its end. -/
def driveHandshake (p : ConnectionPool) (c : ConnId) (outcome : Handshake) (now : UInt64) :
    ConnectionPool :=
  if !handshaking (p.conns c) || tlsClosed (p.conns c) then p
  else match outcome with
    | .error => p.forceClose c
    | .done =>
      ((p.modify c (·.secured)).modify c (·.madeReady now)).onReady c
    | .pending => p

/-- `onConnection` for a connection that is up. `TlsConnection::start` takes over the
callback slots of the TCP connection. -/
def onConnectionUp (p : ConnectionPool) (c : ConnId) (outcome : Handshake) (now : UInt64) :
    ConnectionPool :=
  let p := p.modify c (·.connectedAt now)
  if p.tls then (p.modify c (·.wrapped)).driveHandshake c outcome now
  else (p.modify c (·.madeReady now)).onReady c

/-- `TlsConnection::onTcpMessage`: drive the handshake, then decrypt and consume. -/
def onTlsMessage (p : ConnectionPool) (c : ConnId) (outcome : Handshake) (plaintext : Bytes)
    (status : TlsStatus) (now : UInt64) : ConnectionPool × List Task :=
  let p := if handshaking (p.conns c) then p.driveHandshake c outcome now else p
  if handshaking (p.conns c) then (p, [])
  else if plaintext = [] then (p, [.tlsStatus c status])
  else
    let consumed := (p.modify c (·.receive plaintext)).consume c now
    (consumed.1, consumed.2 ++ [.tlsStatus c status])

def afterRead (p : ConnectionPool) (c : ConnId) (status : TlsStatus) : ConnectionPool :=
  match status with
  | .closed => p.modify c (·.shutdown)
  | .error => p.forceClose c
  | .ok | .wantIo => p

/-! ### Runs -/

/-- Do the tasks up to the next callback, which suspends the rest. -/
def exec : List Task → ConnectionPool → ConnectionPool
  | [], p => p
  | .invoke id resp err :: rest, p =>
    { p.note (.invoked id resp err) with stack := rest :: p.stack }
  | .close c :: rest, p => exec rest (p.modify c (·.close))
  | .onClosed c :: rest, p => exec rest (p.onClosed c)
  | .tlsStatus c status :: rest, p => exec rest (p.afterRead c status)

def finish (handled : ConnectionPool × List Task) : ConnectionPool := exec handled.2 handled.1

/-- What the loop reports while no handler is running. -/
inductive LoopEvent where
  | established (c : ConnId) (outcome : Handshake) (now : UInt64)
  | received (c : ConnId) (data : Bytes) (now : UInt64)
  | decrypted (c : ConnId) (outcome : Handshake) (plaintext : Bytes) (status : TlsStatus)
      (now : UInt64)
  | down (c : ConnId)
  | evict (now : UInt64)

inductive Event where
  /-- A call of `request`, from outside or from a response callback. -/
  | request (req : HttpRequest)
  /-- The resolver answers; from its cache it does so before `request` returns. -/
  | resolved (addrs : List Bytes) (err : Bytes)
  /-- The innermost callback returns. -/
  | returns
  /-- The TLS engine of a connection changes its mind about writes. -/
  | engine (c : ConnId) (fails : Bool)
  | loop (e : LoopEvent)

/-- The lists of the pool hold the only strong references to a connection, so the weak
references in its callbacks can be locked exactly while it is in one of them. -/
def holds (p : ConnectionPool) (c : ConnId) : Prop :=
  c ∈ p.idle ∨ c ∈ p.busy ∨ c ∈ p.connecting

instance (p : ConnectionPool) (c : ConnId) : Decidable (p.holds c) :=
  inferInstanceAs (Decidable (_ ∨ _ ∨ _))

def deliver (p : ConnectionPool) (c : ConnId) (handler : ConnectionPool) : Option ConnectionPool :=
  if p.holds c then some handler else some p

def loopStep (p : ConnectionPool) : LoopEvent → Option ConnectionPool
  | .established c outcome now =>
    if c < p.nextConn ∧ (p.conns c).tcp = .connecting then
      p.deliver c ((p.modify c (·.withTcp .connected)).onConnectionUp c outcome now)
    else none
  | .received c data now =>
    if (p.conns c).tcp = .connecting ∨ (p.conns c).slot = .tlsConnection then none
    else p.deliver c (finish ((p.modify c (·.receive data)).consume c now))
  | .decrypted c outcome plaintext status now =>
    if (p.conns c).tcp = .connecting ∨ (p.conns c).slot = .pooledConn then none
    else p.deliver c (finish (p.onTlsMessage c outcome plaintext status now))
  | .down c =>
    if (p.conns c).tcp = .connecting then none
    else match (p.conns c).slot with
      | .tlsConnection => p.deliver c (p.tlsDown c)
      | .pooledConn =>
        p.deliver c (finish
          (((p.note (.down c (p.carried c))).modify c (·.withTcp .disconnected)).onConnectionDown c))
  | .evict now => some (p.evictIdle now)

def step (p : ConnectionPool) : Event → Option ConnectionPool
  | .request req => some (p.request req)
  | .resolved addrs err => if p.resolving then some (finish (p.onResolved addrs err)) else none
  | .returns =>
    match p.stack with
    | frame :: stack => some (exec frame { p with stack })
    | [] => none
  | .engine c fails => some (p.modify c fun x => { x with writeFails := fails })
  | .loop e => if p.stack = [] then p.loopStep e else none

/-- A pool for a numeric origin, or for a hostname that is still to be resolved. -/
def initial (tls : Bool) (host : Bytes) (maxConnections : Nat) (idleTimeoutS : UInt32)
    (resolved : Bool) : ConnectionPool :=
  { tls, host, maxConnections, idleTimeoutS, resolved }

end ConnectionPool

end Cox.Http

import Cox.Net.TcpServer
import Cox.Http.Pool
import Cox.Http.Server

/-!
# The connections of the HTTP server

`HttpServer::onConnection` of http/http_server.cc with the table `conns_`, and what stands
between a TCP connection and the server when there is a TLS context: `TlsConnection::start`
(tls/tls_connection.cc) takes over the callbacks of the TCP connection, among them the one
through which the server learns that the connection is down.

Everything here runs on the loop thread. The observer is the last thing `onConnection` calls,
so what the observer does comes after it. The answers of the TLS engine come with the events.
-/
namespace Cox.Http

open Cox.Lib Cox.Net

/-- The object that the callbacks of the TCP connection lead to. -/
inductive CallbackOwner where
  | httpServer
  | tlsConnection
  deriving DecidableEq

/-- The TCP connection, as far as the server sees it. -/
structure ServedConn where
  /-- `connecting` as long as there is none. -/
  state : TcpState := .connecting
  owner : CallbackOwner := .httpServer
  inputBuffer : Bytes := []

structure PerConn where
  ctx : HttpContext
  tls : Option TlsConnection := none
  input : Bytes := []

structure HttpServer (σ : Type) where
  name : Bytes
  ipPort : Bytes
  /-- There is a TLS context. -/
  usesTls : Bool
  maxBodyBytes : Nat
  /-- What the handler works on. -/
  world : σ
  tcp : ConnId → ServedConn := fun _ => {}
  nextConnId : ConnId := 1
  conns : SortedMap Bytes PerConn := .empty
  /-- The calls of the connection observer, with what `connected()` says in them. -/
  observed : List (ConnId × Bool) := []

namespace HttpServer

variable {σ : Type} (handler : Option (HttpHandler σ))

def connName (s : HttpServer σ) (c : ConnId) : Bytes := TcpServer.connName s.name s.ipPort c

def modify (s : HttpServer σ) (c : ConnId) (f : ServedConn → ServedConn) : HttpServer σ :=
  { s with tcp := Function.update s.tcp c (f (s.tcp c)) }

theorem modify_tcp_self (s : HttpServer σ) (c : ConnId) (f : ServedConn → ServedConn) :
    (s.modify c f).tcp c = f (s.tcp c) :=
  Function.update_self ..

theorem modify_tcp_other (s : HttpServer σ) (c d : ConnId) (f : ServedConn → ServedConn)
    (other : d ≠ c) : (s.modify c f).tcp d = s.tcp d :=
  Function.update_of_ne other ..

def setInputBuffer (s : HttpServer σ) (c : ConnId) (inputBuffer : Bytes) : HttpServer σ :=
  s.modify c ({ · with inputBuffer })

def withWorld (s : HttpServer σ) (world : σ) : HttpServer σ := { s with world }

def setState (s : HttpServer σ) (c : ConnId) (state : TcpState) : HttpServer σ :=
  s.modify c ({ · with state })

def perConn (s : HttpServer σ) (c : ConnId) : Option PerConn := s.conns.find? (s.connName c)

def setPerConn (s : HttpServer σ) (c : ConnId) (pc : PerConn) : HttpServer σ :=
  { s with conns := s.conns.insert (s.connName c) pc }

def dropPerConn (s : HttpServer σ) (c : ConnId) : HttpServer σ :=
  { s with conns := s.conns.erase (s.connName c) }

def observe (s : HttpServer σ) (c : ConnId) : HttpServer σ :=
  { s with observed := s.observed ++ [(c, (s.tcp c).state == .connected)] }

/-! ### Disconnecting -/

def onConnectionDown (s : HttpServer σ) (c : ConnId) : HttpServer σ := (s.dropPerConn c).observe c

/-- `TlsConnection::onTcpClose`; the server sets no close callback. The `TlsConnection` is held by
the entry alone. -/
def onTcpClose (s : HttpServer σ) (c : ConnId) : HttpServer σ :=
  match s.perConn c with
  | some pc => s.setPerConn c { pc with tls := pc.tls.map fun tls => { tls with closed := true } }
  | none => s

def connectionDown (s : HttpServer σ) (c : ConnId) : HttpServer σ :=
  match (s.tcp c).owner with
  | .httpServer => s.onConnectionDown c
  | .tlsConnection => s.onTcpClose c

/-- `TcpConnection::handleClose`; the close callback does not concern this table. -/
def handleClose (s : HttpServer σ) (c : ConnId) : HttpServer σ :=
  (s.setState c .disconnected).connectionDown c

def forceClose (s : HttpServer σ) (c : ConnId) : HttpServer σ :=
  if (s.tcp c).state = .connected ∨ (s.tcp c).state = .disconnecting then s.handleClose c else s

def connectDestroyed (s : HttpServer σ) (c : ConnId) : HttpServer σ :=
  if (s.tcp c).state = .connected then s.handleClose c else s

def shutdown (s : HttpServer σ) (c : ConnId) : HttpServer σ :=
  if (s.tcp c).state = .connected then s.setState c .disconnecting else s

/-! ### Connecting -/

def handshaking (s : HttpServer σ) (c : ConnId) : Bool :=
  match s.perConn c with
  | some pc => pc.tls.any fun tls => !tls.handshakeDone
  | none => false

def tlsClosed (s : HttpServer σ) (c : ConnId) : Bool :=
  match s.perConn c with
  | some pc => pc.tls.any (·.closed)
  | none => false

def handshakeDone (s : HttpServer σ) (c : ConnId) : HttpServer σ :=
  match s.perConn c with
  | some pc =>
    s.setPerConn c { pc with tls := pc.tls.map fun tls => { tls with handshakeDone := true } }
  | none => s

def driveHandshake (s : HttpServer σ) (c : ConnId) (outcome : ConnectionPool.Handshake) :
    HttpServer σ :=
  if !s.handshaking c || s.tlsClosed c then s
  else match outcome with
    | .error => s.forceClose c
    | .done => s.handshakeDone c
    | .pending => s

/-- `TlsConnection::start` takes over the callbacks of the TCP connection. -/
def startTls (s : HttpServer σ) (c : ConnId) (outcome : ConnectionPool.Handshake) : HttpServer σ :=
  (s.modify c ({ · with owner := .tlsConnection })).driveHandshake c outcome

def onConnectionUp (s : HttpServer σ) (c : ConnId) (outcome : ConnectionPool.Handshake) :
    HttpServer σ :=
  if s.usesTls then
    ((s.setPerConn c { ctx := .fresh s.maxBodyBytes, tls := some {} }).startTls c outcome).observe c
  else (s.setPerConn c { ctx := .fresh s.maxBodyBytes }).observe c

/-- `TcpServer::newConnection` and `TcpConnection::connectEstablished`. -/
def newConnection (s : HttpServer σ) (outcome : ConnectionPool.Handshake) : HttpServer σ :=
  onConnectionUp (setState { s with nextConnId := s.nextConnId + 1 } s.nextConnId .connected)
    s.nextConnId outcome

/-! ### Requests -/

/-- Bytes go out through TLS if the connection has it; an engine that fails closes the TCP
connection at once. A plain connection only queues them. -/
def send (s : HttpServer σ) (c : ConnId) (writeFails : Bool) : HttpServer σ :=
  if s.usesTls && writeFails && !s.handshaking c && !s.tlsClosed c then s.forceClose c else s

def close (s : HttpServer σ) (c : ConnId) : HttpServer σ :=
  if s.usesTls && s.tlsClosed c then s else s.shutdown c

def perform (c : ConnId) (writeFails : Bool) (s : HttpServer σ) : Action → HttpServer σ
  | .send _ => s.send c writeFails
  | .close => s.close c
  | .handle _ | .notify _ => s

/-- `processInput` on the bytes of the connection, for an entry that was found. -/
def answered (s : HttpServer σ) (pc : PerConn) (input : Bytes) : ServerConn σ :=
  ServerConn.processInput handler ⟨true, pc.ctx, input, s.world, []⟩

/-- The rest of a plain connection's input stays in the buffer of the TCP connection. -/
def onPlainMessage (s : HttpServer σ) (c : ConnId) (data : Bytes) : HttpServer σ :=
  let input := (s.tcp c).inputBuffer ++ data
  let s := s.setInputBuffer c input
  if s.usesTls then s
  else match s.perConn c with
    | none => s
    | some pc =>
      let done := s.answered handler pc input
      let s := (s.setInputBuffer c done.input).withWorld done.world
      done.actions.foldl (perform c false) (s.setPerConn c { pc with ctx := done.ctx })

/-- The message callback that the server gives to a TLS connection. -/
def onPlaintext (s : HttpServer σ) (c : ConnId) (plaintext : Bytes) (writeFails : Bool) :
    HttpServer σ :=
  match s.perConn c with
  | none => s
  | some pc =>
    let done := s.answered handler pc (pc.input ++ plaintext)
    done.actions.foldl (perform c writeFails)
      ((s.withWorld done.world).setPerConn c { pc with ctx := done.ctx, input := done.input })

def afterRead (s : HttpServer σ) (c : ConnId) (status : TlsStatus) : HttpServer σ :=
  match status with
  | .closed => s.shutdown c
  | .error => s.forceClose c
  | .ok | .wantIo => s

def onTcpMessage (s : HttpServer σ) (c : ConnId) (outcome : ConnectionPool.Handshake)
    (plaintext : Bytes) (status : TlsStatus) (writeFails : Bool) : HttpServer σ :=
  let s := if s.handshaking c then s.driveHandshake c outcome else s
  if s.handshaking c then s
  else
    (if plaintext = [] then s else s.onPlaintext handler c plaintext writeFails).afterRead c status

/-! ### Runs -/

inductive Event where
  | newConnection (outcome : ConnectionPool.Handshake)
  /-- Bytes on a connection whose callbacks lead to the server. -/
  | received (c : ConnId) (data : Bytes)
  /-- Bytes on a connection whose callbacks lead to a `TlsConnection`. -/
  | decrypted (c : ConnId) (outcome : ConnectionPool.Handshake) (plaintext : Bytes)
      (status : TlsStatus) (writeFails : Bool)
  | shutdown (c : ConnId)
  /-- From the application or a timer. -/
  | forceClose (c : ConnId)
  /-- The peer has closed the connection, or it failed. -/
  | handleClose (c : ConnId)
  | connectDestroyed (c : ConnId)

def step (s : HttpServer σ) : Event → Option (HttpServer σ)
  | .newConnection outcome => some (s.newConnection outcome)
  | .received c data =>
    if (s.tcp c).state = .connecting ∨ (s.tcp c).owner = .tlsConnection then none
    else some (s.onPlainMessage handler c data)
  | .decrypted c outcome plaintext status writeFails =>
    if (s.tcp c).state = .connecting ∨ (s.tcp c).owner = .httpServer then none
    else some (s.onTcpMessage handler c outcome plaintext status writeFails)
  | .shutdown c => some (s.shutdown c)
  | .forceClose c => some (s.forceClose c)
  | .handleClose c => if (s.tcp c).state = .connecting then none else some (s.handleClose c)
  | .connectDestroyed c => some (s.connectDestroyed c)

def initial (name ipPort : Bytes) (usesTls : Bool) (maxBodyBytes : Nat) (world : σ) :
    HttpServer σ :=
  { name, ipPort, usesTls, maxBodyBytes, world }

end HttpServer

end Cox.Http

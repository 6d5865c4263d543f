import Cox.Http.Context
import Cox.Http.Response

/-!
# The server's side of a connection

`HttpServer::processInput` of http/http_server.cc, for one plaintext connection: parse
what has arrived, answer every complete request, reject a malformed one, and close when
a request is not keep-alive. What the call does to the outside is recorded in the order
in which it happens. The handler is any function on a state of its own; the time it
takes, which the source passes to the request observer, is left out.
-/
namespace Cox.Http

open Cox.Lib

/-- What the server does to the outside. -/
inductive Action where
  | handle (req : HttpRequest)
  | notify (status : Int)
  | send (data : Bytes)
  | close
  deriving DecidableEq

/-- A handler reads the request, updates its own state and fills in the response. -/
abbrev HttpHandler (σ : Type) := σ → HttpRequest → HttpResponse → σ × HttpResponse

/-- The state of one connection: its entry in `conns_` while it is `live`, the input
buffer, the handler's state and everything done so far. -/
structure ServerConn (σ : Type) where
  live : Bool
  ctx : HttpContext
  input : Bytes
  world : σ
  actions : List Action

def errorStatus (e : ParseError) : Int := if e = .tooLarge then 413 else 400

def errorResponse (e : ParseError) : Bytes :=
  if e = .tooLarge then
    text "HTTP/1.1 413 Payload Too Large\r\nContent-Length: 0\r\nConnection: close\r\n\r\n"
  else text "HTTP/1.1 400 Bad Request\r\nContent-Length: 0\r\nConnection: close\r\n\r\n"

def rejection (e : ParseError) : List Action :=
  [.send (errorResponse e), .notify (errorStatus e), .close]

def runHandler {σ : Type} (handler : Option (HttpHandler σ)) (world : σ) (req : HttpRequest) :
    σ × HttpResponse × List Action :=
  let resp : HttpResponse := { keepAlive := req.keepAlive }
  match handler with
  | some handle =>
    let answer := handle world req resp
    (answer.1, answer.2, [.handle req])
  | none => (world, (resp.setStatus 404 []).setBody (text "No handler"), [])

/-- Answer a request: whatever the handler says, the connection persists exactly when
the request asks for it. -/
def respond {σ : Type} (handler : Option (HttpHandler σ)) (world : σ) (req : HttpRequest) :
    σ × List Action :=
  let (world, resp, handled) := runHandler handler world req
  (world, handled ++ [.notify resp.statusCode, .send (resp.setKeepAlive req.keepAlive).appendTo])

namespace ServerConn

variable {σ : Type} (handler : Option (HttpHandler σ))

def established (maxBodyBytes : Nat) (world : σ) : ServerConn σ where
  live := true
  ctx := .fresh maxBodyBytes
  input := []
  world := world
  actions := []

def perform (c : ServerConn σ) (actions : List Action) : ServerConn σ :=
  { c with actions := c.actions ++ actions }

def parseInput (c : ServerConn σ) : ServerConn σ :=
  let parsed := c.ctx.parseRequest c.input
  { c with ctx := parsed.1, input := parsed.2 }

def answer (c : ServerConn σ) : ServerConn σ :=
  let response := respond handler c.world c.ctx.request
  { c with ctx := c.ctx.reset, world := response.1, actions := c.actions ++ response.2 }

def answerLoop : Nat → ServerConn σ → ServerConn σ
  | 0, c => c
  | fuel + 1, c =>
    if c.ctx.gotAll then
      if c.ctx.request.keepAlive then
        let next := (c.answer handler).parseInput
        if next.ctx.hasError then next.perform (rejection next.ctx.error)
        else answerLoop fuel next
      else (c.answer handler).perform [.close]
    else c

/-- `processInput`. Every request takes at least one byte of the input, so the loop has
fewer iterations than there are bytes left. -/
def processInput (c : ServerConn σ) : ServerConn σ :=
  if c.live then
    let c := c.parseInput
    if c.ctx.hasError then c.perform (rejection c.ctx.error)
    else c.answerLoop handler (c.input.length + 1)
  else c

/-- What the connection is told: bytes have arrived, or it is down. -/
inductive Event where
  | read (data : Bytes)
  | disconnected
  deriving DecidableEq

/-- `onPlainMessage`, with the bytes already in the input buffer, and the entry of
`conns_` going away with the connection. -/
def step (c : ServerConn σ) : Event → ServerConn σ
  | .read data => processInput handler { c with input := c.input ++ data }
  | .disconnected => { c with live := false }

def run (c : ServerConn σ) (events : List Event) : ServerConn σ :=
  events.foldl (step handler) c

def did (c : ServerConn σ) (e : Event) : List Action :=
  (c.step handler e).actions.drop c.actions.length

end ServerConn

end Cox.Http

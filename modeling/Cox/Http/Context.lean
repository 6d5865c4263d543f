import Cox.Lib.Resumable
import Cox.Http.Request

/-!
# The incremental request parser

`HttpContext` of http/http_context.h. The progress loop of `parseRequest` is the
generic loop of `Resumable` over one round per iteration; the buffer is the list of
its readable bytes, and a round reports how many of them it retrieves.
-/
namespace Cox.Http

open Cox.Lib Cox.Lib.Resumable

/-- `HttpContext::State`. -/
inductive ParseState where
  | expectRequestLine
  | expectHeaders
  | expectBody
  | expectChunkSize
  | expectChunkData
  | expectChunkCrlf
  | gotAll
  | error
  deriving DecidableEq, Repr

/-- `HttpContext::Error`. The parser itself only ever sets `tooLarge`. -/
inductive ParseError where
  | none
  | badRequest
  | tooLarge
  deriving DecidableEq, Repr

structure HttpContext where
  state : ParseState := .expectRequestLine
  error : ParseError := .none
  request : HttpRequest := {}
  contentLength : Nat := 0
  bodyReceived : Nat := 0
  headerBytes : Nat := 0
  chunkRemaining : Nat := 0
  maxBodyBytes : Nat := 0
  deriving DecidableEq

def kMaxHeaderBytes : Nat := 64 * 1024

/-- METHOD SP path[?query] SP HTTP/x.y. The parts read before a failure stay set. -/
def parseRequestLine (r : HttpRequest) (line : Bytes) : HttpRequest × Bool :=
  let space1 := line.idxOf sp
  if space1 = line.length then (r, false)
  else
    let m := methodFromString (line.take space1)
    if m = .invalid then (r, false)
    else
      let r := { r with method := m }
      let target := line.drop (space1 + 1)
      let space2 := target.idxOf sp
      if space2 = target.length then (r, false)
      else
        let uri := target.take space2
        let q := uri.idxOf questionMark
        let r := { r with path := uri.take q }
        let r := if q ≠ uri.length then { r with query := uri.drop (q + 1) } else r
        let version := target.drop (space2 + 1)
        if version ≠ text "HTTP/1.0" ∧ version ≠ text "HTTP/1.1" then (r, false)
        else ({ r with version := version }, true)

namespace HttpContext

def gotAll (c : HttpContext) : Bool := c.state == .gotAll

def hasError (c : HttpContext) : Bool := c.state == .error

def fresh (maxBodyBytes : Nat) : HttpContext := { maxBodyBytes }

def reset (c : HttpContext) : HttpContext := fresh c.maxBodyBytes

def requestLine (c : HttpContext) (line : Bytes) : Round HttpContext :=
  let parsed := parseRequestLine c.request line
  if parsed.2 then
    .take { c with
      request := parsed.1
      headerBytes := c.headerBytes + (line.length + 2)
      state := .expectHeaders } (line.length + 2)
  else .fail { c with request := parsed.1, state := .error } 0

/-- `Transfer-Encoding` mentions chunked, in any letter case. -/
def chunked (r : HttpRequest) : Bool :=
  contains (text "chunked") (toLower (r.header (text "transfer-encoding")))

def declaredLength (r : HttpRequest) : Nat :=
  let cl := r.header (text "content-length")
  if cl.isEmpty then 0 else strtoul cl 10

def endOfHeaders (c : HttpContext) : Round HttpContext :=
  if chunked c.request then .take { c with state := .expectChunkSize } 2
  else
    let c := { c with contentLength := declaredLength c.request, bodyReceived := 0 }
    -- an oversized body is rejected from its declared length
    if c.maxBodyBytes > 0 ∧ c.contentLength > c.maxBodyBytes then
      .fail { c with error := .tooLarge, state := .error } 2
    else .take { c with state := if c.contentLength > 0 then .expectBody else .gotAll } 2

def headerLine (c : HttpContext) (line : Bytes) : Round HttpContext :=
  let colon := line.idxOf colonByte
  if colon = line.length then .fail { c with state := .error } 0
  else
    let value := (line.drop (colon + 1)).dropWhile (· == sp)
    let c := { c with
      request := c.request.addHeader (line.take colon) value
      headerBytes := c.headerBytes + (line.length + 2) }
    if c.headerBytes > kMaxHeaderBytes then .fail { c with state := .error } 0
    else .take c (line.length + 2)

/-- A line of the header section; a blank one ends it. -/
def headersLine (c : HttpContext) (line : Bytes) : Round HttpContext :=
  if line = [] then c.endOfHeaders else c.headerLine line

def chunkSizeLine (c : HttpContext) (line : Bytes) : Round HttpContext :=
  let size := strtoul line 16
  .take { c with
    chunkRemaining := size
    state := if size = 0 then .gotAll else .expectChunkData } (line.length + 2)

/-- The states that work on a whole line wait until one has arrived. -/
def onLine (c : HttpContext) (buf : Bytes) (handle : Bytes → Round HttpContext) :
    Round HttpContext :=
  match findCrlf buf with
  | some i => handle (buf.take i)
  | none => .stop c

def bodyData (c : HttpContext) (buf : Bytes) : Round HttpContext :=
  let n := min buf.length (c.contentLength - c.bodyReceived)
  let c := if n > 0 then
      { c with request := c.request.appendBody (buf.take n), bodyReceived := c.bodyReceived + n }
    else c
  let c := if c.bodyReceived = c.contentLength then { c with state := .gotAll } else c
  if n > 0 then .take c n else .stop c

def chunkData (c : HttpContext) (buf : Bytes) : Round HttpContext :=
  let n := min buf.length c.chunkRemaining
  -- chunked bodies have no declared length: the cap is checked as data arrives
  if n > 0 ∧ c.maxBodyBytes > 0 ∧ c.bodyReceived + n > c.maxBodyBytes then
    .fail { c with error := .tooLarge, state := .error } 0
  else
    let c := if n > 0 then
        { c with
          request := c.request.appendBody (buf.take n)
          chunkRemaining := c.chunkRemaining - n
          bodyReceived := c.bodyReceived + n }
      else c
    let c := if c.chunkRemaining = 0 then { c with state := .expectChunkCrlf } else c
    if n > 0 then .take c n else .stop c

def round (c : HttpContext) (buf : Bytes) : Round HttpContext :=
  match c.state with
  | .expectRequestLine => c.onLine buf c.requestLine
  | .expectHeaders => c.onLine buf c.headersLine
  | .expectBody => c.bodyData buf
  | .expectChunkSize => c.onLine buf c.chunkSizeLine
  | .expectChunkData => c.chunkData buf
  -- whatever the two bytes after the chunk data are
  | .expectChunkCrlf =>
    if 2 ≤ buf.length then .take { c with state := .expectChunkSize } 2 else .stop c
  | .gotAll => .stop c
  | .error => .stop c

/-- `parseRequest` on a buffer, with the bytes that stay in it. It returns false
exactly when the state is `error` afterwards. -/
def parseRequest (c : HttpContext) (buf : Bytes) : HttpContext × Bytes :=
  parse round c buf

end HttpContext

end Cox.Http

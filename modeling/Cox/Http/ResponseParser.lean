import Cox.Lib.Resumable
import Cox.Http.Response

/-!
# The incremental response parser

`ResponseParser` of http/response_parser.h. As in the request parser, the progress loop
of `parse` is the generic loop of `Resumable` over one round per iteration. A response
without a framed length runs until the connection ends, which `onEof` reports.
-/
namespace Cox.Http

open Cox.Lib Cox.Lib.Resumable

/-- `ResponseParser::State`. -/
inductive ResponseState where
  | expectStatusLine
  | expectHeaders
  | expectBody
  | expectChunkSize
  | expectChunkData
  | expectChunkCrlf
  | expectEofBody
  | gotAll
  | error
  deriving DecidableEq, Repr

structure ResponseParser where
  state : ResponseState := .expectStatusLine
  response : HttpResponse := {}
  /-- The header values under their names in lower case, for the framing lookups. -/
  lowerHeaders : HeaderMap := .empty
  contentLength : Nat := 0
  bodyReceived : Nat := 0
  headerBytes : Nat := 0
  chunkRemaining : Nat := 0
  hasContentLength : Bool := false
  bodyAccum : Bytes := []
  deriving DecidableEq

namespace ResponseParser

def kMaxHeaderBytes : Nat := 64 * 1024

def gotAll (p : ResponseParser) : Bool := p.state == .gotAll

def hasError (p : ResponseParser) : Bool := p.state == .error

/-- HTTP/1.1 code reason, where the reason may be absent. -/
def parseStatusLine (r : HttpResponse) (line : Bytes) : Option HttpResponse :=
  let sp1 := line.idxOf sp
  if sp1 = line.length then none
  else
    let version := line.take sp1
    if version ≠ text "HTTP/1.0" ∧ version ≠ text "HTTP/1.1" then none
    else
      let tail := line.drop (sp1 + 1)
      let sp2 := tail.idxOf sp
      let code := atoi (tail.take sp2)
      if code < 100 ∨ 599 < code then none
      else some (r.setStatus code (tail.drop (sp2 + 1)))

def statusLine (p : ResponseParser) (line : Bytes) : Round ResponseParser :=
  match parseStatusLine p.response line with
  | none => .fail { p with state := .error } 0
  | some response => .take { p with response, state := .expectHeaders } (line.length + 2)

/-- `Transfer-Encoding` mentions chunked, in lower case. -/
def chunked (p : ResponseParser) : Bool :=
  match p.lowerHeaders.find? (text "transfer-encoding") with
  | some value => contains (text "chunked") value
  | none => false

def endOfHeaders (p : ResponseParser) : Round ResponseParser :=
  if p.chunked then .take { p with state := .expectChunkSize } 2
  else if p.hasContentLength then
    .take { p with state := if p.contentLength > 0 then .expectBody else .gotAll } 2
  else .take { p with state := .expectEofBody } 2

def storeHeader (p : ResponseParser) (key value : Bytes) : ResponseParser :=
  let p := { p with
    response := p.response.addHeader key value
    lowerHeaders := p.lowerHeaders.insert (toLower key) value }
  if toLower key = text "content-length" then
    { p with hasContentLength := true, contentLength := strtoul value 10 }
  else p

def headerLine (p : ResponseParser) (line : Bytes) : Round ResponseParser :=
  let colon := line.idxOf colonByte
  if colon = line.length then .fail { p with state := .error } 0
  else
    let value := (line.drop (colon + 1)).dropWhile (· == sp)
    let stored := p.storeHeader (line.take colon) value
    let p := { stored with headerBytes := stored.headerBytes + (line.length + 2) }
    if p.headerBytes > kMaxHeaderBytes then .fail { p with state := .error } 0
    else .take p (line.length + 2)

def headersLine (p : ResponseParser) (line : Bytes) : Round ResponseParser :=
  if line = [] then p.endOfHeaders else p.headerLine line

def finish (p : ResponseParser) : ResponseParser :=
  { p with response := p.response.setBody p.bodyAccum, bodyAccum := [], state := .gotAll }

def chunkSizeLine (p : ResponseParser) (line : Bytes) : Round ResponseParser :=
  let size := strtoul line 16
  let p := { p with chunkRemaining := size }
  .take (if size = 0 then p.finish else { p with state := .expectChunkData }) (line.length + 2)

def onLine (p : ResponseParser) (buf : Bytes) (handle : Bytes → Round ResponseParser) :
    Round ResponseParser :=
  match findCrlf buf with
  | some i => handle (buf.take i)
  | none => .stop p

def bodyData (p : ResponseParser) (buf : Bytes) : Round ResponseParser :=
  let n := min buf.length (p.contentLength - p.bodyReceived)
  let p := { p with
    bodyAccum := p.bodyAccum ++ buf.take n
    bodyReceived := p.bodyReceived + n }
  let p := if p.bodyReceived = p.contentLength then p.finish else p
  if n > 0 then .take p n else .stop p

def chunkData (p : ResponseParser) (buf : Bytes) : Round ResponseParser :=
  let n := min buf.length p.chunkRemaining
  let p := { p with
    bodyAccum := p.bodyAccum ++ buf.take n
    chunkRemaining := p.chunkRemaining - n }
  let p := if p.chunkRemaining = 0 then { p with state := .expectChunkCrlf } else p
  if n > 0 then .take p n else .stop p

def round (p : ResponseParser) (buf : Bytes) : Round ResponseParser :=
  match p.state with
  | .expectStatusLine => p.onLine buf p.statusLine
  | .expectHeaders => p.onLine buf p.headersLine
  | .expectBody => p.bodyData buf
  -- completion happens in `onEof`
  | .expectEofBody =>
    if buf.length > 0 then .take { p with bodyAccum := p.bodyAccum ++ buf } buf.length else .stop p
  | .expectChunkSize => p.onLine buf p.chunkSizeLine
  | .expectChunkData => p.chunkData buf
  | .expectChunkCrlf =>
    if 2 ≤ buf.length then .take { p with state := .expectChunkSize } 2 else .stop p
  | .gotAll => .stop p
  | .error => .stop p

/-- `parse` on a buffer, with the bytes that stay in it. It returns false exactly when
the state is `error` afterwards. -/
def parse (p : ResponseParser) (buf : Bytes) : ResponseParser × Bytes :=
  Resumable.parse round p buf

/-- The peer has closed: a body that runs until the end is complete. -/
def onEof (p : ResponseParser) : ResponseParser :=
  if p.state = .expectEofBody then p.finish else p

def reset (_ : ResponseParser) : ResponseParser := {}

private theorem headersLine_take (p p' : ResponseParser) (line : Bytes) (n : Nat)
    (taken : p.headersLine line = .take p' n) : n = line.length + 2 := by
  unfold headersLine endOfHeaders headerLine at taken
  dsimp only at taken
  split_ifs at taken <;> cases taken <;> simp [*]

/-- Every round that goes on retrieves at least one byte, so the loop has no more rounds
than there are bytes in the buffer. -/
theorem round_consumes : Consumes round := by
  intro p buf p' n played
  have line (handle : Bytes → Round ResponseParser)
      (takes : ∀ line p' n, handle line = .take p' n → n = line.length + 2)
      (answered : p.onLine buf handle = .take p' n) : 0 < n ∧ n ≤ buf.length := by
    unfold onLine at answered
    split at answered
    next i found =>
      have bound := findCrlf_bound buf i found
      have size := takes _ _ _ answered
      rw [List.length_take] at size
      omega
    · cases answered
  cases here : p.state with
  | expectStatusLine =>
    simp only [round, here] at played
    refine line _ (fun line p' n taken => ?_) played
    unfold statusLine at taken
    split at taken <;> cases taken
    rfl
  | expectHeaders =>
    simp only [round, here] at played
    exact line _ (fun line p' n => headersLine_take p p' line n) played
  | expectChunkSize =>
    simp only [round, here] at played
    exact line _ (fun line p' n taken => by cases taken; rfl) played
  | expectBody =>
    simp only [round, here, bodyData] at played
    split at played <;> cases played
    omega
  | expectChunkData =>
    simp only [round, here, chunkData] at played
    split at played <;> cases played
    omega
  | expectEofBody =>
    simp only [round, here] at played
    split at played <;> cases played
    omega
  | expectChunkCrlf =>
    simp only [round, here] at played
    split at played <;> cases played
    omega
  | gotAll | error => simp only [round, here] at played; cases played

end ResponseParser

end Cox.Http

import Cox.Http.Wire
import Cox.Http.ResponseWire

/-!
# One framing, two parsers

The response parser is written after the request parser. Put behind a request line or behind
a status line, the same header block and the same bytes should be framed in the same way. From
the end of the head on the two parsers do the same in every round, if they start with the same
framing; what they make of the head can differ in three ways. The response parser compares
the value of Transfer-Encoding with its letter case. A head that declares no framing is an
empty body for one parser and a body that runs until the connection ends for the other; that
includes a chunked coding that a later field overrides. And the request line counts towards
the size limit of the head while the status line does not.
-/
namespace Cox.Http

open Cox.Lib Cox.Lib.Resumable List Option

/-! ### Behind the head -/

namespace ResponseParser

variable (p : ResponseParser)

/-- The body bytes that have arrived. They are put into the response when it is complete. -/
def received (p : ResponseParser) : Bytes := p.response.body ++ p.bodyAccum

theorem bodyData_empty (missing : p.bodyReceived < p.contentLength) : p.bodyData [] = .stop p := by
  simp [bodyData, Nat.ne_of_lt missing]

theorem bodyData_take (buf : Bytes) (n : Nat)
    (size : n = min buf.length (p.contentLength - p.bodyReceived)) (some : 0 < n) :
    p.bodyData buf = .take (p.receive (buf.take n)) n := by
  have length : (buf.take n).length = n := by rw [length_take]; omega
  unfold bodyData
  dsimp only
  rw [← size, if_pos some]
  simp only [receive, length]

theorem chunkData_empty (missing : 0 < p.chunkRemaining) : p.chunkData [] = .stop p := by
  simp [chunkData, Nat.ne_of_gt missing]

theorem chunkData_take (buf : Bytes) (n : Nat) (size : n = min buf.length p.chunkRemaining)
    (some : 0 < n) : p.chunkData buf = .take (p.receiveChunk (buf.take n)) n := by
  have length : (buf.take n).length = n := by rw [length_take]; omega
  unfold chunkData
  dsimp only
  rw [← size, if_pos some]
  simp only [receiveChunk, length]

theorem parse_nil (sound : Sound p) : p.parse [] = (p, []) := by
  apply parse_stop
  cases here : p.state with
  | expectBody =>
    simp only [round, here]
    exact bodyData_empty p (sound.body here)
  | expectChunkData =>
    simp only [round, here]
    exact chunkData_empty p (sound.chunk here)
  | expectStatusLine | expectHeaders | expectChunkSize =>
    simp only [round, here, onLine, findCrlf]
  | expectEofBody | expectChunkCrlf => simp [round, here]
  | gotAll | error => simp only [round, here]

/-- The body is not coded: its bytes are taken as they are. -/
structure Plain (p : ResponseParser) : Prop where
  state : p.state = .expectBody ∨ p.state = .expectEofBody ∨ p.state = .gotAll
  sound : Sound p
  held : p.state ≠ .gotAll → p.response.body = []

theorem received_finish (empty : p.response.body = []) : p.finish.received = p.received := by
  rw [received, received, empty]
  exact append_nil _

theorem receive_plain (data : Bytes) (plain : Plain p) (here : p.state = .expectBody)
    (fits : data.length ≤ p.contentLength - p.bodyReceived) :
    Plain (p.receive data) ∧ (p.receive data).received = p.received ++ data := by
  have empty := plain.held (by simp [here])
  have missing := plain.sound.body here
  by_cases full : p.bodyReceived + data.length = p.contentLength
  -- the last byte has arrived: `finish` moves the bytes into the response
  · rw [receive, if_pos full]
    refine ⟨⟨.inr (.inr rfl), sound_of_state _ (by simp [finish]) (by simp [finish]),
      fun other => absurd rfl other⟩, ?_⟩
    exact (received_finish { p with
      bodyAccum := p.bodyAccum ++ data, bodyReceived := p.bodyReceived + data.length } empty).trans
      (append_assoc ..).symm
  · rw [receive, if_neg full]
    refine ⟨⟨.inl here, ⟨fun _ => ?_, by simp [here]⟩, fun _ => empty⟩, (append_assoc ..).symm⟩
    show p.bodyReceived + data.length < p.contentLength
    omega

theorem round_plain (buf : Bytes) (plain : Plain p) :
    p.round buf = .stop p ∨ ∃ p' n, p.round buf = .take p' n ∧ Plain p' ∧
      p'.received = p.received ++ buf.take n := by
  rcases plain.state with here | here | here
  · have missing := plain.sound.body here
    simp only [round, here]
    by_cases none : buf = []
    · rw [none]
      exact .inl (bodyData_empty p missing)
    · have some : 0 < buf.length := length_pos_iff.mpr none
      refine .inr ⟨_, _, bodyData_take p buf _ rfl (by omega), receive_plain p _ plain here ?_⟩
      rw [length_take]
      omega
  -- a body until the end takes all there is
  · simp only [round, here]
    split
    · refine .inr ⟨_, _, rfl, ⟨.inr (.inl rfl), sound_of_state _ (by simp) (by simp),
        fun _ => ?_⟩, ?_⟩
      · exact plain.held (by simp [here])
      · rw [take_length]
        exact (append_assoc ..).symm
    · exact .inl rfl
  · exact .inl (by simp only [round, here])

theorem parse_plain (buf : Bytes) (plain : Plain p) :
    (p.parse buf).1.received ++ (p.parse buf).2 = p.received ++ buf := by
  unfold parse
  revert plain
  -- by induction on the rounds: each moves bytes from the buffer to the body
  induction p, buf using parse_induction round_consumes with
  | stop p buf p' played =>
    intro plain
    rcases round_plain p buf plain with stops | ⟨_, _, taken, _⟩
    · rw [parse_stop p p buf stops]
    · cases played.symm.trans taken
  | fail p buf p' n played =>
    intro plain
    rcases round_plain p buf plain with stops | ⟨_, _, taken, _⟩
    · cases played.symm.trans stops
    · cases played.symm.trans taken
  | take p buf p' n played ih =>
    intro plain
    rcases round_plain p buf plain with stops | ⟨_, _, taken, plain', more⟩
    · cases played.symm.trans stops
    · cases played.symm.trans taken
      rw [parse_take round_consumes p p' buf n taken, ih plain', more, append_assoc,
        take_append_drop]

end ResponseParser

/-- The states behind the head that both parsers have. -/
def ParseState.mirror : ParseState → Option ResponseState
  | .expectBody => some .expectBody
  | .expectChunkSize => some .expectChunkSize
  | .expectChunkData => some .expectChunkData
  | .expectChunkCrlf => some .expectChunkCrlf
  | .gotAll => some .gotAll
  | .expectRequestLine | .expectHeaders | .error => none

theorem ParseState.mirror_final {s : ParseState} {r : ResponseState} (same : s.mirror = some r) :
    (s == .error) = (r == .error) ∧ (s == .gotAll) = (r == .gotAll) := by
  cases s <;> cases same <;> exact ⟨rfl, rfl⟩

/-- The two parsers are at the same place of the same body. -/
structure InStep (c : HttpContext) (p : ResponseParser) : Prop where
  state : c.state.mirror = some p.state
  uncapped : c.maxBodyBytes = 0
  body : c.request.body = p.received
  held : p.state ≠ .gotAll → p.response.body = []
  sound : p.Sound
  sized : p.state = .expectBody →
    c.contentLength = p.contentLength ∧ c.bodyReceived = p.bodyReceived
  chunk : p.state = .expectChunkData → c.chunkRemaining = p.chunkRemaining

namespace InStep

variable {c : HttpContext} {p : ResponseParser}

theorem between (state : c.state.mirror = some p.state) (uncapped : c.maxBodyBytes = 0)
    (body : c.request.body = p.received) (held : p.state ≠ .gotAll → p.response.body = [])
    (notBody : p.state ≠ .expectBody) (notChunk : p.state ≠ .expectChunkData) : InStep c p where
  state := state
  uncapped := uncapped
  body := body
  held := held
  sound := ResponseParser.sound_of_state p notBody notChunk
  sized := fun here => absurd here notBody
  chunk := fun here => absurd here notChunk

theorem ofLength (uncapped : c.maxBodyBytes = 0) (body : c.request.body = p.received)
    (empty : p.response.body = []) (nothing : p.bodyReceived = 0) :
    InStep
      { c with
        contentLength := p.contentLength
        bodyReceived := 0
        state := if p.contentLength > 0 then .expectBody else .gotAll }
      { p with state := if p.contentLength > 0 then .expectBody else .gotAll } := by
  by_cases positive : p.contentLength > 0
  · rw [if_pos positive, if_pos positive]
    refine ⟨rfl, uncapped, body, fun _ => empty, ⟨fun _ => ?_, by simp⟩, fun _ => ⟨rfl, nothing.symm⟩,
      by simp⟩
    show p.bodyReceived < p.contentLength
    omega
  · rw [if_neg positive, if_neg positive]
    exact between rfl uncapped body (fun _ => empty) (by simp) (by simp)

variable (inStep : InStep c p)
include inStep

theorem mirrors {s : ParseState} {r : ResponseState} (here : c.state = s) (same : s.mirror = some r) :
    p.state = r := by
  have states := inStep.state
  rw [here, same] at states
  exact (Option.some.inj states).symm

theorem receive (here : c.state = .expectBody) (data : Bytes)
    (fits : data.length ≤ p.contentLength - p.bodyReceived) :
    InStep (c.receive data) (p.receive data) := by
  have there := inStep.mirrors here rfl
  obtain ⟨length, count⟩ := inStep.sized there
  have missing := inStep.sound.body there
  have empty := inStep.held (by simp [there])
  have body : c.request.body = p.bodyAccum := by
    rw [inStep.body, ResponseParser.received, empty, nil_append]
  by_cases full : p.bodyReceived + data.length = p.contentLength
  · have full' : c.bodyReceived + data.length = c.contentLength := by omega
    rw [HttpContext.receive, ResponseParser.receive, if_pos full, if_pos full']
    refine between rfl inStep.uncapped ?_ (fun other => absurd rfl other) (by simp [ResponseParser.finish])
      (by simp [ResponseParser.finish])
    -- `finish` moves the accumulated bytes into the response
    show c.request.body ++ data = p.bodyAccum ++ data ++ []
    rw [body, append_nil]
  · have open' : ¬c.bodyReceived + data.length = c.contentLength := by omega
    rw [HttpContext.receive, ResponseParser.receive, if_neg full, if_neg open']
    refine ⟨inStep.state, inStep.uncapped, ?_, fun _ => empty, ⟨fun _ => ?_, ?_⟩, fun _ => ?_, ?_⟩
    · show c.request.body ++ data = p.response.body ++ (p.bodyAccum ++ data)
      rw [body, empty, nil_append]
    · show p.bodyReceived + data.length < p.contentLength
      omega
    · simp [there]
    · exact ⟨length, congrArg (· + data.length) count⟩
    · simp [there]

theorem receiveChunk (here : c.state = .expectChunkData) (data : Bytes) :
    InStep (c.receiveChunk data) (p.receiveChunk data) := by
  have there := inStep.mirrors here rfl
  have count := inStep.chunk there
  have empty := inStep.held (by simp [there])
  have body : c.request.body ++ data = p.response.body ++ (p.bodyAccum ++ data) := by
    rw [inStep.body, ResponseParser.received, append_assoc]
  rw [HttpContext.receiveChunk, ResponseParser.receiveChunk, count]
  by_cases full : p.chunkRemaining - data.length = 0
  · rw [if_pos full, if_pos full]
    exact between rfl inStep.uncapped body (fun _ => empty) (by simp) (by simp)
  · rw [if_neg full, if_neg full]
    exact ⟨inStep.state, inStep.uncapped, body, fun _ => empty,
      ⟨by simp [there], fun _ => Nat.pos_of_ne_zero full⟩, by simp [there], fun _ => rfl⟩

theorem chunkSizeLine (there : p.state = .expectChunkSize) (line : Bytes) :
    SameRound InStep (c.chunkSizeLine line) (p.chunkSizeLine line) := by
  have empty := inStep.held (by simp [there])
  have body : c.request.body = p.bodyAccum := by
    rw [inStep.body, ResponseParser.received, empty, nil_append]
  rw [HttpContext.chunkSizeLine, ResponseParser.chunkSizeLine]
  refine .take _ _ _ ?_
  by_cases last : strtoul line 16 = 0
  · rw [if_pos last, if_pos last]
    refine between rfl inStep.uncapped ?_ (fun other => absurd rfl other) (by simp [ResponseParser.finish])
      (by simp [ResponseParser.finish])
    show c.request.body = p.bodyAccum ++ []
    rw [body, append_nil]
  · rw [if_neg last, if_neg last]
    exact ⟨rfl, inStep.uncapped, inStep.body, fun _ => empty,
      ⟨by simp, fun _ => Nat.pos_of_ne_zero last⟩, by simp, fun _ => rfl⟩

theorem hasError : c.hasError = p.hasError :=
  (ParseState.mirror_final inStep.state).1

theorem gotAll : c.gotAll = p.gotAll := (ParseState.mirror_final inStep.state).2

end InStep

theorem round_inStep (c : HttpContext) (p : ResponseParser) (buf : Bytes) (inStep : InStep c p) :
    SameRound InStep (c.round buf) (p.round buf) := by
  cases here : c.state with
  | expectRequestLine | expectHeaders | error =>
    have states := inStep.state
    rw [here] at states
    cases states
  | expectBody =>
    have there := inStep.mirrors here rfl
    obtain ⟨length, count⟩ := inStep.sized there
    have missing := inStep.sound.body there
    simp only [HttpContext.round, ResponseParser.round, here, there]
    by_cases none : buf = []
    · rw [none, HttpContext.bodyData_empty c (by omega), ResponseParser.bodyData_empty p missing]
      exact .stop c p inStep
    · have some : 0 < buf.length := length_pos_iff.mpr none
      rw [HttpContext.bodyData_take c buf _ rfl (by omega),
        ResponseParser.bodyData_take p buf _ rfl (by omega), length, count]
      refine .take _ _ _ (inStep.receive here _ ?_)
      rw [length_take]
      omega
  | expectChunkSize =>
    have there := inStep.mirrors here rfl
    simp only [HttpContext.round, ResponseParser.round, here, there, HttpContext.onLine,
      ResponseParser.onLine]
    cases findCrlf buf with
    | none => exact .stop c p inStep
    | some i => exact inStep.chunkSizeLine there _
  | expectChunkData =>
    have there := inStep.mirrors here rfl
    have count := inStep.chunk there
    have missing := inStep.sound.chunk there
    simp only [HttpContext.round, ResponseParser.round, here, there]
    by_cases none : buf = []
    · rw [none, HttpContext.chunkData_empty c (by omega), ResponseParser.chunkData_empty p missing]
      exact .stop c p inStep
    · have some : 0 < buf.length := length_pos_iff.mpr none
      -- without a cap no chunk is too large
      have within (n : Nat) : ¬c.OverCap n := fun capped => by
        have positive := capped.1
        rw [inStep.uncapped] at positive
        exact absurd positive (Nat.lt_irrefl 0)
      rw [HttpContext.chunkData_take c buf _ rfl (by omega) (within _),
        ResponseParser.chunkData_take p buf _ rfl (by omega), count]
      exact .take _ _ _ (inStep.receiveChunk here _)
  | expectChunkCrlf =>
    have there := inStep.mirrors here rfl
    have empty := inStep.held (by simp [there])
    simp only [HttpContext.round, ResponseParser.round, here, there]
    split
    · exact .take _ _ _
        (.between rfl inStep.uncapped inStep.body (fun _ => empty) (by simp) (by simp))
    · exact .stop c p inStep
  | gotAll =>
    have there := inStep.mirrors here rfl
    simp only [HttpContext.round, ResponseParser.round, here, there]
    exact .stop c p inStep

theorem parse_inStep (c : HttpContext) (p : ResponseParser) (buf : Bytes) (inStep : InStep c p) :
    InStep (c.parseRequest buf).1 (p.parse buf).1 ∧ (c.parseRequest buf).2 = (p.parse buf).2 :=
  parse_related HttpContext.round_consumes ResponseParser.round_consumes
    (fun c p buf => round_inStep c p buf) c p buf inStep

/-! ### The head -/

/-- A request line and a status line that are accepted, and the lines of a header block to put
behind either of them. -/
structure Twins where
  requestLine : Bytes
  statusLine : Bytes
  status : HttpResponse
  lines : List Bytes
  requestAccepted : (parseRequestLine {} requestLine).2 = true
  statusAccepted : ResponseParser.parseStatusLine {} statusLine = some status
  requestWhole : Unbroken requestLine
  statusWhole : Unbroken statusLine
  block : ∀ line ∈ lines, Unbroken line ∧ line ≠ []

namespace Twins

variable (x : Twins)

def fields : HeaderMap := storeLines .empty x.lines

def tail (bytes : Bytes) : Bytes := endLines x.lines ++ (crlf ++ bytes)

def asRequest (bytes : Bytes) : HttpContext × Bytes :=
  (HttpContext.fresh 0).parseRequest (x.requestLine ++ crlf ++ x.tail bytes)

def asResponse (bytes : Bytes) : ResponseParser × Bytes :=
  ResponseParser.parse {} (x.statusLine ++ crlf ++ x.tail bytes)

/-- Both reject or both accept, both are complete or neither is, and they have taken the same
body and left the same bytes. -/
def SameFraming (bytes : Bytes) : Prop :=
  (x.asRequest bytes).1.hasError = (x.asResponse bytes).1.hasError ∧
    (x.asRequest bytes).1.gotAll = (x.asResponse bytes).1.gotAll ∧
    (x.asRequest bytes).1.request.body = (x.asResponse bytes).1.received ∧
    (x.asRequest bytes).2 = (x.asResponse bytes).2

instance (bytes : Bytes) : Decidable (x.SameFraming bytes) :=
  inferInstanceAs (Decidable (_ ∧ _ ∧ _ ∧ _))

def requestRefuses : Option Bytes := refused kMaxHeaderBytes (x.requestLine.length + 2) x.lines

/-- The lines that the response parser refuses. It does not count the status line. -/
def responseRefuses : Option Bytes := refused ResponseParser.kMaxHeaderBytes 0 x.lines

def coding : Bytes := (x.fields.find? (text "transfer-encoding")).getD []

def SaysChunked : Prop := contains (text "chunked") x.coding = true

def MeansChunked : Prop := contains (text "chunked") (toLower x.coding) = true

def SaysLength : Prop := (x.fields.find? (text "content-length")).isSome = true

instance : Decidable x.SaysChunked := inferInstanceAs (Decidable (_ = true))
instance : Decidable x.MeansChunked := inferInstanceAs (Decidable (_ = true))
instance : Decidable x.SaysLength := inferInstanceAs (Decidable (_ = true))

theorem meansChunked (small : x.SaysChunked) : x.MeansChunked :=
  contains_toLower (text "chunked") x.coding small

def opened : HttpContext :=
  { HttpContext.fresh 0 with
    request := (parseRequestLine {} x.requestLine).1
    headerBytes := x.requestLine.length + 2
    state := .expectHeaders }

def context : HttpContext := x.opened.afterLines x.lines

theorem asRequest_eq (bytes : Bytes) : x.asRequest bytes = x.opened.parseRequest (x.tail bytes) := by
  have taken : (HttpContext.fresh 0).requestLine x.requestLine =
      .take x.opened (x.requestLine.length + 2) := by
    simp only [HttpContext.requestLine, HttpContext.fresh, x.requestAccepted, if_true, Nat.zero_add]
    rfl
  exact HttpContext.parse_line _ _ _ x.requestLine _ rfl x.requestWhole taken

theorem context_fields : x.context.request.headers = x.fields := by
  show storeLines (parseRequestLine {} x.requestLine).1.headers x.lines = storeLines .empty x.lines
  rw [parseRequestLine_headers]

theorem context_body : x.context.request.body = [] := parseRequestLine_body {} x.requestLine

theorem chunked_context : HttpContext.chunked x.context.request = true ↔ x.MeansChunked := by
  unfold HttpContext.chunked HttpRequest.header
  rw [context_fields]
  exact Iff.rfl

theorem declaredLength_context :
    HttpContext.declaredLength x.context.request = (ResponseParser.mapLength x.fields).getD 0 := by
  unfold HttpContext.declaredLength HttpRequest.header ResponseParser.mapLength
  rw [context_fields, show toLower (text "content-length") = text "content-length" by decide]
  cases x.fields.find? (text "content-length") with
  | none => rfl
  | some value =>
    cases value with
    -- the request parser skips an empty value; the response parser reads it as zero
    | nil => decide
    | cons a value => rfl

theorem asRequest_taken (bytes : Bytes) (taken : x.requestRefuses = none) :
    x.asRequest bytes = x.context.parseRequest (crlf ++ bytes) := by
  rw [asRequest_eq]
  exact HttpContext.parse_taken x.opened x.lines (crlf ++ bytes) rfl
    (fun l member => (x.block l member).1) taken

theorem asRequest_refused (bytes left : Bytes) (bad : x.requestRefuses = some left) :
    (x.asRequest bytes).1.state = .error ∧ (x.asRequest bytes).1.request.body = [] ∧
      (x.asRequest bytes).2 = left ++ (crlf ++ bytes) := by
  obtain ⟨state, body, rest⟩ :=
    HttpContext.parse_refused x.opened x.lines (crlf ++ bytes) left rfl x.block bad
  rw [asRequest_eq]
  exact ⟨state, body.trans x.context_body, rest⟩

def head (taken : x.responseRefuses = none) : ResponseHead where
  line := x.statusLine
  fields := x.lines
  status := x.status
  accepted := x.statusAccepted
  unbroken := x.statusWhole
  lines := fun l member => ⟨(x.block l member).1,
    (fits_of_refused_none _ 0 x.lines (Nat.zero_le _) taken).1 l member⟩
  small := by
    have fits := (fits_of_refused_none _ 0 x.lines (Nat.zero_le _) taken).2
    rwa [Nat.zero_add] at fits

theorem asResponse_refused (bytes left : Bytes) (bad : x.responseRefuses = some left) :
    (x.asResponse bytes).1.state = .error ∧ (x.asResponse bytes).1.received = [] ∧
      (x.asResponse bytes).2 = left ++ (crlf ++ bytes) := by
  have taken : ResponseParser.statusLine {} x.statusLine =
      .take { response := x.status, state := .expectHeaders } (x.statusLine.length + 2) := by
    simp only [ResponseParser.statusLine, x.statusAccepted]
  have ready : ResponseParser.Ready { response := x.status, state := .expectHeaders } :=
    ⟨ResponseParser.sound_of_state _ (by simp) (by simp), fun _ => rfl⟩
  obtain ⟨state, body, accum, rest⟩ := ResponseParser.parse_refused
    { response := x.status, state := .expectHeaders } x.lines (crlf ++ bytes) left ready rfl x.block bad
  -- the status line is taken, and leaves the counter of header bytes at zero
  have parsed : x.asResponse bytes =
      ResponseParser.parse { response := x.status, state := .expectHeaders } (x.tail bytes) :=
    ResponseParser.parse_line _ _ _ x.statusLine _ ResponseParser.ready_fresh rfl x.statusWhole taken
  rw [parsed]
  refine ⟨state, ?_, rest⟩
  rw [ResponseParser.received]
  exact (congrArg₂ (· ++ ·) (body.trans (ResponseParser.parseStatusLine_body _ _ _ x.statusAccepted))
    accum)

section Head

variable (taken : x.responseRefuses = none)

theorem chunked_head : (x.head taken).Chunked ↔ x.SaysChunked := by
  unfold ResponseHead.Chunked ResponseParser.chunked SaysChunked coding
  rw [ResponseHead.parser_fields, show (x.head taken).fieldMap = x.fields from rfl]
  -- a missing field is an empty value
  cases x.fields.find? (text "transfer-encoding") with
  | none => exact Iff.of_eq (congrArg (· = true) (by decide))
  | some value => exact Iff.rfl

theorem asResponse_taken (bytes : Bytes) (p : ResponseParser)
    (decided : (x.head taken).parser.endOfHeaders = .take p 2) : x.asResponse bytes = p.parse bytes := by
  have wire : x.statusLine ++ crlf ++ x.tail bytes = (x.head taken).bytes ++ bytes := by
    simp only [ResponseHead.bytes, tail, head, append_assoc]
  rw [asResponse, wire]
  exact ResponseParser.parse_blank (x.head taken) p bytes decided

end Head

theorem asRequest_decided (bytes : Bytes) (c : HttpContext) (taken : x.requestRefuses = none)
    (decided : x.context.endOfHeaders = .take c 2) : x.asRequest bytes = c.parseRequest bytes := by
  rw [asRequest_taken x bytes taken]
  exact HttpContext.parse_line x.context c x.context.headersLine [] bytes rfl .nil decided

/-- The head leaves no doubt: it is chunked in small letters, or it has a length and is not
chunked in any letters. -/
def FramedAlike : Prop := x.SaysChunked ∨ (¬x.MeansChunked ∧ x.SaysLength)

instance : Decidable x.FramedAlike := inferInstanceAs (Decidable (_ ∨ _))

theorem declared_head (taken : x.responseRefuses = none) :
    (x.head taken).parser.declared = ResponseParser.mapLength x.fields :=
  (x.head taken).parser_facts.2.2.2.2

theorem endOfHeaders_sized (unchunked : ¬x.MeansChunked) :
    x.context.endOfHeaders = .take { x.context with
      contentLength := (ResponseParser.mapLength x.fields).getD 0
      bodyReceived := 0
      state := if (ResponseParser.mapLength x.fields).getD 0 > 0 then .expectBody else .gotAll } 2 := by
  have uncoded : ¬HttpContext.chunked x.context.request = true :=
    fun coded => unchunked (x.chunked_context.mp coded)
  have uncapped : ¬(x.context.maxBodyBytes > 0 ∧
      HttpContext.declaredLength x.context.request > x.context.maxBodyBytes) :=
    fun capped => absurd capped.1 (Nat.lt_irrefl 0)
  rw [HttpContext.endOfHeaders, if_neg uncoded]
  dsimp only
  rw [if_neg uncapped, declaredLength_context]

theorem endOfHeaders_chunked (coded : x.MeansChunked) :
    x.context.endOfHeaders = .take { x.context with state := .expectChunkSize } 2 := by
  rw [HttpContext.endOfHeaders, if_pos (x.chunked_context.mpr coded)]

theorem inStep_of_framedAlike (taken : x.responseRefuses = none) (alike : x.FramedAlike) :
    ∃ c p, x.context.endOfHeaders = .take c 2 ∧ (x.head taken).parser.endOfHeaders = .take p 2 ∧
      InStep c p := by
  obtain ⟨_, received, accum, empty, _⟩ := (x.head taken).parser_facts
  have body : x.context.request.body = (x.head taken).parser.received := by
    rw [context_body, ResponseParser.received, empty, accum]
    rfl
  rcases alike with small | ⟨unchunked, length⟩
  -- both expect the size of the first chunk
  · refine ⟨_, _, x.endOfHeaders_chunked (x.meansChunked small),
      if_pos ((x.chunked_head taken).mpr small), ?_⟩
    exact .between rfl rfl body (fun _ => empty) (by simp) (by simp)
  -- both expect the same number of bytes
  · obtain ⟨value, found⟩ := isSome_iff_exists.mp length
    have map : ResponseParser.mapLength x.fields = some (strtoul value 10) := by
      rw [ResponseParser.mapLength, found]
      rfl
    have declared := x.declared_head taken
    rw [map, ResponseParser.declared] at declared
    have uncoded : ¬(x.head taken).parser.chunked = true :=
      fun coded => unchunked (x.meansChunked ((x.chunked_head taken).mp coded))
    have sized := x.endOfHeaders_sized unchunked
    rw [map, getD_some] at sized
    -- what the parser has captured is what the map has
    by_cases known : (x.head taken).parser.hasContentLength = true
    · rw [if_pos known, Option.some.injEq] at declared
      refine ⟨_, _, sized, by rw [ResponseParser.endOfHeaders, if_neg uncoded, if_pos known], ?_⟩
      rw [← declared]
      exact .ofLength rfl body empty received
    · rw [if_neg known] at declared
      cases declared

/-! ### Where the heads are not alike -/

theorem endOfHeaders_plain (taken : x.responseRefuses = none) (unchunked : ¬x.SaysChunked) :
    ∃ p, (x.head taken).parser.endOfHeaders = .take p 2 ∧ p.Plain ∧ p.received = [] ∧
      (¬x.SaysLength → p.state = .expectEofBody) := by
  obtain ⟨_, nothing, accum, empty, declared⟩ := (x.head taken).parser_facts
  have uncoded : ¬(x.head taken).parser.chunked = true :=
    fun coded => unchunked ((x.chunked_head taken).mp coded)
  have received : (x.head taken).parser.received = [] := by
    rw [ResponseParser.received, empty, accum]
    rfl
  unfold ResponseParser.endOfHeaders
  rw [if_neg uncoded]
  by_cases known : (x.head taken).parser.hasContentLength = true
  · rw [if_pos known]
    refine ⟨_, rfl, ?_, received, fun missing => ?_⟩
    · by_cases positive : (x.head taken).parser.contentLength > 0
      · rw [if_pos positive]
        refine ⟨.inl rfl, ⟨fun _ => ?_, by simp⟩, fun _ => empty⟩
        show (x.head taken).parser.bodyReceived < (x.head taken).parser.contentLength
        omega
      · rw [if_neg positive]
        exact ⟨.inr (.inr rfl), ResponseParser.sound_of_state _ (by simp) (by simp), fun _ => empty⟩
    -- a length that was captured is in the map
    · rw [ResponseParser.declared, if_pos known] at declared
      refine absurd ?_ missing
      obtain ⟨value, found, _⟩ := map_eq_some_iff.mp declared.symm
      exact isSome_iff_exists.mpr ⟨value, found⟩
  · rw [if_neg known]
    exact ⟨_, rfl, ⟨.inr (.inl rfl), ResponseParser.sound_of_state _ (by simp) (by simp),
      fun _ => empty⟩, received, fun _ => rfl⟩

/-- A chunked coding in other letters: the last size line is a whole body for one parser and
the beginning of one for the other. -/
theorem not_sameFraming_of_letters (request : x.requestRefuses = none)
    (response : x.responseRefuses = none) (large : x.MeansChunked) (unchunked : ¬x.SaysChunked) :
    ¬x.SameFraming (numeral 16 0 ++ crlf ++ []) := by
  obtain ⟨p, decided, plain, nothing, _⟩ := x.endOfHeaders_plain response unchunked
  have taken := x.asRequest_decided (numeral 16 0 ++ crlf ++ []) _ request (x.endOfHeaders_chunked large)
  rw [HttpContext.parse_sizeLine _ 0 [] rfl (by decide), if_pos rfl] at taken
  have complete : x.asRequest (numeral 16 0 ++ crlf ++ []) = (_, []) :=
    taken.trans (parse_stop _ _ _ rfl)
  -- one parser has the size line in its body, the other has an empty body
  have whole := ResponseParser.parse_plain p (numeral 16 0 ++ crlf ++ []) plain
  rw [← x.asResponse_taken response _ p decided, nothing] at whole
  rintro ⟨_, _, body, left⟩
  rw [← left, ← body, complete, append_nil] at whole
  have empty : x.context.request.body = numeral 16 0 ++ crlf ++ [] := whole
  rw [context_body] at empty
  exact absurd empty (by decide)

/-- No framing at all: the body is empty for one parser and without end for the other. -/
theorem not_sameFraming_of_unframed (request : x.requestRefuses = none)
    (response : x.responseRefuses = none) (unchunked : ¬x.MeansChunked) (unsized : ¬x.SaysLength) :
    ¬x.SameFraming [] := by
  obtain ⟨p, decided, plain, _, state⟩ :=
    x.endOfHeaders_plain response fun small => unchunked (x.meansChunked small)
  have waits : x.asResponse [] = (p, []) :=
    (x.asResponse_taken response [] p decided).trans (ResponseParser.parse_nil p plain.sound)
  have none : ResponseParser.mapLength x.fields = none := by
    rw [ResponseParser.mapLength, not_isSome_iff_eq_none.mp unsized]
    rfl
  have sized := x.endOfHeaders_sized unchunked
  -- the request is complete at the blank line, the response waits for its end
  rw [none, getD_none, if_neg (Nat.lt_irrefl 0)] at sized
  have complete : x.asRequest [] = (_, []) :=
    (x.asRequest_decided [] _ request sized).trans (parse_stop _ _ _ rfl)
  rintro ⟨_, together, _⟩
  rw [complete, waits, ResponseParser.gotAll, state unsized] at together
  cases together

theorem asResponse_accepts (response : x.responseRefuses = none) :
    (x.asResponse []).1.hasError = false := by
  have state (p : ResponseParser) (sound : p.Sound) (accepted : p.state ≠ .error)
      (decided : (x.head response).parser.endOfHeaders = .take p 2) :
      (x.asResponse []).1.hasError = false := by
    rw [x.asResponse_taken response [] p decided, ResponseParser.parse_nil p sound]
    simpa [ResponseParser.hasError] using accepted
  by_cases small : x.SaysChunked
  · exact state { (x.head response).parser with state := .expectChunkSize }
      (ResponseParser.sound_of_state _ (by simp) (by simp)) (by simp)
      (if_pos ((x.chunked_head response).mpr small))
  · obtain ⟨p, decided, plain, _⟩ := x.endOfHeaders_plain response small
    refine state p plain.sound ?_ decided
    rcases plain.state with here | here | here <;> simp [here]

/-! ### When they agree -/

/-- **Framing**: the two parsers frame everything behind the head in the same way exactly
when they refuse the same lines of it and, if they refuse none, the head leaves no doubt. -/
theorem sameFraming_iff : (∀ bytes, x.SameFraming bytes) ↔
    x.requestRefuses = x.responseRefuses ∧ (x.responseRefuses = none → x.FramedAlike) := by
  cases response : x.responseRefuses with
  | some left =>
    cases request : x.requestRefuses with
    -- the request parser counts more bytes, so it refuses whatever the other one does
    | none =>
      have taken : x.responseRefuses = none := refused_mono _ 0 _ x.lines (Nat.zero_le _) request
      rw [response] at taken
      cases taken
    | some left' =>
      constructor
      · intro same
        -- what is left tells where the head was refused
        obtain ⟨_, _, _, rest⟩ := same []
        rw [(x.asRequest_refused [] left' request).2.2, (x.asResponse_refused [] left response).2.2]
          at rest
        exact ⟨congrArg some (List.append_cancel_right rest), fun none => by cases none⟩
      · rintro ⟨same, _⟩ bytes
        cases same
        obtain ⟨state, body, rest⟩ := x.asRequest_refused bytes left request
        obtain ⟨state', body', rest'⟩ := x.asResponse_refused bytes left response
        refine ⟨?_, ?_, body.trans body'.symm, rest.trans rest'.symm⟩
        · rw [HttpContext.hasError, ResponseParser.hasError, state, state']
          rfl
        · rw [HttpContext.gotAll, ResponseParser.gotAll, state, state']
          rfl
  | none =>
    cases request : x.requestRefuses with
    | some left =>
      constructor
      · intro same
        have together := (same []).1
        rw [x.asResponse_accepts response, HttpContext.hasError,
          (x.asRequest_refused [] left request).1] at together
        cases together
      · rintro ⟨same, _⟩
        cases same
    | none =>
      constructor
      · refine fun same => ⟨rfl, fun _ => ?_⟩
        by_cases small : x.SaysChunked
        · exact Or.inl small
        · have plain : ¬x.MeansChunked := fun large =>
            x.not_sameFraming_of_letters request response large small (same _)
          refine Or.inr ⟨plain, ?_⟩
          by_contra unsized
          exact x.not_sameFraming_of_unframed request response plain unsized (same [])
      · rintro ⟨_, alike⟩ bytes
        obtain ⟨c, p, decided, decided', inStep⟩ := x.inStep_of_framedAlike response (alike rfl)
        obtain ⟨inStep', rest⟩ := parse_inStep c p bytes inStep
        rw [← x.asRequest_decided bytes c request decided,
          ← x.asResponse_taken response bytes p decided'] at inStep' rest
        exact ⟨inStep'.hasError, inStep'.gotAll, inStep'.body, rest⟩

end Twins

/-- A block behind `POST / HTTP/1.1` and behind `HTTP/1.1 200 OK`. -/
def postTwins (lines : List Bytes) (block : ∀ line ∈ lines, Unbroken line ∧ line ≠ []) : Twins where
  requestLine := text "POST / HTTP/1.1"
  statusLine := text "HTTP/1.1 200 OK"
  status := { statusCode := 200, statusReason := text "OK" }
  lines := lines
  requestAccepted := by decide
  statusAccepted := parseStatusLine_ok
  requestWhole := by decide
  statusWhole := unbroken_ok
  block := block

namespace Twins

theorem sameFraming_sized : ∀ bytes,
    (postTwins [text "Host: a", text "content-length: 5"] (by decide)).SameFraming bytes :=
  (sameFraming_iff _).mpr (by decide)

/-- The coding is spelled with a capital letter. The request is complete, with an empty body;
the response takes the size line for its body and waits for more. -/
theorem capitalChunked_notSameFraming :
    let x := postTwins [text "Transfer-Encoding: Chunked"] (by decide)
    x.MeansChunked ∧ ¬x.SameFraming (text "0\r\n") ∧
      (x.asRequest (text "0\r\n")).1.gotAll = true ∧
      (x.asResponse (text "0\r\n")).1.received = text "0\r\n" := by
  decide +kernel

end Twins

end Cox.Http

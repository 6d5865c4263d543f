import Cox.Lib.Session
import Cox.Http.ResponseWire
import Cox.Http.Wire

/-!
# Responses one after the other

A connection that is kept alive carries one response after the other. Each time the parser
has a complete response, it is reset and goes on with the bytes that are left, so where it
stops is where the next response starts.

A response whose length is declared ends with its body. A chunked one ends with an empty
line, but the parser is finished as soon as it has read the zero size line: the next
response starts with the empty line that was left, and is rejected. The parser looks for
`chunked` in lower case only; spelled otherwise, it takes everything that follows for the
body of the one response.
-/
namespace Cox.Http

open Cox.Lib Cox.Lib.Resumable List

namespace ResponseParser

/-! ### The session -/

/-- Collect the responses; the parser is reset after each. -/
def collect : Service ResponseParser (List HttpResponse) Unit where
  complete p := p.gotAll
  rejected p := p.hasError
  verdict _ := ()
  serve out p := ⟨p.reset, out ++ [p.response], false⟩
  reject out _ := out

theorem headersLine_accepts (p p' : ResponseParser) (line : Bytes) (n : Nat)
    (here : p.state = .expectHeaders) (taken : p.headersLine line = .take p' n) :
    p'.state ≠ .error := by
  unfold headersLine at taken
  split at taken
  · unfold endOfHeaders at taken
    split at taken
    · cases taken
      simp
    · split at taken <;> cases taken
      · dsimp only
        split <;> simp
      · simp
  · unfold headerLine at taken
    dsimp only at taken
    split at taken
    · cases taken
    · split at taken <;> cases taken
      simp [(storeHeader_same ..).1, here]

theorem round_take_accepts (p : ResponseParser) (buf : Bytes) (p' : ResponseParser) (n : Nat)
    (ready : Ready p) (played : p.round buf = .take p' n) : p'.state ≠ .error := by
  have plays := round_phased.plays_of_round p buf _ ready played
  generalize result : Round.take p' n = r at plays
  cases plays with
  | wait => cases result
  | line handle i now =>
    unfold phase at now
    split at now <;> cases now
    · unfold statusLine at result
      split at result <;> cases result
      simp
    next here => exact headersLine_accepts p p' _ n here result.symm
    · cases result
      dsimp only
      split <;> simp [finish]
  | data room receive now =>
    cases result
    unfold phase at now
    split at now <;> cases now
    next here _ =>
      unfold receive
      dsimp only
      split <;> simp [finish, here]
    next here _ => simp [receiveRest, here]
    next here _ =>
      unfold receiveChunk
      dsimp only
      split <;> simp [here]
  | skip n next now =>
    cases result
    unfold phase at now
    split at now <;> cases now
    simp

theorem collect_lawful : collect.LawfulService round Ready where
  parser := by simpa [collect, hasError] using round_phased.lawful
  completeStops := by
    intro p b complete
    have here : p.state = .gotAll := by simpa [collect, gotAll] using complete
    simp only [round, here]
  notBoth := by
    intro p complete
    have here : p.state = .gotAll := by simpa [collect, gotAll] using complete
    simp [collect, hasError, here]
  takeAccepts := by
    intro p b p' n ready played
    simpa [collect, hasError] using round_take_accepts p b p' n ready played
  served := by
    intro out p _
    exact ⟨ready_fresh, rfl, rfl⟩

/-- Feed the pieces to one parser that is reset after each response. -/
def collectPieces (pieces : List Bytes) : Session ResponseParser (List HttpResponse) × Bytes :=
  feed (collect.sessionRound round) (⟨{}, [], false⟩, []) pieces

/-- The same on the bytes as a whole, when some responses have been collected. -/
def collectFrom (out : List HttpResponse) (bytes : Bytes) :
    Session ResponseParser (List HttpResponse) × Bytes :=
  Resumable.parse (collect.sessionRound round) ⟨{}, out, false⟩ bytes

/-- One turn: what the parser makes of the next response, and then the rest. -/
theorem collectFrom_turn (out : List HttpResponse) (bytes : Bytes) :
    collectFrom out bytes = Resumable.parse (collect.sessionRound round)
      (collect.turn out (parse {} bytes).1) (parse {} bytes).2 :=
  collect_lawful.parse_turn {} out bytes ready_fresh rfl rfl

theorem collectFrom_complete (out : List HttpResponse) (bytes : Bytes)
    (complete : (parse {} bytes).1.state = .gotAll) :
    collectFrom out bytes =
      collectFrom (out ++ [(parse {} bytes).1.response]) (parse {} bytes).2 := by
  have turn : collect.turn out (parse {} bytes).1 =
      ⟨{}, out ++ [(parse {} bytes).1.response], false⟩ := by
    rw [Service.turn, if_neg (by simp [collect, hasError, complete]),
      if_pos (by simp [collect, gotAll, complete])]
    rfl
  rw [collectFrom_turn, turn]
  rfl

/-! ### Chunks -/

theorem parse_sizeLine (p : ResponseParser) (n : Nat) (rest : Bytes)
    (here : p.state = .expectChunkSize) (fits : n ≤ ulongMax) :
    p.parse (numeral 16 n ++ crlf ++ rest) =
      (if n = 0 then finish { p with chunkRemaining := n } else
        { p with chunkRemaining := n, state := .expectChunkData }).parse rest := by
  have plain : cr ∉ numeral 16 n := fun h =>
    (numeral_plain 16 n (by decide) (by decide) cr h).2.2.2.1 rfl
  have ready : Ready p := ready_of_state p (by simp [here]) (by simp [here])
  apply parse_line p _ p.chunkSizeLine _ rest ready (by simp only [phase, here]) (.of_no_cr _ plain)
  simp only [chunkSizeLine, strtoul_numeral 16 n (by decide) (by decide) fits]

theorem parse_chunk (p : ResponseParser) (data rest : Bytes) (here : p.state = .expectChunkSize)
    (nonempty : data ≠ []) (fits : data.length ≤ ulongMax) :
    p.parse (HttpContext.encodeChunk data ++ rest) =
      parse { p with bodyAccum := p.bodyAccum ++ data, chunkRemaining := 0 } rest := by
  have size : data.length ≠ 0 := fun zero => nonempty (length_eq_zero_iff.mp zero)
  have wire : HttpContext.encodeChunk data ++ rest =
      numeral 16 data.length ++ crlf ++ (data ++ (crlf ++ rest)) := by
    simp only [HttpContext.encodeChunk, append_assoc]
  let reading : ResponseParser := { p with chunkRemaining := data.length, state := .expectChunkData }
  let read : ResponseParser :=
    { p with bodyAccum := p.bodyAccum ++ data, chunkRemaining := 0, state := .expectChunkCrlf }
  have readingReady : Ready reading := by
    refine ready_of_sound _ ⟨by simp [reading], fun _ => ?_⟩ (by simp [reading]) (by simp [reading])
    exact Nat.pos_of_ne_zero size
  have readReady : Ready read := ready_of_state _ (by simp [read]) (by simp [read])
  -- the three rounds
  have first := parse_sizeLine p data.length (data ++ (crlf ++ rest)) here fits
  rw [if_neg size] at first
  have received : reading.receiveChunk data = read := by
    simp [receiveChunk, reading, read]
  have second : reading.parse (data ++ (crlf ++ rest)) = read.parse (crlf ++ rest) := by
    rw [← received]
    exact round_phased.parse_data reading data (crlf ++ rest) readingReady _ rfl nonempty
  have third : read.parse (crlf ++ rest) = parse { read with state := .expectChunkSize } rest :=
    round_phased.parse_skip read _ crlf rest readReady rfl
  rw [wire, first, second, third]
  simp only [read, here]

theorem parse_chunks (p : ResponseParser) (chunks : List Bytes) (rest : Bytes)
    (here : p.state = .expectChunkSize) (sizes : HttpContext.ChunkSizes chunks) :
    ∃ p' : ResponseParser, p.parse (chunks.flatMap HttpContext.encodeChunk ++ rest) = p'.parse rest ∧
      p'.state = .expectChunkSize := by
  induction chunks generalizing p with
  | nil => exact ⟨p, rfl, here⟩
  | cons data chunks ih =>
    obtain ⟨nonempty, fits⟩ := sizes data (mem_cons_self ..)
    obtain ⟨p', same, waits⟩ :=
      ih { p with bodyAccum := p.bodyAccum ++ data, chunkRemaining := 0 } here
        (fun d member => sizes d (mem_cons_of_mem _ member))
    refine ⟨p', ?_, waits⟩
    rw [flatMap_cons, append_assoc, parse_chunk p data _ here nonempty fits, same]

theorem parse_chunked (head : ResponseHead) (chunks : List Bytes) (rest : Bytes)
    (coding : head.Chunked) (sizes : HttpContext.ChunkSizes chunks) :
    (parse {} (head.bytes ++ (HttpContext.encodeChunks chunks ++ rest))).1.state = .gotAll ∧
      (parse {} (head.bytes ++ (HttpContext.encodeChunks chunks ++ rest))).2 = crlf ++ rest := by
  have taken : head.parser.endOfHeaders =
      .take { head.parser with state := .expectChunkSize } 2 := by
    have said : head.parser.chunked = true := coding
    unfold endOfHeaders
    rw [if_pos said]
  have wire : HttpContext.encodeChunks chunks ++ rest = chunks.flatMap HttpContext.encodeChunk ++
      (numeral 16 0 ++ crlf ++ (crlf ++ rest)) := by
    simp only [HttpContext.encodeChunks, append_assoc]
  obtain ⟨p', same, waits⟩ := parse_chunks { head.parser with state := .expectChunkSize } chunks
    (numeral 16 0 ++ crlf ++ (crlf ++ rest)) rfl sizes
  have last : parse {} (head.bytes ++ (HttpContext.encodeChunks chunks ++ rest)) =
      (finish { p' with chunkRemaining := 0 }, crlf ++ rest) := by
    rw [parse_blank head _ _ taken, wire, same, parse_sizeLine p' 0 _ waits (by decide), if_pos rfl]
    exact parse_stop _ _ _ rfl
  rw [last]
  exact ⟨rfl, rfl⟩

theorem parse_emptyLine (rest : Bytes) : (parse {} (crlf ++ rest)).1.state = .error := by
  have failed := round_phased.parse_rejected {} { state := .error } (crlf ++ rest) 0 0 ready_fresh
    (statusLine {}) rfl rfl rfl
  rw [parse, failed]

theorem parse_unframed (head : ResponseHead) (rest : Bytes) (unchunked : ¬head.Chunked)
    (absent : head.declared = none) :
    (parse {} (head.bytes ++ rest)).1.state = .expectEofBody := by
  have uncoded : ¬head.parser.chunked = true := unchunked
  have unknown : ¬head.parser.hasContentLength = true := by
    have tracked := head.parser_facts.2.2.2.2
    rw [absent, declared] at tracked
    intro known
    rw [if_pos known] at tracked
    cases tracked
  have taken : head.parser.endOfHeaders = .take { head.parser with state := .expectEofBody } 2 := by
    unfold endOfHeaders
    rw [if_neg uncoded, if_neg unknown]
  rw [parse_blank head _ rest taken]
  -- one round takes all there is
  cases rest with
  | nil => rw [parse, parse_stop _ _ _ rfl]
  | cons c rest =>
    rw [parse, parse_take round_consumes _ _ _ _ rfl, drop_length, parse_stop _ _ _ rfl]

/-! ### Streams -/

/-- The head announces chunked coding, in any letter case. -/
def announcesChunked (head : ResponseHead) : Bool :=
  contains (text "chunked") (toLower ((head.fieldMap.find? (text "transfer-encoding")).getD []))

/-- A response with its framing. -/
inductive Message where
  | sized (head : ResponseHead) (body : Bytes) (unchunked : ¬head.Chunked)
      (length : head.declared = some body.length)
  | chunked (head : ResponseHead) (chunks : List Bytes) (coding : announcesChunked head = true)
      (alone : head.declared = none) (sizes : HttpContext.ChunkSizes chunks)

namespace Message

def bytes : Message → Bytes
  | sized head body _ _ => head.bytes ++ body
  | chunked head chunks _ _ _ => head.bytes ++ HttpContext.encodeChunks chunks

def response : Message → HttpResponse
  | sized head body _ _ => head.response.setBody body
  | chunked head chunks _ _ _ => head.response.setBody chunks.flatten

def isSized : Message → Bool
  | sized .. => true
  | chunked .. => false

end Message

/-- The responses were collected in order, nothing was rejected and nothing is left. -/
def InSync (messages : List Message) (outcome : Session ResponseParser (List HttpResponse) × Bytes) :
    Prop :=
  outcome.1.out = messages.map Message.response ∧ outcome.1.closed = false ∧ outcome.2 = []

instance (messages : List Message)
    (outcome : Session ResponseParser (List HttpResponse) × Bytes) :
    Decidable (InSync messages outcome) := inferInstanceAs (Decidable (_ ∧ _ ∧ _))

theorem collectFrom_sized (out : List HttpResponse) (m : Message) (rest : Bytes)
    (sized : m.isSized = true) :
    collectFrom out (m.bytes ++ rest) = collectFrom (out ++ [m.response]) rest := by
  cases m with
  | chunked => cases sized
  | sized head body unchunked length =>
    have parsed := parse_sized head body rest unchunked length
    rw [← append_assoc] at parsed
    obtain ⟨complete, response, left⟩ := parsed
    show collectFrom out (head.bytes ++ body ++ rest) = _
    rw [collectFrom_complete out _ complete, response, left]
    rfl

/-- Behind a chunked response the next one is rejected, or everything is taken for the body
of this one. -/
theorem collectFrom_chunked (out : List HttpResponse) (m : Message) (rest : Bytes)
    (chunked : m.isSized = false) :
    (collectFrom out (m.bytes ++ rest)).1.closed = true ∨
      (collectFrom out (m.bytes ++ rest)).1.out = out := by
  cases m with
  | sized => cases chunked
  | chunked head chunks coding alone sizes =>
    show (collectFrom out (head.bytes ++ _ ++ rest)).1.closed = true ∨
      (collectFrom out (head.bytes ++ _ ++ rest)).1.out = out
    rw [append_assoc]
    by_cases lower : head.Chunked
    -- the parser stops after the last size line, so the next response starts with an empty line
    · left
      obtain ⟨complete, left⟩ := parse_chunked head chunks rest lower sizes
      have failed := parse_emptyLine rest
      rw [collectFrom_complete out _ complete, left, collectFrom_turn, Service.turn,
        if_pos (by simp [collect, hasError, failed]),
        parse_stop _ _ _ (Service.sessionRound_closed _ _ rfl)]
      rfl
    -- the coding is spelt in another case: the parser sees no framing
    · right
      have waits := parse_unframed head (HttpContext.encodeChunks chunks ++ rest) lower alone
      have stopped := collect_lawful.parser.parse_waits {}
        (head.bytes ++ (HttpContext.encodeChunks chunks ++ rest)) ready_fresh
      rw [collectFrom_turn, Service.turn, if_neg (by simp [collect, hasError, waits]),
        if_neg (by simp [collect, gotAll, waits]),
        parse_stop _ _ _ (Service.sessionRound_stop _ _ _ rfl stopped)]

theorem collectFrom_inSync_iff (out : List HttpResponse) (messages : List Message) :
    ((collectFrom out (messages.flatMap Message.bytes)).1.out =
        out ++ messages.map Message.response ∧
      (collectFrom out (messages.flatMap Message.bytes)).1.closed = false ∧
      (collectFrom out (messages.flatMap Message.bytes)).2 = []) ↔
    ∀ m ∈ messages, m.isSized = true := by
  induction messages generalizing out with
  | nil =>
    have done : collectFrom out [] = (⟨{}, out, false⟩, []) := parse_stop _ _ _ rfl
    simp [done]
  | cons m messages ih =>
    rw [flatMap_cons, forall_mem_cons]
    cases sized : m.isSized with
    | true =>
      rw [collectFrom_sized out m _ sized, map_cons]
      have rest := ih (out ++ [m.response])
      rw [append_assoc, singleton_append] at rest
      rw [rest]
      simp
    | false =>
      simp only [Bool.false_eq_true, false_and, iff_false]
      -- the session was closed, or it is one response short
      rintro ⟨all, accepted, _⟩
      rcases collectFrom_chunked out m (messages.flatMap Message.bytes) sized with closed | missing
      · rw [accepted] at closed
        cases closed
      · rw [missing] at all
        have lengths := congrArg List.length all
        simp at lengths

/-- **Keeping in sync**: however the stream is cut, the parser collects exactly the
responses that were sent and consumes them all exactly when none of them is chunked. -/
theorem inSync_iff (messages : List Message) (pieces : List Bytes)
    (cut : pieces.flatten = messages.flatMap Message.bytes) :
    InSync messages (collectPieces pieces) ↔ ∀ m ∈ messages, m.isSized = true := by
  have agree := collect_lawful.session_lawful.feed_agrees ⟨{}, [], false⟩ [] pieces ready_fresh
    (parse_stop _ _ _ rfl)
  rw [List.nil_append, cut] at agree
  rw [← collectFrom_inSync_iff [] messages, List.nil_append]
  rcases agree with same | ⟨left, right, _⟩
  · have equal : collectPieces pieces = collectFrom [] (messages.flatMap Message.bytes) := same
    rw [InSync, equal]
  -- a session that was closed is out of sync, cut or not
  · have left' : (collectPieces pieces).1.closed = true := left
    have right' : (collectFrom [] (messages.flatMap Message.bytes)).1.closed = true := right
    simp [InSync, left', right']

def sizedHead : ResponseHead where
  line := text "HTTP/1.1 200 OK"
  fields := [text "Content-Length: 2"]
  status := {}
  accepted := parseStatusLine_ok
  unbroken := unbroken_ok
  lines := by decide
  small := by decide

def chunkedHead : ResponseHead where
  line := text "HTTP/1.1 200 OK"
  fields := [text "Transfer-Encoding: chunked"]
  status := {}
  accepted := parseStatusLine_ok
  unbroken := unbroken_ok
  lines := by decide
  small := by decide

def sizedMessage : Message := .sized sizedHead (text "hi") (by decide) (by decide)

def chunkedMessage : Message :=
  .chunked chunkedHead [text "abc", text "de"] (by decide) (by decide) (by decide)

theorem inSync_twoSized :
    InSync [sizedMessage, sizedMessage] (collectPieces [text "HTTP/1.1 200 OK\r",
      text "\nContent-Length: 2\r\n\r\nhiHTTP/1.1 200 OK\r\nContent-Length: 2\r\n\r\nh", text "i"]) :=
  (inSync_iff [sizedMessage, sizedMessage] _ (by decide)).mpr (by decide)

/-- The response after a chunked one is lost. -/
theorem chunkedMessage_losesNext :
    let outcome := collectPieces [chunkedMessage.bytes, sizedMessage.bytes]
    ¬InSync [chunkedMessage, sizedMessage] outcome ∧ outcome.1.closed = true ∧
      outcome.1.out = [chunkedMessage.response] ∧ outcome.2 = crlf ++ sizedMessage.bytes := by
  decide +kernel

end ResponseParser

end Cox.Http

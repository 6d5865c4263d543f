import Cox.Http.Fields
import Cox.Http.ResponseRounds

/-!
# Responses on the wire

What the response parser makes of a well-formed head and of the body behind it. The length
of the body is captured while the header lines are read, and it is the one that the last
Content-Length field declares, as it would be looked up in the map of all fields.
-/
namespace Cox.Http

open Cox.Lib Cox.Lib.Resumable List

namespace ResponseParser

theorem parseStatusLine_body (r status : HttpResponse) (line : Bytes)
    (accepted : parseStatusLine r line = some status) : status.body = r.body := by
  unfold parseStatusLine at accepted
  dsimp only at accepted
  split_ifs at accepted
  rw [← Option.some.inj accepted]
  rfl

/-! ### Header lines -/

def storeLine (p : ResponseParser) (line : Bytes) : ResponseParser :=
  { p.storeHeader (fieldName line) (fieldValue line) with
    headerBytes := p.headerBytes + (line.length + 2) }

def storeAll (p : ResponseParser) (lines : List Bytes) : ResponseParser := lines.foldl storeLine p

def mapLength (m : HeaderMap) : Option Nat :=
  (m.find? (text "content-length")).map fun value => strtoul value 10

def declared (p : ResponseParser) : Option Nat :=
  if p.hasContentLength then some p.contentLength else none

theorem storeLine_same (p : ResponseParser) (line : Bytes) :
    (p.storeLine line).state = p.state ∧ (p.storeLine line).bodyReceived = p.bodyReceived ∧
      (p.storeLine line).bodyAccum = p.bodyAccum ∧
      (p.storeLine line).response.statusCode = p.response.statusCode ∧
      (p.storeLine line).response.statusReason = p.response.statusReason ∧
      (p.storeLine line).response.body = p.response.body ∧
      (p.storeLine line).lowerHeaders = storeLines p.lowerHeaders [line] := by
  unfold storeLine storeHeader
  dsimp only
  split <;> exact ⟨rfl, rfl, rfl, rfl, rfl, rfl, rfl⟩

theorem storeLine_declared (p : ResponseParser) (line : Bytes)
    (tracked : p.declared = mapLength p.lowerHeaders) :
    (p.storeLine line).declared = mapLength (p.storeLine line).lowerHeaders := by
  unfold storeLine storeHeader
  dsimp only
  split
  next isLength =>
    simp only [declared, mapLength, isLength, SortedMap.find?_insert, if_true, Option.map_some]
  next other =>
    have missed : text "content-length" ≠ toLower (fieldName line) := fun same => other same.symm
    simp only [mapLength, SortedMap.find?_insert, if_neg missed]
    exact tracked

theorem storeAll_same (p : ResponseParser) (lines : List Bytes) :
    (p.storeAll lines).state = p.state ∧ (p.storeAll lines).bodyReceived = p.bodyReceived ∧
      (p.storeAll lines).bodyAccum = p.bodyAccum ∧
      (p.storeAll lines).response.statusCode = p.response.statusCode ∧
      (p.storeAll lines).response.statusReason = p.response.statusReason ∧
      (p.storeAll lines).response.body = p.response.body ∧
      (p.storeAll lines).lowerHeaders = storeLines p.lowerHeaders lines := by
  induction lines generalizing p with
  | nil => exact ⟨rfl, rfl, rfl, rfl, rfl, rfl, rfl⟩
  | cons line lines ih =>
    obtain ⟨state, received, accum, code, reason, body, headers⟩ := ih (p.storeLine line)
    obtain ⟨state', received', accum', code', reason', body', headers'⟩ := storeLine_same p line
    refine ⟨state.trans state', received.trans received', accum.trans accum', code.trans code',
      reason.trans reason', body.trans body', headers.trans ?_⟩
    rw [headers', ← storeLines_append, singleton_append]

theorem storeAll_declared (p : ResponseParser) (lines : List Bytes)
    (tracked : p.declared = mapLength p.lowerHeaders) :
    (p.storeAll lines).declared = mapLength (p.storeAll lines).lowerHeaders := by
  induction lines generalizing p with
  | nil => exact tracked
  | cons line lines ih => exact ih (p.storeLine line) (storeLine_declared p line tracked)

/-! ### Running over lines -/

theorem parse_line (p p' : ResponseParser) (handle : Bytes → Round ResponseParser)
    (line rest : Bytes) (ready : Ready p) (now : p.phase = .line handle) (whole : Unbroken line)
    (taken : handle line = .take p' (line.length + 2)) :
    p.parse (line ++ crlf ++ rest) = p'.parse rest := by
  have first : (line ++ crlf ++ rest).take line.length = line := by
    rw [append_assoc, take_left]
  have parsed := round_phased.parse_line p p' (line ++ crlf ++ rest) line.length ready handle now
    (findCrlf_unbroken line rest whole) (by rw [first]; exact taken)
  have size : line.length + crlfDelimiter.width = (line ++ crlf).length := by
    rw [length_append]
    rfl
  rw [size, drop_left] at parsed
  exact parsed

variable (p : ResponseParser)

theorem headersLine_take_line (line : Bytes) (colon : colonByte ∈ line)
    (fits : p.headerBytes + (line.length + 2) ≤ kMaxHeaderBytes) :
    p.headersLine line = .take (p.storeLine line) (line.length + 2) := by
  have found : line.idxOf colonByte ≠ line.length :=
    Nat.ne_of_lt (idxOf_lt_length_of_mem colon)
  have size := (storeHeader_same p (fieldName line) (fieldValue line)).2.2.1
  unfold fieldName fieldValue at size
  simp only [headersLine, headerLine, if_neg (ne_nil_of_mem colon), if_neg found, size,
    if_neg (Nat.not_lt.mpr fits), storeLine, fieldName, fieldValue]

theorem storeLine_ready (line : Bytes) (ready : Ready p) (here : p.state = .expectHeaders) :
    Ready (p.storeLine line) := by
  obtain ⟨state, received, _⟩ := storeLine_same p line
  rw [here] at state
  exact ⟨sound_of_state _ (by simp [state]) (by simp [state]),
    fun _ => received.trans (ready.empty (.inr here))⟩

theorem parse_taken (lines : List Bytes) (rest : Bytes) (ready : Ready p)
    (here : p.state = .expectHeaders) (whole : ∀ line ∈ lines, Unbroken line)
    (taken : refused kMaxHeaderBytes p.headerBytes lines = none) :
    p.parse (endLines lines ++ rest) = (p.storeAll lines).parse rest := by
  induction lines generalizing p with
  | nil => rfl
  | cons line lines ih =>
    by_cases fits : colonByte ∈ line ∧ p.headerBytes + (line.length + 2) ≤ kMaxHeaderBytes
    · have handled := headersLine_take_line p line fits.1 fits.2
      have now : p.phase = .line p.headersLine := by simp only [phase, here]
      rw [refused_taken _ _ _ _ fits] at taken
      rw [endLines_cons, parse_line p _ _ line _ ready now (whole line (mem_cons_self ..)) handled,
        ih (p.storeLine line) (storeLine_ready p line ready here) ((storeLine_same p line).1.trans here)
          (fun l member => whole l (mem_cons_of_mem _ member)) taken]
      rfl
    -- the line would be refused
    · rw [refused_here _ _ _ _ fits] at taken
      cases taken

theorem headersLine_refused (line : Bytes) (nonempty : line ≠ [])
    (bad : ¬(colonByte ∈ line ∧ p.headerBytes + (line.length + 2) ≤ kMaxHeaderBytes)) :
    ∃ p', p.headersLine line = .fail p' 0 ∧ p'.state = .error ∧
      p'.response.body = p.response.body ∧ p'.bodyAccum = p.bodyAccum := by
  by_cases colon : colonByte ∈ line
  -- the header is stored before the limit is checked; the body is not touched
  · have found : line.idxOf colonByte ≠ line.length :=
      Nat.ne_of_lt (idxOf_lt_length_of_mem colon)
    have size := (storeHeader_same p (fieldName line) (fieldValue line)).2.2.1
    have large : (p.storeHeader (fieldName line) (fieldValue line)).headerBytes + (line.length + 2) >
        kMaxHeaderBytes := by
      rw [not_and, Nat.not_le] at bad
      rw [size]
      exact bad colon
    obtain ⟨_, _, accum, _, _, body, _⟩ := storeLine_same p line
    rw [headersLine, if_neg nonempty, headerLine, if_neg found]
    exact ⟨_, if_pos large, rfl, body, accum⟩
  · rw [headersLine, if_neg nonempty, headerLine, if_pos (idxOf_eq_length colon)]
    exact ⟨_, rfl, rfl, rfl, rfl⟩

theorem parse_refused (lines : List Bytes) (rest left : Bytes) (ready : Ready p)
    (here : p.state = .expectHeaders) (whole : ∀ line ∈ lines, Unbroken line ∧ line ≠ [])
    (bad : refused kMaxHeaderBytes p.headerBytes lines = some left) :
    let outcome := p.parse (endLines lines ++ rest)
    outcome.1.state = .error ∧ outcome.1.response.body = p.response.body ∧
      outcome.1.bodyAccum = p.bodyAccum ∧ outcome.2 = left ++ rest := by
  induction lines generalizing p with
  | nil => cases bad
  | cons line lines ih =>
    obtain ⟨unbroken, nonempty⟩ := whole line (mem_cons_self ..)
    have now : p.phase = .line p.headersLine := by simp only [phase, here]
    rw [endLines_cons]
    by_cases fits : colonByte ∈ line ∧ p.headerBytes + (line.length + 2) ≤ kMaxHeaderBytes
    · obtain ⟨state, _, accum, _, _, body, _⟩ := storeLine_same p line
      rw [refused_taken _ _ _ _ fits] at bad
      rw [parse_line p _ _ line _ ready now unbroken (headersLine_take_line p line fits.1 fits.2),
        ← body, ← accum]
      exact ih (p.storeLine line) (storeLine_ready p line ready here) (state.trans here)
        (fun l member => whole l (mem_cons_of_mem _ member)) bad
    -- the parse ends here, in front of the line
    · obtain ⟨p', failed, state, body, accum⟩ := headersLine_refused p line nonempty fits
      rw [refused_here _ _ _ _ fits] at bad
      cases bad
      have played : p.round (line ++ crlf ++ (endLines lines ++ rest)) = .fail p' 0 := by
        simp only [round, here, onLine, findCrlf_unbroken line _ unbroken]
        rw [append_assoc, take_left]
        exact failed
      unfold parse
      rw [parse_fail _ _ _ _ played, drop_zero, endLines_cons]
      exact ⟨state, body, accum, rfl⟩

theorem parse_headerLines (lines : List Bytes) (rest : Bytes) (ready : Ready p)
    (here : p.state = .expectHeaders) (whole : ∀ line ∈ lines, Unbroken line ∧ colonByte ∈ line)
    (small : p.headerBytes + (endLines lines).length ≤ kMaxHeaderBytes) :
    p.parse (endLines lines ++ rest) = (p.storeAll lines).parse rest :=
  parse_taken p lines rest ready here (fun l member => (whole l member).1)
    (refused_none _ _ lines (fun l member => (whole l member).2) small)

end ResponseParser

/-! ### Heads -/

theorem parseStatusLine_ok :
    ResponseParser.parseStatusLine {} (text "HTTP/1.1 200 OK") = some {} := by decide

theorem unbroken_ok : Unbroken (text "HTTP/1.1 200 OK") := by decide

/-- A status line that the parser accepts, with what it says, and header lines within the
limit. -/
structure ResponseHead where
  line : Bytes
  fields : List Bytes
  status : HttpResponse
  accepted : ResponseParser.parseStatusLine {} line = some status
  unbroken : Unbroken line
  lines : ∀ field ∈ fields, Unbroken field ∧ colonByte ∈ field
  small : (endLines fields).length ≤ ResponseParser.kMaxHeaderBytes

namespace ResponseHead

def bytes (head : ResponseHead) : Bytes := head.line ++ crlf ++ endLines head.fields ++ crlf

def fieldMap (head : ResponseHead) : HeaderMap := storeLines .empty head.fields

def parser (head : ResponseHead) : ResponseParser :=
  ResponseParser.storeAll { response := head.status, state := .expectHeaders } head.fields

def response (head : ResponseHead) : HttpResponse := head.parser.response

/-- The length of the body, by the last field that declares it. -/
def declared (head : ResponseHead) : Option Nat := ResponseParser.mapLength head.fieldMap

def Chunked (head : ResponseHead) : Prop := head.parser.chunked = true

instance (head : ResponseHead) : Decidable head.Chunked := inferInstanceAs (Decidable (_ = true))

variable (head : ResponseHead)

theorem parser_fields : head.parser.lowerHeaders = head.fieldMap :=
  (ResponseParser.storeAll_same { response := head.status, state := .expectHeaders }
    head.fields).2.2.2.2.2.2

theorem response_status :
    head.response.statusCode = head.status.statusCode ∧
      head.response.statusReason = head.status.statusReason := by
  obtain ⟨_, _, _, code, reason, _⟩ := ResponseParser.storeAll_same
    { response := head.status, state := .expectHeaders } head.fields
  exact ⟨code, reason⟩

theorem not_chunked (absent : head.fieldMap.find? (text "transfer-encoding") = none) :
    ¬head.Chunked := by
  simp [Chunked, ResponseParser.chunked, parser_fields, absent]

theorem parser_facts :
    head.parser.state = .expectHeaders ∧ head.parser.bodyReceived = 0 ∧
      head.parser.bodyAccum = [] ∧ head.parser.response.body = [] ∧
      head.parser.declared = head.declared := by
  obtain ⟨state, received, accum, _, _, body, _⟩ := ResponseParser.storeAll_same
    { response := head.status, state := .expectHeaders } head.fields
  have tracked := ResponseParser.storeAll_declared
    { response := head.status, state := .expectHeaders } head.fields rfl
  have unfilled := ResponseParser.parseStatusLine_body _ _ _ head.accepted
  refine ⟨state, received, accum, body.trans unfilled, tracked.trans ?_⟩
  exact congrArg ResponseParser.mapLength head.parser_fields

theorem parser_ready : head.parser.Ready := by
  obtain ⟨state, received, _⟩ := head.parser_facts
  exact ⟨ResponseParser.sound_of_state _ (by simp [state]) (by simp [state]), fun _ => received⟩

end ResponseHead

namespace ResponseParser

theorem parse_head (head : ResponseHead) (rest : Bytes) :
    parse {} (head.bytes ++ rest) = head.parser.parse (crlf ++ rest) := by
  have taken : statusLine {} head.line =
      .take { response := head.status, state := .expectHeaders } (head.line.length + 2) := by
    simp only [statusLine, head.accepted]
  have wire : head.bytes ++ rest =
      head.line ++ crlf ++ (endLines head.fields ++ (crlf ++ rest)) := by
    simp only [ResponseHead.bytes, append_assoc]
  have ready : Ready { response := head.status, state := .expectHeaders } :=
    ⟨sound_of_state _ (by simp) (by simp), fun _ => rfl⟩
  rw [wire, parse_line _ _ _ _ _ ready_fresh rfl head.unbroken taken,
    parse_headerLines _ _ _ ready rfl head.lines (by simpa using head.small)]
  rfl

theorem parse_blank (head : ResponseHead) (p : ResponseParser) (rest : Bytes)
    (taken : head.parser.endOfHeaders = .take p 2) :
    parse {} (head.bytes ++ rest) = p.parse rest := by
  have here := head.parser_facts.1
  have now : head.parser.phase = .line head.parser.headersLine := by simp only [phase, here]
  rw [parse_head]
  exact parse_line head.parser p _ [] rest head.parser_ready now .nil taken

theorem parse_body (p : ResponseParser) (body rest : Bytes) (here : p.state = .expectBody)
    (nothing : p.bodyReceived = 0 ∧ p.bodyAccum = []) (length : p.contentLength = body.length)
    (nonempty : body ≠ []) :
    p.parse (body ++ rest) =
      (finish { p with bodyAccum := body, bodyReceived := body.length }, rest) := by
  have positive : 0 < body.length := length_pos_iff.mpr nonempty
  have ready : Ready p :=
    ready_of_sound p ⟨fun _ => by omega, by simp [here]⟩ (by simp [here]) (by simp [here])
  have now : p.phase = .data (some body.length) p.receive := by
    rw [phase_body p here, length, nothing.1, Nat.sub_zero]
  have full : p.receive body =
      finish { p with bodyAccum := body, bodyReceived := body.length } := by
    simp only [receive, nothing.1, nothing.2, length, nil_append, Nat.zero_add, if_true]
  have parsed := round_phased.parse_data p body rest ready p.receive now nonempty
  rw [full] at parsed
  exact parsed.trans (parse_stop _ _ _ rfl)

theorem parse_sized (head : ResponseHead) (body rest : Bytes) (unchunked : ¬head.Chunked)
    (length : head.declared = some body.length) :
    let outcome := parse {} (head.bytes ++ (body ++ rest))
    outcome.1.state = .gotAll ∧ outcome.1.response = head.response.setBody body ∧
      outcome.2 = rest := by
  obtain ⟨here, received, accum, empty, tracked⟩ := head.parser_facts
  rw [length] at tracked
  have declares : head.parser.hasContentLength = true ∧ head.parser.contentLength = body.length := by
    unfold declared at tracked
    split at tracked
    next known => exact ⟨known, Option.some.inj tracked⟩
    next => cases tracked
  have uncoded : ¬head.parser.chunked = true := unchunked
  have taken : head.parser.endOfHeaders = .take { head.parser with
      state := if head.parser.contentLength > 0 then .expectBody else .gotAll } 2 := by
    unfold endOfHeaders
    rw [if_neg uncoded, if_pos declares.1]
  intro outcome
  have parsed := parse_blank head _ (body ++ rest) taken
  by_cases none : body = []
  -- a length of zero needs no round, and leaves the body as it was: empty
  · have zero : ¬head.parser.contentLength > 0 := by simp [declares.2, none]
    rw [if_neg zero] at parsed
    have whole : outcome = ({ head.parser with state := .gotAll }, body ++ rest) :=
      parsed.trans (parse_stop _ _ _ rfl)
    rw [whole, none]
    refine ⟨rfl, ?_, rfl⟩
    show head.parser.response = head.parser.response.setBody []
    rw [HttpResponse.setBody, ← empty]
  · have positive : head.parser.contentLength > 0 := by
      rw [declares.2]
      exact length_pos_iff.mpr none
    rw [if_pos positive] at parsed
    have whole := parsed.trans (parse_body { head.parser with state := .expectBody } body rest rfl
      ⟨received, accum⟩ declares.2 none)
    rw [show outcome = _ from whole]
    exact ⟨rfl, rfl, rfl⟩

end ResponseParser

end Cox.Http

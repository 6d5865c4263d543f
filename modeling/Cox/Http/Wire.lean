import Cox.Http.ContextRounds
import Cox.Http.Fields

/-!
# Requests on the wire

What `parseRequest` makes of a well-formed request head and of a chunked body: for
each chunk its size in hexadecimal, CRLF, the data and CRLF, then a zero size line and
the empty line that ends the message.

The parser is finished as soon as it has read the zero size line. It never consumes
the empty line, so those two bytes are still in the buffer when the next request on
the connection is parsed, and that parse rejects them.
-/
namespace Cox.Http

open Cox.Lib Cox.Lib.Resumable List

/-! ### Heads -/

theorem parseRequestLine_body (r : HttpRequest) (line : Bytes) :
    (parseRequestLine r line).1.body = r.body := by
  unfold parseRequestLine
  dsimp only
  split_ifs <;> rfl

theorem parseRequestLine_headers (r : HttpRequest) (line : Bytes) :
    (parseRequestLine r line).1.headers = r.headers := by
  unfold parseRequestLine
  dsimp only
  split_ifs <;> rfl

/-- A request line and header lines that the parser takes. The limit is checked with the
header lines only. -/
structure RequestHead where
  line : Bytes
  fields : List Bytes
  whole : ∀ l ∈ line :: fields, Unbroken l
  accepted : (parseRequestLine {} line).2 = true
  colons : ∀ l ∈ fields, colonByte ∈ l
  small : fields ≠ [] → (endLines (line :: fields)).length ≤ kMaxHeaderBytes

namespace RequestHead

def bytes (head : RequestHead) : Bytes := endLines (head.line :: head.fields)

def request (head : RequestHead) : HttpRequest :=
  { (parseRequestLine {} head.line).1 with
    headers := storeLines (parseRequestLine {} head.line).1.headers head.fields }

theorem request_body (head : RequestHead) : head.request.body = [] :=
  parseRequestLine_body {} head.line

def context (cap : Nat) (head : RequestHead) : HttpContext :=
  { HttpContext.fresh cap with
    request := head.request
    headerBytes := head.bytes.length
    state := .expectHeaders }

end RequestHead

namespace HttpContext

variable (c : HttpContext)

theorem round_handles (handle : Bytes → Round HttpContext) (line rest : Bytes)
    (waits : c.lineHandler = some handle) (whole : Unbroken line) :
    c.round (line ++ crlf ++ rest) = handle line := by
  rw [round_line c handle waits, onLine_found c handle _ _ (findCrlf_unbroken line rest whole),
    append_assoc, take_left']
  rfl

theorem parse_line (c c' : HttpContext) (handle : Bytes → Round HttpContext) (line rest : Bytes)
    (waits : c.lineHandler = some handle) (whole : Unbroken line)
    (taken : handle line = .take c' (line.length + 2)) :
    parseRequest c (line ++ crlf ++ rest) = parseRequest c' rest := by
  have played := round_handles c handle line rest waits whole
  have length : line.length + 2 = (line ++ crlf).length := by simp [crlf]
  unfold parseRequest
  rw [parse_take round_consumes c c' _ _ (played.trans taken), length, drop_left]

def afterLines (c : HttpContext) (lines : List Bytes) : HttpContext :=
  { c with
    request := { c.request with headers := storeLines c.request.headers lines }
    headerBytes := c.headerBytes + (endLines lines).length }

theorem headersLine_take (line : Bytes) (colon : colonByte ∈ line)
    (fits : c.headerBytes + (line.length + 2) ≤ kMaxHeaderBytes) :
    c.headersLine line = .take (c.afterLines [line]) (line.length + 2) := by
  have nonempty : line ≠ [] := ne_nil_of_mem colon
  have found : line.idxOf colonByte ≠ line.length :=
    Nat.ne_of_lt (idxOf_lt_length_of_mem colon)
  have size : (endLines [line]).length = line.length + 2 := by simp [length_endLines]
  simp only [headersLine, headerLine, if_neg nonempty, if_neg found, if_neg (Nat.not_lt.mpr fits),
    afterLines, size]
  rfl

theorem afterLines_cons (line : Bytes) (lines : List Bytes) :
    (c.afterLines [line]).afterLines lines = c.afterLines (line :: lines) := by
  simp only [afterLines, length_endLines, map_cons, map_nil, sum_cons, sum_nil,
    Nat.add_zero, Nat.add_assoc]
  rfl

theorem parse_taken (lines : List Bytes) (rest : Bytes) (here : c.state = .expectHeaders)
    (whole : ∀ line ∈ lines, Unbroken line)
    (taken : refused kMaxHeaderBytes c.headerBytes lines = none) :
    parseRequest c (endLines lines ++ rest) = parseRequest (c.afterLines lines) rest := by
  induction lines generalizing c with
  | nil => rfl
  | cons line lines ih =>
    have first : (endLines [line]).length = line.length + 2 := by simp [length_endLines]
    by_cases fits : colonByte ∈ line ∧ c.headerBytes + (line.length + 2) ≤ kMaxHeaderBytes
    · have handled := headersLine_take c line fits.1 fits.2
      rw [refused_taken _ _ _ _ fits, ← first] at taken
      rw [endLines_cons, parse_line c _ c.headersLine line _ (by simp only [lineHandler, here])
          (whole line (mem_cons_self ..)) handled,
        ih (c.afterLines [line]) here (fun l member => whole l (mem_cons_of_mem _ member)) taken,
        afterLines_cons]
    · rw [refused_here _ _ _ _ fits] at taken
      cases taken

theorem headersLine_refused (line : Bytes) (nonempty : line ≠ [])
    (bad : ¬(colonByte ∈ line ∧ c.headerBytes + (line.length + 2) ≤ kMaxHeaderBytes)) :
    ∃ c', c.headersLine line = .fail c' 0 ∧ c'.state = .error ∧
      c'.request.body = c.request.body := by
  by_cases colon : colonByte ∈ line
  · have found : line.idxOf colonByte ≠ line.length :=
      Nat.ne_of_lt (idxOf_lt_length_of_mem colon)
    have large : c.headerBytes + (line.length + 2) > kMaxHeaderBytes := by
      rw [not_and, Nat.not_le] at bad
      exact bad colon
    rw [headersLine, if_neg nonempty, headerLine, if_neg found, if_pos large]
    exact ⟨_, rfl, rfl, rfl⟩
  · rw [headersLine, if_neg nonempty, headerLine, if_pos (idxOf_eq_length colon)]
    exact ⟨_, rfl, rfl, rfl⟩

theorem parse_refused (lines : List Bytes) (rest left : Bytes) (here : c.state = .expectHeaders)
    (whole : ∀ line ∈ lines, Unbroken line ∧ line ≠ [])
    (bad : refused kMaxHeaderBytes c.headerBytes lines = some left) :
    let outcome := parseRequest c (endLines lines ++ rest)
    outcome.1.state = .error ∧ outcome.1.request.body = c.request.body ∧
      outcome.2 = left ++ rest := by
  induction lines generalizing c with
  | nil => cases bad
  | cons line lines ih =>
    obtain ⟨unbroken, nonempty⟩ := whole line (mem_cons_self ..)
    have waits : c.lineHandler = some c.headersLine := by simp only [lineHandler, here]
    have first : (endLines [line]).length = line.length + 2 := by simp [length_endLines]
    rw [endLines_cons]
    by_cases fits : colonByte ∈ line ∧ c.headerBytes + (line.length + 2) ≤ kMaxHeaderBytes
    · rw [refused_taken _ _ _ _ fits, ← first] at bad
      rw [parse_line c _ c.headersLine line _ waits unbroken (headersLine_take c line fits.1 fits.2)]
      exact ih (c.afterLines [line]) here (fun l member => whole l (mem_cons_of_mem _ member)) bad
    · obtain ⟨c', failed, state, body⟩ := headersLine_refused c line nonempty fits
      rw [refused_here _ _ _ _ fits] at bad
      cases bad
      have played := round_handles c c.headersLine line (endLines lines ++ rest) waits unbroken
      unfold parseRequest
      rw [parse_fail _ _ _ _ (played.trans failed), drop_zero, endLines_cons]
      exact ⟨state, body, rfl⟩

theorem parse_headerLines (lines : List Bytes) (rest : Bytes) (here : c.state = .expectHeaders)
    (whole : ∀ line ∈ lines, Unbroken line) (colons : ∀ line ∈ lines, colonByte ∈ line)
    (small : c.headerBytes + (endLines lines).length ≤ kMaxHeaderBytes) :
    parseRequest c (endLines lines ++ rest) = parseRequest (c.afterLines lines) rest :=
  parse_taken c lines rest here whole (refused_none _ _ lines colons small)

theorem parse_head (cap : Nat) (head : RequestHead) (rest : Bytes) :
    parseRequest (fresh cap) (head.bytes ++ rest) = parseRequest (head.context cap) rest := by
  obtain ⟨whole, later⟩ := forall_mem_cons.mp head.whole
  have taken : (fresh cap).requestLine head.line = .take { fresh cap with
      request := (parseRequestLine {} head.line).1
      headerBytes := head.line.length + 2
      state := .expectHeaders } (head.line.length + 2) := by
    simp only [requestLine, fresh, head.accepted, if_true, Nat.zero_add]
  have fits : refused kMaxHeaderBytes (head.line.length + 2) head.fields = none := by
    by_cases none : head.fields = []
    · rw [none]
      rfl
    · have small := head.small none
      rw [length_endLines_cons] at small
      exact refused_none _ _ _ head.colons small
  rw [RequestHead.bytes, endLines_cons, parse_line _ _ _ head.line _ rfl whole taken,
    parse_taken _ head.fields rest rfl later fits]
  congr 1
  rw [RequestHead.context, RequestHead.bytes, length_endLines_cons]
  rfl

theorem endOfHeaders_chunked (coding : chunked c.request = true) :
    c.endOfHeaders = .take { c with state := .expectChunkSize } 2 := if_pos coding

theorem parse_chunkedHead (cap : Nat) (head : RequestHead) (rest : Bytes)
    (coding : chunked head.request = true) :
    parseRequest (fresh cap) (head.bytes ++ crlf ++ rest) =
      parseRequest { head.context cap with state := .expectChunkSize } rest := by
  have taken := endOfHeaders_chunked (head.context cap) coding
  rw [append_assoc, parse_head]
  exact parse_line _ _ _ [] rest rfl .nil taken

/-! ### Chunks -/

/-- hex(size) CRLF data CRLF. -/
def encodeChunk (data : Bytes) : Bytes := numeral 16 data.length ++ crlf ++ data ++ crlf

/-- The chunks, the zero size line and the empty line. -/
def encodeChunks (chunks : List Bytes) : Bytes :=
  chunks.flatMap encodeChunk ++ (numeral 16 0 ++ crlf ++ crlf)

def ChunkSizes (chunks : List Bytes) : Prop :=
  ∀ data ∈ chunks, data ≠ [] ∧ data.length ≤ ulongMax

def WithinCap (maxBodyBytes size : Nat) : Prop := maxBodyBytes = 0 ∨ size ≤ maxBodyBytes

instance (chunks : List Bytes) : Decidable (ChunkSizes chunks) :=
  inferInstanceAs (Decidable (∀ data ∈ chunks, data ≠ [] ∧ data.length ≤ ulongMax))

instance (maxBodyBytes size : Nat) : Decidable (WithinCap maxBodyBytes size) :=
  inferInstanceAs (Decidable (maxBodyBytes = 0 ∨ size ≤ maxBodyBytes))

theorem parse_sizeLine (n : Nat) (rest : Bytes) (here : c.state = .expectChunkSize)
    (fits : n ≤ ulongMax) :
    parseRequest c (numeral 16 n ++ crlf ++ rest) = parseRequest { c with
      chunkRemaining := n
      state := if n = 0 then .gotAll else .expectChunkData } rest := by
  -- a numeral has no CR in it, so the line ends where it should
  have plain : cr ∉ numeral 16 n := fun h =>
    (numeral_plain 16 n (by decide) (by decide) cr h).2.2.2.1 rfl
  apply parse_line c _ c.chunkSizeLine _ rest (by simp only [lineHandler, here]) (.of_no_cr _ plain)
  simp only [chunkSizeLine, strtoul_numeral 16 n (by decide) (by decide) fits]

def afterChunk (c : HttpContext) (data : Bytes) : HttpContext :=
  { c with
    request := c.request.appendBody data
    bodyReceived := c.bodyReceived + data.length
    chunkRemaining := 0 }

theorem parse_chunk (data rest : Bytes) (here : c.state = .expectChunkSize) (nonempty : data ≠ [])
    (fits : data.length ≤ ulongMax) (within : ¬c.OverCap data.length) :
    parseRequest c (encodeChunk data ++ rest) = parseRequest (c.afterChunk data) rest := by
  have size : 0 < data.length := length_pos_iff.mpr nonempty
  have wire : encodeChunk data ++ rest =
      numeral 16 data.length ++ crlf ++ (data ++ (crlf ++ rest)) := by
    simp only [encodeChunk, append_assoc]
  -- the size line, the data and the CRLF take one round each
  have first := parse_sizeLine c data.length (data ++ (crlf ++ rest)) here fits
  rw [if_neg (by omega)] at first
  have second : parseRequest { c with chunkRemaining := data.length, state := .expectChunkData }
        (data ++ (crlf ++ rest)) =
      parseRequest { c.afterChunk data with state := .expectChunkCrlf } (crlf ++ rest) := by
    have played := chunkData_take
      { c with chunkRemaining := data.length, state := .expectChunkData } (data ++ (crlf ++ rest))
      data.length (by simp) size within
    rw [take_left] at played
    unfold parseRequest
    rw [parse_take round_consumes _ _ _ _ (by simpa only [round] using played), drop_left]
    simp [receiveChunk, afterChunk]
  have third : parseRequest { c.afterChunk data with state := .expectChunkCrlf } (crlf ++ rest) =
      parseRequest { c.afterChunk data with state := .expectChunkSize } rest :=
    parse_take round_consumes _ _ _ 2 (by simp [round, crlf])
  rw [wire, first, second, third]
  congr 1
  simp [afterChunk, here]

theorem parse_chunks (chunks : List Bytes) (rest : Bytes) (here : c.state = .expectChunkSize)
    (sizes : ChunkSizes chunks)
    (within : WithinCap c.maxBodyBytes (c.bodyReceived + chunks.flatten.length)) :
    ∃ c', parseRequest c (chunks.flatMap encodeChunk ++ rest) = parseRequest c' rest ∧
      c'.state = .expectChunkSize ∧ c'.request.body = c.request.body ++ chunks.flatten ∧
      c'.maxBodyBytes = c.maxBodyBytes := by
  -- the cap has to leave room for all chunks, so it leaves room for each of them
  induction chunks generalizing c with
  | nil => exact ⟨c, rfl, here, (append_nil _).symm, rfl⟩
  | cons data chunks ih =>
    obtain ⟨nonempty, fits⟩ := sizes data (mem_cons_self ..)
    rw [flatten_cons, length_append, ← Nat.add_assoc] at within
    have room : ¬c.OverCap data.length := by
      rintro ⟨positive, exceeds⟩
      rcases within with zero | most <;> omega
    obtain ⟨c', same, waits, body, cap⟩ := ih (c.afterChunk data) here
      (fun d member => sizes d (mem_cons_of_mem _ member)) within
    refine ⟨c', ?_, waits, ?_, cap⟩
    · rw [flatMap_cons, append_assoc, parse_chunk c data _ here nonempty fits room, same]
    · rw [body, flatten_cons, ← append_assoc]
      rfl

/-! ### Where a chunked request ends -/

/-- The outcome of a chunked request followed by other bytes. -/
def parseChunked (maxBodyBytes : Nat) (head : RequestHead) (chunks : List Bytes) (rest : Bytes) :
    HttpContext × Bytes :=
  parseRequest (fresh maxBodyBytes) (head.bytes ++ crlf ++ encodeChunks chunks ++ rest)

/-- The request is complete with the chunks as its body, and what follows it is still
in the buffer. -/
def DelimitedExactly (maxBodyBytes : Nat) (head : RequestHead) (chunks : List Bytes)
    (rest : Bytes) : Prop :=
  let outcome := parseChunked maxBodyBytes head chunks rest
  outcome.1.state = .gotAll ∧ outcome.1.request.body = chunks.flatten ∧ outcome.2 = rest

instance (maxBodyBytes : Nat) (head : RequestHead) (chunks : List Bytes) (rest : Bytes) :
    Decidable (DelimitedExactly maxBodyBytes head chunks rest) :=
  inferInstanceAs (Decidable (_ ∧ _ ∧ _))

theorem parse_emptyLine (maxBodyBytes : Nat) (rest : Bytes) :
    (parseRequest (fresh maxBodyBytes) (crlf ++ rest)).1.state = .error := by
  have played : (fresh maxBodyBytes).round (crlf ++ rest) = _ :=
    round_handles (fresh maxBodyBytes) _ [] rest rfl .nil
  unfold parseRequest
  rw [parse_fail _ _ _ _ (played.trans rfl)]

theorem parseChunked_outcome (maxBodyBytes : Nat) (head : RequestHead) (chunks : List Bytes)
    (rest : Bytes) (coding : chunked head.request = true) (sizes : ChunkSizes chunks)
    (within : WithinCap maxBodyBytes chunks.flatten.length) :
    let outcome := parseChunked maxBodyBytes head chunks rest
    outcome.1.state = .gotAll ∧ outcome.1.request.body = chunks.flatten ∧
      outcome.1.maxBodyBytes = maxBodyBytes ∧ outcome.2 = crlf ++ rest := by
  have wire : head.bytes ++ crlf ++ encodeChunks chunks ++ rest =
      head.bytes ++ crlf ++ (chunks.flatMap encodeChunk ++ (numeral 16 0 ++ crlf ++ (crlf ++ rest))) := by
    simp only [encodeChunks, append_assoc]
  obtain ⟨c', same, waits, body, cap⟩ := parse_chunks
    { head.context maxBodyBytes with state := .expectChunkSize } chunks
    (numeral 16 0 ++ crlf ++ (crlf ++ rest)) rfl sizes
    (by rw [show bodyReceived _ = 0 from rfl, Nat.zero_add]; exact within)
  -- the zero size line completes the request; nothing looks at the empty line
  have last : parseChunked maxBodyBytes head chunks rest =
      ({ c' with chunkRemaining := 0, state := .gotAll }, crlf ++ rest) := by
    rw [parseChunked, wire, parse_chunkedHead maxBodyBytes head _ coding, same,
      parse_sizeLine c' 0 _ waits (by decide), if_pos rfl]
    exact parse_stop _ _ _ rfl
  rw [last]
  refine ⟨rfl, ?_, cap, rfl⟩
  rw [body]
  exact (congrArg (· ++ chunks.flatten) head.request_body).trans (nil_append _)

/-- A chunked request is never delimited exactly. It is complete, with the right body,
two bytes before its end, and after `reset` the next parse fails on those bytes. -/
theorem chunked_leavesEmptyLine (maxBodyBytes : Nat) (head : RequestHead) (chunks : List Bytes)
    (rest : Bytes) (coding : chunked head.request = true) (sizes : ChunkSizes chunks)
    (within : WithinCap maxBodyBytes chunks.flatten.length) :
    let outcome := parseChunked maxBodyBytes head chunks rest
    ¬DelimitedExactly maxBodyBytes head chunks rest ∧
      outcome.1.state = .gotAll ∧ outcome.1.request.body = chunks.flatten ∧
      outcome.2 = crlf ++ rest ∧ (parseRequest outcome.1.reset outcome.2).1.state = .error := by
  obtain ⟨complete, body, cap, left⟩ :=
    parseChunked_outcome maxBodyBytes head chunks rest coding sizes within
  refine ⟨?_, complete, body, left, ?_⟩
  -- two bytes too many are left
  · rintro ⟨_, _, same⟩
    have lengths := congrArg List.length (left.symm.trans same)
    simp only [crlf, List.length_append, List.length_cons, List.length_nil] at lengths
    omega
  · rw [reset, left]
    exact parse_emptyLine _ rest

def chunkedPost : RequestHead where
  line := text "POST /c HTTP/1.1"
  fields := [text "Transfer-Encoding: chunked"]
  whole := by decide
  accepted := by decide
  colons := by decide
  small := fun _ => by decide

theorem chunked_leavesEmptyLine_post :
    chunked chunkedPost.request = true ∧
    ¬DelimitedExactly 8 chunkedPost [text "abc", text "de"] (text "GET / HTTP/1.1\r\n\r\n") :=
  ⟨by decide, (chunked_leavesEmptyLine 8 chunkedPost [text "abc", text "de"]
    (text "GET / HTTP/1.1\r\n\r\n") (by decide) (by decide) (by decide)).1⟩

/-- The request after a chunked one is lost: the connection answers it with an error. -/
theorem chunkedPost_not_delimited :
    ¬DelimitedExactly 0 chunkedPost [text "hello"] (text "GET / HTTP/1.1\r\n\r\n") ∧
    (parseChunked 0 chunkedPost [text "hello"] (text "GET / HTTP/1.1\r\n\r\n")).2 =
      text "\r\nGET / HTTP/1.1\r\n\r\n" := by
  decide +kernel

end HttpContext

end Cox.Http

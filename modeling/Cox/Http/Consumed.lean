import Cox.Http.Wire

/-!
# What the request parser has read

In every state of the request parser the bytes that it has retrieved so far are those of a
request, or of the beginning of one: a request line and header lines, a body of the declared
length, or chunks as the parser understands them. A chunk is a size line that `strtoul`
reads, so many bytes, and any two bytes. This holds however the input was cut.
-/
namespace Cox.Http

open Cox.Lib Cox.Lib.Resumable HttpContext List

namespace RequestHead

def sized (cap : Nat) (head : RequestHead) (data : Bytes) : HttpContext :=
  { head.context cap with
    request := head.request.appendBody data
    contentLength := declaredLength head.request
    bodyReceived := data.length
    state := if data.length = declaredLength head.request then .gotAll else .expectBody }

def inChunks (cap : Nat) (head : RequestHead) (data : Bytes) (remaining : Nat) (state : ParseState) :
    HttpContext :=
  { head.context cap with
    request := head.request.appendBody data
    bodyReceived := data.length
    chunkRemaining := remaining
    state }

theorem nonempty (head : RequestHead) : ∀ l ∈ head.line :: head.fields, l ≠ [] := by
  intro l member
  rcases mem_cons.mp member with rfl | field
  · intro blank
    have accepted := head.accepted
    rw [blank] at accepted
    exact absurd accepted (by decide)
  · exact ne_nil_of_mem (head.colons l field)

theorem endLines_push (head : RequestHead) (line : Bytes) :
    endLines (head.line :: (head.fields ++ [line])) = head.bytes ++ (line ++ crlf) := by
  rw [← cons_append, endLines_append]
  simp [bytes, endLines]

def push (head : RequestHead) (line : Bytes) (whole : Unbroken line) (colon : colonByte ∈ line)
    (fits : head.bytes.length + (line.length + 2) ≤ kMaxHeaderBytes) : RequestHead where
  line := head.line
  fields := head.fields ++ [line]
  whole := by
    rw [← List.cons_append]
    exact List.forall_mem_append.mpr ⟨head.whole, by simpa using whole⟩
  accepted := head.accepted
  colons := List.forall_mem_append.mpr ⟨head.colons, by simpa using colon⟩
  small := by
    intro _
    rw [endLines_push, List.length_append, List.length_append]
    exact fits

theorem bytes_push (head : RequestHead) (line : Bytes) (whole : Unbroken line)
    (colon : colonByte ∈ line) (fits : head.bytes.length + (line.length + 2) ≤ kMaxHeaderBytes) :
    (head.push line whole colon fits).bytes = head.bytes ++ (line ++ crlf) := head.endLines_push line

theorem context_push (cap : Nat) (head : RequestHead) (line : Bytes) (whole : Unbroken line)
    (colon : colonByte ∈ line) (fits : head.bytes.length + (line.length + 2) ≤ kMaxHeaderBytes) :
    (head.push line whole colon fits).context cap = { head.context cap with
      request := head.request.addHeader (fieldName line) (fieldValue line)
      headerBytes := head.bytes.length + (line.length + 2) } := by
  have request : (head.push line whole colon fits).request =
      head.request.addHeader (fieldName line) (fieldValue line) := by
    simp only [request, push, storeLines_append]
    rfl
  rw [context, bytes_push, request, length_append, length_append]
  rfl

theorem headLines_bytes (head : RequestHead) (rest : Bytes) :
    headLines (head.bytes ++ crlf ++ rest) = head.line :: head.fields := by
  rw [append_assoc]
  exact headLines_eq _ rest head.whole head.nonempty

end RequestHead

structure ReadChunk where
  line : Bytes
  data : Bytes
  /-- The two bytes behind the data. -/
  tail : Bytes
  whole : Unbroken line
  nonempty : data ≠ []
  size : strtoul line 16 = data.length
  two : tail.length = 2

namespace ReadChunk

def bytes (chunk : ReadChunk) : Bytes := chunk.line ++ crlf ++ chunk.data ++ chunk.tail

end ReadChunk

def chunkBytes (chunks : List ReadChunk) : Bytes := chunks.flatMap ReadChunk.bytes

def chunkContent (chunks : List ReadChunk) : Bytes := chunks.flatMap ReadChunk.data

/-- The bytes read so far, and the state they lead to. -/
inductive Reads (cap : Nat) : Bytes → HttpContext → Prop where
  | start : Reads cap [] (fresh cap)
  | headers (head : RequestHead) : Reads cap head.bytes (head.context cap)
  | sized (head : RequestHead) (data : Bytes) (plain : chunked head.request = false)
      (fits : data.length ≤ declaredLength head.request)
      (within : WithinCap cap (declaredLength head.request)) :
      Reads cap (head.bytes ++ crlf ++ data) (head.sized cap data)
  | tooLong (head : RequestHead) (plain : chunked head.request = false) :
      Reads cap (head.bytes ++ crlf)
        { head.sized cap [] with error := .tooLarge, state := .error }
  | chunkSize (head : RequestHead) (chunks : List ReadChunk) (coding : chunked head.request = true)
      (within : WithinCap cap (chunkContent chunks).length) :
      Reads cap (head.bytes ++ crlf ++ chunkBytes chunks)
        (head.inChunks cap (chunkContent chunks) 0 .expectChunkSize)
  | chunkData (head : RequestHead) (chunks : List ReadChunk) (line data : Bytes)
      (coding : chunked head.request = true) (whole : Unbroken line)
      (missing : data.length < strtoul line 16)
      (within : WithinCap cap (chunkContent chunks ++ data).length) :
      Reads cap (head.bytes ++ crlf ++ chunkBytes chunks ++ (line ++ crlf ++ data))
        (head.inChunks cap (chunkContent chunks ++ data) (strtoul line 16 - data.length)
          .expectChunkData)
  | overCap (head : RequestHead) (chunks : List ReadChunk) (line data : Bytes)
      (coding : chunked head.request = true)
      (within : WithinCap cap (chunkContent chunks ++ data).length) :
      Reads cap (head.bytes ++ crlf ++ chunkBytes chunks ++ (line ++ crlf ++ data))
        { head.inChunks cap (chunkContent chunks ++ data) (strtoul line 16 - data.length) .error with
          error := .tooLarge }
  | chunkCrlf (head : RequestHead) (chunks : List ReadChunk) (line data : Bytes)
      (coding : chunked head.request = true) (whole : Unbroken line) (nonempty : data ≠ [])
      (size : strtoul line 16 = data.length)
      (within : WithinCap cap (chunkContent chunks ++ data).length) :
      Reads cap (head.bytes ++ crlf ++ chunkBytes chunks ++ (line ++ crlf ++ data))
        (head.inChunks cap (chunkContent chunks ++ data) 0 .expectChunkCrlf)
  | lastChunk (head : RequestHead) (chunks : List ReadChunk) (line : Bytes)
      (coding : chunked head.request = true) (whole : Unbroken line)
      (zero : strtoul line 16 = 0) (within : WithinCap cap (chunkContent chunks).length) :
      Reads cap (head.bytes ++ crlf ++ chunkBytes chunks ++ (line ++ crlf))
        (head.inChunks cap (chunkContent chunks) 0 .gotAll)
  /-- The request line or a header line was not accepted. -/
  | refused (read : Bytes) (c : HttpContext) (here : c.state = .error) (reason : c.error = .none)
      (empty : c.request.body = []) : Reads cap read c

namespace Reads

variable {cap : Nat} {read b : Bytes} {c c' : HttpContext} {n : Nat}

theorem line_cases (handle : Bytes → Round HttpContext) (waits : c.lineHandler = some handle)
    (b : Bytes) : c.round b = .stop c ∨
      ∃ line rest, Unbroken line ∧ b = line ++ crlf ++ rest ∧ c.round b = handle line := by
  rw [round_line c handle waits]
  cases found : findCrlf b with
  | none => exact .inl (onLine_none c handle b found)
  | some i =>
    right
    exact ⟨b.take i, b.drop (i + 2), unbroken_of_findCrlf b i found, findCrlf_split b i found,
      onLine_found c handle b i found⟩

theorem take_line (line rest : Bytes) :
    (line ++ crlf ++ rest).take (line.length + 2) = line ++ crlf := by
  rw [show line.length + 2 = (line ++ crlf).length by simp [crlf], take_left]

theorem sound (reads : Reads cap read c) : Sound c := by
  cases reads with
  | start => exact sound_fresh cap
  | sized head data plain fits =>
    refine ⟨fun here => ?_, fun here => ?_⟩
    · have unequal : data.length ≠ declaredLength head.request := by
        intro equal
        simp [RequestHead.sized, equal] at here
      show data.length < declaredLength head.request
      omega
    · simp only [RequestHead.sized] at here
      split at here <;> cases here
  | chunkData head chunks line data coding whole missing within =>
    refine ⟨fun here => (by cases here), fun _ => ?_⟩
    show 0 < strtoul line 16 - data.length
    omega
  | refused _ _ here => exact sound_of_state c (by simp [here]) (by simp [here])
  | headers | tooLong | chunkSize | overCap | chunkCrlf | lastChunk =>
    exact sound_of_state _ (by simp [RequestHead.context, RequestHead.inChunks])
      (by simp [RequestHead.context, RequestHead.inChunks])

def Leaves (cap : Nat) (read b : Bytes) : Round HttpContext → Prop
  | .stop _ => True
  | .fail c n => Reads cap (read ++ b.take n) c
  | .take c n => Reads cap (read ++ b.take n) c

theorem appendBody_nil (r : HttpRequest) : r.appendBody [] = r := by
  simp [HttpRequest.appendBody]

theorem appendBody_appendBody (r : HttpRequest) (x y : Bytes) :
    (r.appendBody x).appendBody y = r.appendBody (x ++ y) := by
  simp [HttpRequest.appendBody]

theorem round_start (b : Bytes) : Leaves cap [] b ((fresh cap).round b) := by
  rcases line_cases (c := fresh cap) _ rfl b with waits | ⟨line, rest, whole, rfl, played⟩
  · rw [waits]
    trivial
  · rw [played]
    unfold requestLine
    dsimp only
    split
    next accepted =>
      rw [Leaves, take_line, nil_append]
      have headers := @headers cap ⟨line, [], by simpa using whole, accepted, by simp, by simp⟩
      convert headers using 1
      · simp [RequestHead.bytes, endLines]
      · simp [RequestHead.context, RequestHead.bytes, RequestHead.request, endLines, storeLines, fresh, crlf]
    · exact .refused _ _ rfl rfl (parseRequestLine_body {} line)

theorem sized_nil (head : RequestHead) :
    head.sized cap [] = { head.context cap with
      contentLength := declaredLength head.request
      bodyReceived := 0
      state := if declaredLength head.request > 0 then .expectBody else .gotAll } := by
  simp only [RequestHead.sized, appendBody_nil, RequestHead.context, length_nil]
  by_cases zero : declaredLength head.request = 0
  · simp [zero]
  · rw [if_neg (Ne.symm zero), if_pos (Nat.pos_of_ne_zero zero)]

theorem endOfHeaders_large (c : HttpContext) (plain : chunked c.request = false)
    (large : c.maxBodyBytes > 0 ∧ declaredLength c.request > c.maxBodyBytes) :
    c.endOfHeaders = .fail { c with
      contentLength := declaredLength c.request
      bodyReceived := 0
      error := .tooLarge
      state := .error } 2 := by
  unfold endOfHeaders
  rw [if_neg (by simp [plain])]
  exact if_pos large

theorem endOfHeaders_sized (c : HttpContext) (plain : chunked c.request = false)
    (small : ¬(c.maxBodyBytes > 0 ∧ declaredLength c.request > c.maxBodyBytes)) :
    c.endOfHeaders = .take { c with
      contentLength := declaredLength c.request
      bodyReceived := 0
      state := if declaredLength c.request > 0 then .expectBody else .gotAll } 2 := by
  unfold endOfHeaders
  rw [if_neg (by simp [plain])]
  exact if_neg small

section Head

variable (head : RequestHead)

theorem round_endOfHeaders (rest : Bytes) :
    Leaves cap head.bytes ([] ++ crlf ++ rest) (head.context cap).endOfHeaders := by
  have two : ([] ++ crlf ++ rest).take 2 = crlf := take_line [] rest
  cases coding : chunked head.request with
  | true =>
    have chunks := @chunkSize cap head [] coding (.inr (Nat.zero_le _))
    rw [RequestHead.inChunks, chunkContent, flatMap_nil, appendBody_nil, chunkBytes,
      flatMap_nil, append_nil] at chunks
    rw [endOfHeaders_chunked _ coding, Leaves, two]
    exact chunks
  | false =>
    by_cases large : cap > 0 ∧ declaredLength head.request > cap
    · have refused := @tooLong cap head coding
      rw [sized_nil] at refused
      rw [endOfHeaders_large (head.context cap) coding large, Leaves, two]
      exact refused
    · have within : WithinCap cap (declaredLength head.request) := by
        by_contra beyond
        simp only [WithinCap, not_or] at beyond
        exact large ⟨Nat.pos_of_ne_zero beyond.1, Nat.lt_of_not_le beyond.2⟩
      have sized := @sized cap head [] coding (Nat.zero_le _) within
      rw [sized_nil, append_nil] at sized
      rw [endOfHeaders_sized (head.context cap) coding large, Leaves, two]
      exact sized

theorem round_headerLine (line rest : Bytes) (whole : Unbroken line) :
    Leaves cap head.bytes (line ++ crlf ++ rest) ((head.context cap).headerLine line) := by
  unfold headerLine
  dsimp only
  split
  · exact .refused _ _ rfl rfl head.request_body
  next found =>
    have colon : colonByte ∈ line := by
      by_contra absent
      exact found (idxOf_eq_length_iff.mpr absent)
    split
    · exact .refused _ _ rfl rfl head.request_body
    next fits =>
      have headers := @headers cap (head.push line whole colon (Nat.not_lt.mp fits))
      rw [RequestHead.bytes_push, RequestHead.context_push] at headers
      rw [Leaves, take_line]
      exact headers

theorem round_headers (b : Bytes) : Leaves cap head.bytes b ((head.context cap).round b) := by
  rcases line_cases (c := head.context cap) _ rfl b with waits | ⟨line, rest, whole, rfl, played⟩
  · rw [waits]
    trivial
  · rw [played]
    unfold headersLine
    split
    next blank =>
      subst blank
      exact round_endOfHeaders head rest
    · exact round_headerLine head line rest whole

theorem receive_sized (data more : Bytes) (short : data.length ≠ declaredLength head.request) :
    (head.sized cap data).receive more = head.sized cap (data ++ more) := by
  simp only [receive, RequestHead.sized, appendBody_appendBody, length_append, if_neg short]

theorem round_sized (data b : Bytes) (plain : chunked head.request = false)
    (fits : data.length ≤ declaredLength head.request)
    (within : WithinCap cap (declaredLength head.request)) :
    Leaves cap (head.bytes ++ crlf ++ data) b ((head.sized cap data).round b) := by
  by_cases full : data.length = declaredLength head.request
  · have here : (head.sized cap data).state = .gotAll := if_pos full
    simp only [HttpContext.round, here]
    trivial
  · have here : (head.sized cap data).state = .expectBody := if_neg full
    have missing : (head.sized cap data).bodyReceived < (head.sized cap data).contentLength :=
      Nat.lt_of_le_of_ne fits full
    simp only [HttpContext.round, here]
    by_cases empty : b = []
    · subst empty
      rw [bodyData_empty _ missing]
      trivial
    · have some := length_pos_iff.mpr empty
      rw [bodyData_take _ b _ rfl (by omega), Leaves, receive_sized head data _ full,
        append_assoc]
      refine .sized head _ plain ?_ within
      rw [length_append, length_take]
      show data.length + min (min b.length (declaredLength head.request - data.length)) b.length ≤ _
      omega

theorem round_chunkSize (chunks : List ReadChunk) (b : Bytes)
    (coding : chunked head.request = true) (within : WithinCap cap (chunkContent chunks).length) :
    Leaves cap (head.bytes ++ crlf ++ chunkBytes chunks) b
      ((head.inChunks cap (chunkContent chunks) 0 .expectChunkSize).round b) := by
  rcases line_cases (c := head.inChunks cap (chunkContent chunks) 0 .expectChunkSize) _ rfl b with
    waits | ⟨line, rest, whole, rfl, played⟩
  · rw [waits]
    trivial
  · rw [played]
    unfold chunkSizeLine
    dsimp only
    rw [Leaves, take_line]
    by_cases zero : strtoul line 16 = 0
    · rw [if_pos zero, zero]
      exact .lastChunk head chunks line coding whole zero within
    · rw [if_neg zero]
      have begun := @chunkData cap head chunks line [] coding whole
        (Nat.pos_of_ne_zero zero) (by rwa [append_nil])
      rw [append_nil, append_nil] at begun
      exact begun

theorem receiveChunk_inChunks (data more : Bytes) (remaining : Nat) :
    (head.inChunks cap data remaining .expectChunkData).receiveChunk more =
      head.inChunks cap (data ++ more) (remaining - more.length)
        (if remaining - more.length = 0 then .expectChunkCrlf else .expectChunkData) := by
  simp only [receiveChunk, RequestHead.inChunks, appendBody_appendBody, length_append]
  rfl

theorem chunkData_more (chunks : List ReadChunk) (line data : Bytes) {n : Nat}
    (coding : chunked head.request = true) (whole : Unbroken line)
    (missing : data.length < strtoul line 16)
    (size : 0 < n ∧ n ≤ b.length ∧ n ≤ strtoul line 16 - data.length)
    (within : WithinCap cap ((chunkContent chunks ++ data).length + n)) :
    Reads cap (head.bytes ++ crlf ++ chunkBytes chunks ++ (line ++ crlf ++ data) ++ b.take n)
      (head.inChunks cap (chunkContent chunks ++ data ++ b.take n)
        (strtoul line 16 - data.length - (b.take n).length)
        (if strtoul line 16 - data.length - (b.take n).length = 0 then .expectChunkCrlf
          else .expectChunkData)) := by
  have taken : (b.take n).length = n := length_take_of_le size.2.1
  have length : (data ++ b.take n).length = data.length + n := by rw [length_append, taken]
  have within' : WithinCap cap (chunkContent chunks ++ (data ++ b.take n)).length := by
    rw [← append_assoc, length_append, taken]
    exact within
  rw [append_assoc _ _ (b.take n), append_assoc _ data, append_assoc _ data, taken]
  split
  next full =>
    rw [full]
    have some : data ++ b.take n ≠ [] := by
      intro nil
      rw [nil, length_nil] at length
      omega
    exact .chunkCrlf head chunks line _ coding whole some (by omega) within'
  next more =>
    have begun := @chunkData cap head chunks line (data ++ b.take n) coding whole
      (by omega) within'
    rwa [length, ← Nat.sub_sub] at begun

end Head

section Chunk

variable (head : RequestHead) (chunks : List ReadChunk) (line data b : Bytes)
  (coding : chunked head.request = true) (whole : Unbroken line)
include coding whole

theorem round_chunkData (missing : data.length < strtoul line 16)
    (within : WithinCap cap (chunkContent chunks ++ data).length) :
    Leaves cap (head.bytes ++ crlf ++ chunkBytes chunks ++ (line ++ crlf ++ data)) b
      ((head.inChunks cap (chunkContent chunks ++ data) (strtoul line 16 - data.length)
        .expectChunkData).round b) := by
  show Leaves _ _ _ (HttpContext.chunkData _ b)
  have room : 0 < (head.inChunks cap (chunkContent chunks ++ data) (strtoul line 16 - data.length)
      .expectChunkData).chunkRemaining := Nat.sub_pos_of_lt missing
  by_cases empty : b = []
  · subst empty
    rw [chunkData_empty _ room]
    trivial
  · have size := length_pos_iff.mpr empty
    by_cases exceeds : (head.inChunks cap (chunkContent chunks ++ data)
        (strtoul line 16 - data.length) .expectChunkData).OverCap
          (min b.length (strtoul line 16 - data.length))
    · rw [chunkData_over _ b _ rfl (by omega) exceeds]
      have exceeded := @overCap cap head chunks line data coding within
      rw [Leaves, take_zero, append_nil]
      exact exceeded
    · rw [chunkData_take _ b (min b.length (strtoul line 16 - data.length)) rfl (by omega) exceeds,
        Leaves, receiveChunk_inChunks]
      refine chunkData_more head chunks line data coding whole missing (by omega) ?_
      by_contra beyond
      simp only [WithinCap, not_or, Nat.not_le] at beyond
      exact exceeds ⟨Nat.pos_of_ne_zero beyond.1, beyond.2⟩

theorem round_chunkCrlf (nonempty : data ≠ []) (size : strtoul line 16 = data.length)
    (within : WithinCap cap (chunkContent chunks ++ data).length) :
    Leaves cap (head.bytes ++ crlf ++ chunkBytes chunks ++ (line ++ crlf ++ data)) b
      ((head.inChunks cap (chunkContent chunks ++ data) 0 .expectChunkCrlf).round b) := by
  show Leaves _ _ _ (if 2 ≤ b.length then _ else _)
  split
  next enough =>
    have two : (b.take 2).length = 2 := length_take_of_le enough
    have next := @chunkSize cap head
      (chunks ++ [⟨line, data, b.take 2, whole, nonempty, size, two⟩]) coding (by
        rw [chunkContent, flatMap_append, flatMap_singleton]
        exact within)
    rw [chunkBytes, chunkContent, flatMap_append, flatMap_append, flatMap_singleton,
      flatMap_singleton] at next
    rw [Leaves]
    convert next using 1
    · simp only [ReadChunk.bytes, append_assoc, chunkBytes]
    · rfl
  · trivial

end Chunk

theorem round (reads : Reads cap read c) (b : Bytes) : Leaves cap read b (c.round b) := by
  cases reads with
  | start => exact round_start b
  | headers head => exact round_headers head b
  | sized head data plain fits within => exact round_sized head data b plain fits within
  | chunkSize head chunks coding within => exact round_chunkSize head chunks b coding within
  | chunkData head chunks line data coding whole missing within =>
    exact round_chunkData head chunks line data b coding whole missing within
  | chunkCrlf head chunks line data coding whole nonempty size within =>
    exact round_chunkCrlf head chunks line data b coding whole nonempty size within
  | refused _ _ here =>
    simp only [HttpContext.round, here]
    trivial
  | tooLong | overCap | lastChunk => trivial

/-- A complete request has a body of the declared length, or chunks with a last one. -/
theorem complete (reads : Reads cap read c) (here : c.state = .gotAll) :
    (∃ (head : RequestHead) (data : Bytes), chunked head.request = false ∧
      data.length = declaredLength head.request ∧ read = head.bytes ++ crlf ++ data ∧
        c = head.sized cap data) ∨
    ∃ (head : RequestHead) (chunks : List ReadChunk) (line : Bytes),
      chunked head.request = true ∧ Unbroken line ∧ strtoul line 16 = 0 ∧
      read = head.bytes ++ crlf ++ (chunkBytes chunks ++ (line ++ crlf)) ∧
        c = head.inChunks cap (chunkContent chunks) 0 .gotAll := by
  cases reads with
  | sized head data plain fits within =>
    left
    refine ⟨head, data, plain, ?_, rfl, rfl⟩
    by_contra unequal
    simp [RequestHead.sized, unequal] at here
  | lastChunk head chunks line coding whole zero within =>
    right
    exact ⟨head, chunks, line, coding, whole, zero, by rw [append_assoc], rfl⟩
  | refused _ _ refused =>
    rw [refused] at here
    cases here
  | start | headers | tooLong | chunkSize | chunkData | overCap | chunkCrlf => cases here

end Reads

/-- **What has been read**, after any number of calls and however the input was cut. -/
theorem reads_pieces (cap : Nat) (pieces : List Bytes) :
    ∃ read, pieces.flatten = read ++ (parsePieces (fresh cap, []) pieces).2 ∧
      Reads cap read (parsePieces (fresh cap, []) pieces).1 := by
  refine feed_reads (P := Reads cap) round_consumes ?_ ?_ ?_ [] (fresh cap, []) pieces .start
  · intro read c b c' reads played
    rw [round_lawful.stopSame c b c' reads.sound played]
    exact reads
  · intro read c b c' n reads played
    have leaves := reads.round b
    rwa [played] at leaves
  · intro read c b c' n reads played
    have leaves := reads.round b
    rwa [played] at leaves

theorem reads_parseRequest (cap : Nat) (s : Bytes) :
    ∃ read, s = read ++ (parseRequest (fresh cap) s).2 ∧
      Reads cap read (parseRequest (fresh cap) s).1 := by
  have reads := reads_pieces cap [s]
  rwa [flatten_singleton] at reads

end Cox.Http

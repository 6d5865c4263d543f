import Cox.Http.RequestRoundTrip

/-!
# Parsed requests that are serialised again

What the parser has accepted can be sent again: its parts can be told apart on the wire.
The parser keeps the framing headers that it has interpreted, though, and the serialiser
writes them back. A request that came in chunks still says so when it is serialised, but
its body is then written as it is, so the receiver takes body bytes for chunk sizes.

The other two ways to lose the meaning are marginal: an empty path becomes `/`, and the
serialised head may be longer than the one that was parsed and exceed the limit.
-/
namespace Cox.Http

open Cox.Lib Cox.Lib.Resumable List

/-! ### What the parser accepts can be sent -/

namespace HttpRequest

variable {r : HttpRequest} {host : Bytes}

theorem Sendable.withBody (sendable : Sendable r host) (body : Bytes) :
    Sendable { r with body } host :=
  ⟨sendable.method, sendable.path, sendable.query, sendable.names, sendable.values, sendable.host⟩

theorem Sendable.withHost (sendable : Sendable r host) {other : Bytes}
    (text : other.head? ≠ some sp ∧ Unbroken other) : Sendable r other :=
  ⟨sendable.method, sendable.path, sendable.query, sendable.names, sendable.values, text⟩

theorem fieldValue_trimmed (line : Bytes) : (fieldValue line).head? ≠ some sp := by
  intro blank
  have kept := List.head?_dropWhile_not (· == sp) (line.drop (line.idxOf colonByte + 1))
  rw [show (List.dropWhile _ _).head? = some sp from blank] at kept
  simp at kept

theorem Sendable.addHeader (sendable : Sendable r host) (line : Bytes) (whole : Unbroken line) :
    Sendable (r.addHeader (fieldName line) (fieldValue line)) host := by
  have name : colonByte ∉ Lib.toLower (fieldName line) := by
    intro member
    obtain ⟨c, inside, same⟩ := mem_map.mp member
    rw [tolower_eq_low c colonByte (by decide)] at same
    subst same
    exact notMem_take_idxOf line colonByte inside
  refine ⟨sendable.method, sendable.path, sendable.query, fun e member => ?_, fun e member => ?_,
    sendable.host⟩
  · rcases SortedMap.mem_insertEntry _ _ _ e member with rfl | old
    · exact ⟨name, toLower_toLower _, (whole.take _).toLower⟩
    · exact sendable.names e old
  · rcases SortedMap.mem_insertEntry _ _ _ e member with rfl | old
    · exact ⟨fieldValue_trimmed line, (whole.drop _).dropWhile _⟩
    · exact sendable.values e old

end HttpRequest

theorem parseRequestLine_sendable (line : Bytes) (whole : Unbroken line)
    (accepted : (parseRequestLine {} line).2 = true) :
    (parseRequestLine {} line).1.Sendable [] := by
  revert accepted
  unfold parseRequestLine
  dsimp only
  split
  · simp
  split
  · simp
  next valid =>
  split
  · simp
  split
  · simp
  intro _
  -- the target has no space in it, and the path no question mark
  have space := notMem_take_idxOf (line.drop (line.idxOf sp + 1)) sp
  have uri := (whole.drop (line.idxOf sp + 1)).take ((line.drop (line.idxOf sp + 1)).idxOf sp)
  generalize (line.drop (line.idxOf sp + 1)).take _ = target at space uri
  have path : sp ∉ target.take (target.idxOf questionMark) ∧
      questionMark ∉ target.take (target.idxOf questionMark) ∧
      Unbroken (target.take (target.idxOf questionMark)) :=
    ⟨fun h => space (mem_of_mem_take h), notMem_take_idxOf target questionMark, uri.take _⟩
  have query : sp ∉ target.drop (target.idxOf questionMark + 1) ∧
      Unbroken (target.drop (target.idxOf questionMark + 1)) :=
    ⟨fun h => space (mem_of_mem_drop h), uri.drop _⟩
  split
  · exact ⟨valid, path, query, fun e h => (nomatch h), fun e h => (nomatch h), by decide⟩
  · exact ⟨valid, path, ⟨not_mem_nil, .nil⟩, fun e h => (nomatch h), fun e h => (nomatch h), by decide⟩

theorem strtoul_le (s : Bytes) (base : Nat) : strtoul s base ≤ ulongMax := by
  unfold strtoul
  dsimp only
  split_ifs with large negative
  · exact Nat.le_refl _
  · exact Nat.le_of_lt_succ (Nat.mod_lt _ (Nat.succ_pos ulongMax))
  · exact Nat.not_lt.mp large

namespace HttpContext

/-- What has been parsed can be sent again; the body is within the limits unless it came in
chunks. -/
structure Legible (maxBodyBytes : Nat) (c : HttpContext) : Prop where
  start : c.state = .expectRequestLine → c.request = {}
  cap : c.state ≠ .error → c.maxBodyBytes = maxBodyBytes
  parts : c.state ≠ .expectRequestLine → c.state ≠ .error → c.request.Sendable []
  head : c.state = .expectHeaders → c.request.body = []
  body : c.state = .expectBody → c.request.body.length = c.bodyReceived ∧
    c.contentLength ≤ ulongMax ∧ WithinCap maxBodyBytes c.contentLength
  coding : c.state = .expectChunkSize ∨ c.state = .expectChunkData ∨ c.state = .expectChunkCrlf →
    chunked c.request = true
  done : c.state = .gotAll → chunked c.request = true ∨
    (c.request.body.length ≤ ulongMax ∧ WithinCap maxBodyBytes c.request.body.length)

section Legible

variable {maxBodyBytes : Nat} {c : HttpContext}

theorem legible_fresh (maxBodyBytes : Nat) : Legible maxBodyBytes (fresh maxBodyBytes) := by
  constructor <;> intro here
  · rfl
  · rfl
  · exact absurd rfl here
  all_goals simp [fresh] at here

theorem legible_error (here : c.state = .error) : Legible maxBodyBytes c := by
  constructor <;> intro state
  · simp [here] at state
  · exact absurd here state
  · intro other
    exact absurd here other
  all_goals simp [here] at state

section Parts

variable (cap : c.maxBodyBytes = maxBodyBytes) (parts : c.request.Sendable [])
include cap parts

theorem legible_chunks (coding : chunked c.request = true)
    (here : c.state ∈ [.expectChunkSize, .expectChunkData, .expectChunkCrlf, .gotAll]) :
    Legible maxBodyBytes c := by
  constructor <;> intro state
  · simp [state] at here
  · exact cap
  · exact fun _ => parts
  · simp [state] at here
  · simp [state] at here
  · exact coding
  · exact .inl coding

theorem legible_body (here : c.state = .expectBody ∨ c.state = .gotAll)
    (counted : c.request.body.length = c.bodyReceived) (missing : c.bodyReceived ≤ c.contentLength)
    (fits : c.contentLength ≤ ulongMax) (within : WithinCap maxBodyBytes c.contentLength) :
    Legible maxBodyBytes c := by
  constructor <;> intro state
  · simp [state] at here
  · exact cap
  · exact fun _ => parts
  · simp [state] at here
  · exact ⟨counted, fits, within⟩
  · rcases here with here | here <;> simp [here] at state
  · refine .inr ⟨by omega, within.imp id fun most => ?_⟩
    omega

theorem legible_headers (here : c.state = .expectHeaders) (empty : c.request.body = []) :
    Legible maxBodyBytes c := by
  constructor <;> intro state
  · simp [here] at state
  · exact cap
  · exact fun _ => parts
  · exact empty
  all_goals simp [here] at state

end Parts

theorem legible_endOfHeaders (legible : Legible maxBodyBytes c) (here : c.state = .expectHeaders)
    (c' : HttpContext) (n : Nat) (taken : c.endOfHeaders = .take c' n) : Legible maxBodyBytes c' := by
  have cap := legible.cap (by simp [here])
  have parts := legible.parts (by simp [here]) (by simp [here])
  have empty := legible.head here
  unfold endOfHeaders at taken
  dsimp only at taken
  split at taken
  -- with the chunked coding the length is not looked at
  next coding =>
    cases taken
    exact legible_chunks cap parts coding (by simp)
  next =>
    split at taken
    · cases taken
    next allowed =>
      cases taken
      have fits : declaredLength c.request ≤ ulongMax := by
        unfold declaredLength
        dsimp only
        split
        · exact Nat.zero_le _
        · exact strtoul_le ..
      refine legible_body cap parts ?_ (by rw [empty]; rfl) (Nat.zero_le _) fits ?_
      · dsimp only
        split
        · exact .inl rfl
        · exact .inr rfl
      · show WithinCap maxBodyBytes (declaredLength c.request)
        unfold WithinCap
        omega

theorem legible_line (legible : Legible maxBodyBytes c) (handle : Bytes → Round HttpContext)
    (waits : c.lineHandler = some handle) (line : Bytes) (whole : Unbroken line) (c' : HttpContext)
    (n : Nat) (taken : handle line = .take c' n) : Legible maxBodyBytes c' := by
  unfold lineHandler at waits
  split at waits
  -- the request line: nothing has been stored before it
  next here =>
    cases waits
    unfold requestLine at taken
    rw [legible.start here] at taken
    dsimp only at taken
    split at taken <;> cases taken
    next accepted =>
      exact legible_headers (legible.cap (by simp [here]))
        (parseRequestLine_sendable line whole accepted) rfl (parseRequestLine_body {} line)
  -- a header line, or the blank line that settles the framing
  next here =>
    cases waits
    unfold headersLine at taken
    split at taken
    · exact legible_endOfHeaders legible here c' n taken
    · unfold headerLine at taken
      dsimp only at taken
      split at taken
      · cases taken
      split at taken <;> cases taken
      exact legible_headers (legible.cap (by simp [here]))
        ((legible.parts (by simp [here]) (by simp [here])).addHeader line whole) here
        (legible.head here)
  -- a size line
  next here =>
    cases waits
    cases taken
    refine legible_chunks (legible.cap (by simp [here]))
      (legible.parts (by simp [here]) (by simp [here])) (legible.coding (.inl here)) ?_
    dsimp only
    split <;> simp
  next => cases waits

theorem round_legible (buf : Bytes) (c' : HttpContext) (n : Nat) (sound : Sound c)
    (legible : Legible maxBodyBytes c) (played : c.round buf = .take c' n) :
    Legible maxBodyBytes c' := by
  have plays := round_plays c buf sound
  rw [played] at plays
  cases plays with
  | line handle i _ waits found same =>
    exact legible_line legible handle waits _ (unbroken_of_findCrlf buf i found) c' n same
  | body n here missing _ size =>
    have parts := (legible.parts (by simp [here]) (by simp [here])).withBody
      (c.request.body ++ buf.take n)
    obtain ⟨counted, fits, within⟩ := legible.body here
    have length : (buf.take n).length = n := by rw [length_take]; omega
    refine legible_body (legible.cap (by simp [here])) parts ?_ ?_ ?_ fits within
    · simp only [receive, here]
      split
      · exact .inr rfl
      · exact .inl rfl
    · simp only [receive, HttpRequest.appendBody, length_append, counted]
    · simp only [receive, length]
      omega
  | chunk n here =>
    have parts := (legible.parts (by simp [here]) (by simp [here])).withBody
      (c.request.body ++ buf.take n)
    refine legible_chunks (legible.cap (by simp [here])) parts
      (legible.coding (.inr (.inl here))) ?_
    simp only [receiveChunk, here]
    split <;> simp
  | crlf here =>
    exact legible_chunks (legible.cap (by simp [here]))
      (legible.parts (by simp [here]) (by simp [here])) (legible.coding (.inr (.inr here)))
      (by simp)

end Legible

theorem parse_legible (maxBodyBytes : Nat) (buf : Bytes) :
    Legible maxBodyBytes (parseRequest (fresh maxBodyBytes) buf).1 := by
  refine (parse_preserves (P := fun c => Sound c ∧ Legible maxBodyBytes c) round_consumes ?_ ?_ ?_ _
    buf ⟨sound_fresh maxBodyBytes, legible_fresh maxBodyBytes⟩).2
  · rintro c b c' ⟨sound, legible⟩ played
    rw [round_lawful.stopSame c b c' sound played]
    exact ⟨sound, legible⟩
  · rintro c b c' n ⟨sound, _⟩ played
    obtain ⟨kept, here⟩ := round_lawful.goodFail c b c' n sound played
    exact ⟨kept, legible_error here⟩
  · rintro c b c' n ⟨sound, legible⟩ played
    exact ⟨round_sound c b c' n sound played, round_legible b c' n sound legible played⟩

/-! ### What the second parse makes of it -/

theorem parse_headerLines_exceeds (c : HttpContext) (lines : List Bytes) (rest : Bytes)
    (here : c.state = .expectHeaders) (whole : ∀ line ∈ lines, Unbroken line ∧ line ≠ [])
    (nonempty : lines ≠ [])
    (large : kMaxHeaderBytes < c.headerBytes + (endLines lines).length) :
    (parseRequest c (endLines lines ++ rest)).1.state = .error := by
  obtain ⟨left, bad⟩ := refused_exceeds _ _ lines nonempty large
  exact (parse_refused c lines rest left here whole bad).1

def InChunks (c : HttpContext) : Prop :=
  c.state = .expectChunkSize ∨ c.state = .expectChunkData ∨ c.state = .expectChunkCrlf

/-- A round among the chunks ends the body with the last size line, or it stays among them and
takes no more into the body than it retrieves. -/
theorem round_chunks_shrinks (c : HttpContext) (buf : Bytes) (c' : HttpContext) (n : Nat)
    (sound : Sound c) (inside : c.InChunks) (played : c.round buf = .take c' n) :
    (c'.state = .gotAll ∧
      c'.request.body.length + (buf.drop n).length + 2 ≤ c.request.body.length + buf.length) ∨
    (c'.InChunks ∧
      c'.request.body.length + (buf.drop n).length ≤ c.request.body.length + buf.length) := by
  have bound := round_consumes c buf c' n played
  have plays := round_plays c buf sound
  rw [played] at plays
  cases plays with
  | line handle i _ waits found same =>
    have size : handle = c.chunkSizeLine := by
      unfold lineHandler at waits
      rcases inside with here | here | here <;> simp [here] at waits
      exact waits.symm
    rw [size] at same
    cases same
    rw [length_take] at bound
    -- a size line is not part of the body; the last one has at least its CRLF
    by_cases last : strtoul (buf.take i) 16 = 0
    · left
      have found := findCrlf_bound buf i found
      simp only [last, if_true, length_drop, length_take, true_and]
      omega
    · right
      refine ⟨.inr (.inl (if_neg last)), ?_⟩
      simp only [length_drop]
      omega
  | body n here => rcases inside with state | state | state <;> simp [here] at state
  | chunk n here some size =>
    right
    have length : (buf.take n).length = n := by rw [length_take]; omega
    refine ⟨?_, ?_⟩
    · simp only [InChunks, receiveChunk, here]
      split <;> simp
    · simp only [receiveChunk, HttpRequest.appendBody, length_append, length,
        length_drop]
      omega
  | crlf here enough =>
    right
    refine ⟨.inl rfl, ?_⟩
    simp only [length_drop]
    omega

theorem parse_chunks_shrinks (c : HttpContext) (buf : Bytes) (sound : Sound c) (inside : c.InChunks)
    (complete : (parseRequest c buf).1.state = .gotAll) :
    (parseRequest c buf).1.request.body.length + (parseRequest c buf).2.length + 2 ≤
      c.request.body.length + buf.length := by
  unfold parseRequest at complete ⊢
  revert sound inside complete
  induction c, buf using parse_induction round_consumes with
  | stop c buf c' played =>
    intro sound inside complete
    rw [parse_stop c c' buf played, round_lawful.stopSame c buf c' sound played] at complete
    rcases inside with here | here | here <;> simp [here] at complete
  | fail c buf c' n played =>
    intro sound _ complete
    have here := (round_lawful.goodFail c buf c' n sound played).2
    rw [parse_fail c c' buf n played] at complete
    simp [here] at complete
  | take c buf c' n played ih =>
    intro sound inside
    rw [parse_take round_consumes c c' buf n played]
    intro complete
    rcases round_chunks_shrinks c buf c' n sound inside played with
      ⟨done, shorter⟩ | ⟨inside', shorter⟩
    -- the last size line ends the parse
    · rw [parse_stop c' c' _ (by simp only [round, done])]
      exact shorter
    · have rest := ih (round_sound c buf c' n sound played) inside' complete
      omega

/-- The request means the same after it was serialised and parsed again. -/
def Preserved (maxBodyBytes : Nat) (r : HttpRequest) (host : Bytes) : Prop :=
  let again := parseRequest (fresh maxBodyBytes) (r.appendTo host)
  again.1.state = .gotAll ∧ again.1.request.method = r.method ∧ again.1.request.path = r.path ∧
    again.1.request.query = r.query ∧ again.1.request.body = r.body ∧ again.2 = []

instance (maxBodyBytes : Nat) (r : HttpRequest) (host : Bytes) :
    Decidable (Preserved maxBodyBytes r host) := inferInstanceAs (Decidable (_ ∧ _))

section Preserved

variable {r : HttpRequest} {host : Bytes}

variable (maxBodyBytes : Nat) (sendable : r.Sendable host)
include sendable

theorem not_preserved_of_large (large : kMaxHeaderBytes < (r.head host).length) :
    ¬Preserved maxBodyBytes r host := by
  have taken := requestLine_startLine maxBodyBytes sendable
  have wire : r.appendTo host =
      r.startLine ++ crlf ++ (endLines (r.sentLines host) ++ (crlf ++ r.body)) := by
    simp only [HttpRequest.appendTo_eq, HttpRequest.head, append_assoc]
  rintro ⟨complete, _⟩
  rw [wire, parse_line _ _ _ _ _ rfl sendable.startLine taken, parse_headerLines_exceeds _ _ _ rfl
    (fun l h => ⟨(sendable.lines l h).1, ne_nil_of_mem (sendable.lines l h).2⟩)] at complete
  · cases complete
  · simp [HttpRequest.sentLines]
  · simp only [HttpRequest.head, length_append] at large
    exact large

theorem not_preserved_of_chunked (small : (r.head host).length ≤ kMaxHeaderBytes)
    (coding : chunked r = true) : ¬Preserved maxBodyBytes r host := by
  have taken : (afterHead maxBodyBytes r host).headersLine [] =
      .take { afterHead maxBodyBytes r host with state := .expectChunkSize } 2 := by
    have said : chunked (afterHead maxBodyBytes r host).request = true :=
      (chunked_received r host []).trans coding
    simp only [headersLine, endOfHeaders, if_true, said]
  have blank := parse_line (afterHead maxBodyBytes r host) _ _ [] r.body rfl .nil taken
  rw [nil_append] at blank
  have parsed := (parse_sentHead maxBodyBytes r.body sendable small).trans blank
  rw [← HttpRequest.appendTo_eq] at parsed
  rintro ⟨complete, _, _, _, body, _⟩
  rw [parsed] at complete body
  have shorter := parse_chunks_shrinks _ _ (sound_of_state _ (by simp) (by simp)) (.inl rfl) complete
  rw [body] at shorter
  have empty : (afterHead maxBodyBytes r host).request.body.length = 0 := rfl
  dsimp only at shorter
  omega

theorem preserved_of_sendable
    (limits : chunked r = false → r.body.length ≤ ulongMax ∧ WithinCap maxBodyBytes r.body.length) :
    Preserved maxBodyBytes r host ↔
      chunked r = false ∧ r.path ≠ [] ∧ (r.head host).length ≤ kMaxHeaderBytes := by
  -- within the limits, the second parse gives what was sent
  have again (unchunked : chunked r = false) (small : (r.head host).length ≤ kMaxHeaderBytes) :=
    parse_sent maxBodyBytes [] sendable unchunked small (limits unchunked).2 (limits unchunked).1
  simp only [append_nil] at again
  constructor
  · intro preserved
    have small : (r.head host).length ≤ kMaxHeaderBytes :=
      Nat.not_lt.mp fun large => not_preserved_of_large maxBodyBytes sendable large preserved
    have unchunked : chunked r = false := by
      cases coding : chunked r with
      | false => rfl
      | true => exact absurd preserved (not_preserved_of_chunked maxBodyBytes sendable small coding)
    obtain ⟨_, request, _⟩ := again unchunked small
    refine ⟨unchunked, fun empty => ?_, small⟩
    -- an empty path is written as a slash
    obtain ⟨_, _, path, _⟩ := preserved
    rw [request, empty] at path
    simp [HttpRequest.received, HttpRequest.sentPath, empty, text] at path
  · rintro ⟨unchunked, path, small⟩
    obtain ⟨complete, request, left⟩ := again unchunked small
    refine ⟨complete, ?_, ?_, ?_, ?_, left⟩
    · rw [request]; rfl
    · rw [request]
      simp [HttpRequest.received, HttpRequest.sentPath, path]
    · rw [request]; rfl
    · rw [request]; rfl

end Preserved

/-- **Serialising again**: what was parsed keeps its meaning exactly when it did not come in
chunks, its path is not empty and the new head is within the limit. -/
theorem preserved_iff (maxBodyBytes : Nat) (buf host : Bytes) (hostText : FieldText host)
    (accepted : (parseRequest (fresh maxBodyBytes) buf).1.state = .gotAll) :
    let r := (parseRequest (fresh maxBodyBytes) buf).1.request
    Preserved maxBodyBytes r host ↔
      chunked r = false ∧ r.path ≠ [] ∧ (r.head host).length ≤ kMaxHeaderBytes := by
  have legible := parse_legible maxBodyBytes buf
  apply preserved_of_sendable
  · exact (legible.parts (by simp [accepted]) (by simp [accepted])).withHost
      ⟨hostText.2, .of_no_cr _ hostText.1.1⟩
  · intro unchunked
    refine (legible.done accepted).resolve_left fun coding => ?_
    rw [unchunked] at coding
    cases coding

theorem preserved_get :
    Preserved 0 (parseRequest (fresh 0) (text "GET /a?b HTTP/1.0\r\nTE: x\r\n\r\n")).1.request
      (text "origin") :=
  (preserved_iff 0 (text "GET /a?b HTTP/1.0\r\nTE: x\r\n\r\n") (text "origin") (by decide)
    (by decide +kernel)).mpr (by decide +kernel)

/-- A chunked request is turned into something else: the receiver reads a chunk size from
its body and waits for more. -/
theorem chunkedRequest_notPreserved :
    let parsed := parseRequest (fresh 0)
      (text "POST /c HTTP/1.1\r\nTransfer-Encoding: chunked\r\n\r\n5\r\nhello\r\n0\r\n\r\n")
    parsed.1.state = .gotAll ∧ parsed.1.request.body = text "hello" ∧
      ¬Preserved 0 parsed.1.request (text "origin") ∧
      (parseRequest (fresh 0) (parsed.1.request.appendTo (text "origin"))).1.state =
        .expectChunkSize := by
  decide +kernel

end HttpContext

end Cox.Http

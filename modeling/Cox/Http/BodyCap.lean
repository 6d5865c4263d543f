import Cox.Http.HeaderLimit

/-!
# The cap on the body

A server can set a cap on the body of a request. A declared length is compared with it at the
end of the header section, and the data of chunks as they arrive. Seen beside a parser without
a cap on the same bytes, the parser refuses a request as too large exactly when the other one
has read a larger declared length, or has received more chunk data; up to then they do the
same.
-/
namespace Cox.Http

open Cox.Lib Cox.Lib.Resumable HttpContext List

def DeclaresMore (cap : Nat) (c : HttpContext) : Prop :=
  (c.state = .expectBody ∨ c.state = .gotAll) ∧ chunked c.request = false ∧
    cap < declaredLength c.request

def ReceivedMore (cap : Nat) (c : HttpContext) : Prop :=
  chunked c.request = true ∧ cap < c.request.body.length

def uncapped (c : HttpContext) : HttpContext := { c with maxBodyBytes := 0 }

def uncappedRound : Round HttpContext → Round HttpContext
  | .stop c => .stop (uncapped c)
  | .fail c n => .fail (uncapped c) n
  | .take c n => .take (uncapped c) n

/-- The body, of declared length or in chunks, is being received or is complete. -/
def InBody (c : HttpContext) : Prop :=
  ¬InHead c ∧ c.state ≠ .error

section Rounds

variable {c c' : HttpContext} {b : Bytes} {n : Nat}

/-- A parser without a cap goes through the body without an error: it leaves the headers and
the framing as they are, and the body grows. -/
structure Grows (c c' : HttpContext) : Prop where
  inBody : InBody c'
  sound : Sound c'
  unlimited : c'.maxBodyBytes = 0
  headers : c'.request.headers = c.request.headers
  framing : chunked c.request = false → c.state = .expectBody ∨ c.state = .gotAll →
    c'.state = .expectBody ∨ c'.state = .gotAll
  body : c.request.body.length ≤ c'.request.body.length

theorem not_overCap (unlimited : c.maxBodyBytes = 0) (n : Nat) : ¬c.OverCap n := by
  intro exceeds
  have positive := exceeds.1
  omega

theorem round_grows (sound : Sound c) (inBody : InBody c) (unlimited : c.maxBodyBytes = 0)
    (played : c.round b = .take c' n) : Grows c c' := by
  have sound' := round_sound c b c' n sound played
  have behind := (round_behind c b c' n ⟨sound, inBody.1⟩ played).2
  have accepts := round_take_accepts c b c' n sound played
  have plays := round_plays c b sound
  rw [played] at plays
  cases plays with
  | line handle i _ waits _ same =>
    obtain ⟨here, rfl⟩ := lineHandler_behind c inBody.1 handle waits
    cases same
    refine ⟨⟨behind, accepts⟩, sound', unlimited, rfl, fun _ framed => ?_, le_refl _⟩
    simp [here] at framed
  | body n here =>
    refine ⟨⟨behind, accepts⟩, sound', unlimited, rfl, fun _ _ => ?_, ?_⟩
    · simp only [receive, here]
      split
      · exact .inr rfl
      · exact .inl rfl
    · show _ ≤ (c.request.body ++ _).length
      rw [length_append]
      omega
  | chunk n here =>
    refine ⟨⟨behind, accepts⟩, sound', unlimited, rfl, fun _ framed => ?_, ?_⟩
    · simp [here] at framed
    · show _ ≤ (c.request.body ++ _).length
      rw [length_append]
      omega
  | crlf here =>
    refine ⟨⟨behind, accepts⟩, sound', unlimited, rfl, fun _ framed => ?_, le_refl _⟩
    simp [here] at framed

theorem round_not_fail (sound : Sound c) (inBody : InBody c) (unlimited : c.maxBodyBytes = 0) :
    c.round b ≠ .fail c' n := by
  intro played
  have plays := round_plays c b sound
  rw [played] at plays
  cases plays with
  | line handle i _ waits _ same =>
    obtain ⟨_, rfl⟩ := lineHandler_behind c inBody.1 handle waits
    cases same
  | exceeds n here some size exceeds => exact not_overCap unlimited n exceeds

theorem chunked_headers {r r' : HttpRequest} (same : r'.headers = r.headers) :
    chunked r' = chunked r ∧ declaredLength r' = declaredLength r := by
  unfold chunked declaredLength HttpRequest.header
  rw [same]
  exact ⟨rfl, rfl⟩

theorem parse_exceeds (cap : Nat) (c : HttpContext) (b : Bytes) (sound : Sound c)
    (inBody : InBody c) (unlimited : c.maxBodyBytes = 0)
    (more : DeclaresMore cap c ∨ ReceivedMore cap c) :
    DeclaresMore cap (parseRequest c b).1 ∨ ReceivedMore cap (parseRequest c b).1 := by
  refine (parse_preserves (P := fun c => (Sound c ∧ InBody c ∧ c.maxBodyBytes = 0) ∧
    (DeclaresMore cap c ∨ ReceivedMore cap c)) round_consumes ?_ ?_ ?_ c b
      ⟨⟨sound, inBody, unlimited⟩, more⟩).2
  · rintro c b c' ⟨⟨sound, inBody, unlimited⟩, more⟩ played
    rw [round_lawful.stopSame c b c' sound played]
    exact ⟨⟨sound, inBody, unlimited⟩, more⟩
  · rintro c b c' n ⟨⟨sound, inBody, unlimited⟩, more⟩ played
    exact absurd played (round_not_fail sound inBody unlimited)
  · rintro c b c' n ⟨⟨sound, inBody, unlimited⟩, more⟩ played
    have grows := round_grows sound inBody unlimited played
    obtain ⟨coding, length⟩ := chunked_headers grows.headers
    refine ⟨⟨grows.sound, grows.inBody, grows.unlimited⟩, ?_⟩
    rcases more with ⟨framed, plain, large⟩ | ⟨chunks, large⟩
    · exact .inl ⟨grows.framing plain framed, coding.trans plain, length ▸ large⟩
    · exact .inr ⟨coding.trans chunks, Nat.lt_of_lt_of_le large grows.body⟩

end Rounds

/-! ### Beside the parser without a cap -/

section Beside

variable {cap : Nat} {read b : Bytes} {c : HttpContext}

theorem Reads.error_none (reads : Reads cap read c) (accepted : c.state ≠ .error) :
    c.error = .none := by
  cases reads with
  | tooLong | overCap => exact absurd rfl accepted
  | refused _ _ _ reason => exact reason
  | _ => rfl

theorem onLine_uncapped (handle handle' : Bytes → Round HttpContext)
    (same : ∀ line, handle' line = uncappedRound (handle line)) :
    (uncapped c).onLine b handle' = uncappedRound (c.onLine b handle) := by
  unfold onLine
  split
  · exact same _
  · rfl

theorem requestLine_uncapped (line : Bytes) :
    (uncapped c).requestLine line = uncappedRound (c.requestLine line) := by
  simp only [requestLine, apply_ite uncappedRound]
  rfl

theorem headerLine_uncapped (line : Bytes) :
    (uncapped c).headerLine line = uncappedRound (c.headerLine line) := by
  simp only [headerLine, apply_ite uncappedRound]
  rfl

/-- The round does the same without the cap, or refuses what is too much for it. -/
inductive Beside (cap : Nat) (b : Bytes) (c : HttpContext) : Prop where
  | same (round : (uncapped c).round b = uncappedRound (c.round b))
  | more (c' d : HttpContext) (n m : Nat) (refused : c.round b = .fail c' n)
      (reason : c'.error = .tooLarge) (goesOn : (uncapped c).round b = .take d m) (sound : Sound d)
      (inBody : InBody d) (unlimited : d.maxBodyBytes = 0)
      (exceeds : DeclaresMore cap d ∨ ReceivedMore cap d)

theorem beside_endOfHeaders (head : RequestHead) (rest : Bytes) :
    Beside cap ([] ++ crlf ++ rest) (head.context cap) := by
  have capped : (head.context cap).round ([] ++ crlf ++ rest) = (head.context cap).endOfHeaders :=
    round_handles (head.context cap) _ [] rest rfl .nil
  have free : (uncapped (head.context cap)).round ([] ++ crlf ++ rest) =
      (uncapped (head.context cap)).endOfHeaders :=
    round_handles (uncapped (head.context cap)) _ [] rest rfl .nil
  cases coding : chunked head.request with
  | true =>
    rw [endOfHeaders_chunked (head.context cap) coding] at capped
    rw [endOfHeaders_chunked (uncapped (head.context cap)) coding] at free
    refine .same ?_
    rw [capped, free]
    rfl
  | false =>
    rw [Reads.endOfHeaders_sized (uncapped (head.context cap)) coding (by simp [uncapped])] at free
    by_cases large : cap > 0 ∧ declaredLength head.request > cap
    · rw [Reads.endOfHeaders_large (head.context cap) coding large] at capped
      have positive : declaredLength (uncapped (head.context cap)).request > 0 :=
        Nat.lt_trans large.1 large.2
      rw [if_pos positive] at free
      refine .more _ _ 2 2 capped rfl free ?_ ?_ rfl (.inl ⟨.inl rfl, coding, large.2⟩)
      · refine ⟨fun _ => positive, fun here => ?_⟩
        cases here
      · simp [InBody, InHead]
    · rw [Reads.endOfHeaders_sized (head.context cap) coding large] at capped
      refine .same ?_
      rw [capped, free]
      rfl

theorem beside_headers (head : RequestHead) (b : Bytes) : Beside cap b (head.context cap) := by
  have capped : (head.context cap).round b =
      (head.context cap).onLine b (head.context cap).headersLine :=
    round_line (head.context cap) _ rfl b
  have free : (uncapped (head.context cap)).round b =
      (uncapped (head.context cap)).onLine b (uncapped (head.context cap)).headersLine :=
    round_line (uncapped (head.context cap)) _ rfl b
  cases found : findCrlf b with
  | none =>
    refine .same ?_
    rw [capped, free, onLine_none _ _ _ found, onLine_none _ _ _ found]
    rfl
  | some i =>
    by_cases blank : b.take i = []
    · have split := findCrlf_split b i found
      rw [blank] at split
      rw [split]
      exact beside_endOfHeaders head _
    · refine .same ?_
      rw [capped, free, onLine_found _ _ _ _ found, onLine_found _ _ _ _ found]
      unfold headersLine
      rw [if_neg blank, if_neg blank]
      exact headerLine_uncapped _

theorem bodyData_uncapped (b : Bytes) (missing : c.bodyReceived < c.contentLength) :
    (uncapped c).bodyData b = uncappedRound (c.bodyData b) := by
  by_cases empty : b = []
  · subst empty
    rw [bodyData_empty c missing, bodyData_empty (uncapped c) missing]
    rfl
  · have size := length_pos_iff.mpr empty
    have some : 0 < min b.length (c.contentLength - c.bodyReceived) := by omega
    rw [bodyData_take c b _ rfl some, bodyData_take (uncapped c) b _ rfl some]
    rfl

theorem beside_chunkData (b : Bytes) (here : c.state = .expectChunkData)
    (missing : 0 < c.chunkRemaining) (coding : chunked c.request = true)
    (counted : c.request.body.length = c.bodyReceived) (limit : c.maxBodyBytes = cap) :
    Beside cap b c := by
  have round : c.round b = c.chunkData b := by simp only [HttpContext.round, here]
  have round' : (uncapped c).round b = (uncapped c).chunkData b := by
    simp only [HttpContext.round, uncapped, here]
  by_cases empty : b = []
  · subst empty
    refine .same ?_
    rw [round, round', chunkData_empty c missing, chunkData_empty (uncapped c) missing]
    rfl
  · have size := length_pos_iff.mpr empty
    have some : 0 < min b.length c.chunkRemaining := by omega
    rw [chunkData_take (uncapped c) b (min b.length c.chunkRemaining) rfl some
      (not_overCap rfl _)] at round'
    by_cases exceeds : c.OverCap (min b.length c.chunkRemaining)
    · rw [chunkData_over c b _ rfl some exceeds] at round
      have sound : Sound (uncapped c) := by
        refine ⟨fun body => ?_, fun _ => missing⟩
        rw [show (uncapped c).state = .expectChunkData from here] at body
        cases body
      have inBody : InBody (uncapped c) := by simp [InBody, InHead, uncapped, here]
      have grows := round_grows sound inBody rfl round'
      refine .more _ _ 0 _ round rfl round' grows.sound grows.inBody rfl (.inr ⟨coding, ?_⟩)
      have beyond := exceeds.2
      show cap < (c.request.body ++ b.take (min b.length c.chunkRemaining)).length
      rw [length_append, length_take]
      omega
    · refine .same ?_
      rw [round, round', chunkData_take c b _ rfl some exceeds]
      rfl

theorem Reads.beside (reads : Reads cap read c) (quiet : c.error = .none) (b : Bytes) :
    Beside cap b c := by
  cases reads with
  | start => exact .same (onLine_uncapped _ _ fun line => requestLine_uncapped line)
  | headers head => exact beside_headers head b
  | sized head data plain fits within =>
    refine .same ?_
    by_cases full : data.length = declaredLength head.request
    · have here : (head.sized cap data).state = .gotAll := if_pos full
      have here' : (uncapped (head.sized cap data)).state = .gotAll := if_pos full
      simp only [HttpContext.round, here, here']
      rfl
    · have here : (head.sized cap data).state = .expectBody := if_neg full
      have here' : (uncapped (head.sized cap data)).state = .expectBody := if_neg full
      simp only [HttpContext.round, here, here']
      exact bodyData_uncapped b (show data.length < declaredLength head.request by omega)
  | chunkSize head chunks coding within => exact .same (onLine_uncapped _ _ fun line => rfl)
  | chunkData head chunks line data coding whole missing within =>
    refine beside_chunkData b rfl (Nat.sub_pos_of_lt missing) coding ?_ rfl
    show (head.request.body ++ (chunkContent chunks ++ data)).length = _
    rw [head.request_body]
    rfl
  | chunkCrlf head chunks line data coding whole nonempty size within =>
    refine .same ?_
    show (if 2 ≤ b.length then _ else _) = uncappedRound (if 2 ≤ b.length then _ else _)
    rw [apply_ite uncappedRound]
    rfl
  | refused _ _ here =>
    refine .same ?_
    have here' : (uncapped c).state = .error := here
    simp only [HttpContext.round, here, here']
    rfl
  | lastChunk => exact .same rfl
  | tooLong | overCap => cases quiet

theorem fail_uncapped (c c' : HttpContext) (b : Bytes) (n : Nat) (sound : Sound c)
    (quiet : c.error = .none) (unlimited : c.maxBodyBytes = 0) (played : c.round b = .fail c' n) :
    c'.error = .none := by
  have plays := round_plays c b sound
  rw [played] at plays
  cases plays with
  | exceeds n here some size exceeds => exact absurd exceeds (not_overCap unlimited n)
  | line handle i _ waits _ same =>
    unfold lineHandler at waits
    split at waits <;> cases waits
    · unfold requestLine at same
      dsimp only at same
      split at same <;> cases same
      exact quiet
    · unfold headersLine endOfHeaders headerLine at same
      dsimp only at same
      split_ifs at same with blank coding large <;> cases same
      · omega
      · exact quiet
      · exact quiet
    · cases same

/-- **One call beside the parser without a cap.** They do the same, or the parser refuses the
request as too large, and it is. -/
theorem parse_uncapped (c : HttpContext) (b : Bytes) (read : Bytes) (reads : Reads cap read c)
    (quiet : c.error = .none) :
    ((parseRequest c b).1.error = .none ∧ parseRequest (uncapped c) b =
      (uncapped (parseRequest c b).1, (parseRequest c b).2)) ∨
    ((parseRequest c b).1.error = .tooLarge ∧ (DeclaresMore cap (parseRequest (uncapped c) b).1 ∨
      ReceivedMore cap (parseRequest (uncapped c) b).1)) := by
  unfold parseRequest
  induction c, b using parse_induction round_consumes generalizing read with
  | stop c b c' played =>
    cases reads.beside quiet b with
    | same round =>
      rw [played] at round
      rw [parse_stop c c' b played, parse_stop _ _ b round]
      rw [round_lawful.stopSame c b c' reads.sound played]
      exact .inl ⟨quiet, rfl⟩
    | more _ _ _ _ refused =>
      rw [played] at refused
      cases refused
  | fail c b c' n played =>
    cases reads.beside quiet b with
    | same round =>
      rw [played] at round
      rw [parse_fail c c' b n played, parse_fail _ _ b n round]
      have sound : Sound (uncapped c) := ⟨reads.sound.body, reads.sound.chunk⟩
      have quiet' := fail_uncapped (uncapped c) (uncapped c') b n sound quiet rfl round
      exact .inl ⟨quiet', rfl⟩
    | more _ d _ m refused reason goesOn sound inBody unlimited exceeds =>
      rw [played] at refused
      cases refused
      rw [parse_fail c c' b n played, parse_take round_consumes _ d b m goesOn]
      exact .inr ⟨reason, parse_exceeds cap d (b.drop m) sound inBody unlimited exceeds⟩
  | take c b c' n played ih =>
    cases reads.beside quiet b with
    | same round =>
      have reads' := reads.round b
      rw [played] at round reads'
      have quiet' := reads'.error_none (round_take_accepts c b c' n reads.sound played)
      rw [parse_take round_consumes c c' b n played, parse_take round_consumes _ _ b n round]
      exact ih _ reads' quiet'
    | more _ _ _ _ refused =>
      rw [played] at refused
      cases refused

end Beside

/-! ### The cap -/

section Cap

variable {cap : Nat} {read : Bytes} {c : HttpContext}

theorem Reads.body_le (reads : Reads cap read c) (positive : 0 < cap) :
    c.request.body.length ≤ cap := by
  have stored : ∀ (head : RequestHead) (data : Bytes), WithinCap cap data.length →
      (head.request.appendBody data).body.length ≤ cap := by
    intro head data within
    show (head.request.body ++ data).length ≤ cap
    rw [head.request_body, nil_append]
    exact within.resolve_left (Nat.ne_of_gt positive)
  cases reads with
  | start => exact Nat.zero_le _
  | headers head => exact (congrArg List.length head.request_body).trans_le (Nat.zero_le _)
  | sized head data plain fits within =>
    exact stored head data (within.imp_right (Nat.le_trans fits))
  | tooLong head => exact stored head [] (.inr (Nat.zero_le _))
  | chunkSize head chunks coding within => exact stored head _ within
  | chunkData head chunks line data coding whole missing within => exact stored head _ within
  | overCap head chunks line data coding within => exact stored head _ within
  | chunkCrlf head chunks line data coding whole nonempty size within => exact stored head _ within
  | lastChunk head chunks line coding whole zero within => exact stored head _ within
  | refused _ _ _ _ empty => exact (congrArg List.length empty).trans_le (Nat.zero_le _)

/-- A length that is declared is that of a head that has been read. -/
theorem Reads.declared_head {bound : Nat} (reads : Reads bound read c) (more : DeclaresMore cap c) :
    ∃ (head : RequestHead) (data : Bytes), chunked head.request = false ∧
      WithinCap bound (declaredLength head.request) ∧ read = head.bytes ++ crlf ++ data ∧
      c = head.sized bound data := by
  obtain ⟨framed, plain, _⟩ := more
  cases reads with
  | sized head data unchunked _ within => exact ⟨head, data, unchunked, within, rfl, rfl⟩
  | lastChunk head chunks line coding => exact absurd (coding.symm.trans plain) (by simp)
  | refused _ _ here => simp [here] at framed
  | start | headers | tooLong | chunkSize | chunkData | overCap | chunkCrlf =>
    simp [RequestHead.context, RequestHead.inChunks, fresh] at framed

theorem Reads.not_declaresMore (reads : Reads cap read c) (positive : 0 < cap) :
    ¬DeclaresMore cap c := by
  intro more
  obtain ⟨head, data, _, within, _, rfl⟩ := reads.declared_head more
  have fits : declaredLength head.request ≤ cap := within.resolve_left (Nat.ne_of_gt positive)
  exact absurd more.2.2 (Nat.not_lt.mpr fits)

theorem Reads.complete_le (reads : Reads 0 read c) (here : c.state = .gotAll)
    (fits : c.request.body.length ≤ cap) : ¬(DeclaresMore cap c ∨ ReceivedMore cap c) := by
  rintro (⟨_, plain, large⟩ | ⟨_, large⟩)
  · rcases reads.complete here with ⟨head, data, _, length, _, rfl⟩ |
      ⟨head, chunks, _, coding, _, _, _, rfl⟩
    · have stored : (head.request.body ++ data).length ≤ cap := fits
      have declared : cap < declaredLength head.request := large
      rw [head.request_body, nil_append] at stored
      omega
    · exact absurd (coding.symm.trans plain) (by simp)
  · omega

theorem RequestHead.eq_of_bytes {head head' : RequestHead} {rest rest' : Bytes}
    (same : head.bytes ++ crlf ++ rest = head'.bytes ++ crlf ++ rest') : head = head' := by
  have lines : head.line :: head.fields = head'.line :: head'.fields := by
    rw [← head.headLines_bytes rest, ← head'.headLines_bytes rest', same]
  obtain ⟨line, fields⟩ := List.cons.inj lines
  cases head
  cases head'
  cases line
  cases fields
  rfl

theorem Reads.tooLarge_cases (reads : Reads cap read c)
    (reason : c.error = .tooLarge) : c.state = .error ∧ ∃ head : RequestHead,
      (chunked head.request = true ∧ ∃ rest, read = head.bytes ++ crlf ++ rest) ∨
        (read = head.bytes ++ crlf ∧ c.request.body = []) := by
  cases reads with
  | tooLong head =>
    refine ⟨rfl, head, .inr ⟨rfl, ?_⟩⟩
    show head.request.body ++ [] = []
    rw [head.request_body, append_nil]
  | overCap head chunks line data coding =>
    exact ⟨rfl, head, .inl ⟨coding, _, append_assoc ..⟩⟩
  | refused _ _ _ quiet =>
    rw [reason] at quiet
    cases quiet
  | _ => cases reason

end Cap

/-- The cap is exact on a stream, where `outcome` is what the parser with the cap has come to:
`unlimited` is the same stream for a parser without a cap. -/
structure CapExact (cap : Nat) (s : Bytes) (outcome : HttpContext × Bytes) : Prop where
  stored : outcome.1.request.body.length ≤ cap
  /-- A complete request is the one without a cap, so its whole body is stored. -/
  complete : outcome.1.state = .gotAll →
    (parseRequest (fresh 0) s).1.state = .gotAll ∧
      outcome.1.request = (parseRequest (fresh 0) s).1.request ∧
      outcome.2 = (parseRequest (fresh 0) s).2
  tooLarge : outcome.1.error = .tooLarge ↔
    DeclaresMore cap (parseRequest (fresh 0) s).1 ∨ ReceivedMore cap (parseRequest (fresh 0) s).1
  stopped : outcome.1.error = .tooLarge → outcome.1.state = .error
  /-- A request that declares too much is refused after the blank line. -/
  unread : DeclaresMore cap (parseRequest (fresh 0) s).1 →
    outcome.1.request.body = [] ∧ s = endLines (headLines s) ++ crlf ++ outcome.2
  /-- The beginning of a request whose body fits is not refused as too large. -/
  fits : ∀ more, (parseRequest (fresh 0) (s ++ more)).1.state = .gotAll →
    (parseRequest (fresh 0) (s ++ more)).1.request.body.length ≤ cap → outcome.1.error ≠ .tooLarge

section Exact

variable (cap : Nat) (pieces : List Bytes)

theorem tooLarge_iff (positive : 0 < cap) :
    (parsePieces (fresh cap, []) pieces).1.error = .tooLarge ↔
      DeclaresMore cap (parseRequest (fresh 0) pieces.flatten).1 ∨
        ReceivedMore cap (parseRequest (fresh 0) pieces.flatten).1 := by
  obtain ⟨_, error, _⟩ := parsePieces_eq_parseRequest cap pieces
  obtain ⟨read, _, reads⟩ := reads_parseRequest cap pieces.flatten
  rw [error]
  rcases parse_uncapped (fresh cap) pieces.flatten [] .start rfl with ⟨quiet, same⟩ | ⟨reason, more⟩
  · rw [show fresh 0 = uncapped (fresh cap) from rfl, same, quiet]
    constructor
    · intro reason
      cases reason
    · rintro (declares | ⟨_, received⟩)
      · exact absurd declares (reads.not_declaresMore positive)
      · exact absurd received (Nat.not_lt.mpr (reads.body_le positive))
  · exact ⟨fun _ => more, fun _ => reason⟩

theorem complete_uncapped (here : (parsePieces (fresh cap, []) pieces).1.state = .gotAll) :
    (parseRequest (fresh 0) pieces.flatten).1.state = .gotAll ∧
      (parsePieces (fresh cap, []) pieces).1.request =
        (parseRequest (fresh 0) pieces.flatten).1.request ∧
      (parsePieces (fresh cap, []) pieces).2 = (parseRequest (fresh 0) pieces.flatten).2 := by
  obtain ⟨state, _, rest⟩ := parsePieces_eq_parseRequest cap pieces
  obtain ⟨_, _, reads⟩ := reads_parseRequest cap pieces.flatten
  rw [state] at here
  obtain ⟨request, left⟩ := rest (by simp [here])
  have quiet := reads.error_none (by simp [here])
  rcases parse_uncapped (fresh cap) pieces.flatten [] .start rfl with ⟨_, same⟩ | ⟨reason, _⟩
  · rw [show fresh 0 = uncapped (fresh cap) from rfl, same, request, left]
    exact ⟨here, rfl, rfl⟩
  · rw [reason] at quiet
    cases quiet

theorem declares_unread (positive : 0 < cap)
    (declares : DeclaresMore cap (parseRequest (fresh 0) pieces.flatten).1) :
    (parsePieces (fresh cap, []) pieces).1.request.body = [] ∧
      pieces.flatten = endLines (headLines pieces.flatten) ++ crlf ++
        (parsePieces (fresh cap, []) pieces).2 := by
  have reason := (tooLarge_iff cap pieces positive).mpr (.inl declares)
  obtain ⟨read, whole, reads⟩ := reads_pieces cap pieces
  obtain ⟨free, whole', reads'⟩ := reads_parseRequest 0 pieces.flatten
  obtain ⟨head', rest', plain, _, rfl, _⟩ := reads'.declared_head declares
  rcases reads.tooLarge_cases reason with ⟨_, head, ⟨coding, rest, rfl⟩ | ⟨rfl, empty⟩⟩
  · rw [whole, append_assoc _ rest, append_assoc _ rest'] at whole'
    rw [RequestHead.eq_of_bytes whole', plain] at coding
    cases coding
  · refine ⟨empty, ?_⟩
    have lines := head.headLines_bytes (parsePieces (fresh cap, []) pieces).2
    rw [← whole] at lines
    rw [lines]
    exact whole

/-- **The cap on the body is exact**, however the stream is cut. -/
theorem bodyCap_exact (positive : 0 < cap) :
    CapExact cap pieces.flatten (parsePieces (fresh cap, []) pieces) := by
  obtain ⟨read, whole, reads⟩ := reads_pieces cap pieces
  exact {
    stored := reads.body_le positive
    complete := complete_uncapped cap pieces
    tooLarge := tooLarge_iff cap pieces positive
    stopped := fun reason => (reads.tooLarge_cases reason).1
    unread := declares_unread cap pieces positive
    fits := by
      intro more here small reason
      have refused := (reads.tooLarge_cases reason).1
      have later : parsePieces (fresh cap, []) (pieces ++ [more]) =
          ((parsePieces (fresh cap, []) pieces).1, (parsePieces (fresh cap, []) pieces).2 ++ more) := by
        rw [parsePieces, feed_append]
        exact parse_stop _ _ _ (round_lawful.rejectedStops _ _ refused)
      have exceeds := tooLarge_iff cap (pieces ++ [more]) positive
      rw [later] at exceeds
      replace exceeds := exceeds.mp reason
      rw [List.flatten_append, List.flatten_singleton] at exceeds
      obtain ⟨_, _, reads'⟩ := reads_parseRequest 0 (pieces.flatten ++ more)
      exact reads'.complete_le here small exceeds }

end Exact

/-- Chunks of four bytes together, cut inside the second. -/
def fullPost : List Bytes :=
  [text "POST /c HTTP/1.1\r\nTransfer-Encoding: chunked\r\n\r\n1\r\na\r\n3\r\nb",
    text "cd\r\n0\r\n\r\n"]

theorem bodyCap_fullPost :
    (parsePieces (fresh 4, []) fullPost).1.error ≠ .tooLarge ∧
      (parsePieces (fresh 3, []) fullPost).1.error = .tooLarge :=
  ⟨(bodyCap_exact 4 fullPost (by decide)).fits [] (by decide +kernel) (by decide +kernel),
    (bodyCap_exact 3 fullPost (by decide)).tooLarge.mpr
      (Or.inr ⟨by decide +kernel, by decide +kernel⟩)⟩

end Cox.Http

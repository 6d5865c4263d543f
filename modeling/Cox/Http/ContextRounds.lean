import Cox.Http.Context

/-!
# Split invariance of the request parser

One round of `parseRequest` obeys the laws of a resumable parser, so the outcome of
a request does not depend on how its bytes were cut into reads. The data states are
the ones that see a cut: a body or a chunk that arrives in two parts is taken in two
rounds instead of one.
-/
namespace Cox.Http.HttpContext

open Cox.Lib Cox.Lib.Resumable List

variable (c : HttpContext)

/-! ### What one round can do -/

/-- The counters that the data states rely on. -/
structure Sound (c : HttpContext) : Prop where
  body : c.state = .expectBody → c.bodyReceived < c.contentLength
  chunk : c.state = .expectChunkData → 0 < c.chunkRemaining

theorem sound_of_state (body : c.state ≠ .expectBody) (chunk : c.state ≠ .expectChunkData) :
    Sound c :=
  ⟨fun h => absurd h body, fun h => absurd h chunk⟩

theorem sound_fresh (maxBodyBytes : Nat) : Sound (fresh maxBodyBytes) :=
  sound_of_state _ (by simp [fresh]) (by simp [fresh])

/-- What a line handler can answer: it takes the line with its CRLF and keeps the
counters in order, or it rejects the request. -/
def LineAnswer (line : Bytes) : Round HttpContext → Prop
  | .take c n => n = line.length + 2 ∧ Sound c ∧ c.state ≠ .error
  | .fail c _ => c.state = .error
  | .stop _ => False

theorem requestLine_answer (line : Bytes) : LineAnswer line (c.requestLine line) := by
  unfold requestLine
  dsimp only
  split
  · exact ⟨rfl, sound_of_state _ (by simp) (by simp), by simp⟩
  · rfl

theorem endOfHeaders_answer : LineAnswer [] c.endOfHeaders := by
  unfold endOfHeaders
  dsimp only
  split
  · exact ⟨rfl, sound_of_state _ (by simp) (by simp), by simp⟩
  · split
    · rfl
    -- the state is `expectBody` only for a positive length, of which nothing is there yet
    · refine ⟨rfl, ⟨?_, ?_⟩, ?_⟩
      · dsimp only
        split_ifs with positive
        · exact fun _ => positive
        · simp
      · dsimp only
        split_ifs <;> simp
      · dsimp only
        split_ifs <;> simp

theorem headerLine_answer (line : Bytes) (here : c.state = .expectHeaders) :
    LineAnswer line (c.headerLine line) := by
  unfold headerLine
  dsimp only
  split
  · rfl
  · split
    · rfl
    · exact ⟨rfl, sound_of_state _ (by simp [here]) (by simp [here]), by simp [here]⟩

theorem headersLine_answer (line : Bytes) (here : c.state = .expectHeaders) :
    LineAnswer line (c.headersLine line) := by
  unfold headersLine
  split
  next blank =>
    subst blank
    exact endOfHeaders_answer c
  · exact headerLine_answer c line here

theorem chunkSizeLine_answer (line : Bytes) : LineAnswer line (c.chunkSizeLine line) := by
  refine ⟨rfl, ⟨?_, ?_⟩, ?_⟩
  · dsimp only
    split_ifs <;> simp
  · dsimp only
    split_ifs with zero
    · simp
    · exact fun _ => Nat.pos_of_ne_zero zero
  · dsimp only
    split_ifs <;> simp

def lineHandler (c : HttpContext) : Option (Bytes → Round HttpContext) :=
  match c.state with
  | .expectRequestLine => some c.requestLine
  | .expectHeaders => some c.headersLine
  | .expectChunkSize => some c.chunkSizeLine
  | _ => none

section Lines

variable (handle : Bytes → Round HttpContext)

theorem lineHandler_answer (waits : c.lineHandler = some handle) (line : Bytes) :
    LineAnswer line (handle line) := by
  unfold lineHandler at waits
  split at waits
  · cases waits
    exact requestLine_answer c line
  next here =>
    cases waits
    exact headersLine_answer c line here
  · cases waits
    exact chunkSizeLine_answer c line
  · cases waits

theorem round_line (waits : c.lineHandler = some handle) (buf : Bytes) :
    c.round buf = c.onLine buf handle := by
  unfold lineHandler at waits
  unfold round
  split at waits <;> cases waits <;> simp only [*]

/-! ### The laws of a round -/

theorem onLine_found (buf : Bytes) (i : Nat) (found : findCrlf buf = some i) :
    c.onLine buf handle = handle (buf.take i) := by
  simp only [onLine, found]

theorem onLine_none (buf : Bytes) (missing : findCrlf buf = none) :
    c.onLine buf handle = .stop c := by
  simp only [onLine, missing]

theorem onLine_append (a b : Bytes) (i : Nat) (found : findCrlf a = some i) :
    c.onLine (a ++ b) handle = c.onLine a handle := by
  have bound := findCrlf_bound a i found
  rw [onLine_found c handle a i found, onLine_found c handle _ i (findCrlf_append a b i found),
    take_append_of_le_length (by omega)]

end Lines

def receive (c : HttpContext) (data : Bytes) : HttpContext :=
  { c with
    request := c.request.appendBody data
    bodyReceived := c.bodyReceived + data.length
    state := if c.bodyReceived + data.length = c.contentLength then .gotAll else c.state }

def receiveChunk (c : HttpContext) (data : Bytes) : HttpContext :=
  { c with
    request := c.request.appendBody data
    bodyReceived := c.bodyReceived + data.length
    chunkRemaining := c.chunkRemaining - data.length
    state := if c.chunkRemaining - data.length = 0 then .expectChunkCrlf else c.state }

def OverCap (c : HttpContext) (n : Nat) : Prop :=
  c.maxBodyBytes > 0 ∧ c.bodyReceived + n > c.maxBodyBytes

theorem bodyData_empty (missing : c.bodyReceived < c.contentLength) : c.bodyData [] = .stop c := by
  simp [bodyData, Nat.ne_of_lt missing]

theorem bodyData_take (buf : Bytes) (n : Nat)
    (size : n = min buf.length (c.contentLength - c.bodyReceived)) (some : 0 < n) :
    c.bodyData buf = .take (c.receive (buf.take n)) n := by
  have length : (buf.take n).length = n := by rw [length_take]; omega
  unfold bodyData
  dsimp only
  rw [← size, if_pos some, if_pos some]
  simp only [receive, length]
  split <;> rfl

theorem chunkData_empty (missing : 0 < c.chunkRemaining) : c.chunkData [] = .stop c := by
  simp [chunkData, Nat.ne_of_gt missing]

theorem chunkData_over (buf : Bytes) (n : Nat) (size : n = min buf.length c.chunkRemaining)
    (some : 0 < n) (exceeds : c.OverCap n) :
    c.chunkData buf = .fail { c with error := .tooLarge, state := .error } 0 := by
  unfold chunkData
  dsimp only
  rw [← size, if_pos ⟨some, exceeds.1, exceeds.2⟩]

theorem chunkData_take (buf : Bytes) (n : Nat) (size : n = min buf.length c.chunkRemaining)
    (some : 0 < n) (within : ¬c.OverCap n) :
    c.chunkData buf = .take (c.receiveChunk (buf.take n)) n := by
  have length : (buf.take n).length = n := by rw [length_take]; omega
  unfold chunkData
  dsimp only
  rw [← size, if_neg fun h => within h.2, if_pos some, if_pos some]
  simp only [receiveChunk, length]
  split <;> rfl

theorem receive_receive (x y : Bytes) (short : c.bodyReceived + x.length ≠ c.contentLength) :
    (c.receive x).receive y = c.receive (x ++ y) := by
  simp only [receive, if_neg short, HttpRequest.appendBody, append_assoc, length_append,
    Nat.add_assoc]

theorem receiveChunk_receiveChunk (x y : Bytes) (short : x.length < c.chunkRemaining) :
    (c.receiveChunk x).receiveChunk y = c.receiveChunk (x ++ y) := by
  have open' : c.chunkRemaining - x.length ≠ 0 := by omega
  simp only [receiveChunk, if_neg open', HttpRequest.appendBody, append_assoc,
    length_append, Nat.add_assoc, Nat.sub_sub]

theorem overCap_mono (m n : Nat) (le : m ≤ n) (exceeds : c.OverCap m) :
    c.OverCap n := ⟨exceeds.1, by have := exceeds.2; omega⟩

/-- Everything a round can do in a state whose counters are in order. -/
inductive Plays (c : HttpContext) (buf : Bytes) : Round HttpContext → Prop where
  | waitLine (handle : Bytes → Round HttpContext) :
      c.lineHandler = some handle → findCrlf buf = none → Plays c buf (.stop c)
  | line (handle : Bytes → Round HttpContext) (i : Nat) (r : Round HttpContext) :
      c.lineHandler = some handle → findCrlf buf = some i → handle (buf.take i) = r →
      LineAnswer (buf.take i) r → Plays c buf r
  | waitBody : c.state = .expectBody → buf = [] → Plays c buf (.stop c)
  | body (n : Nat) : c.state = .expectBody → c.bodyReceived < c.contentLength → 0 < n →
      n = min buf.length (c.contentLength - c.bodyReceived) →
      Plays c buf (.take (c.receive (buf.take n)) n)
  | waitChunk : c.state = .expectChunkData → buf = [] → Plays c buf (.stop c)
  | exceeds (n : Nat) : c.state = .expectChunkData → 0 < n →
      n = min buf.length c.chunkRemaining → c.OverCap n →
      Plays c buf (.fail { c with error := .tooLarge, state := .error } 0)
  | chunk (n : Nat) : c.state = .expectChunkData → 0 < n →
      n = min buf.length c.chunkRemaining → ¬c.OverCap n →
      Plays c buf (.take (c.receiveChunk (buf.take n)) n)
  | waitCrlf : c.state = .expectChunkCrlf → buf.length < 2 → Plays c buf (.stop c)
  | crlf : c.state = .expectChunkCrlf → 2 ≤ buf.length →
      Plays c buf (.take { c with state := .expectChunkSize } 2)
  | done : c.state = .gotAll ∨ c.state = .error → Plays c buf (.stop c)

section Plays

variable (buf : Bytes)

private theorem line_plays (handle : Bytes → Round HttpContext)
    (waits : c.lineHandler = some handle) : Plays c buf (c.round buf) := by
  rw [round_line c handle waits]
  -- the three line states differ in their handler only
  cases found : findCrlf buf with
  | none =>
    rw [onLine_none c handle buf found]
    exact .waitLine handle waits found
  | some i =>
    rw [onLine_found c handle buf i found]
    exact .line handle i _ waits found rfl (lineHandler_answer c handle waits _)

private theorem body_plays (here : c.state = .expectBody)
    (missing : c.bodyReceived < c.contentLength) : Plays c buf (c.bodyData buf) := by
  by_cases empty : buf = []
  · subst empty
    rw [bodyData_empty c missing]
    exact .waitBody here rfl
  · have size : 0 < buf.length := length_pos_iff.mpr empty
    have some : 0 < min buf.length (c.contentLength - c.bodyReceived) := by omega
    rw [bodyData_take c buf _ rfl some]
    exact .body _ here missing some rfl

private theorem chunk_plays (here : c.state = .expectChunkData) (missing : 0 < c.chunkRemaining) :
    Plays c buf (c.chunkData buf) := by
  by_cases empty : buf = []
  · subst empty
    rw [chunkData_empty c missing]
    exact .waitChunk here rfl
  · have size : 0 < buf.length := length_pos_iff.mpr empty
    have some : 0 < min buf.length c.chunkRemaining := by omega
    by_cases exceeds : c.OverCap (min buf.length c.chunkRemaining)
    · rw [chunkData_over c buf _ rfl some exceeds]
      exact .exceeds _ here some rfl exceeds
    · rw [chunkData_take c buf _ rfl some exceeds]
      exact .chunk _ here some rfl exceeds

theorem round_plays (sound : Sound c) : Plays c buf (c.round buf) := by
  cases here : c.state with
  | expectRequestLine => exact line_plays c buf c.requestLine (by simp only [lineHandler, here])
  | expectHeaders => exact line_plays c buf c.headersLine (by simp only [lineHandler, here])
  | expectBody =>
    simp only [round, here]
    exact body_plays c buf here (sound.body here)
  | expectChunkSize => exact line_plays c buf c.chunkSizeLine (by simp only [lineHandler, here])
  | expectChunkData =>
    simp only [round, here]
    exact chunk_plays c buf here (sound.chunk here)
  | expectChunkCrlf =>
    simp only [round, here]
    split
    next enough => exact .crlf here enough
    next short => exact .waitCrlf here (by omega)
  | gotAll =>
    simp only [round, here]
    exact .done (.inl here)
  | error =>
    simp only [round, here]
    exact .done (.inr here)

end Plays

theorem sound_receive (data : Bytes) (here : c.state = .expectBody)
    (room : c.bodyReceived + data.length ≤ c.contentLength) : Sound (c.receive data) := by
  by_cases full : c.bodyReceived + data.length = c.contentLength
  · apply sound_of_state <;> simp [receive, full]
  · refine ⟨fun _ => ?_, fun h => ?_⟩
    · show c.bodyReceived + data.length < c.contentLength
      omega
    · simp [receive, full, here] at h

theorem sound_receiveChunk (data : Bytes) (here : c.state = .expectChunkData) :
    Sound (c.receiveChunk data) := by
  by_cases full : c.chunkRemaining - data.length = 0
  · apply sound_of_state <;> simp [receiveChunk, full]
  · refine ⟨fun h => ?_, fun _ => ?_⟩
    · simp [receiveChunk, full, here] at h
    · show 0 < c.chunkRemaining - data.length
      omega

theorem round_consumes : Consumes round := by
  intro c buf c' n played
  -- the data states test for `n > 0` themselves; the others go through `Plays`
  cases here : c.state with
  | expectBody =>
    simp only [round, here, bodyData] at played
    split at played <;> cases played
    omega
  | expectChunkData =>
    simp only [round, here, chunkData] at played
    split at played
    · cases played
    · split at played <;> cases played
      omega
  | expectRequestLine | expectHeaders | expectChunkSize | expectChunkCrlf | gotAll | error =>
    have sound : Sound c := sound_of_state c (by simp [here]) (by simp [here])
    have plays := round_plays c buf sound
    rw [played] at plays
    cases plays with
    | line handle i _ waits found _ answer =>
      have bound := findCrlf_bound buf i found
      have size := answer.1
      rw [length_take] at size
      omega
    | body _ state | chunk _ state => simp [here] at state
    | crlf _ enough => exact ⟨by omega, enough⟩

section Sound

variable (buf : Bytes) (c' : HttpContext) (n : Nat) (sound : Sound c)
  (played : c.round buf = .take c' n)
include sound played

theorem round_sound : Sound c' := by
  have plays := round_plays c buf sound
  rw [played] at plays
  cases plays with
  | line _ _ _ _ _ _ answer => exact answer.2.1
  | body n here missing _ size => exact sound_receive c _ here (by rw [length_take]; omega)
  | chunk n here => exact sound_receiveChunk c _ here
  | crlf => exact sound_of_state _ (by simp) (by simp)

theorem round_take_accepts : c'.state ≠ .error := by
  have plays := round_plays c buf sound
  rw [played] at plays
  cases plays with
  | line _ _ _ _ _ _ answer => exact answer.2.2
  | body n here =>
    simp only [receive, here]
    split_ifs <;> simp
  | chunk n here =>
    simp only [receiveChunk, here]
    split_ifs <;> simp
  | crlf => simp

end Sound

theorem round_fail (buf : Bytes) (c' : HttpContext) (n : Nat) (sound : Sound c)
    (played : c.round buf = .fail c' n) : c'.state = .error := by
  have plays := round_plays c buf sound
  rw [played] at plays
  cases plays with
  | line _ _ _ _ _ _ answer => exact answer
  | exceeds => rfl

private theorem line_append (handle : Bytes → Round HttpContext) (a b : Bytes) (i : Nat)
    (waits : c.lineHandler = some handle) (found : findCrlf a = some i) :
    c.round (a ++ b) = handle (a.take i) := by
  rw [round_line c handle waits, onLine_append c handle a b i found, onLine_found c handle a i found]

theorem round_failMore (a b : Bytes) (c' : HttpContext) (n : Nat) (sound : Sound c)
    (played : c.round a = .fail c' n) : c.round (a ++ b) = .fail c' n := by
  have plays := round_plays c a sound
  rw [played] at plays
  cases plays with
  | line handle i _ waits found same => rw [line_append c handle a b i waits found, same]
  -- more bytes make the chunk data longer, not shorter
  | exceeds n here some size exceeds =>
    simp only [round, here]
    refine chunkData_over c _ _ rfl ?_ (overCap_mono c n _ ?_ exceeds)
    · rw [length_append]; omega
    · rw [length_append]; omega

private theorem body_more (a b : Bytes) (here : c.state = .expectBody)
    (short : a.length < c.contentLength - c.bodyReceived) (nonempty : 0 < b.length) :
    ∃ k, (c.receive a).round b = .take ((c.receive a).receive (b.take k)) k ∧
      c.round (a ++ b) = .take (c.receive (a ++ b.take k)) (a.length + k) := by
  refine ⟨min b.length (c.contentLength - (c.bodyReceived + a.length)), ?_, ?_⟩
  -- the second round, in the state that the first one left
  · have open' : c.bodyReceived + a.length ≠ c.contentLength := by omega
    have state : (c.receive a).state = .expectBody := by simp [receive, open', here]
    simp only [round, state]
    refine bodyData_take (c.receive a) b _ rfl ?_
    show 0 < min _ (c.contentLength - (c.bodyReceived + a.length))
    omega
  -- one round on both parts
  · simp only [round, here]
    have size : a.length + min b.length (c.contentLength - (c.bodyReceived + a.length)) =
        min (a ++ b).length (c.contentLength - c.bodyReceived) := by
      rw [length_append]; omega
    rw [bodyData_take c (a ++ b) _ size (by omega), take_length_add_append]

private theorem chunk_more (a b : Bytes) (here : c.state = .expectChunkData)
    (short : a.length < c.chunkRemaining) (nonempty : 0 < b.length) :
    (∃ k, (c.receiveChunk a).round b = .take ((c.receiveChunk a).receiveChunk (b.take k)) k ∧
      c.round (a ++ b) = .take (c.receiveChunk (a ++ b.take k)) (a.length + k)) ∨
    ((c.receiveChunk a).round b =
        .fail { c.receiveChunk a with error := .tooLarge, state := .error } 0 ∧
      c.round (a ++ b) = .fail { c with error := .tooLarge, state := .error } 0) := by
  have open' : c.chunkRemaining - a.length ≠ 0 := by omega
  have state : (c.receiveChunk a).state = .expectChunkData := by simp [receiveChunk, open', here]
  have size : a.length + min b.length (c.chunkRemaining - a.length) =
      min (a ++ b).length c.chunkRemaining := by
    rw [length_append]; omega
  -- the cap is met by both together exactly when it is met in the second round
  have cap : (c.receiveChunk a).OverCap (min b.length (c.chunkRemaining - a.length)) ↔
      c.OverCap (a.length + min b.length (c.chunkRemaining - a.length)) := by
    simp only [OverCap, receiveChunk, Nat.add_assoc]
  have some : 0 < min b.length (c.chunkRemaining - a.length) := by omega
  simp only [round, state, here]
  by_cases exceeds : c.OverCap (a.length + min b.length (c.chunkRemaining - a.length))
  · right
    exact ⟨chunkData_over (c.receiveChunk a) b _ rfl some (cap.mpr exceeds),
      chunkData_over c (a ++ b) _ size (by omega) exceeds⟩
  · left
    refine ⟨_, chunkData_take (c.receiveChunk a) b _ rfl some (fun h => exceeds (cap.mp h)), ?_⟩
    rw [chunkData_take c (a ++ b) _ size (by omega) exceeds, take_length_add_append]
    rfl

theorem round_lawful :
    Lawful round Sound (fun c => c.state = .error) (fun c => c.error) where
  consumes := round_consumes
  goodTake := round_sound
  goodFail := by
    intro c buf c' n sound played
    have here := round_fail c buf c' n sound played
    exact ⟨sound_of_state c' (by simp [here]) (by simp [here]), here⟩
  stopSame := by
    intro c buf c' sound played
    have plays := round_plays c buf sound
    rw [played] at plays
    cases plays with
    | line _ _ _ _ _ _ answer => exact answer.elim
    | waitLine | waitBody | waitChunk | waitCrlf | done => rfl
  rejectedStops := by
    intro c buf here
    simp only [round, here]
  failMore := by
    intro c a b c' n sound played
    exact ⟨c', n, round_failMore c a b c' n sound played, rfl⟩
  takeMore := by
    intro c a b c' n sound nonempty played
    have more : 0 < b.length := length_pos_iff.mpr nonempty
    have plays := round_plays c a sound
    rw [played] at plays
    cases plays with
    | line handle i _ waits found same =>
      left
      rw [line_append c handle a b i waits found, same]
    | body n here missing some size =>
      -- either `a` holds the missing bytes, or all of it was taken and the body goes on in `b`
      by_cases enough : c.contentLength - c.bodyReceived ≤ a.length
      · left
        simp only [round, here]
        rw [bodyData_take c (a ++ b) n (by rw [length_append]; omega) some,
          take_append_of_le_length (by omega)]
      · right
        have whole : n = a.length := by omega
        subst whole
        rw [take_length]
        obtain ⟨k, second, joined⟩ := body_more c a b here (by omega) more
        refine ⟨rfl, .inl ⟨_, k, second, ?_⟩⟩
        rw [joined, receive_receive c a _ (by omega)]
    | chunk n here some size within =>
      by_cases enough : c.chunkRemaining ≤ a.length
      · left
        simp only [round, here]
        rw [chunkData_take c (a ++ b) n (by rw [length_append]; omega) some within,
          take_append_of_le_length (by omega)]
      · right
        have whole : n = a.length := by omega
        subst whole
        rw [take_length]
        refine ⟨rfl, ?_⟩
        -- the cap may reject the rest of the chunk; then it rejects the whole in one round
        rcases chunk_more c a b here (by omega) more with ⟨k, second, joined⟩ | ⟨second, joined⟩
        · refine .inl ⟨_, k, second, ?_⟩
          rw [joined, receiveChunk_receiveChunk c a _ (by omega)]
        · exact .inr ⟨_, _, 0, 0, second, joined, rfl⟩
    | crlf here enough =>
      left
      simp only [round, here]
      rw [if_pos (by rw [length_append]; omega)]

theorem parse_fresh_nil (maxBodyBytes : Nat) :
    parseRequest (fresh maxBodyBytes) [] = (fresh maxBodyBytes, []) :=
  parse_stop _ _ _ rfl

/-- Append the pieces one by one to the buffer and call `parseRequest` after each. -/
def parsePieces (x : HttpContext × Bytes) (pieces : List Bytes) : HttpContext × Bytes :=
  feed round x pieces

/-- Every way of cutting a byte string into pieces leads to the same state and the
same error as one call on the whole string, and to the same request and unconsumed
bytes unless the request is rejected. -/
theorem parsePieces_eq_parseRequest (maxBodyBytes : Nat) (pieces : List Bytes) :
    let split := parsePieces (fresh maxBodyBytes, []) pieces
    let whole := parseRequest (fresh maxBodyBytes) pieces.flatten
    split.1.state = whole.1.state ∧ split.1.error = whole.1.error ∧
      (whole.1.state ≠ .error → split.1.request = whole.1.request ∧ split.2 = whole.2) := by
  have agree := round_lawful.feed_agrees (fresh maxBodyBytes) [] pieces (sound_fresh maxBodyBytes)
    (parse_fresh_nil maxBodyBytes)
  rw [List.nil_append] at agree
  intro split whole
  rcases agree with same | ⟨left, right, verdict⟩
  · have equal : split = whole := same
    rw [equal]
    exact ⟨rfl, rfl, fun _ => ⟨rfl, rfl⟩⟩
  · exact ⟨left.trans right.symm, verdict, fun accepted => absurd right accepted⟩

end Cox.Http.HttpContext

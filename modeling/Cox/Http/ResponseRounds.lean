import Cox.Lib.Phased
import Cox.Http.ResponseParser

/-!
# Split invariance of the response parser

The response parser is a parser of lines and data, so how a response was cut into reads
does not matter. That includes a body that runs until the connection ends: its data have no
end of their own, and `onEof` takes whatever has arrived.
-/
namespace Cox.Http

open Cox.Lib Cox.Lib.Resumable List

def crlfDelimiter : Delimiter UInt8 := ⟨findCrlf, 2, findCrlf_bound, findCrlf_append⟩

namespace ResponseParser

variable (p : ResponseParser)

/-! ### The phases -/

def receive (p : ResponseParser) (data : Bytes) : ResponseParser :=
  let p := { p with
    bodyAccum := p.bodyAccum ++ data
    bodyReceived := p.bodyReceived + data.length }
  if p.bodyReceived = p.contentLength then p.finish else p

def receiveChunk (p : ResponseParser) (data : Bytes) : ResponseParser :=
  let p := { p with
    bodyAccum := p.bodyAccum ++ data
    chunkRemaining := p.chunkRemaining - data.length }
  if p.chunkRemaining = 0 then { p with state := .expectChunkCrlf } else p

def receiveRest (p : ResponseParser) (data : Bytes) : ResponseParser :=
  { p with bodyAccum := p.bodyAccum ++ data }

def phase (p : ResponseParser) : Phase ResponseParser UInt8 :=
  match p.state with
  | .expectStatusLine => .line p.statusLine
  | .expectHeaders => .line p.headersLine
  | .expectBody => .data (some (p.contentLength - p.bodyReceived)) p.receive
  | .expectEofBody => .data none p.receiveRest
  | .expectChunkSize => .line p.chunkSizeLine
  | .expectChunkData => .data (some p.chunkRemaining) p.receiveChunk
  | .expectChunkCrlf => .skip 2 { p with state := .expectChunkSize }
  | .gotAll => .done
  | .error => .done

theorem phase_body (here : p.state = .expectBody) :
    p.phase = .data (some (p.contentLength - p.bodyReceived)) p.receive := by
  simp only [phase, here]

theorem phase_chunk (here : p.state = .expectChunkData) :
    p.phase = .data (some p.chunkRemaining) p.receiveChunk := by
  simp only [phase, here]

structure Sound (p : ResponseParser) : Prop where
  body : p.state = .expectBody → p.bodyReceived < p.contentLength
  chunk : p.state = .expectChunkData → 0 < p.chunkRemaining

theorem sound_of_state (body : p.state ≠ .expectBody) (chunk : p.state ≠ .expectChunkData) :
    Sound p :=
  ⟨fun h => absurd h body, fun h => absurd h chunk⟩

/-- Nothing of the body is there while the head is read. -/
structure Ready (p : ResponseParser) : Prop where
  sound : Sound p
  empty : p.state = .expectStatusLine ∨ p.state = .expectHeaders → p.bodyReceived = 0

theorem ready_fresh : Ready {} := ⟨sound_of_state _ (by simp) (by simp), fun _ => rfl⟩

theorem ready_of_sound (sound : Sound p) (behind : p.state ≠ .expectStatusLine)
    (behind' : p.state ≠ .expectHeaders) : Ready p :=
  ⟨sound, fun h => (h.elim behind behind').elim⟩

theorem ready_of_state (head : p.state ≠ .expectStatusLine ∧ p.state ≠ .expectHeaders)
    (data : p.state ≠ .expectBody ∧ p.state ≠ .expectChunkData) : Ready p :=
  ready_of_sound p (sound_of_state p data.1 data.2) head.1 head.2

theorem ready_error (here : p.state = .error) : Ready p :=
  ready_of_state p (by simp [here]) (by simp [here])

def Handled (line : Bytes) (r : Round ResponseParser) : Prop :=
  LineHandled crlfDelimiter Ready (fun p => p.state = .error) line r

theorem statusLine_handled (line : Bytes) (ready : Ready p) (here : p.state = .expectStatusLine) :
    Handled line (p.statusLine line) := by
  unfold statusLine
  split
  · exact ⟨ready_error _ rfl, rfl⟩
  · exact ⟨rfl, sound_of_state _ (by simp) (by simp), fun _ => ready.empty (.inl here)⟩

theorem endOfHeaders_handled (ready : Ready p) (here : p.state = .expectHeaders) :
    Handled [] p.endOfHeaders := by
  have empty := ready.empty (.inr here)
  unfold endOfHeaders
  split
  · exact ⟨rfl, ready_of_state _ (by simp) (by simp)⟩
  · split
    -- the state is `expectBody` only for a positive length, of which nothing is there yet
    · refine ⟨rfl, ?_⟩
      by_cases positive : p.contentLength > 0
      · rw [if_pos positive]
        refine ready_of_sound _ ⟨fun _ => ?_, by simp⟩ (by simp) (by simp)
        show p.bodyReceived < p.contentLength
        omega
      · rw [if_neg positive]
        exact ready_of_state _ (by simp) (by simp)
    · exact ⟨rfl, ready_of_state _ (by simp) (by simp)⟩

theorem storeHeader_same (key value : Bytes) :
    (p.storeHeader key value).state = p.state ∧
      (p.storeHeader key value).bodyReceived = p.bodyReceived ∧
      (p.storeHeader key value).headerBytes = p.headerBytes ∧
      (p.storeHeader key value).bodyAccum = p.bodyAccum := by
  unfold storeHeader
  dsimp only
  split <;> exact ⟨rfl, rfl, rfl, rfl⟩

theorem headersLine_handled (line : Bytes) (ready : Ready p) (here : p.state = .expectHeaders) :
    Handled line (p.headersLine line) := by
  unfold headersLine
  split
  next blank =>
    subst blank
    exact endOfHeaders_handled p ready here
  next =>
    obtain ⟨state, received, _, _⟩ :=
      storeHeader_same p (line.take (line.idxOf colonByte))
        ((line.drop (line.idxOf colonByte + 1)).dropWhile (· == sp))
    unfold headerLine
    dsimp only
    split
    · exact ⟨ready_error _ rfl, rfl⟩
    · split
      · exact ⟨ready_error _ rfl, rfl⟩
      · refine ⟨rfl, sound_of_state _ ?_ ?_, fun _ => ?_⟩
        · simp [state, here]
        · simp [state, here]
        · exact received.trans (ready.empty (.inr here))

theorem chunkSizeLine_handled (line : Bytes) : Handled line (p.chunkSizeLine line) := by
  refine ⟨rfl, ?_⟩
  dsimp only
  split
  · exact ready_of_state _ (by simp [finish]) (by simp [finish])
  next positive =>
    refine ready_of_sound _ ⟨by simp, fun _ => Nat.pos_of_ne_zero positive⟩ (by simp) (by simp)

/-! ### The laws -/

theorem take_min (buf : Bytes) (n : Nat) :
    buf.take (min buf.length n) = cut (some n) buf ∧
      min buf.length n = (cut (some n) buf).length := by
  rw [cut, length_take, Nat.min_comm]
  exact ⟨take_eq_take_min.symm, rfl⟩

theorem bodyData_eq (buf : Bytes) (missing : p.bodyReceived < p.contentLength) :
    p.bodyData buf =
      play crlfDelimiter p buf (.data (some (p.contentLength - p.bodyReceived)) p.receive) := by
  obtain ⟨same, size⟩ := take_min buf (p.contentLength - p.bodyReceived)
  unfold bodyData play
  dsimp only
  rw [same, size]
  -- without input the round stops; the body cannot be complete then, as bytes are missing
  by_cases none : (cut (some (p.contentLength - p.bodyReceived)) buf).length = 0
  · have open' : p.bodyReceived ≠ p.contentLength := Nat.ne_of_lt missing
    rw [if_neg (by omega), if_pos none, length_eq_zero_iff.mp none]
    simp [open']
  · rw [if_pos (Nat.pos_of_ne_zero none), if_neg none]
    rfl

theorem chunkData_eq (buf : Bytes) (missing : 0 < p.chunkRemaining) :
    p.chunkData buf = play crlfDelimiter p buf (.data (some p.chunkRemaining) p.receiveChunk) := by
  obtain ⟨same, size⟩ := take_min buf p.chunkRemaining
  unfold chunkData play
  dsimp only
  rw [same, size]
  by_cases none : (cut (some p.chunkRemaining) buf).length = 0
  · have open' : p.chunkRemaining ≠ 0 := Nat.ne_of_gt missing
    rw [if_neg (by omega), if_pos none, length_eq_zero_iff.mp none]
    simp [open']
  · rw [if_pos (Nat.pos_of_ne_zero none), if_neg none]
    rfl

theorem round_eq_play (buf : Bytes) (ready : Ready p) :
    p.round buf = play crlfDelimiter p buf p.phase := by
  cases here : p.state with
  | expectStatusLine | expectHeaders | expectChunkSize =>
    simp only [round, phase, here, play, onLine]
    rfl
  | expectBody =>
    simp only [round, phase, here]
    exact bodyData_eq p buf (ready.sound.body here)
  | expectChunkData =>
    simp only [round, phase, here]
    exact chunkData_eq p buf (ready.sound.chunk here)
  -- there is no bound on what belongs to the body
  | expectEofBody =>
    have all : (cut none buf).length = buf.length := rfl
    simp only [round, phase, here, play]
    by_cases none : (cut none buf).length = 0
    · rw [if_neg (by omega), if_pos none]
    · rw [if_pos (by omega), if_neg none]
      simp only [receiveRest, here, cut]
  | expectChunkCrlf | gotAll | error => simp only [round, phase, here, play]

theorem phase_line (handle : Bytes → Round ResponseParser) (ready : Ready p)
    (now : p.phase = .line handle) (line : Bytes) : Handled line (handle line) := by
  unfold phase at now
  split at now <;> cases now
  next here => exact statusLine_handled p line ready here
  next here => exact headersLine_handled p line ready here
  next => exact chunkSizeLine_handled p line

theorem ready_receive (data : Bytes) (here : p.state = .expectBody)
    (fits : data.length ≤ p.contentLength - p.bodyReceived)
    (missing : p.bodyReceived < p.contentLength) : Ready (p.receive data) := by
  unfold receive
  dsimp only
  split
  · exact ready_of_state _ (by simp [finish]) (by simp [finish])
  next short =>
    refine ready_of_sound _ ⟨fun _ => ?_, by simp [here]⟩ (by simp [here]) (by simp [here])
    show p.bodyReceived + data.length < p.contentLength
    omega

theorem ready_receiveChunk (data : Bytes) (here : p.state = .expectChunkData) :
    Ready (p.receiveChunk data) := by
  unfold receiveChunk
  dsimp only
  split
  · exact ready_of_state _ (by simp) (by simp)
  next open' =>
    exact ready_of_sound _ ⟨by simp [here], fun _ => Nat.pos_of_ne_zero open'⟩ (by simp [here])
      (by simp [here])

theorem receive_receive (x y : Bytes) (short : p.bodyReceived + x.length ≠ p.contentLength) :
    (p.receive x).receive y = p.receive (x ++ y) := by
  simp only [receive, if_neg short, append_assoc, length_append, Nat.add_assoc]

theorem receiveChunk_receiveChunk (x y : Bytes) (short : p.chunkRemaining - x.length ≠ 0) :
    (p.receiveChunk x).receiveChunk y = p.receiveChunk (x ++ y) := by
  simp only [receiveChunk, if_neg short, append_assoc, length_append, Nat.sub_sub]

theorem round_phased :
    Phased crlfDelimiter round phase Ready (fun p => p.state = .error) where
  consumes := round_consumes
  plays := round_eq_play
  rejectedStops := by
    intro p buf here
    simp only [round, here]
  line := fun p handle ready now line => phase_line p handle ready now line
  room := by
    intro p room receive ready now
    unfold phase at now
    split at now <;> cases now
    next here =>
      have := ready.sound.body here
      simp only [ne_eq, Option.some.injEq]
      omega
    next => simp
    next here =>
      have := ready.sound.chunk here
      simp only [ne_eq, Option.some.injEq]
      omega
  data := by
    intro p room receive ready now x fits
    unfold phase at now
    split at now <;> cases now
    next here => exact ready_receive p x here (fits _ rfl) (ready.sound.body here)
    next here =>
      exact ready_of_state _ (by simp [receiveRest, here]) (by simp [receiveRest, here])
    next here => exact ready_receiveChunk p x here
  dataMore := by
    intro p room receive ready now x short
    unfold phase at now
    split at now <;> cases now
    next here =>
      have less := short _ rfl
      -- the body stays open, with less room
      have open' : p.bodyReceived + x.length ≠ p.contentLength := by omega
      refine ⟨(p.receive x).receive, ?_, fun y => receive_receive p x y open'⟩
      have counts : (p.receive x).state = .expectBody ∧
          (p.receive x).contentLength = p.contentLength ∧
          (p.receive x).bodyReceived = p.bodyReceived + x.length := by
        rw [receive, if_neg open']
        exact ⟨here, rfl, rfl⟩
      rw [phase_body _ counts.1, counts.2.1, counts.2.2, Option.map_some, Nat.sub_sub]
    next here =>
      refine ⟨(p.receiveRest x).receiveRest, ?_, fun y => ?_⟩
      · have state : (p.receiveRest x).state = .expectEofBody := here
        simp only [phase, state, Option.map_none]
      · simp only [receiveRest, append_assoc]
    next here =>
      have less := short _ rfl
      -- likewise the chunk
      have open' : p.chunkRemaining - x.length ≠ 0 := by omega
      refine ⟨(p.receiveChunk x).receiveChunk, ?_, fun y => receiveChunk_receiveChunk p x y open'⟩
      have counts : (p.receiveChunk x).state = .expectChunkData ∧
          (p.receiveChunk x).chunkRemaining = p.chunkRemaining - x.length := by
        rw [receiveChunk, if_neg open']
        exact ⟨here, rfl⟩
      rw [phase_chunk _ counts.1, counts.2, Option.map_some]
  skip := by
    intro p n next ready now
    unfold phase at now
    split at now <;> cases now
    exact ready_of_state _ (by simp) (by simp)

/-! ### Split invariance -/

/-- Append the pieces one by one to the buffer and call `parse` after each. -/
def parsePieces (x : ResponseParser × Bytes) (pieces : List Bytes) : ResponseParser × Bytes :=
  feed round x pieces

/-- The parser when the input is over; `onEof` is only called if the peer has closed. -/
def ended (p : ResponseParser) (closed : Bool) : ResponseParser := if closed then p.onEof else p

theorem ended_error (closed : Bool) (here : p.state = .error) :
    (p.ended closed).state = .error := by
  unfold ended onEof
  split_ifs with _ eof
  · simp [here] at eof
  · exact here
  · exact here

/-- Every way of cutting a byte string into pieces leads to the same state as one call on
the whole string, and to the same response and unconsumed bytes unless it is rejected;
also when the peer closes afterwards. -/
theorem parsePieces_eq_parse (pieces : List Bytes) (closed : Bool) :
    let split := parsePieces ({}, []) pieces
    let whole := parse {} pieces.flatten
    (split.1.ended closed).state = (whole.1.ended closed).state ∧
      ((whole.1.ended closed).state ≠ .error →
        (split.1.ended closed).response = (whole.1.ended closed).response ∧ split.2 = whole.2) := by
  have agree := round_phased.lawful.feed_agrees {} [] pieces ready_fresh (parse_stop _ _ _ rfl)
  rw [List.nil_append] at agree
  intro split whole
  -- both are the same, or both are rejected
  rcases agree with same | ⟨left, right, _⟩
  · have equal : split = whole := same
    rw [equal]
    exact ⟨rfl, fun _ => ⟨rfl, rfl⟩⟩
  · have left' := ended_error split.1 closed left
    have right' := ended_error whole.1 closed right
    exact ⟨left'.trans right'.symm, fun accepted => absurd right' accepted⟩

end ResponseParser

end Cox.Http

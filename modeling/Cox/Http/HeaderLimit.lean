import Cox.Http.Consumed

/-!
# The limit of the header section

`kMaxHeaderBytes` is meant to bound what a client can make the parser keep before it has seen
the end of the header section. The parser compares its counter with the limit after each
header line. A request line is never compared, and a line that has not ended is not counted,
so the bound holds exactly for the streams that are short, or whose lines within the limit
end the header section or get it refused.
-/
namespace Cox.Http

open Cox.Lib Cox.Lib.Resumable HttpContext List

def InHead (c : HttpContext) : Prop := c.state = .expectRequestLine ∨ c.state = .expectHeaders

instance (c : HttpContext) : Decidable (InHead c) := inferInstanceAs (Decidable (_ ∨ _))

/-- After `s` has arrived: in the header section, what was consumed of it and what is in the
buffer are within the limit; behind it, the request line and the header lines were. -/
def HeadBounded (s : Bytes) (outcome : HttpContext × Bytes) : Prop :=
  (InHead outcome.1 → (s.length - outcome.2.length) + outcome.2.length ≤ kMaxHeaderBytes) ∧
    (¬InHead outcome.1 → outcome.1.state ≠ .error →
      (endLines (headLines s)).length ≤ kMaxHeaderBytes)

/-- The lines in these bytes end the header section or get it refused: a request line that is
not accepted, a line without a colon, as the blank one is, or too many bytes of header lines. -/
def HeadDecided (b : Bytes) : Prop :=
  match linesFrom [] b with
  | [] => False
  | line :: fields => (parseRequestLine {} line).2 = false ∨ (∃ field ∈ fields, colonByte ∉ field) ∨
      fields ≠ [] ∧ kMaxHeaderBytes < (endLines (line :: fields)).length

instance (b : Bytes) : Decidable (HeadDecided b) := by
  unfold HeadDecided
  split <;> infer_instance

namespace Reads

variable {cap : Nat} {read : Bytes} {c : HttpContext}

theorem in_head (reads : Reads cap read c) (inside : InHead c) :
    read = [] ∧ c = fresh cap ∨ ∃ head : RequestHead, read = head.bytes ∧ c = head.context cap := by
  cases reads with
  | start => exact .inl ⟨rfl, rfl⟩
  | headers head => exact .inr ⟨head, rfl, rfl⟩
  | sized head data =>
    simp only [InHead, RequestHead.sized] at inside
    split at inside <;> simp at inside
  | refused _ _ here => simp [InHead, here] at inside
  | tooLong | chunkSize | chunkData | overCap | chunkCrlf | lastChunk =>
    simp [InHead, RequestHead.inChunks] at inside

theorem head_read (reads : Reads cap read c) (behind : ¬InHead c) (accepted : c.state ≠ .error) :
    ∃ (head : RequestHead) (rest : Bytes), read = head.bytes ++ crlf ++ rest := by
  cases reads with
  | start => exact absurd (.inl rfl) behind
  | headers => exact absurd (.inr rfl) behind
  | sized head data => exact ⟨head, data, rfl⟩
  | chunkSize head chunks => exact ⟨head, chunkBytes chunks, rfl⟩
  | chunkData head chunks line data | chunkCrlf head chunks line data =>
    exact ⟨head, chunkBytes chunks ++ (line ++ crlf ++ data), append_assoc ..⟩
  | lastChunk head chunks line =>
    exact ⟨head, chunkBytes chunks ++ (line ++ crlf), append_assoc ..⟩
  | tooLong | overCap => exact absurd rfl accepted
  | refused _ _ here => exact absurd here accepted

end Reads

theorem lineHandler_behind (c : HttpContext) (behind : ¬InHead c) (handle : Bytes → Round HttpContext)
    (waits : c.lineHandler = some handle) :
    c.state = .expectChunkSize ∧ handle = c.chunkSizeLine := by
  unfold lineHandler at waits
  split at waits
  next here => exact absurd (.inl here) behind
  next here => exact absurd (.inr here) behind
  next here =>
    cases waits
    exact ⟨here, rfl⟩
  · cases waits

theorem round_behind (c : HttpContext) (b : Bytes) (c' : HttpContext) (n : Nat)
    (behind : Sound c ∧ ¬InHead c) (played : c.round b = .take c' n) : Sound c' ∧ ¬InHead c' := by
  refine ⟨round_sound c b c' n behind.1 played, ?_⟩
  have plays := round_plays c b behind.1
  rw [played] at plays
  cases plays with
  | line handle i _ waits found same answer =>
    obtain ⟨_, rfl⟩ := lineHandler_behind c behind.2 handle waits
    cases same
    simp only [InHead]
    split <;> simp
  | body n here =>
    simp only [InHead, receive, here]
    split <;> simp
  | chunk n here =>
    simp only [InHead, receiveChunk, here]
    split <;> simp
  | crlf => simp [InHead]

theorem parse_behind (c : HttpContext) (b : Bytes) (sound : Sound c) (behind : ¬InHead c) :
    ¬InHead (parseRequest c b).1 := by
  refine (parse_preserves (P := fun c => Sound c ∧ ¬InHead c) round_consumes ?_ ?_ ?_ c b
    ⟨sound, behind⟩).2
  · intro c b c' behind played
    rw [round_lawful.stopSame c b c' behind.1 played]
    exact behind
  · intro c b c' n behind played
    have here := round_fail c b c' n behind.1 played
    exact ⟨sound_of_state c' (by simp [here]) (by simp [here]), by simp [InHead, here]⟩
  · exact round_behind

theorem state_append (cap : Nat) (a b : Bytes) :
    (parseRequest (parseRequest (fresh cap) a).1 ((parseRequest (fresh cap) a).2 ++ b)).1.state =
      (parseRequest (fresh cap) (a ++ b)).1.state := by
  have agree := (parsePieces_eq_parseRequest cap [a, b]).1
  rw [flatten_cons, flatten_singleton] at agree
  exact agree

theorem inHead_append (cap : Nat) (a b : Bytes)
    (inside : InHead (parseRequest (fresh cap) (a ++ b)).1) :
    InHead (parseRequest (fresh cap) a).1 := by
  by_contra behind
  obtain ⟨_, _, reads⟩ := reads_parseRequest cap a
  have still := parse_behind _ ((parseRequest (fresh cap) a).2 ++ b) reads.sound behind
  rw [InHead, state_append] at still
  exact still inside

theorem accepted_append (cap : Nat) (a b : Bytes)
    (accepted : (parseRequest (fresh cap) (a ++ b)).1.state ≠ .error) :
    (parseRequest (fresh cap) a).1.state ≠ .error := by
  intro refused
  have stuck : parseRequest (parseRequest (fresh cap) a).1 ((parseRequest (fresh cap) a).2 ++ b) =
      ((parseRequest (fresh cap) a).1, (parseRequest (fresh cap) a).2 ++ b) :=
    parse_stop _ _ _ (round_lawful.rejectedStops _ _ refused)
  rw [← state_append, stuck] at accepted
  exact accepted refused

theorem findCrlf_waits (c : HttpContext) (b : Bytes) (inside : InHead c) (sound : Sound c)
    (waits : c.round b = .stop c) : findCrlf b = none := by
  have plays := round_plays c b sound
  rw [waits] at plays
  cases plays with
  | waitLine _ _ missing => exact missing
  | line handle i _ _ _ _ answer => exact absurd answer id
  | waitBody here | waitChunk here | waitCrlf here => simp [InHead, here] at inside
  | done here => rcases here with here | here <;> simp [InHead, here] at inside

theorem parse_unended (c : HttpContext) (b : Bytes) (handle : Bytes → Round HttpContext)
    (waits : c.lineHandler = some handle) (missing : findCrlf b = none) :
    parseRequest c b = (c, b) := by
  apply parse_stop
  rw [round_line c handle waits, onLine_none c handle b missing]

theorem inHead_iff (cap : Nat) (b : Bytes) :
    InHead (parseRequest (fresh cap) b).1 ↔ ¬HeadDecided b := by
  constructor
  · intro inside
    obtain ⟨read, whole, reads⟩ := reads_parseRequest cap b
    have missing : findCrlf (parseRequest (fresh cap) b).2 = none :=
      findCrlf_waits _ _ inside reads.sound
        (round_lawful.parse_waits (fresh cap) b (sound_fresh cap))
    have ended := linesFrom_none [] _ missing
    unfold HeadDecided
    rcases reads.in_head inside with ⟨rfl, _⟩ | ⟨head, rfl, _⟩
    · rw [nil_append] at whole
      rw [whole, ended]
      exact id
    · rw [whole, RequestHead.bytes, linesFrom_endLines _ _ head.whole, ended, append_nil]
      rintro (bad | ⟨field, member, bad⟩ | ⟨some, large⟩)
      · simp [head.accepted] at bad
      · exact bad (head.colons field member)
      · exact absurd (head.small some) (Nat.not_le.mpr large)
  · intro undecided
    obtain ⟨rest, split, missing, whole⟩ := linesFrom_split b
    unfold HeadDecided at undecided
    split at undecided
    next none =>
      rw [none] at split
      rw [split, show endLines [] ++ rest = rest from rfl,
        parse_unended (fresh cap) rest _ rfl missing]
      exact .inl rfl
    next line fields lines =>
      rw [lines] at split whole
      simp only [not_or, not_and, not_exists, not_not, Nat.not_lt, Bool.not_eq_false] at undecided
      let head : RequestHead := ⟨line, fields, whole, undecided.1, undecided.2.1, undecided.2.2⟩
      rw [split, show endLines (line :: fields) = head.bytes from rfl, parse_head,
        parse_unended (head.context cap) rest _ rfl missing]
      exact .inr rfl

theorem length_pieces (cap : Nat) (pieces : List Bytes) :
    (pieces.flatten.length - (parsePieces (fresh cap, []) pieces).2.length) +
      (parsePieces (fresh cap, []) pieces).2.length = pieces.flatten.length := by
  obtain ⟨read, whole, _⟩ := reads_pieces cap pieces
  have lengths := congrArg List.length whole
  rw [length_append] at lengths
  omega

/-- What the limit means for a stream that has arrived in pieces. -/
theorem headBounded_of_leaves (cap : Nat) (pieces : List Bytes)
    (leaves : kMaxHeaderBytes < pieces.flatten.length →
      ¬InHead (parseRequest (fresh cap) (pieces.flatten.take (kMaxHeaderBytes + 1))).1) :
    HeadBounded pieces.flatten (parsePieces (fresh cap, []) pieces) := by
  obtain ⟨state, _, _⟩ := parsePieces_eq_parseRequest cap pieces
  have cut := take_append_drop (kMaxHeaderBytes + 1) pieces.flatten
  constructor
  · intro inside
    rw [length_pieces]
    by_contra long
    rw [InHead, state, ← cut] at inside
    exact leaves (Nat.lt_of_not_le long) (inHead_append cap _ _ inside)
  · intro behind accepted
    obtain ⟨read, whole, reads⟩ := reads_pieces cap pieces
    obtain ⟨head, rest, rfl⟩ := reads.head_read behind accepted
    by_cases long : kMaxHeaderBytes < pieces.flatten.length
    · -- the head is in the first bytes already
      rw [state, ← cut] at accepted
      have earlier := accepted_append cap _ _ accepted
      obtain ⟨read', whole', reads'⟩ :=
        reads_parseRequest cap (pieces.flatten.take (kMaxHeaderBytes + 1))
      obtain ⟨head', rest', rfl⟩ := reads'.head_read (leaves long) earlier
      have size := congrArg List.length whole'
      rw [← cut, whole', append_assoc, append_assoc, head'.headLines_bytes]
      simp only [length_append, length_take, RequestHead.bytes, crlf, length_cons,
        length_nil] at size
      omega
    · have size := congrArg List.length whole
      rw [whole, append_assoc, head.headLines_bytes]
      simp only [length_append, RequestHead.bytes] at size
      omega

/-- **The limit of the header section** holds after every call, for every way to cut the
stream, exactly if the stream is no longer than the limit or the lines in its first bytes, one
more than the limit, decide the header section. -/
theorem headBounded_iff (cap : Nat) (s : Bytes) :
    (∀ pieces : List Bytes, pieces.flatten = s → ∀ k,
      HeadBounded (pieces.take k).flatten (parsePieces (fresh cap, []) (pieces.take k))) ↔
    (kMaxHeaderBytes < s.length → HeadDecided (s.take (kMaxHeaderBytes + 1))) := by
  constructor
  · intro bounded long
    by_contra undecided
    have inside := (inHead_iff cap _).mpr undecided
    have first := (bounded [s.take (kMaxHeaderBytes + 1), s.drop (kMaxHeaderBytes + 1)]
      (by simp) 1).1 inside
    rw [length_pieces] at first
    simp only [List.take_succ_cons, List.take_zero, List.flatten_cons, List.flatten_nil,
      List.append_nil, List.length_take] at first
    omega
  · rintro decides pieces rfl k
    apply headBounded_of_leaves
    intro long inside
    -- the first pieces are a beginning of the stream
    have split : pieces.flatten = (pieces.take k).flatten ++ (pieces.drop k).flatten := by
      rw [← List.flatten_append, List.take_append_drop]
    rw [split, List.length_append, List.take_append_of_le_length (by omega)] at decides
    exact (inHead_iff cap _).mp inside (decides (by omega))

theorem findCrlf_no_cr (s : Bytes) (plain : cr ∉ s) : findCrlf s = none := by
  cases found : findCrlf s with
  | none => rfl
  | some i =>
    refine absurd ?_ plain
    rw [findCrlf_split s i found]
    simp [crlf]

theorem not_headBounded_of_long (s : Bytes) (outcome : HttpContext × Bytes) (inside : InHead outcome.1)
    (long : kMaxHeaderBytes < outcome.2.length) : ¬HeadBounded s outcome := by
  intro bounded
  have within := bounded.1 inside
  omega

def endlessLine : Bytes := List.replicate (kMaxHeaderBytes + 1) 97

theorem endlessLine_notBounded :
    (parseRequest (fresh 0) endlessLine).1.state = .expectRequestLine ∧
      (parseRequest (fresh 0) endlessLine).2.length = kMaxHeaderBytes + 1 ∧
      ¬HeadBounded endlessLine (parseRequest (fresh 0) endlessLine) := by
  have plain : cr ∉ endlessLine := by
    intro member
    exact absurd (List.eq_of_mem_replicate member) (by decide)
  have length : endlessLine.length = kMaxHeaderBytes + 1 := List.length_replicate
  rw [parse_unended (fresh 0) endlessLine _ rfl (findCrlf_no_cr _ plain)]
  refine ⟨rfl, length, ?_⟩
  apply not_headBounded_of_long
  · exact Or.inl rfl
  · exact Nat.lt_of_lt_of_eq (Nat.lt_succ_self _) length.symm

end Cox.Http

import Cox.Http.Consumed

/-!
# The framing of chunked requests

What a chunked body should look like: chunks, each of them a size line of hexadecimal digits
with an optional extension, so many bytes, and CRLF; then a size line for zero. The parser
reads the size lines with `strtoul`, which takes blanks, signs, a `0x`, no digits at all, and
values that do not fit; and it skips the two bytes behind the data whatever they are. A body
that it has accepted is well framed exactly when none of this is found in the bytes behind the
head, from one size line to the next.
-/
namespace Cox.Http

open Cox.Lib HttpContext List

def semicolon : UInt8 := 59

def isHexDigit (c : UInt8) : Bool := (digitValue 16 c).isSome

/-- The size that a size line states: at least one hexadecimal digit and a value below 2^64,
then the end of the line or an extension. -/
def hexSize (line : Bytes) : Option Nat :=
  let digits := line.takeWhile isHexDigit
  let rest := line.dropWhile isHexDigit
  if digits ≠ [] ∧ readDigits 16 0 digits ≤ ulongMax ∧ (rest = [] ∨ rest.head? = some semicolon) then
    some (readDigits 16 0 digits)
  else none

/-- A chunked body, up to its last size line. -/
inductive WellFramed : Bytes → Prop where
  | last (line : Bytes) (whole : Unbroken line) (size : hexSize line = some 0) :
      WellFramed (line ++ crlf)
  | chunk (line data rest : Bytes) (whole : Unbroken line) (size : hexSize line = some data.length)
      (later : WellFramed rest) : WellFramed (line ++ crlf ++ (data ++ crlf ++ rest))

structure ReadBody where
  chunks : List ReadChunk
  last : Bytes
  whole : Unbroken last
  zero : strtoul last 16 = 0

namespace ReadBody

def bytes (body : ReadBody) : Bytes := chunkBytes body.chunks ++ (body.last ++ crlf)

def content (body : ReadBody) : Bytes := chunkContent body.chunks

end ReadBody

/-! ### What the parser puts up with -/

/-- What `strtoul` puts up with in a size line: blanks, a sign or a `0x` in front, no digits,
other bytes than an extension behind them, and a value that does not fit. -/
def Lenient (line : Bytes) : Prop :=
  line.dropWhile isspace ≠ line ∨ readSign line ≠ (false, line) ∨ skipHexMark 16 line ≠ line ∨
    line.takeWhile isHexDigit = [] ∨ (∃ c ∈ (line.dropWhile isHexDigit).head?, c ≠ semicolon) ∨
    ulongMax < readDigits 16 0 line

instance (line : Bytes) : Decidable (Lenient line) :=
  inferInstanceAs (Decidable (_ ∨ _ ∨ _ ∨ _ ∨ _ ∨ _))

/-- Among the chunks that begin these bytes is a size line that only `strtoul` takes, or one whose
data is not followed by CRLF. -/
def putsUp : Nat → Bytes → Bool
  | 0, _ => false
  | fuel + 1, b =>
    match findCrlf b with
    | none => false
    | some i =>
      let size := strtoul (b.take i) 16
      let behind := b.drop (i + 2 + size)
      Lenient (b.take i) || size ≠ 0 && (behind.take 2 ≠ crlf || putsUp fuel (behind.drop 2))

/-- The bytes behind the blank line that ends the head. -/
def behindHead (s : Bytes) : Bytes := s.drop ((endLines (headLines s)).length + 2)

theorem readDigits_takeWhile (line : Bytes) :
    readDigits 16 0 (line.takeWhile isHexDigit) = readDigits 16 0 line := by
  have read := readDigits_append 16 0 (line.takeWhile isHexDigit) (line.dropWhile isHexDigit)
    (fun c member => mem_takeWhile_imp (p := isHexDigit) member) ?_
  · rw [← read, takeWhile_append_dropWhile]
  · intro c first
    have ends := head?_dropWhile_not isHexDigit line
    rw [Option.mem_def.mp first] at ends
    simpa [isHexDigit] using ends

theorem skips_nothing (line : Bytes) (digits : line.takeWhile isHexDigit ≠ []) :
    line.dropWhile isspace = line ∧ readSign line = (false, line) := by
  cases line with
  | nil => exact absurd rfl digits
  | cons c line =>
    cases digit : isHexDigit c with
    | true =>
      obtain ⟨blank, minus, plus, _⟩ := digit_plain 16 (le_of_eq rfl) c digit
      simp [blank, readSign, minus, plus]
    | false => simp [takeWhile, digit] at digits

theorem extension_iff (rest : Bytes) :
    (rest = [] ∨ rest.head? = some semicolon) ↔ ∀ c ∈ rest.head?, c = semicolon := by
  cases rest <;> simp

theorem unmarked (line : Bytes)
    (ends : ∀ c ∈ (line.dropWhile isHexDigit).head?, c = semicolon) : skipHexMark 16 line = line := by
  match line, ends with
  | [], _ | [_], _ => rfl
  | a :: b :: rest, ends =>
    rw [skipHexMark, if_neg]
    rintro ⟨_, rfl, mark⟩
    have other : isHexDigit b = false := by
      cases digit : isHexDigit b with
      | false => rfl
      | true => exact absurd mark (digit_plain 16 (le_of_eq rfl) b digit).2.2.2.2
    have same := ends b (by simp [dropWhile, other, show isHexDigit 48 = true from by decide])
    subst same
    exact absurd mark (by decide)

theorem hexSize_iff (line : Bytes) : hexSize line ≠ none ↔ ¬Lenient line := by
  have reads := readDigits_takeWhile line
  constructor
  · intro strict
    unfold hexSize at strict
    dsimp only at strict
    split at strict
    next size =>
      obtain ⟨nonempty, fits, ends⟩ := size
      have behind := (extension_iff _).mp ends
      have front := skips_nothing line nonempty
      rintro (blank | sign | mark | none | ⟨c, first, other⟩ | large)
      · exact blank front.1
      · exact sign front.2
      · exact mark (unmarked line behind)
      · exact nonempty none
      · exact other (behind c first)
      · omega
    · exact absurd rfl strict
  · intro strict
    simp only [Lenient, not_or, not_exists, not_and, not_not, Nat.not_lt] at strict
    obtain ⟨_, _, _, nonempty, ends, fits⟩ := strict
    rw [hexSize, if_pos ⟨nonempty, by omega, (extension_iff _).mpr ends⟩]
    exact Option.some_ne_none _

theorem strtoul_hexSize (line : Bytes) (n : Nat) (size : hexSize line = some n) :
    strtoul line 16 = n := by
  unfold hexSize at size
  dsimp only at size
  split at size
  next strict =>
    cases size
    obtain ⟨nonempty, fits, ends⟩ := strict
    have read := strtoul_digits 16 (le_of_eq rfl) _ (line.dropWhile isHexDigit) nonempty
      (fun c member => mem_takeWhile_imp (p := isHexDigit) member) ?_ fits
    · rwa [takeWhile_append_dropWhile] at read
    · intro c first
      rw [(extension_iff _).mp ends c first]
      decide
  · cases size

theorem line_unique (a b x y : Bytes) (first : Unbroken a) (second : Unbroken b)
    (same : a ++ crlf ++ x = b ++ crlf ++ y) : a = b ∧ x = y := by
  have lengths : a.length = b.length := by
    have found := findCrlf_unbroken a x first
    rw [same, findCrlf_unbroken b y second] at found
    exact (Option.some.inj found).symm
  rw [append_assoc, append_assoc] at same
  obtain ⟨lines, rests⟩ := append_inj same lengths
  exact ⟨lines, append_cancel_left rests⟩

theorem WellFramed.cases_line {line rest : Bytes} (whole : Unbroken line)
    (framed : WellFramed (line ++ crlf ++ rest)) :
    hexSize line = some 0 ∧ rest = [] ∨
      ∃ data later, hexSize line = some data.length ∧ rest = data ++ crlf ++ later ∧
        WellFramed later := by
  generalize body : line ++ crlf ++ rest = b at framed
  cases framed with
  | last line' whole' size =>
    have same : line ++ crlf ++ rest = line' ++ crlf ++ [] := by rw [body, append_nil]
    obtain ⟨rfl, rfl⟩ := line_unique _ _ _ _ whole whole' same
    exact .inl ⟨size, rfl⟩
  | chunk line' data later whole' size framed =>
    obtain ⟨rfl, rfl⟩ := line_unique _ _ _ _ whole whole' body
    exact .inr ⟨data, later, size, rfl, framed⟩

theorem wellFramed_last (last : Bytes) (whole : Unbroken last) (zero : strtoul last 16 = 0) :
    WellFramed (last ++ crlf) ↔ hexSize last ≠ none := by
  constructor
  · intro framed
    rw [← append_nil (last ++ crlf)] at framed
    rcases framed.cases_line whole with ⟨size, _⟩ | ⟨data, later, size, _⟩ <;> simp [size]
  · intro strict
    obtain ⟨n, size⟩ := Option.ne_none_iff_exists'.mp strict
    have value := strtoul_hexSize last n size
    rw [zero] at value
    subst value
    exact .last last whole size

theorem wellFramed_chunk (chunk : ReadChunk) (rest : Bytes) :
    WellFramed (chunk.bytes ++ rest) ↔
      (hexSize chunk.line ≠ none ∧ chunk.tail = crlf) ∧ WellFramed rest := by
  have shape : chunk.bytes ++ rest = chunk.line ++ crlf ++ (chunk.data ++ (chunk.tail ++ rest)) := by
    simp only [ReadChunk.bytes, append_assoc]
  rw [shape]
  constructor
  · intro framed
    rcases framed.cases_line chunk.whole with ⟨_, empty⟩ | ⟨data, later, size, same, framed⟩
    · exact absurd (append_eq_nil_iff.mp empty).1 chunk.nonempty
    · -- the parser and the grammar agree on the size, so on the data
      have lengths : chunk.data.length = data.length := by
        rw [← chunk.size, strtoul_hexSize _ _ size]
      rw [append_assoc data] at same
      obtain ⟨_, behind⟩ := append_inj same lengths
      obtain ⟨tail, rfl⟩ := append_inj behind chunk.two
      exact ⟨⟨by simp [size], tail⟩, framed⟩
  · rintro ⟨⟨strict, tail⟩, framed⟩
    obtain ⟨n, size⟩ := Option.ne_none_iff_exists'.mp strict
    have value := strtoul_hexSize _ n size
    rw [chunk.size] at value
    subst value
    rw [tail, ← append_assoc chunk.data]
    exact .chunk _ _ _ chunk.whole size framed

theorem putsUp_line (fuel : Nat) (line rest : Bytes) (whole : Unbroken line) :
    putsUp (fuel + 1) (line ++ crlf ++ rest) = (decide (Lenient line) ||
      strtoul line 16 ≠ 0 && ((rest.drop (strtoul line 16)).take 2 ≠ crlf ||
        putsUp fuel ((rest.drop (strtoul line 16)).drop 2))) := by
  have first : (line ++ crlf ++ rest).take line.length = line := by rw [append_assoc, take_left]
  have behind : (line ++ crlf ++ rest).drop (line.length + 2 + strtoul line 16) =
      rest.drop (strtoul line 16) := by
    rw [← drop_drop, show line.length + 2 = (line ++ crlf).length by simp [crlf], drop_left]
  rw [putsUp, findCrlf_unbroken line rest whole]
  dsimp only
  rw [first, behind]

theorem putsUp_chunk (fuel : Nat) (chunk : ReadChunk) (rest : Bytes) :
    putsUp (fuel + 1) (chunk.bytes ++ rest) =
      (decide (Lenient chunk.line) || (chunk.tail ≠ crlf || putsUp fuel rest)) := by
  have shape : chunk.bytes ++ rest = chunk.line ++ crlf ++ (chunk.data ++ (chunk.tail ++ rest)) := by
    simp only [ReadChunk.bytes, append_assoc]
  have some : strtoul chunk.line 16 ≠ 0 := by
    rw [chunk.size]
    exact Nat.ne_of_gt (length_pos_iff.mpr chunk.nonempty)
  rw [shape, putsUp_line fuel _ _ chunk.whole, decide_eq_true some, Bool.true_and, chunk.size,
    drop_left, take_left' chunk.two, drop_left' chunk.two]

theorem ReadBody.wellFramed_iff (body : ReadBody) (left : Bytes) (fuel : Nat)
    (enough : body.chunks.length < fuel) :
    WellFramed body.bytes ↔ putsUp fuel (body.bytes ++ left) = false := by
  obtain ⟨chunks, last, whole, zero⟩ := body
  simp only [ReadBody.bytes] at enough ⊢
  -- one unit of fuel for each chunk, and one for the last size line
  induction chunks generalizing fuel with
  | nil =>
    obtain ⟨fuel, rfl⟩ := Nat.exists_eq_succ_of_ne_zero (Nat.ne_of_gt enough)
    rw [chunkBytes, flatMap_nil, nil_append, wellFramed_last last whole zero, hexSize_iff,
      putsUp_line fuel last left whole, zero]
    simp
  | cons chunk chunks ih =>
    obtain ⟨fuel, rfl⟩ := Nat.exists_eq_succ_of_ne_zero (Nat.ne_of_gt (Nat.zero_lt_of_lt enough))
    rw [length_cons, Nat.succ_lt_succ_iff] at enough
    rw [chunkBytes, flatMap_cons, append_assoc, wellFramed_chunk, append_assoc, putsUp_chunk,
      show chunks.flatMap ReadChunk.bytes = chunkBytes chunks from rfl, ih fuel enough, hexSize_iff]
    simp [and_assoc]

theorem length_chunks (chunks : List ReadChunk) : chunks.length ≤ (chunkBytes chunks).length := by
  induction chunks with
  | nil => exact Nat.le_refl 0
  | cons chunk chunks ih =>
    have two := chunk.two
    simp only [chunkBytes, flatMap_cons, length_append, length_cons, ReadChunk.bytes] at ih ⊢
    omega

/-! ### Accepted requests -/

/-- The bytes of the body that were retrieved: those behind the blank line that are not left in
the buffer. -/
def consumedBody (s left : Bytes) : Bytes :=
  (behindHead s).take ((behindHead s).length - left.length)

theorem behindHead_eq (head : RequestHead) (rest : Bytes) :
    behindHead (head.bytes ++ crlf ++ rest) = rest := by
  have size : head.bytes.length + 2 = (head.bytes ++ crlf).length := by simp [crlf]
  rw [behindHead, head.headLines_bytes rest,
    show endLines (head.line :: head.fields) = head.bytes from rfl, size, drop_left]

theorem consumedBody_eq (head : RequestHead) (body left : Bytes) :
    consumedBody (head.bytes ++ crlf ++ body ++ left) left = body := by
  rw [consumedBody, append_assoc _ body, behindHead_eq, length_append, Nat.add_sub_cancel, take_left]

/-- A well-framed request in two pieces, with an extension. -/
def extendedPost : List Bytes :=
  [text "POST /c HTTP/1.1\r\nTransfer-Encoding: chunked\r\n\r\n3;x=y\r\na", text "bc\r\n0\r\n\r\n"]

/-- A request with other bytes behind its chunk, and a last size line without a digit. -/
def smuggledPost : Bytes :=
  text "POST /c HTTP/1.1\r\nTransfer-Encoding: chunked\r\n\r\n3\r\nabcXXzz\r\n"

end Cox.Http

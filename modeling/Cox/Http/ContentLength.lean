import Mathlib.Data.List.DropRight
import Cox.Http.Consumed

/-!
# The length of a request body

A request should say the length of its body once, or every time the same, as a decimal
number. The parser keeps the last field of the exact name and reads it with `strtoul`, so
different lengths, signs, and bytes behind the digits go unnoticed, and so does a name with
blanks behind it. Of the requests that it accepts, those without a doubt about the length are
exactly the ones whose header lines leave none.
-/
namespace Cox.Http

open Cox.Lib HttpContext List

/-- The name of a field in lower case, without the blanks before the colon. -/
def bareName (line : Bytes) : Bytes := (toLower (fieldName line)).rdropWhile fun c => c == 32 || c == 9

def lengthLines (fields : List Bytes) : List Bytes :=
  fields.filter fun line => bareName line == text "content-length"

/-- The number that a string of decimal digits denotes, if it is below 2^64. -/
def decimal (value : Bytes) : Option Nat :=
  if value ≠ [] ∧ value.all (fun c => (digitValue 10 c).isSome) = true ∧
      readDigits 10 0 value ≤ ulongMax then
    some (readDigits 10 0 value)
  else none

/-- No line gives a length and the body is empty, or they all give the length of the body. -/
def Unambiguous (fields : List Bytes) (body : Bytes) : Prop :=
  match lengthLines fields with
  | [] => body = []
  | line :: lines =>
    (∀ other ∈ lines, fieldValue other = fieldValue line) ∧
      decimal (fieldValue line) = some body.length

/-- The lines that give a length give the same one, in digits, and the parser knows the name of
at least one of them unless the length is zero. -/
def WellDeclared (fields : List Bytes) : Prop :=
  match lengthLines fields with
  | [] => True
  | line :: lines =>
    (∀ other ∈ lines, fieldValue other = fieldValue line) ∧ decimal (fieldValue line) ≠ none ∧
      ((∃ l ∈ line :: lines, toLower (fieldName l) = text "content-length") ∨
        decimal (fieldValue line) = some 0)

instance (fields : List Bytes) (body : Bytes) : Decidable (Unambiguous fields body) := by
  unfold Unambiguous
  split <;> infer_instance

instance (fields : List Bytes) : Decidable (WellDeclared fields) := by
  unfold WellDeclared
  split <;> infer_instance

theorem strtoul_decimal (value : Bytes) (n : Nat) (number : decimal value = some n) :
    value ≠ [] ∧ strtoul value 10 = n := by
  unfold decimal at number
  split at number
  next digits =>
    cases number
    obtain ⟨nonempty, all, fits⟩ := digits
    have decimals := all_eq_true.mp all
    have read := strtoul_digits 10 (by decide) value [] nonempty decimals (by simp) fits
    rw [append_nil] at read
    exact ⟨nonempty, read⟩
  · cases number

theorem mem_lengthLines (fields : List Bytes) (line : Bytes) (member : line ∈ fields)
    (named : toLower (fieldName line) = text "content-length") : line ∈ lengthLines fields := by
  refine mem_filter.mpr ⟨member, ?_⟩
  rw [bareName, named]
  decide

section Declared

variable (head : RequestHead)

theorem header_eq : head.request.header (text "content-length") =
    ((storeLines .empty head.fields).find? (text "content-length")).getD [] := by
  have lower : toLower (text "content-length") = text "content-length" := by decide
  simp only [HttpRequest.header, RequestHead.request, parseRequestLine_headers, lower]

theorem declaredLength_absent
    (absent : ∀ l ∈ head.fields, toLower (fieldName l) ≠ text "content-length") :
    declaredLength head.request = 0 := by
  have none : head.request.header (text "content-length") = [] := by
    rw [header_eq, find?_storeLines _ _ _ absent]
    rfl
  simp only [declaredLength, none, isEmpty_nil, if_true]

theorem declaredLength_same (line : Bytes) (lines : List Bytes) (n : Nat)
    (given : lengthLines head.fields = line :: lines)
    (same : ∀ other ∈ lines, fieldValue other = fieldValue line)
    (number : decimal (fieldValue line) = some n)
    (known : ∃ l ∈ line :: lines, toLower (fieldName l) = text "content-length") :
    declaredLength head.request = n := by
  obtain ⟨nonempty, value⟩ := strtoul_decimal _ n number
  have all (l : Bytes) (member : l ∈ line :: lines) : fieldValue l = fieldValue line := by
    rcases mem_cons.mp member with rfl | later
    · rfl
    · exact same l later
  have header : head.request.header (text "content-length") = fieldValue line := by
    rw [header_eq, find?_storeLines_same _ _ _ (fieldValue line)]
    · rfl
    · intro l member named
      exact all l (given ▸ mem_lengthLines head.fields l member named)
    · right
      obtain ⟨l, member, named⟩ := known
      rw [← given] at member
      exact ⟨l, (mem_filter.mp member).1, named⟩
  have some : (fieldValue line).isEmpty = false := isEmpty_eq_false_iff.mpr nonempty
  simp only [declaredLength, header, some, Bool.false_eq_true, if_false, value]

theorem unambiguous_iff_declared (data : Bytes) (size : data.length = declaredLength head.request) :
    Unambiguous head.fields data ↔ WellDeclared head.fields := by
  -- a name that the parser knows is a name
  have absent (none : ∀ l ∈ lengthLines head.fields, toLower (fieldName l) ≠ text "content-length") :
      data.length = 0 := by
    rw [size]
    refine declaredLength_absent head fun l member named => ?_
    exact none l (mem_lengthLines head.fields l member named) named
  unfold Unambiguous WellDeclared
  cases given : lengthLines head.fields with
  | nil =>
    rw [given] at absent
    simpa using absent
  | cons line lines =>
    rw [given] at absent
    simp only
    constructor
    · rintro ⟨same, number⟩
      refine ⟨same, by simp [number], ?_⟩
      by_cases known : ∃ l ∈ line :: lines, toLower (fieldName l) = text "content-length"
      · exact .inl known
      · right
        rw [number, absent fun l member named => known ⟨l, member, named⟩]
    · rintro ⟨same, digits, known⟩
      obtain ⟨n, number⟩ := Option.ne_none_iff_exists'.mp digits
      refine ⟨same, ?_⟩
      by_cases named : ∃ l ∈ line :: lines, toLower (fieldName l) = text "content-length"
      · rw [size, declaredLength_same head line lines n given same number named, number]
      · have zero := known.resolve_left named
        rw [zero, absent fun l member found => named ⟨l, member, found⟩]

end Declared

/-- **The length of an accepted body** is beyond doubt exactly when the header lines leave none. -/
theorem unambiguous_iff_wellDeclared (cap : Nat) (pieces : List Bytes)
    (accepted : (parsePieces (fresh cap, []) pieces).1.state = .gotAll)
    (plain : chunked (parsePieces (fresh cap, []) pieces).1.request = false) :
    let fields := (headLines pieces.flatten).tail
    Unambiguous fields (parsePieces (fresh cap, []) pieces).1.request.body ↔ WellDeclared fields := by
  intro fields
  obtain ⟨read, whole, reads⟩ := reads_pieces cap pieces
  rcases reads.complete accepted with ⟨head, data, _, size, rfl, context⟩ |
    ⟨head, chunks, last, coding, _, _, _, context⟩
  · have lines : fields = head.fields := by
      show (headLines pieces.flatten).tail = _
      rw [whole, List.append_assoc, head.headLines_bytes]
      rfl
    have body : (parsePieces (fresh cap, []) pieces).1.request.body = data := by
      rw [context]
      show head.request.body ++ data = data
      rw [head.request_body, List.nil_append]
    rw [lines, body]
    exact unambiguous_iff_declared head data size
  · rw [context] at plain
    exact absurd (coding.symm.trans plain) (by simp)

def agreedPost : List Bytes :=
  [text "POST / HTTP/1.1\r\nContent-Length: 5\r\ncontent-length : 5\r\n\r\nhel", text "lo"]

theorem unambiguous_agreedPost :
    Unambiguous (headLines agreedPost.flatten).tail
      (parsePieces (fresh 5, []) agreedPost).1.request.body :=
  (unambiguous_iff_wellDeclared 5 agreedPost (by decide +kernel) (by decide +kernel)).mpr
    (by decide +kernel)

/-- Two different lengths, the second with a sign and a letter. -/
def doubtfulPost : Bytes :=
  text "POST / HTTP/1.1\r\nContent-Length: 3\r\nContent-Length: +5x\r\n\r\nhello"

theorem doubtfulPost_accepted :
    let outcome := parseRequest (fresh 0) doubtfulPost
    outcome.1.state = .gotAll ∧ chunked outcome.1.request = false ∧
      outcome.1.request.body = text "hello" ∧
      ¬Unambiguous (headLines doubtfulPost).tail outcome.1.request.body := by
  decide +kernel

end Cox.Http

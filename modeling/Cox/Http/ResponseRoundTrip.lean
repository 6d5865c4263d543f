import Cox.Http.ResponseWire

/-!
# Responses that are sent and received

`HttpResponse::appendTo` writes the length of the body itself and leaves out a header of
the application with the same name. It compares the names as they are, but a receiver
ignores letter case: a header `content-length` is written as well, the head then has two
such fields, and the last one counts. So a response is received as it was sent exactly when
no header spells the name in another way.
-/
namespace Cox.Http

open Cox.Lib Cox.Lib.Resumable List

namespace HttpResponse

/-! ### What is written -/

/-- The headers that `appendTo` writes itself, by their exact names. -/
def managed (key : Bytes) : Bool := key == text "Content-Length" || key == text "Connection"

def startLine (r : HttpResponse) : Bytes :=
  text "HTTP/1.1 " ++ intNumeral r.statusCode ++ text " " ++ r.statusReason

def sentLines (r : HttpResponse) : List Bytes :=
  [fieldLine (text "Content-Length") (numeral 10 r.body.length),
    fieldLine (text "Connection") (if r.keepAlive then text "keep-alive" else text "close")] ++
    (r.headers.entries.filter fun e => !managed e.1).map fun e => fieldLine e.1 e.2

theorem appendTo_eq (r : HttpResponse) :
    r.appendTo = r.startLine ++ crlf ++ endLines r.sentLines ++ crlf ++ r.body := by
  have lines : endLines r.sentLines =
      (text "Content-Length: " ++ numeral 10 r.body.length ++ crlf) ++
        (text "Connection: " ++ (if r.keepAlive then text "keep-alive" else text "close") ++ crlf) ++
        HttpRequest.headerLines managed r.headers.entries := by
    rw [sentLines, endLines_append, headerLines_eq, ← singleton_append, endLines_append,
      endLines_field, endLines_field]
    rfl
  rw [lines]
  simp only [appendTo, startLine, append_assoc]
  rfl

/-- A response whose parts can be told apart on the wire. -/
structure WellFormed (r : HttpResponse) : Prop where
  code : 100 ≤ r.statusCode ∧ r.statusCode ≤ 599
  reason : r.statusReason ≠ [] ∧ cr ∉ r.statusReason ∧ lf ∉ r.statusReason
  names : ∀ e ∈ r.headers.entries, ∀ c ∈ e.1, c ≠ colonByte ∧ c ≠ cr ∧ c ≠ lf
  coding : ∀ e ∈ r.headers.entries, toLower e.1 ≠ text "transfer-encoding"
  values : ∀ e ∈ r.headers.entries, FieldText e.2

section WellFormed

variable {r : HttpResponse}

theorem codeNumeral (wellFormed : WellFormed r) :
    intNumeral r.statusCode = numeral 10 r.statusCode.natAbs := by
  have positive : ¬r.statusCode < 0 := by
    have := wellFormed.code
    omega
  rw [intNumeral, if_neg positive, nil_append]

theorem parseStatusLine_startLine (wellFormed : WellFormed r) :
    ResponseParser.parseStatusLine {} r.startLine =
      some { statusCode := r.statusCode, statusReason := r.statusReason } := by
  obtain ⟨low, high⟩ := wellFormed.code
  have number : (r.statusCode.natAbs : Int) = r.statusCode := Int.natAbs_of_nonneg (by omega)
  have space : sp ∉ numeral 10 r.statusCode.natAbs := fun member =>
    absurd (numeral_plain 10 _ (by decide) (by decide) sp member).1 (by decide)
  have cut : r.startLine = text "HTTP/1.1" ++
      sp :: (numeral 10 r.statusCode.natAbs ++ sp :: r.statusReason) := by
    rw [startLine, codeNumeral wellFormed]
    simp only [append_assoc]
    rfl
  have first := idxOf_cut (text "HTTP/1.1")
    (numeral 10 r.statusCode.natAbs ++ sp :: r.statusReason) sp (by decide)
  have second := idxOf_cut (numeral 10 r.statusCode.natAbs) r.statusReason sp space
  have spaced : (text "HTTP/1.1").length ≠ (text "HTTP/1.1" ++
      sp :: (numeral 10 r.statusCode.natAbs ++ sp :: r.statusReason)).length := by simp
  have code : atoi (numeral 10 r.statusCode.natAbs) = r.statusCode := by
    rw [atoi_numeral _ (by omega), number]
  have known : ¬(r.statusCode < 100 ∨ 599 < r.statusCode) := by omega
  simp only [ResponseParser.parseStatusLine]
  rw [cut, first, if_neg spaced, take_left, if_neg (by decide), drop_cut, second, take_left,
    code, if_neg known, drop_cut]
  simp [setStatus, wellFormed.reason.1]

theorem WellFormed.startLine (wellFormed : WellFormed r) : Unbroken r.startLine := by
  refine .of_no_cr _ fun member => ?_
  rw [HttpResponse.startLine, codeNumeral wellFormed] at member
  simp only [mem_append] at member
  rcases member with ((version | number) | blank) | reason
  · exact absurd version (by decide)
  · exact (numeral_plain 10 _ (by decide) (by decide) cr number).2.2.2.1 rfl
  · exact absurd blank (by decide)
  · exact wellFormed.reason.2.1 reason

theorem WellFormed.lines (wellFormed : WellFormed r) :
    ∀ line ∈ r.sentLines, Unbroken line ∧ colonByte ∈ line := by
  intro line member
  simp only [sentLines, mem_append, mem_cons, not_mem_nil, or_false,
    mem_map] at member
  rcases member with (rfl | rfl) | ⟨e, kept, rfl⟩
  · exact ⟨unbroken_fieldLine (by decide) (numeral_unbroken _), colon_mem_fieldLine ..⟩
  · refine ⟨unbroken_fieldLine (by decide) ?_, colon_mem_fieldLine ..⟩
    split <;> decide
  · have stored := (mem_filter.mp kept).1
    refine ⟨unbroken_fieldLine (.of_no_cr _ fun h => ?_)
      (.of_no_cr _ (wellFormed.values e stored).1.1), colon_mem_fieldLine ..⟩
    exact (wellFormed.names e stored cr h).2.1 rfl

def sentHead (r : HttpResponse) (wellFormed : WellFormed r)
    (small : (endLines r.sentLines).length ≤ ResponseParser.kMaxHeaderBytes) : ResponseHead where
  line := r.startLine
  fields := r.sentLines
  status := { statusCode := r.statusCode, statusReason := r.statusReason }
  accepted := parseStatusLine_startLine wellFormed
  unbroken := wellFormed.startLine
  lines := wellFormed.lines
  small := small

theorem fieldName_sent (wellFormed : WellFormed r) (e : Bytes × Bytes)
    (stored : e ∈ r.headers.entries) : fieldName (fieldLine e.1 e.2) = e.1 :=
  fieldName_fieldLine e.1 e.2 fun h => (wellFormed.names e stored colonByte h).1 rfl

/-- Only the exact spelling of the length header is used. -/
def SpellsLength (r : HttpResponse) : Prop :=
  ∀ e ∈ r.headers.entries, toLower e.1 = text "content-length" → e.1 = text "Content-Length"

instance (r : HttpResponse) : Decidable r.SpellsLength :=
  inferInstanceAs (Decidable (∀ e ∈ _, _))

theorem sent_not_length (wellFormed : WellFormed r) (spells : r.SpellsLength) :
    ∀ line ∈ (r.headers.entries.filter fun e => !managed e.1).map fun e => fieldLine e.1 e.2,
      toLower (fieldName line) ≠ text "content-length" := by
  intro line member isLength
  obtain ⟨e, kept, rfl⟩ := mem_map.mp member
  obtain ⟨stored, written⟩ := mem_filter.mp kept
  rw [fieldName_sent wellFormed e stored] at isLength
  have exact' := spells e stored isLength
  simp [managed, exact'] at written

end WellFormed

end HttpResponse

/-! ### Round trips -/

/-- The values of the Content-Length fields in the head of a message, in any letter case. -/
def lengthFields (message : Bytes) : List Bytes :=
  (((headLines message).drop 1).filter fun line =>
    toLower (fieldName line) == text "content-length").map fieldValue

namespace ResponseParser

/-- The response is received as it was sent, and its head declares its length once. -/
def RoundTrips (r : HttpResponse) (rest : Bytes) : Prop :=
  let outcome := parse {} (r.appendTo ++ rest)
  outcome.1.state = .gotAll ∧ outcome.1.response.statusCode = r.statusCode ∧
    outcome.1.response.statusReason = r.statusReason ∧ outcome.1.response.body = r.body ∧
    outcome.2 = rest ∧ lengthFields r.appendTo = [numeral 10 r.body.length]

instance (r : HttpResponse) (rest : Bytes) : Decidable (RoundTrips r rest) :=
  inferInstanceAs (Decidable (_ ∧ _))

section RoundTrips

variable {r : HttpResponse}

theorem headLines_appendTo (wellFormed : r.WellFormed) :
    headLines r.appendTo = r.startLine :: r.sentLines := by
  have wire : r.appendTo = endLines (r.startLine :: r.sentLines) ++ (crlf ++ r.body) := by
    rw [HttpResponse.appendTo_eq, endLines_cons]
    simp only [append_assoc]
  rw [wire, headLines_eq]
  · intro line member
    rcases mem_cons.mp member with rfl | member
    · exact wellFormed.startLine
    · exact (wellFormed.lines line member).1
  · intro line member
    rcases mem_cons.mp member with rfl | member
    · simp [HttpResponse.startLine, text]
    · exact ne_nil_of_mem (wellFormed.lines line member).2

/-- The fields that declare a length: the one that `appendTo` adds, and those of the
application that have the name in another spelling. -/
theorem lengthFields_appendTo (wellFormed : r.WellFormed) :
    lengthFields r.appendTo = numeral 10 r.body.length ::
      (((r.headers.entries.filter fun e => !HttpResponse.managed e.1).map
        fun e => fieldLine e.1 e.2).filter fun line =>
          toLower (fieldName line) == text "content-length").map fieldValue := by
  have length := fieldName_fieldLine (text "Content-Length") (numeral 10 r.body.length) (by decide)
  have value := fieldValue_fieldLine (text "Content-Length") (numeral 10 r.body.length) (by decide)
    (numeral_trimmed _)
  have connection := fieldName_fieldLine (text "Connection")
    (if r.keepAlive then text "keep-alive" else text "close") (by decide)
  rw [lengthFields, headLines_appendTo wellFormed, drop_one, tail_cons,
    HttpResponse.sentLines, cons_append, cons_append, nil_append,
    filter_cons_of_pos (by rw [length]; decide),
    filter_cons_of_neg (by rw [connection]; decide), map_cons, value]

theorem connection_not (name : Bytes) (other : text "connection" ≠ name) :
    toLower (fieldName (fieldLine (text "Connection")
      (if r.keepAlive then text "keep-alive" else text "close"))) ≠ name := by
  rw [fieldName_fieldLine _ _ (by decide), show toLower (text "Connection") = text "connection" by decide]
  exact other

section Small

variable (wellFormed : r.WellFormed) (small : (endLines r.sentLines).length ≤ kMaxHeaderBytes)

theorem sentHead_declared (fits : r.body.length ≤ ulongMax) (spells : r.SpellsLength) :
    (r.sentHead wellFormed small).declared = some r.body.length := by
  have first := storeLines_field .empty (text "Content-Length") (numeral 10 r.body.length)
    (by decide) (numeral_trimmed _)
  have found : (r.sentHead wellFormed small).fieldMap.find? (text "content-length") =
      some (numeral 10 r.body.length) := by
    show (storeLines .empty r.sentLines).find? _ = _
    rw [HttpResponse.sentLines, cons_append, ← singleton_append, storeLines_append, first,
      find?_storeLines]
    · exact (SortedMap.find?_insert ..).trans (if_pos (by decide))
    · intro line member
      rcases mem_cons.mp member with rfl | member
      · exact connection_not _ (by decide)
      · exact HttpResponse.sent_not_length wellFormed spells line member
  rw [ResponseHead.declared, mapLength, found, Option.map_some,
    strtoul_numeral 10 _ (by decide) (by decide) fits]

theorem sentHead_unchunked : ¬(r.sentHead wellFormed small).Chunked := by
  apply ResponseHead.not_chunked
  show (storeLines .empty r.sentLines).find? _ = _
  rw [find?_storeLines]
  · rfl
  · intro line member
    simp only [HttpResponse.sentLines, mem_append, mem_cons, not_mem_nil, or_false,
      mem_map] at member
    rcases member with (rfl | rfl) | ⟨e, kept, rfl⟩
    · rw [fieldName_fieldLine _ _ (by decide)]
      decide
    · exact connection_not _ (by decide)
    · have stored := (mem_filter.mp kept).1
      rw [HttpResponse.fieldName_sent wellFormed e stored]
      exact wellFormed.coding e stored

end Small

theorem roundTrips_of_spells (rest : Bytes) (wellFormed : r.WellFormed)
    (small : (endLines r.sentLines).length ≤ kMaxHeaderBytes) (fits : r.body.length ≤ ulongMax)
    (spells : r.SpellsLength) : RoundTrips r rest := by
  let head := r.sentHead wellFormed small
  obtain ⟨complete, response, left⟩ := parse_sized head r.body rest
    (sentHead_unchunked wellFormed small) (sentHead_declared wellFormed small fits spells)
  have wire : r.appendTo ++ rest = head.bytes ++ (r.body ++ rest) := by
    rw [HttpResponse.appendTo_eq]
    simp only [append_assoc, ResponseHead.bytes]
    rfl
  rw [← wire] at complete response left
  have once : lengthFields r.appendTo = [numeral 10 r.body.length] := by
    rw [lengthFields_appendTo wellFormed, filter_eq_nil_iff.mpr, map_nil]
    intro line member
    simpa using HttpResponse.sent_not_length wellFormed spells line member
  obtain ⟨code, reason⟩ := head.response_status
  refine ⟨complete, ?_, ?_, ?_, left, once⟩
  · rw [response]
    exact code
  · rw [response]
    exact reason
  · rw [response]
    rfl

/-- **Round trip**: a response is received as it was sent, with one field that declares its
length, exactly when no header of the application spells that field in another way. -/
theorem roundTrips_iff (r : HttpResponse) (rest : Bytes) (wellFormed : r.WellFormed)
    (small : (endLines r.sentLines).length ≤ kMaxHeaderBytes) (fits : r.body.length ≤ ulongMax) :
    r.appendTo = r.startLine ++ crlf ++ endLines r.sentLines ++ crlf ++ r.body ∧
    (RoundTrips r rest ↔ r.SpellsLength) := by
  refine ⟨r.appendTo_eq, fun ⟨_, _, _, _, _, once⟩ e stored isLength => ?_,
    roundTrips_of_spells rest wellFormed small fits⟩
  -- another spelling is written as well, and the head declares two lengths
  by_contra other
  rw [lengthFields_appendTo wellFormed, List.cons_eq_cons, List.map_eq_nil_iff,
    List.filter_eq_nil_iff] at once
  have written : (!HttpResponse.managed e.1) = true := by
    have connection : e.1 ≠ text "Connection" := by
      intro same
      rw [same] at isLength
      exact absurd isLength (by decide)
    simp [HttpResponse.managed, other, connection]
  refine once.2 (fieldLine e.1 e.2)
    (List.mem_map.mpr ⟨e, List.mem_filter.mpr ⟨stored, written⟩, rfl⟩) ?_
  rw [HttpResponse.fieldName_sent wellFormed e stored, isLength]
  decide

def plainResponse : HttpResponse :=
  ({ statusCode := 404, statusReason := text "Not Found", body := text "none" } :
    HttpResponse).addHeader (text "Server") (text "cox")

theorem roundTrips_plain : RoundTrips plainResponse (text "HTTP/1.1 ") :=
  (roundTrips_iff plainResponse (text "HTTP/1.1 ")
    ⟨by decide, by decide, by decide +kernel, by decide, by decide⟩ (by decide)
    (by decide)).2.mpr (by decide)

/-- A length header of the application in lower case is written in addition, and the
receiver cuts the body where it says. -/
theorem lowerCaseLength_cutsBody :
    let r := ({ body := text "hello" } : HttpResponse).addHeader (text "content-length") (text "2")
    r.WellFormed ∧ ¬RoundTrips r [] ∧ lengthFields r.appendTo = [text "5", text "2"] ∧
      (parse {} r.appendTo).1.response.body = text "he" ∧ (parse {} r.appendTo).2 = text "llo" := by
  refine ⟨⟨by decide, by decide, by decide +kernel, by decide, by decide⟩, ?_⟩
  decide +kernel

end RoundTrips

end ResponseParser

end Cox.Http

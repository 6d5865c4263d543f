import Cox.Http.Wire

/-!
# Requests that are sent and received

`HttpRequest::appendTo` and `parseRequest` fit together: a request that is serialised and
then parsed is received as it was, up to what the serialiser adds, and the parser stops at
the byte after it. What is written is described once, as a first line, header lines and the
body; the parser's side is that of `Cox.Http.Wire`.
-/
namespace Cox.Http

open Cox.Lib Cox.Lib.Resumable List

namespace HttpRequest

/-! ### What is written -/

def sentPath (r : HttpRequest) : Bytes := if r.path.isEmpty then text "/" else r.path

def sentQuery (r : HttpRequest) : Bytes := if r.query.isEmpty then [] else text "?" ++ r.query

def startLine (r : HttpRequest) : Bytes :=
  methodToString r.method ++ text " " ++ (r.sentPath ++ r.sentQuery) ++ text " HTTP/1.1"

/-- A Host field is not added: there is no host to name, or the request has the field. -/
def hostKnown (r : HttpRequest) (host : Bytes) : Bool :=
  host.isEmpty || (r.headers.find? (text "host")).isSome

def sentLines (r : HttpRequest) (host : Bytes) : List Bytes :=
  (if r.hostKnown host then [] else [fieldLine (text "Host") host]) ++
    (r.headers.entries.filter fun e => !(e.1 == text "content-length")).map
      (fun e => fieldLine e.1 e.2) ++
    [fieldLine (text "Content-Length") (numeral 10 r.body.length)]

def head (r : HttpRequest) (host : Bytes) : Bytes :=
  r.startLine ++ crlf ++ endLines (r.sentLines host)

theorem appendTo_eq (r : HttpRequest) (host : Bytes) :
    r.appendTo host = r.head host ++ crlf ++ r.body := by
  have lines : endLines (r.sentLines host) =
      (if r.hostKnown host then [] else text "Host: " ++ host ++ crlf) ++
        headerLines (· == text "content-length") r.headers.entries ++
        (text "Content-Length: " ++ numeral 10 r.body.length ++ crlf) := by
    rw [sentLines, endLines_append, endLines_append, headerLines_eq, endLines_field]
    split
    · rfl
    · rw [endLines_field]
      rfl
  rw [head, lines]
  simp only [appendTo, startLine, hostKnown, sentPath, sentQuery, append_assoc]

def received (r : HttpRequest) (host : Bytes) : HttpRequest :=
  { r with
    path := r.sentPath
    version := text "HTTP/1.1"
    headers := (if r.hostKnown host then r.headers else r.headers.insert (text "host") host).insert
      (text "content-length") (numeral 10 r.body.length) }

/-- What can be sent. Names are in lower case in every request, because `addHeader` stores
them so. -/
structure Sendable (r : HttpRequest) (host : Bytes) : Prop where
  method : r.method ≠ .invalid
  path : sp ∉ r.path ∧ questionMark ∉ r.path ∧ Unbroken r.path
  query : sp ∉ r.query ∧ Unbroken r.query
  names : ∀ e ∈ r.headers.entries, colonByte ∉ e.1 ∧ toLower e.1 = e.1 ∧ Unbroken e.1
  values : ∀ e ∈ r.headers.entries, e.2.head? ≠ some sp ∧ Unbroken e.2
  host : host.head? ≠ some sp ∧ Unbroken host

section Sendable

variable {r : HttpRequest} {host : Bytes}

variable (sendable : Sendable r host)
include sendable

theorem Sendable.lines : ∀ line ∈ r.sentLines host, Unbroken line ∧ colonByte ∈ line := by
  intro line member
  unfold sentLines at member
  simp only [mem_append, mem_map, mem_singleton] at member
  rcases member with (first | ⟨e, kept, rfl⟩) | rfl
  · split at first
    · cases first
    · cases mem_singleton.mp first
      exact ⟨unbroken_fieldLine (by decide) sendable.host.2, colon_mem_fieldLine ..⟩
  · have stored := (mem_filter.mp kept).1
    exact ⟨unbroken_fieldLine (sendable.names e stored).2.2 (sendable.values e stored).2,
      colon_mem_fieldLine ..⟩
  · exact ⟨unbroken_fieldLine (by decide) (numeral_unbroken _), colon_mem_fieldLine ..⟩

theorem Sendable.headers : storeLines .empty (r.sentLines host) = (r.received host).headers := by
  have length (m : HeaderMap) : storeLines m
      [fieldLine (text "Content-Length") (numeral 10 r.body.length)] =
        m.insert (text "content-length") (numeral 10 r.body.length) :=
    storeLines_field m _ _ (by decide) (numeral_trimmed _)
  have hostField (m : HeaderMap) : storeLines m [fieldLine (text "Host") host] =
      m.insert (text "host") host := storeLines_field m _ _ (by decide) sendable.host.1
  have entries (m : HeaderMap) := storeLines_entries m
    (r.headers.entries.filter fun e => !(e.1 == text "content-length"))
    (fun e kept => ⟨(sendable.names e (mem_filter.mp kept).1).1,
      (sendable.names e (mem_filter.mp kept).1).2.1⟩)
    (fun e kept => (sendable.values e (mem_filter.mp kept).1).1)
  have distinct := r.headers.keys_nodup.sublist
    (List.Sublist.map Prod.fst (filter_sublist (p := fun e => !(e.1 == text "content-length"))))
  -- both maps are compared key by key
  apply SortedMap.ext_find?
  intro k
  rw [sentLines, storeLines_append, storeLines_append, length, entries, received,
    SortedMap.find?_insert, SortedMap.find?_insert]
  by_cases isLength : k = text "content-length"
  · rw [if_pos isLength, if_pos isLength]
  · rw [if_neg isLength, if_neg isLength, SortedMap.find?_foldl_insert _ distinct,
      SortedMap.lookupEntry_filter r.headers.entries (fun name => !(name == text "content-length"))]
    have kept : (!(k == text "content-length")) = true := by simp [isLength]
    rw [if_pos kept]
    split
    · show (r.headers.find? k).or none = r.headers.find? k
      rw [Option.or_none]
    next unknown =>
      rw [hostField, SortedMap.find?_insert, SortedMap.find?_insert]
      by_cases isHost : k = text "host"
      · -- the request has no Host field of its own
        have absent : SortedMap.lookupEntry k r.headers.entries = none := by
          simp only [hostKnown, Bool.or_eq_true, not_or, Option.not_isSome_iff_eq_none] at unknown
          rw [isHost]
          exact unknown.2
        rw [if_pos isHost, if_pos isHost, absent]
        rfl
      · rw [if_neg isHost, if_neg isHost]
        show (r.headers.find? k).or none = r.headers.find? k
        rw [Option.or_none]

theorem sentPath_plain : sp ∉ r.sentPath ∧ questionMark ∉ r.sentPath ∧ Unbroken r.sentPath := by
  unfold sentPath
  split
  · decide
  · exact sendable.path

theorem sentQuery_plain :
    sp ∉ r.sentQuery ∧ Unbroken r.sentQuery ∧ r.sentQuery.head? ≠ some lf := by
  unfold sentQuery
  split
  · decide
  · refine ⟨?_, ?_, by simp [text, lf]⟩
    · have := sendable.query.1
      simp [text, sp] at this ⊢
      exact this
    · refine List.IsChain.append (by decide) sendable.query.2 ?_
      rintro a ends b _ ⟨rfl, _⟩
      exact absurd ends (by decide)

theorem Sendable.startLine : Unbroken r.startLine := by
  obtain ⟨_, _, path⟩ := sentPath_plain sendable
  obtain ⟨_, query, starts⟩ := sentQuery_plain sendable
  have version : Unbroken (text " HTTP/1.1") := by decide
  have target := (path.append query starts).append version (by decide)
  rw [HttpRequest.startLine, append_assoc]
  refine List.IsChain.append ?_ target ?_
  · cases r.method <;> decide
  · rintro a ends b _ ⟨rfl, _⟩
    cases method : r.method <;> rw [method] at ends <;> exact absurd ends (by decide)

end Sendable

end HttpRequest

theorem methodFromString_toString (m : Method) : methodFromString (methodToString m) = m := by
  cases m <;> decide

theorem parseRequestLine_startLine {r : HttpRequest} {host : Bytes} (sendable : r.Sendable host) :
    parseRequestLine {} r.startLine =
      ({ method := r.method, path := r.sentPath, query := r.query }, true) := by
  obtain ⟨pathSpace, pathMark, _⟩ := HttpRequest.sentPath_plain sendable
  obtain ⟨querySpace, _⟩ := HttpRequest.sentQuery_plain sendable
  have methodSpace : sp ∉ methodToString r.method := by cases r.method <;> decide
  have targetSpace : sp ∉ r.sentPath ++ r.sentQuery := by simp [pathSpace, querySpace]
  have cut : r.startLine = methodToString r.method ++
      sp :: (r.sentPath ++ r.sentQuery ++ sp :: text "HTTP/1.1") := by
    simp only [HttpRequest.startLine, append_assoc]
    rfl
  have first := idxOf_cut (methodToString r.method)
    (r.sentPath ++ r.sentQuery ++ sp :: text "HTTP/1.1") sp methodSpace
  have second := idxOf_cut (r.sentPath ++ r.sentQuery) (text "HTTP/1.1") sp targetSpace
  have spaced : (methodToString r.method).length ≠
      (methodToString r.method ++ sp :: (r.sentPath ++ r.sentQuery ++ sp :: text "HTTP/1.1")).length := by
    simp
  have spaced' : (r.sentPath ++ r.sentQuery).length ≠
      (r.sentPath ++ r.sentQuery ++ sp :: text "HTTP/1.1").length := by simp
  simp only [parseRequestLine]
  rw [cut, first, if_neg spaced, take_left, methodFromString_toString, if_neg sendable.method,
    drop_cut, second, if_neg spaced', take_left, drop_cut, if_neg (by decide)]
  -- the target is cut at its first question mark
  by_cases empty : r.query = []
  · have none : r.sentQuery = [] := by simp [HttpRequest.sentQuery, empty]
    rw [none, append_nil, idxOf_of_notMem pathMark, if_neg (by simp), take_length,
      empty]
  · have mark : r.sentQuery = questionMark :: r.query := by
      rw [HttpRequest.sentQuery, if_neg (by simpa using empty)]
      rfl
    have longer : r.sentPath.length ≠ (r.sentPath ++ questionMark :: r.query).length := by simp
    rw [mark, idxOf_cut _ _ _ pathMark, if_pos longer, take_left, drop_cut]

namespace HttpContext

/-! ### What is received -/

def afterHead (maxBodyBytes : Nat) (r : HttpRequest) (host : Bytes) : HttpContext :=
  { fresh maxBodyBytes with
    request := { r.received host with body := [] }
    headerBytes := (r.head host).length
    state := .expectHeaders }

theorem requestLine_startLine (maxBodyBytes : Nat) {r : HttpRequest} {host : Bytes}
    (sendable : r.Sendable host) :
    (fresh maxBodyBytes).requestLine r.startLine = .take { fresh maxBodyBytes with
      request := { method := r.method, path := r.sentPath, query := r.query }
      headerBytes := r.startLine.length + 2
      state := .expectHeaders } (r.startLine.length + 2) := by
  have parsed := parseRequestLine_startLine sendable
  simp only [requestLine, fresh, parsed, if_true, Nat.zero_add]

theorem parse_sentHead (maxBodyBytes : Nat) {r : HttpRequest} {host : Bytes} (rest : Bytes)
    (sendable : r.Sendable host) (small : (r.head host).length ≤ kMaxHeaderBytes) :
    parseRequest (fresh maxBodyBytes) (r.head host ++ crlf ++ rest) =
      parseRequest (afterHead maxBodyBytes r host) (crlf ++ rest) := by
  have taken := requestLine_startLine maxBodyBytes sendable
  have wire : r.head host ++ crlf ++ rest =
      r.startLine ++ crlf ++ (endLines (r.sentLines host) ++ (crlf ++ rest)) := by
    simp only [HttpRequest.head, append_assoc]
  have size : (r.head host).length =
      r.startLine.length + 2 + (endLines (r.sentLines host)).length := by
    simp only [HttpRequest.head, length_append]
    rfl
  rw [wire, parse_line _ _ _ _ _ rfl sendable.startLine taken,
    parse_headerLines _ _ _ rfl (fun l h => (sendable.lines l h).1)
      (fun l h => (sendable.lines l h).2) (size ▸ small)]
  simp only [afterLines, sendable.headers, afterHead, size]
  rfl

theorem parse_body (c : HttpContext) (body rest : Bytes) (here : c.state = .expectBody)
    (missing : c.bodyReceived + body.length = c.contentLength) (nonempty : body ≠ []) :
    parseRequest c (body ++ rest) = (c.receive body, rest) := by
  have some : 0 < body.length := length_pos_iff.mpr nonempty
  have played := bodyData_take c (body ++ rest) body.length (by rw [length_append]; omega) some
  rw [take_left] at played
  unfold parseRequest
  rw [parse_take round_consumes _ _ _ _ (by simpa only [round, here] using played), drop_left]
  exact parse_stop _ _ _ (by simp only [round, receive, missing, if_true])

theorem chunked_received (r : HttpRequest) (host body : Bytes) :
    chunked { r.received host with body } = chunked r := by
  have same : ({ r.received host with body } : HttpRequest).header (text "transfer-encoding") =
      r.header (text "transfer-encoding") := by
    simp only [HttpRequest.header, HttpRequest.received, SortedMap.find?_insert]
    rw [if_neg (by decide)]
    split
    · rfl
    · rw [SortedMap.find?_insert, if_neg (by decide)]
  simp only [chunked, same]

theorem declaredLength_received (r : HttpRequest) (host body : Bytes)
    (fits : r.body.length ≤ ulongMax) :
    declaredLength { r.received host with body } = r.body.length := by
  have value : ({ r.received host with body } : HttpRequest).header (text "content-length") =
      numeral 10 r.body.length := by
    simp only [HttpRequest.header, HttpRequest.received, SortedMap.find?_insert]
    rw [if_pos (by decide)]
    rfl
  have nonempty : (numeral 10 r.body.length).isEmpty = false := by simp [numeral_ne_nil]
  simp only [declaredLength, value, nonempty, strtoul_numeral 10 _ (by decide) (by decide) fits,
    Bool.false_eq_true, if_false]

theorem parse_sent (maxBodyBytes : Nat) {r : HttpRequest} {host : Bytes} (rest : Bytes)
    (sendable : r.Sendable host) (unchunked : chunked r = false)
    (small : (r.head host).length ≤ kMaxHeaderBytes)
    (within : WithinCap maxBodyBytes r.body.length) (fits : r.body.length ≤ ulongMax) :
    let outcome := parseRequest (fresh maxBodyBytes) (r.appendTo host ++ rest)
    outcome.1.state = .gotAll ∧ outcome.1.request = r.received host ∧ outcome.2 = rest := by
  have unchunked' := (chunked_received r host []).trans unchunked
  have declared := declaredLength_received r host [] fits
  have allowed : ¬(maxBodyBytes > 0 ∧ r.body.length > maxBodyBytes) := by
    rintro ⟨positive, exceeds⟩
    rcases within with zero | most <;> omega
  have taken : (afterHead maxBodyBytes r host).headersLine [] =
      .take { afterHead maxBodyBytes r host with
        contentLength := r.body.length
        state := if r.body.length > 0 then .expectBody else .gotAll } 2 := by
    simp only [headersLine, endOfHeaders, afterHead, fresh, unchunked', declared, if_true,
      if_neg allowed, Bool.false_eq_true, if_false]
  have wire : r.appendTo host ++ rest = r.head host ++ crlf ++ (r.body ++ rest) := by
    rw [HttpRequest.appendTo_eq]
    simp only [append_assoc]
  have blank := parse_line (afterHead maxBodyBytes r host) _ _ [] (r.body ++ rest) rfl .nil taken
  rw [nil_append] at blank
  rw [wire, parse_sentHead maxBodyBytes _ sendable small, blank]
  by_cases empty : r.body = []
  · rw [empty, nil_append]
    dsimp only
    unfold parseRequest
    rw [parse_stop _ _ _ rfl]
    refine ⟨rfl, ?_, rfl⟩
    simp only [afterHead, ← empty]
    rfl
  · have some : r.body.length > 0 := length_pos_iff.mpr empty
    dsimp only
    rw [if_pos some, parse_body _ r.body rest rfl (Nat.zero_add _) empty]
    refine ⟨?_, rfl, rfl⟩
    show (if 0 + r.body.length = r.body.length then ParseState.gotAll else _) = _
    rw [if_pos (Nat.zero_add _)]

end HttpContext

/-! ### Round trips -/

/-- A request whose parts can be told apart on the wire. Names are in lower case because
`addHeader` stores them so. -/
structure HttpRequest.WellFormed (r : HttpRequest) : Prop where
  method : r.method ≠ .invalid
  path : ∀ c ∈ r.path, c ≠ sp ∧ c ≠ questionMark ∧ c ≠ cr ∧ c ≠ lf
  query : ∀ c ∈ r.query, c ≠ sp ∧ c ≠ cr ∧ c ≠ lf
  names : ∀ e ∈ r.headers.entries, toLower e.1 = e.1 ∧ ∀ c ∈ e.1, c ≠ colonByte ∧ c ≠ cr ∧ c ≠ lf
  coding : ∀ e ∈ r.headers.entries, e.1 ≠ text "transfer-encoding"
  values : ∀ e ∈ r.headers.entries, FieldText e.2

namespace HttpRequest

variable {r : HttpRequest} {host : Bytes}

theorem WellFormed.sendable (wellFormed : WellFormed r) (hostText : FieldText host) :
    Sendable r host where
  method := wellFormed.method
  path := ⟨fun h => (wellFormed.path _ h).1 rfl, fun h => (wellFormed.path _ h).2.1 rfl,
    .of_no_cr _ fun h => (wellFormed.path _ h).2.2.1 rfl⟩
  query := ⟨fun h => (wellFormed.query _ h).1 rfl, .of_no_cr _ fun h => (wellFormed.query _ h).2.1 rfl⟩
  names e member := by
    obtain ⟨lower, plain⟩ := wellFormed.names e member
    exact ⟨fun h => (plain _ h).1 rfl, lower, .of_no_cr _ fun h => (plain _ h).2.1 rfl⟩
  values e member := by
    obtain ⟨line, trimmed⟩ := wellFormed.values e member
    exact ⟨trimmed, .of_no_cr _ line.1⟩
  host := ⟨hostText.2, .of_no_cr _ hostText.1.1⟩

theorem WellFormed.unchunked (wellFormed : WellFormed r) : HttpContext.chunked r = false := by
  have absent : r.headers.find? (text "transfer-encoding") = none := by
    apply SortedMap.lookupEntry_none
    intro member
    obtain ⟨e, inside, same⟩ := mem_map.mp member
    exact wellFormed.coding e inside same
  have lower : toLower (text "transfer-encoding") = text "transfer-encoding" := by decide
  simp only [HttpContext.chunked, header, lower, absent]
  decide

end HttpRequest

namespace HttpContext

/-- **Round trip**: whatever follows it, a request that was serialised is parsed as it was,
with a path, its length and the host filled in, and exactly its own bytes are consumed. -/
theorem appendTo_roundTrips (maxBodyBytes : Nat) (r : HttpRequest) (host rest : Bytes)
    (wellFormed : r.WellFormed) (hostText : FieldText host)
    (small : (r.head host).length ≤ kMaxHeaderBytes)
    (within : WithinCap maxBodyBytes r.body.length) (fits : r.body.length ≤ ulongMax) :
    r.appendTo host = r.head host ++ crlf ++ r.body ∧
    let outcome := parseRequest (fresh maxBodyBytes) (r.appendTo host ++ rest)
    outcome.1.state = .gotAll ∧ outcome.2 = rest ∧
      outcome.1.request = { r with
        path := if r.path = [] then text "/" else r.path
        version := text "HTTP/1.1"
        headers :=
          let named := if host ≠ [] ∧ r.headers.find? (text "host") = none then
              r.headers.insert (text "host") host else r.headers
          named.insert (text "content-length") (numeral 10 r.body.length) } := by
  obtain ⟨complete, request, left⟩ := parse_sent maxBodyBytes rest (wellFormed.sendable hostText)
    wellFormed.unchunked small within fits
  refine ⟨r.appendTo_eq host, complete, left, request.trans ?_⟩
  have path : r.sentPath = if r.path = [] then text "/" else r.path := by
    simp only [HttpRequest.sentPath, List.isEmpty_iff]
  have named : (if r.hostKnown host then r.headers else r.headers.insert (text "host") host) =
      if host ≠ [] ∧ r.headers.find? (text "host") = none then
        r.headers.insert (text "host") host else r.headers := by
    cases known : r.hostKnown host with
    | true =>
      rw [if_pos rfl, if_neg]
      rintro ⟨named, absent⟩
      simp [HttpRequest.hostKnown, named, absent] at known
    | false =>
      simp only [HttpRequest.hostKnown, Bool.or_eq_false_iff, List.isEmpty_eq_false_iff,
        Option.isSome_eq_false_iff, Option.isNone_iff_eq_none] at known
      rw [if_neg (by simp), if_pos known]
  simp only [HttpRequest.received, path, named]

/-- A request whose body looks like another request. -/
def postedRequest : HttpRequest :=
  ({ method := .post, query := text "x=1", body := text "GET / HTTP/1.1\r\n\r\n" } :
    HttpRequest).addHeader (text "Accept") (text "*/*")

theorem appendTo_roundTrips_posted :
    (parseRequest (fresh 100) (postedRequest.appendTo (text "origin") ++ text "GET ")).2 =
      text "GET " :=
  (appendTo_roundTrips 100 postedRequest (text "origin") (text "GET ")
    ⟨by decide, by decide +kernel, by decide +kernel, by decide +kernel, by decide, by decide⟩
    (by decide) (by decide) (by decide) (by decide)).2.2.1

end HttpContext

end Cox.Http

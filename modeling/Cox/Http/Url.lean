import Cox.Http.Request
import Cox.Lib.Split

/-!
# Percent-encoding and query strings

`urlDecode`, `urlEncode` and `parseQuery` of http/url.cc. A query is cut while it is read:
`&` and `=` are looked for from the same place, so the `=` that is found may belong to a later
piece. The result is nevertheless the map of the pieces cut at every `&`, and reading a query
built from encoded pairs gives these pairs back.
-/
namespace Cox.Http

open Cox.Lib List

def percent : UInt8 := 37
def plusByte : UInt8 := 43
def ampersand : UInt8 := 38
def equalsByte : UInt8 := 61

def hexValue (c : UInt8) : Option Nat :=
  if 48 ≤ c ∧ c ≤ 57 then some (c.toNat - 48)
  else if 97 ≤ c ∧ c ≤ 102 then some (c.toNat - 97 + 10)
  else if 65 ≤ c ∧ c ≤ 70 then some (c.toNat - 65 + 10)
  else none

/-- `std::isalnum` in the C locale. -/
def isalnum (c : UInt8) : Bool :=
  (48 ≤ c && c ≤ 57) || (65 ≤ c && c ≤ 90) || (97 ≤ c && c ≤ 122)

def isUnreserved (c : UInt8) : Bool :=
  isalnum c || c == 45 || c == 95 || c == 46 || c == 126

def unescape (x y : UInt8) : Option UInt8 :=
  match hexValue x, hexValue y with
  | some hi, some lo => some (UInt8.ofNat (hi <<< 4 ||| lo))
  | _, _ => none

def literal (plusAsSpace : Bool) (c : UInt8) : UInt8 :=
  if c = plusByte ∧ plusAsSpace then sp else c

def urlDecode (plusAsSpace : Bool) : Bytes → Bytes
  | [] => []
  | c :: x :: y :: rest =>
    match if c = percent then unescape x y else none with
    | some byte => byte :: urlDecode plusAsSpace rest
    | none => literal plusAsSpace c :: urlDecode plusAsSpace (x :: y :: rest)
  | c :: rest => literal plusAsSpace c :: urlDecode plusAsSpace rest

def kHex : Bytes := text "0123456789ABCDEF"

def encodeByte (c : UInt8) : Bytes :=
  if isUnreserved c then [c]
  else [percent, kHex.getD (c.toNat >>> 4) 0, kHex.getD (c.toNat &&& 15) 0]

def urlEncode (s : Bytes) : Bytes := s.flatMap encodeByte

abbrev QueryParams := SortedMap Bytes Bytes

def setParam (params : QueryParams) (key value : Bytes) : QueryParams :=
  if key.isEmpty then params else params.insert key value

def parseQueryLoop : Nat → Bytes → QueryParams → QueryParams
  | 0, _, params => params
  | fuel + 1, rest, params =>
    if rest.isEmpty then params
    else
      let amp := rest.idxOf ampersand
      let eq := rest.idxOf equalsByte
      let next :=
        -- `find` gives npos where `idxOf` gives the length
        if eq = rest.length ∨ eq > amp then
          setParam params (urlDecode true (rest.take amp)) []
        else
          setParam params (urlDecode true (rest.take eq))
            (urlDecode true ((rest.drop (eq + 1)).take (amp - eq - 1)))
      parseQueryLoop fuel (rest.drop (amp + 1)) next

def parseQuery (query : Bytes) : QueryParams := parseQueryLoop query.length query .empty

/-! ## What a query means -/

/-- Later pairs replace earlier ones. -/
def mapOf (pairs : List (Bytes × Bytes)) : QueryParams :=
  pairs.foldl (fun params pair => params.insert pair.1 pair.2) .empty

/-- A piece cut at its first `=`, both sides decoded; without `=` the value is empty. -/
def queryPair (piece : Bytes) : Bytes × Bytes :=
  (urlDecode true (piece.take (piece.idxOf equalsByte)),
    urlDecode true (piece.drop (piece.idxOf equalsByte + 1)))

/-- The pairs of all pieces whose decoded key is not empty. -/
def queryPairs (query : Bytes) : List (Bytes × Bytes) :=
  ((query.splitOn ampersand).map queryPair).filter (·.1 ≠ [])

def buildPair (pair : Bytes × Bytes) : Bytes :=
  urlEncode pair.1 ++ equalsByte :: urlEncode pair.2

def buildQuery (pairs : List (Bytes × Bytes)) : Bytes :=
  [ampersand].intercalate (pairs.map buildPair)

/-! ## Encoding and decoding -/

theorem hexValue_kHex (n : Nat) (digit : n < 16) : hexValue (kHex.getD n 0) = some n := by
  revert n
  decide

theorem isUnreserved_kHex (n : Nat) (digit : n < 16) : isUnreserved (kHex.getD n 0) = true := by
  revert n
  decide

theorem unescape_kHex (c : UInt8) :
    unescape (kHex.getD (c.toNat >>> 4) 0) (kHex.getD (c.toNat &&& 15) 0) = some c := by
  have byte := c.toNat_lt
  have low : c.toNat &&& 15 = c.toNat % 16 := Nat.and_two_pow_sub_one_eq_mod c.toNat 4
  have high : c.toNat >>> 4 = c.toNat / 16 := Nat.shiftRight_eq_div_pow c.toNat 4
  have small : c.toNat % 16 < 2 ^ 4 := Nat.mod_lt _ (by decide)
  have joined : (c.toNat / 16) <<< 4 ||| c.toNat % 16 = c.toNat := by
    rw [← Nat.shiftLeft_add_eq_or_of_lt small, Nat.shiftLeft_eq]
    omega
  rw [low, high, unescape, hexValue_kHex _ (by omega), hexValue_kHex _ (by omega)]
  simp only [joined, UInt8.ofNat_toNat]

theorem urlDecode_escape (plusAsSpace : Bool) (x y byte : UInt8) (rest : Bytes)
    (valid : unescape x y = some byte) :
    urlDecode plusAsSpace (percent :: x :: y :: rest) = byte :: urlDecode plusAsSpace rest := by
  rw [urlDecode, if_pos rfl, valid]

theorem urlDecode_plain (plusAsSpace : Bool) (c : UInt8) (rest : Bytes)
    (noEscape : c ≠ percent) (noPlus : c ≠ plusByte) :
    urlDecode plusAsSpace (c :: rest) = c :: urlDecode plusAsSpace rest := by
  have itself : literal plusAsSpace c = c := if_neg fun both => noPlus both.1
  -- only with two more bytes an escape is looked for
  rcases rest with _ | ⟨x, _ | ⟨y, rest⟩⟩
  · simp [urlDecode, itself]
  · simp [urlDecode, itself]
  · rw [urlDecode, if_neg noEscape, itself]

theorem ne_of_isUnreserved (c reserved : UInt8) (unreserved : isUnreserved c = true)
    (other : isUnreserved reserved = false) : c ≠ reserved := by
  rintro rfl
  rw [unreserved] at other
  cases other

theorem urlDecode_encodeByte (plusAsSpace : Bool) (c : UInt8) (rest : Bytes) :
    urlDecode plusAsSpace (encodeByte c ++ rest) = c :: urlDecode plusAsSpace rest := by
  rw [encodeByte]
  split
  next unreserved =>
    exact urlDecode_plain plusAsSpace c rest (ne_of_isUnreserved c _ unreserved (by decide))
      (ne_of_isUnreserved c _ unreserved (by decide))
  next => exact urlDecode_escape plusAsSpace _ _ c rest (unescape_kHex c)

theorem urlDecode_urlEncode (plusAsSpace : Bool) (s : Bytes) :
    urlDecode plusAsSpace (urlEncode s) = s := by
  induction s with
  | nil => rfl
  | cons c s ih =>
    have first := urlDecode_encodeByte plusAsSpace c (urlEncode s)
    rw [ih] at first
    exact first

theorem mem_urlEncode (s : Bytes) (c : UInt8) (member : c ∈ urlEncode s) :
    isUnreserved c = true ∨ c = percent := by
  obtain ⟨d, _, inside⟩ := mem_flatMap.mp member
  rw [encodeByte] at inside
  split at inside
  next unreserved =>
    rw [mem_singleton.mp inside]
    exact .inl unreserved
  next =>
    have high : d.toNat >>> 4 < 16 := by
      have byte := d.toNat_lt
      rw [Nat.shiftRight_eq_div_pow]
      omega
    have low : d.toNat &&& 15 < 16 := Nat.lt_succ_of_le Nat.and_le_right
    simp only [mem_cons, not_mem_nil, or_false] at inside
    rcases inside with rfl | rfl | rfl
    · exact .inr rfl
    · exact .inl (isUnreserved_kHex _ high)
    · exact .inl (isUnreserved_kHex _ low)

theorem notMem_urlEncode (s : Bytes) (reserved : UInt8) (other : isUnreserved reserved = false)
    (noEscape : reserved ≠ percent) : reserved ∉ urlEncode s := by
  intro member
  rcases mem_urlEncode s reserved member with unreserved | escape
  · exact ne_of_isUnreserved reserved reserved unreserved other rfl
  · exact noEscape escape

theorem urlEncode_ne_nil (s : Bytes) (nonempty : s ≠ []) : urlEncode s ≠ [] := by
  intro empty
  apply nonempty
  rw [← urlDecode_urlEncode false s, empty]
  rfl

/-! ## Reading a query -/

/-- One pair after the other, those with an empty key left out. -/
def setPair (params : QueryParams) (pair : Bytes × Bytes) : QueryParams :=
  setParam params pair.1 pair.2

theorem foldl_setPair (pairs : List (Bytes × Bytes)) (params : QueryParams) :
    pairs.foldl setPair params =
      (pairs.filter (·.1 ≠ [])).foldl (fun params pair => params.insert pair.1 pair.2) params := by
  induction pairs generalizing params with
  | nil => rfl
  | cons pair pairs ih =>
    by_cases empty : pair.1 = []
    · rw [filter_cons_of_neg (by simp [empty]), foldl_cons, ih]
      simp [setPair, setParam, empty]
    · rw [filter_cons_of_pos (by simp [empty]), foldl_cons, foldl_cons, ih]
      simp [setPair, setParam, empty]

/-- What one round stores is the pair of the piece in front, although `=` is looked for in
everything that is left. -/
theorem round_setPair (rest : Bytes) (params : QueryParams) :
    (if rest.idxOf equalsByte = rest.length ∨ rest.idxOf equalsByte > rest.idxOf ampersand then
      setParam params (urlDecode true (rest.take (rest.idxOf ampersand))) []
    else
      setParam params (urlDecode true (rest.take (rest.idxOf equalsByte)))
        (urlDecode true ((rest.drop (rest.idxOf equalsByte + 1)).take
          (rest.idxOf ampersand - rest.idxOf equalsByte - 1)))) =
      setPair params (queryPair (rest.take (rest.idxOf ampersand))) := by
  have ampBound : rest.idxOf ampersand ≤ rest.length := idxOf_le_length
  have eqBound : rest.idxOf equalsByte ≤ rest.length := idxOf_le_length
  have cut := idxOf_take rest (rest.idxOf ampersand) equalsByte
  rw [length_take, Nat.min_eq_left ampBound] at cut
  rw [setPair, queryPair, cut]
  split
  next outside =>
    -- the piece in front has no `=`
    have whole : min (rest.idxOf equalsByte) (rest.idxOf ampersand) = rest.idxOf ampersand := by
      omega
    have nothing : (rest.take (rest.idxOf ampersand)).drop (rest.idxOf ampersand + 1) = [] := by
      apply drop_of_length_le
      rw [length_take]
      omega
    rw [whole, take_take, Nat.min_self, nothing]
    rfl
  next inside =>
    have first : min (rest.idxOf equalsByte) (rest.idxOf ampersand) = rest.idxOf equalsByte := by
      omega
    rw [first, take_take, first, drop_take, Nat.sub_sub]

theorem parseQueryLoop_eq (fuel : Nat) (rest : Bytes) (params : QueryParams)
    (enough : rest.length ≤ fuel) :
    parseQueryLoop fuel rest params =
      ((rest.splitOn ampersand).map queryPair).foldl setPair params := by
  induction fuel generalizing rest params with
  | zero =>
    rw [eq_nil_of_length_eq_zero (Nat.le_zero.mp enough)]
    rfl
  | succ fuel ih =>
    rw [parseQueryLoop]
    split
    next done =>
      rw [isEmpty_iff.mp done]
      rfl
    next going =>
      have shorter : (rest.drop (rest.idxOf ampersand + 1)).length ≤ fuel := by
        rw [length_drop]
        omega
      simp only [round_setPair]
      rw [ih _ _ shorter, splitOn_idxOf ampersand rest, map_cons, foldl_cons]
      split
      next => rfl
      next outside =>
        -- behind the last piece nothing is left
        rw [drop_of_length_le (by omega)]
        rfl

theorem parseQuery_eq (query : Bytes) : parseQuery query = mapOf (queryPairs query) := by
  rw [parseQuery, parseQueryLoop_eq _ _ _ (Nat.le_refl _), foldl_setPair]
  rfl

/-! ## Building a query and reading it back -/

theorem queryPair_buildPair (pair : Bytes × Bytes) : queryPair (buildPair pair) = pair := by
  have absent : equalsByte ∉ urlEncode pair.1 := notMem_urlEncode _ _ (by decide) (by decide)
  rw [queryPair, buildPair, idxOf_cut _ _ _ absent, drop_cut, take_left,
    urlDecode_urlEncode, urlDecode_urlEncode]

theorem ampersand_notMem_buildPair (pair : Bytes × Bytes) : ampersand ∉ buildPair pair := by
  rw [buildPair, mem_append, mem_cons, not_or, not_or]
  exact ⟨notMem_urlEncode _ _ (by decide) (by decide), by decide,
    notMem_urlEncode _ _ (by decide) (by decide)⟩

theorem queryPairs_buildQuery (pairs : List (Bytes × Bytes)) (keyed : ∀ pair ∈ pairs, pair.1 ≠ []) :
    queryPairs (buildQuery pairs) = pairs := by
  cases pairs with
  | nil => rfl
  | cons pair pairs =>
    have separate : ∀ piece ∈ (pair :: pairs).map buildPair, ampersand ∉ piece := by
      intro piece member
      obtain ⟨source, _, rfl⟩ := mem_map.mp member
      exact ampersand_notMem_buildPair source
    have back : queryPair ∘ buildPair = id := funext queryPair_buildPair
    rw [queryPairs, buildQuery, splitOn_intercalate ampersand separate (by simp),
      map_map, back, map_id]
    apply filter_eq_self.mpr
    intro source member
    simpa using keyed source member

/-- A query is read as the map of its pieces, and reading inverts building. -/
theorem parseQuery_correct :
    (∀ query, parseQuery query = mapOf (queryPairs query)) ∧
      ∀ pairs : List (Bytes × Bytes), (∀ pair ∈ pairs, pair.1 ≠ []) →
        parseQuery (buildQuery pairs) = mapOf pairs := by
  constructor
  · exact parseQuery_eq
  · intro pairs keyed
    rw [parseQuery_eq, queryPairs_buildQuery pairs keyed]

/-- Keys and values made of separators, and a key that comes twice. -/
def awkwardPairs : List (Bytes × Bytes) :=
  [(text "a&b", text "c=d"), (text "+", text "%2"), (text "a&b", text "x y")]

theorem parseQuery_awkwardPairs :
    buildQuery awkwardPairs = text "a%26b=c%3Dd&%2B=%252&a%26b=x%20y" ∧
      parseQuery (buildQuery awkwardPairs) = mapOf awkwardPairs :=
  ⟨by decide, parseQuery_correct.2 awkwardPairs (by decide)⟩

end Cox.Http

import Cox.Http.Response
import Cox.Http.Url

/-!
# Routing

`Router` of http/router.cc. Paths are split before anything is decoded, so an encoded slash
stays inside its segment. A handler may touch the response and anything else it refers to: it
is a function on the response and a state `σ` of the rest, so that a result says which handler
was called, with which parameters and how often.
-/
namespace Cox.Http

open Cox.Lib List

def slash : UInt8 := 47
def openBrace : UInt8 := 123
def closeBrace : UInt8 := 125

abbrev PathParams := SortedMap Bytes Bytes

abbrev Handler (σ : Type) := HttpRequest → PathParams → HttpResponse × σ → HttpResponse × σ

/-- One element of `segments` with the element of `is_param` at the same place. -/
structure Segment where
  text : Bytes
  isParam : Bool
  deriving DecidableEq

structure Route (σ : Type) where
  method : Method
  segments : List Segment
  handler : Handler σ

structure Router (σ : Type) where
  routes : List (Route σ) := []

namespace Router

variable {σ : Type}

def splitPathLoop : Nat → Bytes → List Bytes
  | 0, _ => []
  | _ + 1, [] => []
  | fuel + 1, c :: rest =>
    if c = slash then splitPathLoop fuel rest
    else
      let j := (c :: rest).idxOf slash
      (c :: rest).take j :: splitPathLoop fuel ((c :: rest).drop j)

def splitPath (path : Bytes) : List Bytes := splitPathLoop path.length path

/-- A segment in braces is a parameter, stored without them. -/
def toSegment (seg : Bytes) : Segment :=
  if 2 ≤ seg.length ∧ seg.head? = some openBrace ∧ seg.getLast? = some closeBrace then
    ⟨(seg.drop 1).take (seg.length - 2), true⟩
  else ⟨seg, false⟩

def addRoute (router : Router σ) (method : Method) (pattern : Bytes) (handler : Handler σ) :
    Router σ :=
  { router with
    routes := router.routes ++ [⟨method, (splitPath pattern).map toSegment, handler⟩] }

/-- The loop of `matchRoute`; both lists have the same length when it starts. -/
def matchSegments : List Segment → List Bytes → PathParams → Option PathParams
  | [], _, captured => some captured
  | _ :: _, [], _ => none
  | seg :: segs, piece :: pieces, captured =>
    if seg.isParam then
      matchSegments segs pieces (captured.insert seg.text (urlDecode false piece))
    else if seg.text ≠ piece then none
    else matchSegments segs pieces captured

def matchRoute (r : Route σ) (pathSegs : List Bytes) : Option PathParams :=
  if r.segments.length ≠ pathSegs.length then none
  else matchSegments r.segments pathSegs .empty

def methodNotAllowed (resp : HttpResponse) : HttpResponse :=
  ((resp.setStatus 405 []).setContentType (text "text/plain")).setBody (text "Method Not Allowed")

def notFound (resp : HttpResponse) : HttpResponse :=
  ((resp.setStatus 404 []).setContentType (text "text/plain")).setBody (text "Not Found")

def routeLoop (req : HttpRequest) (pathSegs : List Bytes) (out : HttpResponse × σ) :
    List (Route σ) → Bool → Bool × (HttpResponse × σ)
  | [], pathMatched =>
    (false, (if pathMatched then methodNotAllowed out.1 else notFound out.1), out.2)
  | r :: routes, pathMatched =>
    match matchRoute r pathSegs with
    | some params =>
      if r.method = req.method then (true, r.handler req params out)
      else routeLoop req pathSegs out routes true
    | none => routeLoop req pathSegs out routes pathMatched

/-- Whether a handler ran, and what it or the refusal left. -/
def route (router : Router σ) (req : HttpRequest) (out : HttpResponse × σ) :
    Bool × (HttpResponse × σ) :=
  routeLoop req (splitPath req.path) out router.routes false

/-! ## What routing means -/

structure Entry (σ : Type) where
  method : Method
  pattern : Bytes
  handler : Handler σ

def ofTable (table : List (Entry σ)) : Router σ :=
  table.foldl (fun router e => router.addRoute e.method e.pattern e.handler) {}

/-- The name in a segment of the form `{name}`. -/
def paramName : Bytes → Option Bytes
  | [] => none
  | c :: rest =>
    if c = openBrace ∧ rest.getLast? = some closeBrace then some rest.dropLast else none

/-- A parameter stands for any segment, a literal segment for itself. -/
def SegmentMatches (seg piece : Bytes) : Prop := (paramName seg).isSome ∨ seg = piece

instance (seg piece : Bytes) : Decidable (SegmentMatches seg piece) :=
  inferInstanceAs (Decidable (_ ∨ _))

def AllMatch (segs pieces : List Bytes) : Prop :=
  segs.length = pieces.length ∧ ∀ pair ∈ segs.zip pieces, SegmentMatches pair.1 pair.2

instance (segs pieces : List Bytes) : Decidable (AllMatch segs pieces) :=
  inferInstanceAs (Decidable (_ ∧ _))

def Matches (pattern path : Bytes) : Prop :=
  AllMatch (segments slash pattern) (segments slash path)

instance (pattern path : Bytes) : Decidable (Matches pattern path) :=
  inferInstanceAs (Decidable (AllMatch _ _))

/-- Each parameter with the decoded segment it stands for. -/
def capturedPairs (segs pieces : List Bytes) : List (Bytes × Bytes) :=
  (segs.zip pieces).filterMap fun pair =>
    (paramName pair.1).map fun name => (name, urlDecode false pair.2)

def pathParams (pattern path : Bytes) : PathParams :=
  mapOf (capturedPairs (segments slash pattern) (segments slash path))

/-- The earliest registered route that matches with the request's method. -/
def earliest (table : List (Entry σ)) (req : HttpRequest) : Option (Entry σ) :=
  table.find? fun e => e.method = req.method ∧ Matches e.pattern req.path

def expected (table : List (Entry σ)) (req : HttpRequest) (out : HttpResponse × σ) :
    Bool × (HttpResponse × σ) :=
  match earliest table req with
  | some e => (true, e.handler req (pathParams e.pattern req.path) out)
  | none =>
    (false, (if ∃ e ∈ table, Matches e.pattern req.path then methodNotAllowed out.1
      else notFound out.1), out.2)

def paramNames (pattern : Bytes) : List Bytes := (segments slash pattern).filterMap paramName

def fillSegment (assign : Bytes → Bytes) (seg : Bytes) : Bytes :=
  match paramName seg with
  | some name => urlEncode (assign name)
  | none => seg

/-- The pattern with each `{name}` replaced, its slashes where they were. -/
def fillPath (assign : Bytes → Bytes) (pattern : Bytes) : Bytes :=
  [slash].intercalate ((pattern.splitOn slash).map (fillSegment assign))

def assigned (assign : Bytes → Bytes) (pattern : Bytes) : PathParams :=
  mapOf ((paramNames pattern).map fun name => (name, assign name))

/-! ## Splitting and matching -/

theorem splitPathLoop_eq (fuel : Nat) (path : Bytes) (enough : path.length ≤ fuel) :
    splitPathLoop fuel path = segments slash path := by
  induction fuel generalizing path with
  | zero =>
    rw [eq_nil_of_length_eq_zero (Nat.le_zero.mp enough), segments_nil]
    rfl
  | succ fuel ih =>
    cases path with
    | nil =>
      rw [segments_nil]
      rfl
    | cons c rest =>
      rw [length_cons] at enough
      rw [splitPathLoop]
      split
      next same =>
        rw [same, segments_cons_sep, ih rest (by omega)]
      next other =>
        have later : (c :: rest).idxOf slash = rest.idxOf slash + 1 := idxOf_cons_ne _ other
        have shorter : ((c :: rest).drop ((c :: rest).idxOf slash)).length ≤ fuel := by
          rw [length_drop, later, length_cons]
          omega
        simp only [ih _ shorter]
        exact (segments_cons slash c rest other).symm

theorem splitPath_eq (path : Bytes) : splitPath path = segments slash path :=
  splitPathLoop_eq path.length path (Nat.le_refl _)

theorem paramName_eq_some_iff (seg name : Bytes) :
    paramName seg = some name ↔ seg = openBrace :: (name ++ [closeBrace]) := by
  cases seg with
  | nil => simp [paramName]
  | cons c rest =>
    rw [paramName, List.cons.injEq]
    constructor
    · intro found
      split at found
      next braces =>
        obtain ⟨inner, rfl⟩ := List.getLast?_eq_some_iff.mp braces.2
        rw [dropLast_concat, Option.some.injEq] at found
        exact ⟨braces.1, by rw [found]⟩
      next => cases found
    · rintro ⟨rfl, rfl⟩
      rw [if_pos ⟨rfl, by simp⟩, dropLast_concat]

theorem toSegment_param (seg name : Bytes) (named : paramName seg = some name) :
    toSegment seg = ⟨name, true⟩ := by
  have back : (openBrace :: (name ++ [closeBrace])).getLast? = some closeBrace := by
    rw [← cons_append, List.getLast?_concat]
  rw [(paramName_eq_some_iff seg name).mp named, toSegment, if_pos ⟨by simp, rfl, back⟩]
  simp

theorem toSegment_literal (seg : Bytes) (unnamed : paramName seg = none) :
    toSegment seg = ⟨seg, false⟩ := by
  apply if_neg
  rintro ⟨long, front, back⟩
  cases seg with
  | nil => cases front
  | cons c rest =>
    cases rest with
    | nil => simp at long
    | cons d rest =>
      rw [List.head?_cons, Option.some.injEq] at front
      rw [List.getLast?_cons_cons] at back
      rw [paramName, if_pos ⟨front, back⟩] at unnamed
      cases unnamed

theorem allMatch_cons (seg piece : Bytes) (segs pieces : List Bytes) :
    AllMatch (seg :: segs) (piece :: pieces) ↔
      SegmentMatches seg piece ∧ AllMatch segs pieces := by
  simp only [AllMatch, length_cons, Nat.add_right_cancel_iff, zip_cons_cons,
    forall_mem_cons]
  exact ⟨fun ⟨size, first, later⟩ => ⟨first, size, later⟩,
    fun ⟨first, size, later⟩ => ⟨size, first, later⟩⟩

theorem capturedPairs_param (seg piece name : Bytes) (segs pieces : List Bytes)
    (named : paramName seg = some name) :
    capturedPairs (seg :: segs) (piece :: pieces) =
      (name, urlDecode false piece) :: capturedPairs segs pieces := by
  simp [capturedPairs, named]

theorem capturedPairs_literal (seg piece : Bytes) (segs pieces : List Bytes)
    (unnamed : paramName seg = none) :
    capturedPairs (seg :: segs) (piece :: pieces) = capturedPairs segs pieces := by
  simp [capturedPairs, unnamed]

theorem matchSegments_eq (segs pieces : List Bytes) (captured : PathParams)
    (size : segs.length = pieces.length) :
    matchSegments (segs.map toSegment) pieces captured =
      if AllMatch segs pieces then
        some ((capturedPairs segs pieces).foldl
          (fun params pair => params.insert pair.1 pair.2) captured)
      else none := by
  induction segs generalizing pieces captured with
  | nil =>
    have done : pieces = [] := eq_nil_of_length_eq_zero size.symm
    rw [done, if_pos (by decide)]
    rfl
  | cons seg segs ih =>
    cases pieces with
    | nil => cases size
    | cons piece pieces =>
      have rest := fun captured => ih pieces captured (Nat.succ.inj size)
      rw [map_cons]
      cases named : paramName seg with
      | some name =>
        have first : SegmentMatches seg piece := .inl (by rw [named]; rfl)
        rw [toSegment_param seg name named, matchSegments, if_pos rfl, rest,
          capturedPairs_param _ _ name _ _ named, foldl_cons]
        simp only [allMatch_cons, first, true_and]
      | none =>
        rw [toSegment_literal seg named, matchSegments, if_neg (by simp)]
        by_cases same : seg = piece
        · have first : SegmentMatches seg piece := .inr same
          rw [if_neg (by simpa using same), rest, capturedPairs_literal _ _ _ _ named]
          simp only [allMatch_cons, first, true_and]
        · have mismatch : ¬SegmentMatches seg piece := by
            rintro (param | equal)
            · rw [named] at param
              cases param
            · exact same equal
          rw [if_pos same]
          simp only [allMatch_cons, mismatch, false_and, if_false]

def Entry.stored (e : Entry σ) : Route σ :=
  ⟨e.method, (splitPath e.pattern).map toSegment, e.handler⟩

theorem routes_foldl (table : List (Entry σ)) (router : Router σ) :
    (table.foldl (fun router e => router.addRoute e.method e.pattern e.handler) router).routes =
      router.routes ++ table.map Entry.stored := by
  induction table generalizing router with
  | nil => simp
  | cons e table ih =>
    rw [foldl_cons, ih, map_cons, addRoute, append_assoc]
    rfl

theorem routes_ofTable (table : List (Entry σ)) :
    (ofTable table).routes = table.map Entry.stored :=
  routes_foldl table {}

theorem matchRoute_stored (e : Entry σ) (path : Bytes) :
    matchRoute e.stored (splitPath path) =
      if Matches e.pattern path then some (pathParams e.pattern path) else none := by
  rw [matchRoute, Entry.stored, splitPath_eq, splitPath_eq, length_map]
  split
  next differ =>
    exact (if_neg fun both : Matches e.pattern path => differ both.1).symm
  next size =>
    exact matchSegments_eq _ _ .empty (not_not.mp size)

/-! ## The search through the table -/

theorem routeLoop_eq (table : List (Entry σ)) (req : HttpRequest) (out : HttpResponse × σ)
    (pathMatched : Bool) :
    routeLoop req (splitPath req.path) out (table.map Entry.stored) pathMatched =
      match earliest table req with
      | some e => (true, e.handler req (pathParams e.pattern req.path) out)
      | none =>
        (false, (if pathMatched = true ∨ ∃ e ∈ table, Matches e.pattern req.path then
          methodNotAllowed out.1 else notFound out.1), out.2) := by
  induction table generalizing pathMatched with
  | nil => simp [routeLoop, earliest]
  | cons e table ih =>
    rw [map_cons, routeLoop, matchRoute_stored, earliest, List.find?_cons]
    by_cases matched : Matches e.pattern req.path
    · by_cases method : e.method = req.method
      · simp [matched, method, Entry.stored]
      · simp only [matched, method, if_true, Entry.stored, if_false, false_and, decide_false]
        rw [ih, earliest]
        simp [matched]
    · simp only [matched, if_false, and_false, decide_false]
      rw [ih, earliest]
      simp [matched]

theorem route_eq (table : List (Entry σ)) (req : HttpRequest) (out : HttpResponse × σ) :
    (ofTable table).route req out = expected table req out := by
  rw [route, routes_ofTable, routeLoop_eq, expected]
  simp

/-! ## A pattern that has been filled in -/

section Filled

variable (assign : Bytes → Bytes)

theorem slash_notMem_fillSegment (seg : Bytes) (literal : slash ∉ seg) :
    slash ∉ fillSegment assign seg := by
  rw [fillSegment]
  split
  next => exact notMem_urlEncode _ _ (by decide) (by decide)
  next => exact literal

theorem fillSegment_nil_iff (seg : Bytes)
    (values : ∀ name, paramName seg = some name → assign name ≠ []) :
    fillSegment assign seg = [] ↔ seg = [] := by
  rw [fillSegment]
  split
  next name named =>
    have filled := urlEncode_ne_nil _ (values name named)
    have braces := (paramName_eq_some_iff seg name).mp named
    simp [filled, braces]
  next => rfl

theorem segments_fillPath (pattern : Bytes)
    (values : ∀ name ∈ paramNames pattern, assign name ≠ []) :
    segments slash (fillPath assign pattern) =
      (segments slash pattern).map (fillSegment assign) := by
  have separate : ∀ piece ∈ (pattern.splitOn slash).map (fillSegment assign), slash ∉ piece := by
    intro piece member
    obtain ⟨seg, inside, rfl⟩ := mem_map.mp member
    exact slash_notMem_fillSegment assign seg (notMem_of_mem_splitOn slash pattern seg inside)
  have nonempty_split : (pattern.splitOn slash).map (fillSegment assign) ≠ [] := by
    simp [splitOn_ne_nil]
  rw [segments, fillPath, splitOn_intercalate slash separate nonempty_split, segments,
    filter_map]
  congr 1
  apply filter_congr
  intro seg inside
  have nonempty : fillSegment assign seg = [] ↔ seg = [] := by
    apply fillSegment_nil_iff
    intro name named
    apply values
    have kept : seg ∈ segments slash pattern := by
      apply mem_filter.mpr
      refine ⟨inside, ?_⟩
      simp [(paramName_eq_some_iff seg name).mp named]
    exact mem_filterMap.mpr ⟨seg, kept, named⟩
  simp [nonempty]

theorem allMatch_fillSegment (segs : List Bytes) :
    AllMatch segs (segs.map (fillSegment assign)) := by
  induction segs with
  | nil => exact ⟨rfl, by simp⟩
  | cons seg segs ih =>
    rw [map_cons, allMatch_cons]
    refine ⟨?_, ih⟩
    cases named : paramName seg with
    | some name => exact .inl (by rw [named]; rfl)
    | none => exact .inr (by rw [fillSegment, named])

theorem capturedPairs_fillSegment (segs : List Bytes) :
    capturedPairs segs (segs.map (fillSegment assign)) =
      (segs.filterMap paramName).map fun name => (name, assign name) := by
  induction segs with
  | nil => rfl
  | cons seg segs ih =>
    rw [map_cons]
    cases named : paramName seg with
    | some name =>
      have filled : fillSegment assign seg = urlEncode (assign name) := by
        rw [fillSegment, named]
      rw [capturedPairs_param _ _ name _ _ named, filled, urlDecode_urlEncode, ih,
        filterMap_cons_some named, map_cons]
    | none => rw [capturedPairs_literal _ _ _ _ named, ih, filterMap_cons_none named]

variable (pattern : Bytes) (values : ∀ name ∈ paramNames pattern, assign name ≠ [])

include values

theorem matches_fillPath : Matches pattern (fillPath assign pattern) := by
  rw [Matches, segments_fillPath assign pattern values]
  exact allMatch_fillSegment assign _

theorem pathParams_fillPath :
    pathParams pattern (fillPath assign pattern) = assigned assign pattern := by
  rw [pathParams, segments_fillPath assign pattern values, capturedPairs_fillSegment]
  rfl

end Filled

/-- Routing does what its table says, and a filled pattern comes back as its values. -/
theorem route_correct (table : List (Entry σ)) :
    (∀ req out, (ofTable table).route req out = expected table req out) ∧
      ∀ (pattern : Bytes) (assign : Bytes → Bytes),
        (∀ name ∈ paramNames pattern, assign name ≠ []) →
          Matches pattern (fillPath assign pattern) ∧
            ∀ (req : HttpRequest) (out : HttpResponse × σ) (e : Entry σ),
              e.pattern = pattern → req.path = fillPath assign pattern →
                earliest table req = some e →
                  (ofTable table).route req out =
                    (true, e.handler req (assigned assign pattern) out) := by
  constructor
  · exact route_eq table
  · intro pattern assign values
    refine ⟨matches_fillPath assign pattern values, ?_⟩
    intro req out e same filled first
    have params := pathParams_fillPath assign pattern values
    subst same
    rw [← filled] at params
    rw [route_eq, expected, first, ← params]

/-- A table with one route; its handler notes the parameters it is given. -/
def filesTable : List (Entry (List PathParams)) :=
  [⟨.get, text "/files/{dir}/{name}", fun _ params out => (out.1, out.2 ++ [params])⟩]

/-- A value with a slash in it, and one with other reserved bytes. -/
def filesAssign (name : Bytes) : Bytes := if name = text "dir" then text "a/b" else text "5%+?"

def filesRequest : HttpRequest := { method := .get, path := text "/files/a%2Fb/5%25%2B%3F" }

theorem route_filesTable :
    (ofTable filesTable).route filesRequest ({}, []) =
      (true, {}, [assigned filesAssign (text "/files/{dir}/{name}")]) :=
  ((route_correct filesTable).2 (text "/files/{dir}/{name}") filesAssign (by decide)).2
    filesRequest ({}, []) _ rfl (by decide) rfl

end Router

end Cox.Http

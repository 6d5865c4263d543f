import Cox.Lib.Printf
import Cox.Lib.ShortestText
import Cox.Metrics.Updates

/-!
# The exposition in text format

`expo::prometheus` of metrics/registry.cc. It writes point by point: `HELP` and `TYPE` lines for
every point, and the help and the values of the labels as they are. The text format wants both
lines once for a name, with all its samples behind them, and has escapes for backslashes, quotes
and line feeds. So a reader finds the points of a snapshot again exactly if every name has one
point, the labels are named as the format wants it, no help begins with a blank and nothing needs
an escape.
-/
namespace Cox.Metrics

open Cox.Lib Cox.Lib.Exposition Machine List

variable {V : Type}

/-! ### Writing -/

def typeName : MetricType → Bytes
  | .counter => text "counter"
  | .gauge => text "gauge"
  | .histogram => text "histogram"

/-- The labels in the loop of `renderLabels`; the first has no comma in front of it. -/
def renderPairs (first : Bool) : Metrics.Labels → Bytes
  | [] => []
  | l :: labels =>
    (if first then [] else text ",") ++ l.1 ++ text "=\"" ++ l.2 ++ text "\"" ++
      renderPairs false labels

def renderLabels (labels : Metrics.Labels) (extraKey extraVal : Bytes) : Bytes :=
  if labels.isEmpty && extraKey.isEmpty then []
  else
    text "\x7b" ++ renderPairs true labels ++
      (if extraKey.isEmpty then []
       else (if labels.isEmpty then [] else text ",") ++ extraKey ++ text "=\"" ++ extraVal ++
        text "\"") ++
      text "\x7d"

section Write

-- how a stream prints a number
variable (print : V → Bytes)

def sampleLine (name : Bytes) (labels value : Bytes) : Bytes :=
  name ++ labels ++ text " " ++ value ++ text "\n"

def bucketLine (p : MetricPoint V) (le : Bytes) (count : UInt64) : Bytes :=
  sampleLine (p.name ++ text "_bucket") (renderLabels p.labels (text "le") le)
    (numeral 10 count.toNat)

/-- The switch over the type. The counts are there for every bound and once more, as in all points
of a registry. -/
def sampleLines (p : MetricPoint V) : Bytes :=
  match p.type with
  | .counter | .gauge => sampleLine p.name (renderLabels p.labels [] []) (print p.value)
  | .histogram =>
    (p.bucketBounds.zipIdx.flatMap fun b => bucketLine p (print b.1) (p.bucketCounts.getD b.2 0)) ++
      bucketLine p (text "+Inf") (p.bucketCounts.getLastD 0) ++
      sampleLine (p.name ++ text "_sum") (renderLabels p.labels [] []) (print p.histSum) ++
      sampleLine (p.name ++ text "_count") (renderLabels p.labels [] [])
        (numeral 10 p.histCount.toNat)

def pointText (p : MetricPoint V) : Bytes :=
  text "# HELP " ++ p.name ++ text " " ++ p.help ++ text "\n" ++
    (text "# TYPE " ++ p.name ++ text " " ++ typeName p.type ++ text "\n") ++ sampleLines print p

def prometheus (snap : List (MetricPoint V)) : Bytes := snap.flatMap (pointText print)

/-! ### The points as families -/

def MetricType.kind : MetricType → Kind
  | .counter => .counter
  | .gauge => .gauge
  | .histogram => .histogram

def bucketSample (p : MetricPoint V) (le : Bytes) (count : UInt64) : Sample :=
  { name := p.name ++ text "_bucket"
    labels := p.labels ++ [(text "le", le)]
    value := numeral 10 count.toNat }

def samples (p : MetricPoint V) : List Sample :=
  match p.type with
  | .counter | .gauge => [{ name := p.name, labels := p.labels, value := print p.value }]
  | .histogram =>
    (p.bucketBounds.zipIdx.map fun b => bucketSample p (print b.1) (p.bucketCounts.getD b.2 0)) ++
      [bucketSample p (text "+Inf") (p.bucketCounts.getLastD 0),
        { name := p.name ++ text "_sum", labels := p.labels, value := print p.histSum },
        { name := p.name ++ text "_count", labels := p.labels,
          value := numeral 10 p.histCount.toNat }]

def family (p : MetricPoint V) : Family :=
  { name := p.name, help := some p.help, kind := some p.type.kind, samples := samples print p }

/-! ### The text is that of the families, without escapes -/

theorem renderPairs_false (labels : Metrics.Labels) :
    renderPairs false labels = labels.flatMap fun l => comma :: writeLabel verbatim l := by
  induction labels with
  | nil => rfl
  | cons l labels ih =>
    rw [renderPairs, ih, flatMap_cons, writeLabel]
    simp [text, verbatim, comma, equals, quote]

theorem renderLabels_none (labels : Metrics.Labels) :
    renderLabels labels [] [] = writeLabels verbatim labels := by
  cases labels with
  | nil => rfl
  | cons l labels =>
    rw [renderLabels, writeLabels, renderPairs, renderPairs_false, writeLabel]
    simp [text, verbatim, equals, quote, leftBrace, rightBrace]

theorem renderLabels_le (labels : Metrics.Labels) (le : Bytes) :
    renderLabels labels (text "le") le = writeLabels verbatim (labels ++ [(text "le", le)]) := by
  cases labels with
  | nil =>
    rw [renderLabels, nil_append, writeLabels, renderPairs, writeLabel]
    simp [text, verbatim, equals, quote, leftBrace, rightBrace]
  | cons l labels =>
    rw [renderLabels, cons_append, writeLabels, renderPairs, renderPairs_false, writeLabel]
    simp [text, verbatim, writeLabel, comma, equals, quote, leftBrace, rightBrace]

theorem sampleLine_eq (name value : Bytes) (labels : Metrics.Labels) :
    sampleLine name (writeLabels verbatim labels) value =
      writeLine verbatim (.sample { name, labels, value }) ++ [lineFeed] := by
  simp [sampleLine, writeLine, writeSample, writeTimestamp, text, space, lineFeed]

theorem bucketLine_eq (p : MetricPoint V) (le : Bytes) (count : UInt64) :
    bucketLine p le count = writeLine verbatim (.sample (bucketSample p le count)) ++ [lineFeed] := by
  rw [bucketLine, renderLabels_le, sampleLine_eq]
  rfl

theorem sampleLines_eq (p : MetricPoint V) :
    sampleLines print p = writeLines verbatim ((samples print p).map Line.sample) := by
  unfold sampleLines samples
  split <;> simp [renderLabels_none, sampleLine_eq, bucketLine_eq, writeLines, flatMap_map]

/-- **The text of a point is that of its family, with nothing escaped.** -/
theorem pointText_eq (p : MetricPoint V) :
    pointText print p = writeLines verbatim (family print p).lines := by
  have kind : typeName p.type = p.type.kind.word := by cases p.type <;> rfl
  rw [pointText, sampleLines_eq, kind]
  simp [family, Family.lines, writeLines, writeLine, verbatim, text, space, lineFeed]

theorem prometheus_eq (snap : List (MetricPoint V)) :
    prometheus print snap = writeFamilies verbatim (snap.map (family print)) := by
  rw [prometheus, writeFamilies, writeLines, flatMap_map, flatMap_assoc]
  refine flatMap_congr fun p _ => ?_
  rw [pointText_eq]
  rfl

end Write

/-! ### The samples of a point -/

theorem digit_digitByte : ∀ d < 10, digit (digitByte d) = true := by decide

theorem number_digits (s : Bytes) (nonempty : s ≠ []) (all : ∀ c ∈ s, digit c = true) :
    number s = true ∧ number (45 :: s) = true := by
  have other (d : UInt8) (not : digit d = false) : d ∉ s := fun inside => by
    rw [all d inside] at not
    cases not
  have isDecimal : decimal s = true := by
    have kept : s.takeWhile (fun c => digit c || c == 46) = s :=
      takeWhile_eq_self_iff.mpr fun c inside => by simp [all c inside]
    have none : s.dropWhile (fun c => digit c || c == 46) = [] :=
      dropWhile_eq_nil_iff.mpr fun c inside => by simp [all c inside]
    obtain ⟨c, first⟩ := exists_mem_of_ne_nil s nonempty
    have some : s.any digit = true := any_eq_true.mpr ⟨c, first, all c first⟩
    simp [decimal, kept, none, some, count_eq_zero_of_not_mem (other 46 (by decide))]
  have same : unsigned s = s := if_neg (not_or.mpr
    ⟨fun plus => other 43 (by decide) (mem_of_mem_head? plus),
      fun minus => other 45 (by decide) (mem_of_mem_head? minus)⟩)
  have letters : s.all (fun c => labelByte c || decide (c ∈ text "+-.")) = true :=
    all_eq_true.mpr fun c inside => by simp [labelByte, all c inside]
  constructor
  · rw [number, letters, same, isDecimal]
    rfl
  · rw [number, all_cons, letters, show unsigned (45 :: s) = s from rfl, isDecimal]
    rfl

theorem number_numeral (n : Nat) : number (numeral 10 n) = true := by
  refine (number_digits _ (numeral_ne_nil 10 n) fun c inside => ?_).1
  obtain ⟨d, small, rfl⟩ := mem_numeral 10 n (by decide) (by decide) c inside
  exact digit_digitByte d small

theorem named_suffix (name suffix : Bytes) (valid : named metricByte name = true)
    (all : suffix.all metricByte = true) : named metricByte (name ++ suffix) = true := by
  obtain ⟨c, cs, rfl, -⟩ := named_head metricByte name valid
  simp only [named, cons_append, List.head?_cons, Bool.and_eq_true] at valid ⊢
  exact ⟨by simpa [all_append, all] using valid.1, valid.2⟩

/-- What the samples of a point have in common. -/
structure SampleOf (print : V → Bytes) (p : MetricPoint V) (s : Sample) : Prop where
  own : s.name ∈ (family print p).sampleNames
  named : named metricByte s.name = true
  value : number s.value = true
  timeless : s.timestamp = none
  labels : s.labels = p.labels ∨
    p.type = .histogram ∧ ∃ le, Token le ∧ s.labels = p.labels ++ [(text "le", le)]

section Samples

variable {print : V → Bytes}

theorem sampleOf_samples (numbers : ∀ v, number (print v) = true) (p : MetricPoint V)
    (valid : named metricByte p.name = true) (s : Sample) (inside : s ∈ samples print p) :
    SampleOf print p s := by
  have bucket (type : p.type = .histogram) (le : Bytes) (token : Token le) (count : UInt64) :
      SampleOf print p (bucketSample p le count) := by
    refine ⟨?_, named_suffix _ _ valid (by decide), number_numeral _, rfl,
      .inr ⟨type, le, token, rfl⟩⟩
    simp [Family.sampleNames, family, type, MetricType.kind, bucketSample]
  unfold samples at inside
  cases type : p.type with
  | counter | gauge =>
    rw [type] at inside
    rw [mem_singleton.mp inside]
    refine ⟨?_, valid, numbers _, rfl, .inl rfl⟩
    simp [Family.sampleNames, family, type, MetricType.kind]
  | histogram =>
    rw [type] at inside
    have sum : p.name ++ text "_sum" ∈ (family print p).sampleNames := by
      simp [Family.sampleNames, family, type, MetricType.kind]
    have count : p.name ++ text "_count" ∈ (family print p).sampleNames := by
      simp [Family.sampleNames, family, type, MetricType.kind]
    simp only [mem_append, mem_map, mem_cons, not_mem_nil, or_false] at inside
    rcases inside with ⟨b, -, rfl⟩ | rfl | rfl | rfl
    · exact bucket type _ (token_of_number _ (numbers _)) _
    · exact bucket type _ ⟨by decide, all_eq_true.mp (by decide)⟩ _
    · exact ⟨sum, named_suffix _ _ valid (by decide), numbers _, rfl, .inl rfl⟩
    · exact ⟨count, named_suffix _ _ valid (by decide), number_numeral _, rfl, .inl rfl⟩

/-- The names of the labels, with the one that the buckets of a histogram get. -/
def labelNames (p : MetricPoint V) : List Bytes :=
  p.labels.map Prod.fst ++ if p.type = .histogram then [text "le"] else []

/-! ### When the text is read back -/

def pointNames (p : MetricPoint V) : List Bytes :=
  match p.type with
  | .histogram => [p.name, p.name ++ text "_bucket", p.name ++ text "_sum", p.name ++ text "_count"]
  | _ => [p.name]

/-- No name is used by two points, the labels are named as the format wants it, no help begins
with a blank, and nothing needs an escape. -/
structure Expressible (snap : List (MetricPoint V)) : Prop where
  names : (snap.flatMap pointNames).Nodup
  keys : ∀ p ∈ snap, (∀ l ∈ p.labels, named labelByte l.1 = true) ∧ (labelNames p).Nodup
  values : ∀ p ∈ snap, ∀ l ∈ p.labels, Plain true l.2
  help : ∀ p ∈ snap, Plain false p.help ∧ skip p.help = p.help

theorem names_family (p : MetricPoint V) : (family print p).names = pointNames p := by
  unfold Family.names Family.sampleNames family pointNames
  cases p.type <;> rfl

theorem proper_samples (numbers : ∀ v, number (print v) = true) (p : MetricPoint V)
    (valid : named metricByte p.name = true)
    (keys : ∀ l ∈ p.labels, named labelByte l.1 = true) (once : (labelNames p).Nodup) :
    ∀ s ∈ samples print p, s.Proper := by
  intro s inside
  obtain ⟨-, isName, token, timeless, labels⟩ := sampleOf_samples numbers p valid s inside
  rcases labels with same | ⟨type, le, -, same⟩
  · exact ⟨isName, same ▸ keys, same ▸ (nodup_append.mp once).1, token, timeless⟩
  · refine ⟨isName, ?_, ?_, token, timeless⟩
    · rw [same]
      refine forall_mem_append.mpr ⟨keys, fun l member => ?_⟩
      rw [mem_singleton.mp member]
      exact (by decide : named labelByte (text "le") = true)
    · simpa [same, labelNames, type] using once

theorem plain_of_token (w : Bytes) (token : Token w) : Plain true w := by
  have absent (c : UInt8) (other : solid c = false) : c ∉ w := by
    intro inside
    rw [token.2 c inside] at other
    cases other
  exact ⟨absent _ (by decide), absent _ (by decide), fun _ => absent _ (by decide)⟩

theorem plain_texts (numbers : ∀ v, number (print v) = true) (p : MetricPoint V)
    (valid : named metricByte p.name = true) (values : ∀ l ∈ p.labels, Plain true l.2)
    (help : Plain false p.help) :
    ∀ line ∈ (family print p).lines, ∀ t ∈ line.texts, Plain t.1 t.2 := by
  intro line inside t member
  simp only [Family.lines, family, Option.toList_some, map_cons, map_nil,
    mem_append, mem_singleton, mem_map] at inside
  rcases inside with (rfl | rfl) | ⟨s, own, rfl⟩
  · rw [mem_singleton.mp member]
    exact help
  · cases member
  · obtain ⟨l, label, rfl⟩ := mem_map.mp member
    rcases (sampleOf_samples numbers p valid s own).labels with same | ⟨-, le, token, same⟩
    · exact values l (same ▸ label)
    · rw [same] at label
      rcases mem_append.mp label with given | added
      · exact values l given
      · rw [mem_singleton.mp added]
        exact plain_of_token le token

theorem read_prometheus (numbers : ∀ v, number (print v) = true) (snap : List (MetricPoint V))
    (valid : ∀ p ∈ snap, named metricByte p.name = true) (expressible : Expressible snap) :
    read (prometheus print snap) = some (snap.map (family print)) := by
  have names : (snap.map (family print)).flatMap Family.names = snap.flatMap pointNames := by
    rw [flatMap_map]
    exact flatMap_congr fun p _ => names_family p
  rw [prometheus_eq, writeFamilies_verbatim, read_writeFamilies]
  · refine forall_mem_map.mpr fun p member => ⟨rfl, rfl, fun s inside => ?_⟩
    exact (sampleOf_samples numbers p (valid p member) s inside).own
  · refine forall_mem_map.mpr fun p member => ⟨valid p member, ?_, ?_⟩
    · rintro _ ⟨⟩
      exact (expressible.help p member).2
    obtain ⟨keys, once⟩ := expressible.keys p member
    exact proper_samples numbers p (valid p member) keys once
  · exact names ▸ expressible.names
  · refine forall_mem_map.mpr fun p member => plain_texts numbers p (valid p member) ?_ ?_
    · exact expressible.values p member
    · exact (expressible.help p member).1

theorem exists_sample (print : V → Bytes) (p : MetricPoint V) : ∃ s ∈ samples print p,
    s.labels.map Prod.fst = labelNames p ∧ ∀ l ∈ p.labels, l ∈ s.labels := by
  unfold samples labelNames
  cases p.type with
  | counter | gauge => exact ⟨_, mem_singleton_self _, by simp, fun _ => id⟩
  | histogram =>
    refine ⟨bucketSample p (text "+Inf") (p.bucketCounts.getLastD 0), by simp, ?_, fun l inside => ?_⟩
    · simp [bucketSample]
    · exact mem_append_left _ inside

/-- A snapshot that is read back from its text can be expressed without escapes: its text would
be longer than what was read from it. -/
theorem expressible_of_read (snap : List (MetricPoint V))
    (found : read (prometheus print snap) = some (snap.map (family print))) : Expressible snap := by
  obtain ⟨names, legible, short⟩ := length_read _ _ found
  rw [prometheus_eq, writeFamilies, writeFamilies] at short
  have plain := plain_of_writeLines _ short
  have held (p : MetricPoint V) (member : p ∈ snap) (line : Line) (own : line ∈ (family print p).lines) :
      line ∈ (snap.map (family print)).flatMap Family.lines :=
    mem_flatMap.mpr ⟨family print p, mem_map_of_mem member, own⟩
  have help (p : MetricPoint V) : Line.help p.name p.help ∈ (family print p).lines := by
    simp [Family.lines, family]
  have sample (p : MetricPoint V) (s : Sample) (own : s ∈ samples print p) :
      Line.sample s ∈ (family print p).lines := mem_append_right _ (mem_map_of_mem own)
  refine ⟨?_, fun p member => ?_, fun p member l given => ?_, fun p member => ?_⟩
  · rw [flatMap_map] at names
    rwa [show snap.flatMap pointNames = _ from flatMap_congr fun p _ => (names_family p).symm]
  · obtain ⟨s, own, keys, all⟩ := exists_sample print p
    obtain ⟨valid, once⟩ := legible _ (held p member _ (sample p s own))
    exact ⟨fun l given => valid l (all l given), keys ▸ once⟩
  · obtain ⟨s, own, -, all⟩ := exists_sample print p
    exact plain _ (held p member _ (sample p s own)) (true, l.2) (mem_map_of_mem (all l given))
  · exact ⟨plain _ (held p member _ (help p)) (false, p.help) (mem_singleton_self _),
      legible _ (held p member _ (help p))⟩

end Samples

section Registry

variable [LT V] [DecidableLT V] [Zero V] [NatCast V] [IntCast V] [Add V]

end Registry

/-- The points that a full scrape lists after some uses, where whole numbers are printed. -/
def scraped (uses : List (Use Int)) : List (MetricPoint Int) :=
  ((run Registry.use ({ entries := [] } : Registry Int) uses).bind (·.scrape {})).getD []

theorem number_signed (n : Int) : number (signed 0 n) = true := by
  obtain ⟨plain, negative⟩ := number_digits (padded 0 10 n.natAbs) (by simp [padded, numeral_ne_nil])
    fun c inside => by
      obtain ⟨d, small, rfl⟩ := mem_padded 0 10 n.natAbs (by decide) (by decide) c inside
      exact digit_digitByte d small
  unfold signed
  split
  · exact negative
  · exact plain

/-- A counter with a label and a histogram, each with a name of its own. -/
def ownNames : List (Use Int) :=
  [.call (.counter (text "requests_total") (text "All requests") [(text "method", text "GET")]),
    .countUp 0 7,
    .call (.histogram (text "latency") (text "In ms") [1, 5] []),
    .observe 1 3]

/-- Two classes of responses under one name, as the server registers them. -/
def twoClasses : List (Use Int) :=
  [.call (.counter (text "cox_http_requests_total") (text "HTTP requests")
      [(text "status_class", text "1xx")]),
    .call (.counter (text "cox_http_requests_total") (text "HTTP requests")
      [(text "status_class", text "2xx")])]

def quotedValue : List (Use Int) :=
  [.call (.counter (text "hits_total") [] [(text "agent", text "a \"b\"")])]

end Cox.Metrics

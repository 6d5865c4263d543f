import Mathlib.Data.List.Nodup
import Cox.Lib.Bytes
import Cox.Lib.Machine

/-!
# The registry of metrics

`Registry` of metrics/registry.cc with the instruments of metrics/metrics.cc. The numbers are
those of any type `V` in the place of `double`, whose order need not be total.

An entry is created first and gets its value source, an instrument or a sample function,
afterwards. A histogram with bad buckets throws between the two, and nothing keeps an entry
from getting a second source. A scrape that reads through a null pointer has no result here.
-/
namespace Cox.Metrics

open Cox.Lib Machine List

/-- `MetricPoint::Type`. -/
inductive MetricType where
  | counter
  | gauge
  | histogram
  deriving DecidableEq, Repr

abbrev Labels := List (Bytes × Bytes)

/-- What the calls throw. -/
inductive MetricsError where
  | runtimeError (what : Bytes)
  | invalidArgument (what : Bytes)
  deriving DecidableEq

variable {V : Type} [LT V] [DecidableLT V] [Zero V] [NatCast V] [IntCast V]

/-! ### Instruments -/

structure Counter where
  value : UInt64 := 0

def Counter.inc (c : Counter) (n : UInt64) : Counter := { c with value := c.value + n }

structure Gauge where
  value : Int := 0

/-- The value wraps around like an `int64_t`. -/
def Gauge.inc (g : Gauge) (n : Int) : Gauge :=
  { g with value := (g.value + n).bmod 18446744073709551616 }

def Gauge.dec (g : Gauge) (n : Int) : Gauge :=
  { g with value := (g.value - n).bmod 18446744073709551616 }

def Gauge.set (g : Gauge) (v : Int) : Gauge := { g with value := v }

structure Histogram (V : Type) where
  bounds : List V
  counts : List UInt64
  count : UInt64 := 0
  sum : V

def strictlyAscending : List V → Bool
  | a :: b :: bounds => decide (a < b) && strictlyAscending (b :: bounds)
  | _ => true

def Histogram.make (bounds : List V) : Except MetricsError (Histogram V) :=
  if bounds.isEmpty then
    .error (.invalidArgument (text "Histogram requires >= 1 upper bound"))
  else if strictlyAscending bounds then
    .ok { bounds, counts := List.replicate (bounds.length + 1) 0, sum := 0 }
  else .error (.invalidArgument (text "Histogram bounds must be strictly ascending"))

/-- The counts of `Histogram::snapshot`: each bucket includes those below it. -/
def cumulative (sum : UInt64) : List UInt64 → List UInt64
  | [] => []
  | count :: counts => (sum + count) :: cumulative (sum + count) counts

/-! ### Entries -/

structure MetricPoint (V : Type) where
  name : Bytes
  help : Bytes
  type : MetricType
  labels : Labels
  value : V
  bucketBounds : List V := []
  bucketCounts : List UInt64 := []
  histCount : UInt64 := 0
  histSum : V

/-- `Registry::Entry`; the pointers may be null, and the function empty. -/
structure Entry (V : Type) where
  name : Bytes
  help : Bytes
  type : MetricType
  labels : Labels
  counter : Option Counter := none
  gauge : Option Gauge := none
  histogram : Option (Histogram V) := none
  sample : Option (Unit → V) := none

namespace Entry

def key (e : Entry V) : Bytes × Labels := (e.name, e.labels)

def point (e : Entry V) : MetricPoint V :=
  { name := e.name, help := e.help, type := e.type, labels := e.labels, value := 0, histSum := 0 }

/-- The point of an entry, unless a null pointer is in the way. -/
def read (e : Entry V) : Option (MetricPoint V) :=
  match e.sample with
  | some sample => some { e.point with value := sample () }
  | none =>
    match e.type with
    | .counter => e.counter.map fun c => { e.point with value := (c.value.toNat : V) }
    | .gauge => e.gauge.map fun g => { e.point with value := (g.value : V) }
    | .histogram => e.histogram.map fun h =>
      { e.point with
        bucketBounds := h.bounds
        bucketCounts := cumulative 0 h.counts
        histCount := h.count
        histSum := h.sum }

def makeCounter (e : Entry V) : Entry V :=
  if e.counter.isNone then { e with counter := some {} } else e

def makeGauge (e : Entry V) : Entry V :=
  if e.gauge.isNone then { e with gauge := some {} } else e

/-- The buckets are only looked at if there is no histogram yet. -/
def makeHistogram (e : Entry V) (buckets : List V) : Except MetricsError (Entry V) :=
  if e.histogram.isNone then (Histogram.make buckets).map fun h => { e with histogram := some h }
  else .ok e

/-- The entry has one value source, and it fits its type. -/
def Sourced (e : Entry V) : Prop :=
  match e.type with
  | .counter => e.gauge.isNone ∧ e.histogram.isNone ∧ (e.counter.isSome ↔ e.sample.isNone)
  | .gauge => e.counter.isNone ∧ e.histogram.isNone ∧ (e.gauge.isSome ↔ e.sample.isNone)
  | .histogram => e.counter.isNone ∧ e.gauge.isNone ∧ e.sample.isNone ∧ e.histogram.isSome

omit [LT V] [DecidableLT V] in
theorem Sourced.reads (e : Entry V) (sourced : e.Sourced) : e.read.isSome := by
  unfold read
  split
  · rfl
  next none =>
    unfold Sourced at sourced
    cases type : e.type with
    | counter =>
      rw [type] at sourced
      simpa using sourced.2.2.mpr (by rw [none]; rfl)
    | gauge =>
      rw [type] at sourced
      simpa using sourced.2.2.mpr (by rw [none]; rfl)
    | histogram =>
      rw [type] at sourced
      simpa using sourced.2.2.2

end Entry

/-! ### The registry -/

structure Registry (V : Type) where
  entries : List (Entry V) := []

structure ScrapeFilter (V : Type) where
  namePrefix : Bytes := []
  includeHistograms : Bool := true
  predicate : Option (MetricPoint V → Bool) := none

/-- The labels are compared in the order given. -/
def sameLabels (a b : Labels) : Bool :=
  a.length == b.length && (a.zip b).all fun p => p.1.1 == p.2.1 && p.1.2 == p.2.2

theorem sameLabels_iff (a b : Labels) : sameLabels a b = true ↔ a = b := by
  unfold sameLabels
  induction a generalizing b with
  | nil => cases b <;> simp
  | cons x a ih =>
    cases b with
    | nil => simp
    | cons y b =>
      have rest := ih b
      simp only [Bool.and_eq_true, beq_iff_eq] at rest
      simp only [length_cons, zip_cons_cons, all_cons, Bool.and_eq_true, beq_iff_eq,
        Nat.add_right_cancel_iff, List.cons.injEq, Prod.ext_iff, ← rest]
      tauto

namespace Registry

/-- The position of the entry for a name and labels, which is created if there is none. -/
def findOrCreate (r : Registry V) (name help : Bytes) (type : MetricType) (labels : Labels) :
    Except MetricsError (Registry V × Nat) :=
  match r.entries.findIdx? fun e => e.name == name && sameLabels e.labels labels with
  | some i =>
    match r.entries[i]? with
    | some e =>
      if e.type ≠ type then
        .error (.runtimeError
          (text "metrics: instrument '" ++ name ++ text "' redeclared with a different type"))
      else .ok (r, i)
    | none => .ok (r, i)
  | none => .ok ({ r with entries := r.entries ++ [{ name, help, type, labels }] }, r.entries.length)

/-- What the calls have in common: find or create the entry, then give it its source. -/
def withEntry (r : Registry V) (name help : Bytes) (type : MetricType) (labels : Labels)
    (fill : Entry V → Except MetricsError (Entry V)) : Registry V × Except MetricsError Nat :=
  match r.findOrCreate name help type labels with
  | .error e => (r, .error e)
  | .ok (r', i) =>
    match r'.entries[i]? with
    | some e =>
      match fill e with
      | .ok e' => ({ r' with entries := r'.entries.set i e' }, .ok i)
      | .error thrown => (r', .error thrown)
    | none => (r', .ok i)

def counter (r : Registry V) (name help : Bytes) (labels : Labels) :
    Registry V × Except MetricsError Nat :=
  r.withEntry name help .counter labels fun e => .ok e.makeCounter

def gauge (r : Registry V) (name help : Bytes) (labels : Labels) :
    Registry V × Except MetricsError Nat :=
  r.withEntry name help .gauge labels fun e => .ok e.makeGauge

def histogram (r : Registry V) (name help : Bytes) (buckets : List V) (labels : Labels) :
    Registry V × Except MetricsError Nat :=
  r.withEntry name help .histogram labels fun e => e.makeHistogram buckets

def registerSampled (r : Registry V) (name help : Bytes) (type : MetricType)
    (sample : Option (Unit → V)) (labels : Labels) : Registry V × Except MetricsError Nat :=
  if type = .histogram then
    (r, .error (.runtimeError
      (text "registerSampled: histograms are not supported as sampled instruments ('" ++ name ++
        text "')")))
  else r.withEntry name help type labels fun e => .ok { e with sample }

/-- The part of `scrape` for one entry: its point, if the filter lets it through. -/
def scrapeEntry (filter : ScrapeFilter V) (e : Entry V) : Option (Option (MetricPoint V)) :=
  if !filter.namePrefix.isEmpty && !filter.namePrefix.isPrefixOf e.name then some none
  else if !filter.includeHistograms && e.type == .histogram then some none
  else
    match e.read with
    | none => none
    | some p =>
      match filter.predicate with
      | some predicate => some (if predicate p then some p else none)
      | none => some (some p)

def scrape (r : Registry V) (filter : ScrapeFilter V) : Option (List (MetricPoint V)) :=
  (r.entries.mapM (scrapeEntry filter)).map (·.filterMap id)

/-! ### Calls -/

/-- The calls that change a registry; the sample functions are not empty. -/
inductive Call (V : Type) where
  | counter (name help : Bytes) (labels : Labels)
  | gauge (name help : Bytes) (labels : Labels)
  | histogram (name help : Bytes) (buckets : List V) (labels : Labels)
  | registerSampled (name help : Bytes) (type : MetricType) (sample : Unit → V) (labels : Labels)

def call (r : Registry V) : Call V → Registry V × Except MetricsError Nat
  | .counter name help labels => r.counter name help labels
  | .gauge name help labels => r.gauge name help labels
  | .histogram name help buckets labels => r.histogram name help buckets labels
  | .registerSampled name help type sample labels =>
    r.registerSampled name help type (some sample) labels

def step (r : Registry V) (c : Call V) : Option (Registry V) := some (r.call c).1

/-- Every entry has its source, no two are for the same name and labels, and every scrape has
a result. -/
structure Usable (r : Registry V) : Prop where
  sourced : ∀ e ∈ r.entries, e.Sourced
  distinct : (r.entries.map Entry.key).Nodup
  scrapes : ∀ filter, (r.scrape filter).isSome

/-- A call that throws leaves the registry as it was. -/
def ThrowsCleanly (r : Registry V) (c : Call V) : Prop :=
  ∀ thrown, (r.call c).2 = .error thrown → (r.call c).1.entries = r.entries

/-- The call gives no second source to an entry, and makes no entry for a histogram that cannot
be built. -/
def Proper (r : Registry V) : Call V → Prop
  | .counter name _ labels =>
    ∀ e ∈ r.entries, e.key = (name, labels) → e.type = .counter → e.sample.isNone
  | .gauge name _ labels =>
    ∀ e ∈ r.entries, e.key = (name, labels) → e.type = .gauge → e.sample.isNone
  | .histogram name _ buckets labels =>
    (∀ e ∈ r.entries, e.key ≠ (name, labels)) → ∃ h, Histogram.make buckets = .ok h
  | .registerSampled name _ type _ labels =>
    type ≠ .histogram → ∀ e ∈ r.entries, e.key = (name, labels) → e.type = type →
      e.counter.isNone ∧ e.gauge.isNone

/-! ### What a call does to the entries -/

/-- The outcomes of a call for a name and labels. -/
inductive Found (r : Registry V) (name help : Bytes) (type : MetricType) (labels : Labels)
    (fill : Entry V → Except MetricsError (Entry V)) : Registry V → Except MetricsError Nat → Prop
    where
  /-- The entry is of another type. -/
  | mismatch (e : Entry V) (inside : e ∈ r.entries) (same : e.key = (name, labels))
      (other : e.type ≠ type) (what : MetricsError) :
      Found r name help type labels fill r (.error what)
  | filled (i : Nat) (e e' : Entry V) (place : r.entries[i]? = some e)
      (same : e.key = (name, labels)) (fits : e.type = type) (fills : fill e = .ok e') :
      Found r name help type labels fill { r with entries := r.entries.set i e' } (.ok i)
  /-- The entry stays as it is, since its source cannot be built. -/
  | kept (e : Entry V) (inside : e ∈ r.entries) (same : e.key = (name, labels))
      (fits : e.type = type) (thrown : MetricsError) (fails : fill e = .error thrown) :
      Found r name help type labels fill r (.error thrown)
  | created (e' : Entry V) (fresh : ∀ e ∈ r.entries, e.key ≠ (name, labels))
      (fills : fill { name, help, type, labels } = .ok e') :
      Found r name help type labels fill { r with entries := r.entries ++ [e'] }
        (.ok r.entries.length)
  /-- A new entry is left without a source. -/
  | abandoned (fresh : ∀ e ∈ r.entries, e.key ≠ (name, labels)) (thrown : MetricsError)
      (fails : fill { name, help, type, labels } = .error thrown) :
      Found r name help type labels fill
        { r with entries := r.entries ++ [{ name, help, type, labels }] } (.error thrown)

section Calls

variable {r : Registry V} {name help : Bytes} {type : MetricType} {labels : Labels}
  {fill : Entry V → Except MetricsError (Entry V)} {r' : Registry V}
  {result : Except MetricsError Nat}

section Sources

omit [LT V] [DecidableLT V]

omit [Zero V] [NatCast V] [IntCast V] in
theorem found_withEntry (r : Registry V) (name help : Bytes) (type : MetricType) (labels : Labels)
    (fill : Entry V → Except MetricsError (Entry V)) :
    Found r name help type labels fill (r.withEntry name help type labels fill).1
      (r.withEntry name help type labels fill).2 := by
  have keyed (e : Entry V) :
      (e.name == name && sameLabels e.labels labels) = true ↔ e.key = (name, labels) := by
    simp [Entry.key, sameLabels_iff]
  unfold withEntry findOrCreate
  cases found : r.entries.findIdx? fun e => e.name == name && sameLabels e.labels labels with
  | none =>
    have fresh : ∀ e ∈ r.entries, e.key ≠ (name, labels) := by
      intro e inside same
      have absent := List.findIdx?_eq_none_iff.mp found e inside
      rw [(keyed e).mpr same] at absent
      cases absent
    dsimp only
    rw [List.getElem?_concat_length]
    dsimp only
    cases fills : fill { name, help, type, labels } with
    | ok e' =>
      dsimp only
      rw [set_append_right _ _ le_rfl, Nat.sub_self]
      exact .created e' fresh fills
    | error thrown => exact .abandoned fresh thrown fills
  | some i =>
    obtain ⟨bound, holds, _⟩ := List.findIdx?_eq_some_iff_getElem.mp found
    have place : r.entries[i]? = some r.entries[i] := List.getElem?_eq_getElem bound
    have inside : r.entries[i] ∈ r.entries := getElem_mem bound
    have same := (keyed _).mp holds
    dsimp only
    rw [place]
    dsimp only
    by_cases fits : r.entries[i].type = type
    · rw [if_neg (not_not.mpr fits)]
      dsimp only
      rw [place]
      dsimp only
      cases fills : fill r.entries[i] with
      | ok e' => exact .filled i _ e' place same fits fills
      | error thrown => exact .kept _ inside same fits thrown fills
    · rw [if_pos fits]
      exact .mismatch _ inside same fits _

theorem isSome_scrapeEntry (filter : ScrapeFilter V) (e : Entry V) (sourced : e.Sourced) :
    (scrapeEntry filter e).isSome := by
  obtain ⟨p, read⟩ := Option.isSome_iff_exists.mp (sourced.reads e)
  unfold scrapeEntry
  rw [read]
  split
  · rfl
  · split
    · rfl
    · dsimp only
      split <;> rfl

theorem scrapes_of_sourced (sourced : ∀ e ∈ r.entries, e.Sourced) (filter : ScrapeFilter V) :
    (r.scrape filter).isSome := by
  have read (entries : List (Entry V)) (sourced : ∀ e ∈ entries, e.Sourced) :
      (entries.mapM (scrapeEntry filter)).isSome := by
    induction entries with
    | nil => rfl
    | cons e entries ih =>
      obtain ⟨p, first⟩ := Option.isSome_iff_exists.mp
        (isSome_scrapeEntry filter e (sourced e (mem_cons_self ..)))
      obtain ⟨points, rest⟩ := Option.isSome_iff_exists.mp
        (ih fun e' inside => sourced e' (mem_cons_of_mem e inside))
      simp [mapM_cons, first, rest]
  simpa [scrape] using read r.entries sourced

theorem Usable.found (usable : Usable r) (found : Found r name help type labels fill r' result)
    (keeps : ∀ e e', fill e = .ok e' → e'.key = e.key)
    (old : ∀ e ∈ r.entries, e.key = (name, labels) → e.type = type →
      ∀ e', fill e = .ok e' → e'.Sourced)
    (new : (∀ e ∈ r.entries, e.key ≠ (name, labels)) →
      ∃ e', fill { name, help, type, labels } = .ok e' ∧ e'.Sourced) :
    Usable r' ∧ ∀ thrown, result = .error thrown → r'.entries = r.entries := by
  have usable_of (entries : List (Entry V)) (sourced : ∀ e ∈ entries, e.Sourced)
      (distinct : (entries.map Entry.key).Nodup) : Usable { r with entries } :=
    ⟨sourced, distinct, scrapes_of_sourced sourced⟩
  cases found with
  | mismatch | kept => exact ⟨usable, fun _ _ => rfl⟩
  | filled i e e' place same fits fills =>
    refine ⟨usable_of _ ?_ ?_, by simp⟩
    · intro x inside
      rcases mem_or_eq_of_mem_set inside with before | rfl
      · exact usable.sourced x before
      · exact old e (mem_of_getElem? place) same fits _ fills
    · have unchanged : (r.entries.set i e').map Entry.key = r.entries.map Entry.key := by
        obtain ⟨bound, found⟩ := List.getElem?_eq_some_iff.mp place
        rw [map_set, keeps e e' fills, ← found, ← map_set, set_getElem_self]
      rw [unchanged]
      exact usable.distinct
  | created e' fresh fills =>
    obtain ⟨filled, fills', sourced⟩ := new fresh
    cases fills.symm.trans fills'
    refine ⟨usable_of _ ?_ ?_, by simp⟩
    · exact forall_mem_append.mpr ⟨usable.sourced, forall_mem_singleton.mpr sourced⟩
    · rw [map_append, map_singleton, keeps _ e' fills]
      refine nodup_append.mpr ⟨usable.distinct, by simp, ?_⟩
      rintro key before _ added rfl
      obtain ⟨e, inside, same⟩ := mem_map.mp before
      exact fresh e inside (same.trans (mem_singleton.mp added))
  | abandoned fresh thrown fails =>
    obtain ⟨_, fills, _⟩ := new fresh
    cases fails.symm.trans fills

theorem Usable.spoiled (usable : Usable r) (found : Found r name help type labels fill r' result)
    (e e' : Entry V) (inside : e ∈ r.entries) (same : e.key = (name, labels)) (fits : e.type = type)
    (fills : fill e = .ok e') (twice : ¬e'.Sourced) : ¬Usable r' := by
  -- the entry for the name and labels is the only one
  have only (x : Entry V) (there : x ∈ r.entries) (key : x.key = (name, labels)) : x = e :=
    inj_on_of_nodup_map usable.distinct there inside (key.trans same.symm)
  intro usable'
  cases found with
  | mismatch x there key other =>
    rw [only x there key] at other
    exact other fits
  | filled i x x' place key _ filled =>
    rw [only x (mem_of_getElem? place) key, fills] at filled
    cases filled
    have bound : i < r.entries.length := (List.getElem?_eq_some_iff.mp place).1
    exact twice (usable'.sourced e' (mem_set bound e'))
  | kept x there key _ thrown fails =>
    rw [only x there key, fills] at fails
    cases fails
  | created _ fresh | abandoned fresh => exact fresh e inside same

/-! ### The calls one by one -/

omit [Zero V] [NatCast V] [IntCast V] in
theorem sourced_counter_iff (e : Entry V) (fits : e.type = .counter) (sourced : e.Sourced) :
    e.makeCounter.Sourced ↔ e.sample.isNone := by
  obtain ⟨name, help, type, labels, counter, gauge, histogram, sample⟩ := e
  obtain rfl : type = .counter := fits
  cases counter <;> cases sample <;> simp_all [Entry.Sourced, Entry.makeCounter]

omit [Zero V] [NatCast V] [IntCast V] in
theorem sourced_gauge_iff (e : Entry V) (fits : e.type = .gauge) (sourced : e.Sourced) :
    e.makeGauge.Sourced ↔ e.sample.isNone := by
  obtain ⟨name, help, type, labels, counter, gauge, histogram, sample⟩ := e
  obtain rfl : type = .gauge := fits
  cases gauge <;> cases sample <;> simp_all [Entry.Sourced, Entry.makeGauge]

omit [Zero V] [NatCast V] [IntCast V] in
theorem sourced_sample_iff (e : Entry V) (fits : e.type ≠ .histogram) (sourced : e.Sourced)
    (sample : Unit → V) :
    ({ e with sample := some sample } : Entry V).Sourced ↔ e.counter.isNone ∧ e.gauge.isNone := by
  obtain ⟨name, help, type, labels, counter, gauge, histogram, old⟩ := e
  cases type with
  | counter => cases counter <;> simp_all [Entry.Sourced]
  | gauge => cases gauge <;> simp_all [Entry.Sourced]
  | histogram => exact absurd rfl fits

theorem Usable.found_iff (usable : Usable r) (filled : Entry V → Entry V)
    (found : Found r name help type labels (fun e => .ok (filled e)) r' result)
    (Free : Entry V → Prop) (keeps : ∀ e, (filled e).key = e.key)
    (old : ∀ e, e.type = type → e.Sourced → ((filled e).Sourced ↔ Free e))
    (new : (filled { name, help, type, labels }).Sourced) :
    (Usable r' ↔ ∀ e ∈ r.entries, e.key = (name, labels) → e.type = type → Free e) ∧
      ∀ thrown, result = .error thrown → r'.entries = r.entries := by
  refine ⟨⟨fun usable' e inside same fits => ?_, fun free => ?_⟩, fun thrown threw => ?_⟩
  · by_contra taken
    refine usable.spoiled found e (filled e) inside same fits rfl (fun sourced => ?_) usable'
    exact taken ((old e fits (usable.sourced e inside)).mp sourced)
  · refine (usable.found found ?_ ?_ fun _ => ⟨_, rfl, new⟩).1
    · rintro e _ ⟨⟩
      exact keeps e
    · rintro e inside same fits _ ⟨⟩
      exact (old e fits (usable.sourced e inside)).mpr (free e inside same fits)
  · cases found with
    | mismatch | kept => rfl
    | abandoned _ _ fails => cases fails
    | filled | created => cases threw

theorem Usable.counter_iff (usable : Usable r) :
    (Usable (r.counter name help labels).1 ↔ ∀ e ∈ r.entries, e.key = (name, labels) →
      e.type = .counter → e.sample.isNone) ∧
      ∀ thrown, (r.counter name help labels).2 = .error thrown →
        (r.counter name help labels).1.entries = r.entries := by
  refine usable.found_iff _ (found_withEntry ..) (fun e => e.sample.isNone) (fun e => ?_)
    sourced_counter_iff (by simp [Entry.Sourced, Entry.makeCounter])
  unfold Entry.makeCounter
  split <;> rfl

theorem Usable.gauge_iff (usable : Usable r) :
    (Usable (r.gauge name help labels).1 ↔ ∀ e ∈ r.entries, e.key = (name, labels) →
      e.type = .gauge → e.sample.isNone) ∧
      ∀ thrown, (r.gauge name help labels).2 = .error thrown →
        (r.gauge name help labels).1.entries = r.entries := by
  refine usable.found_iff _ (found_withEntry ..) (fun e => e.sample.isNone) (fun e => ?_)
    sourced_gauge_iff (by simp [Entry.Sourced, Entry.makeGauge])
  unfold Entry.makeGauge
  split <;> rfl

theorem Usable.registerSampled_iff (usable : Usable r) (sample : Unit → V) :
    (Usable (r.registerSampled name help type (some sample) labels).1 ↔
      (type ≠ .histogram → ∀ e ∈ r.entries, e.key = (name, labels) → e.type = type →
        e.counter.isNone ∧ e.gauge.isNone)) ∧
      ∀ thrown, (r.registerSampled name help type (some sample) labels).2 = .error thrown →
        (r.registerSampled name help type (some sample) labels).1.entries = r.entries := by
  unfold registerSampled
  by_cases unsupported : type = .histogram
  · rw [if_pos unsupported]
    simp [usable, unsupported]
  · rw [if_neg unsupported]
    have calls := usable.found_iff _
      (found_withEntry r name help type labels fun e => .ok { e with sample := some sample })
      (fun e => e.counter.isNone ∧ e.gauge.isNone) (fun _ => rfl)
      (fun e fits sourced => sourced_sample_iff e (fits ▸ unsupported) sourced sample)
      (by cases type <;> simp_all [Entry.Sourced])
    exact ⟨⟨fun usable' _ => calls.1.mp usable', fun free => calls.1.mpr (free unsupported)⟩,
      calls.2⟩

end Sources

omit [NatCast V] [IntCast V] in
theorem key_makeHistogram (e e' : Entry V) (buckets : List V)
    (made : e.makeHistogram buckets = .ok e') : e'.key = e.key := by
  unfold Entry.makeHistogram at made
  split at made
  · cases built : Histogram.make buckets with
    | ok h =>
      rw [built] at made
      cases made
      rfl
    | error thrown =>
      rw [built] at made
      cases made
  · cases made
    rfl

theorem Usable.made (usable : Usable r) (buckets : List V)
    (found : Found r name help .histogram labels (fun e => e.makeHistogram buckets) r' result)
    (builds : (∀ e ∈ r.entries, e.key ≠ (name, labels)) → ∃ h, Histogram.make buckets = .ok h) :
    Usable r' ∧ ∀ thrown, result = .error thrown → r'.entries = r.entries := by
  refine usable.found found (key_makeHistogram · · buckets) ?_ ?_
  · intro e inside _ fits e' made
    have sourced := usable.sourced e inside
    have there : e.histogram.isSome := by
      unfold Entry.Sourced at sourced
      rw [fits] at sourced
      exact sourced.2.2.2
    rw [Entry.makeHistogram, if_neg (by simpa [Option.isSome_iff_ne_none] using there)] at made
    cases made
    exact sourced
  · intro fresh
    obtain ⟨h, built⟩ := builds fresh
    refine ⟨{ name, help, type := .histogram, labels, histogram := some h }, ?_, ?_⟩
    · rw [Entry.makeHistogram, built]
      rfl
    · simp [Entry.Sourced]

theorem Usable.abandons (buckets : List V)
    (found : Found r name help .histogram labels (fun e => e.makeHistogram buckets) r' result)
    (usable' : Usable r') (fresh : ∀ e ∈ r.entries, e.key ≠ (name, labels)) :
    ∃ h, Histogram.make buckets = .ok h := by
  cases found with
  | mismatch e inside same => exact absurd same (fresh e inside)
  | kept e inside same => exact absurd same (fresh e inside)
  | filled i e e' place same => exact absurd same (fresh e (mem_of_getElem? place))
  | created e' _ made =>
    cases built : Histogram.make buckets with
    | ok h => exact ⟨h, rfl⟩
    | error thrown =>
      rw [Entry.makeHistogram, built] at made
      cases made
  | abandoned =>
    have sourced := usable'.sourced _ (mem_append_right _ (mem_singleton_self _))
    simp [Entry.Sourced] at sourced

end Calls

/-! ### Runs -/

section Run

variable {r : Registry V}

theorem Usable.call_iff (usable : Usable r) (c : Call V) : Usable (r.call c).1 ↔ Proper r c := by
  cases c with
  | counter name help labels => exact usable.counter_iff.1
  | gauge name help labels => exact usable.gauge_iff.1
  | histogram name help buckets labels =>
    exact ⟨Usable.abandons buckets (found_withEntry ..),
      fun builds => (usable.made buckets (found_withEntry ..) builds).1⟩
  | registerSampled name help type sample labels => exact (usable.registerSampled_iff sample).1

theorem Usable.throwsCleanly (usable : Usable r) (c : Call V) (proper : Proper r c) :
    ThrowsCleanly r c := by
  cases c with
  | counter name help labels => exact usable.counter_iff.2
  | gauge name help labels => exact usable.gauge_iff.2
  | histogram name help buckets labels =>
    exact (usable.made buckets (found_withEntry ..) proper).2
  | registerSampled name help type sample labels => exact (usable.registerSampled_iff sample).2

end Run

omit [LT V] [DecidableLT V] in
theorem usable_empty : Usable ({ entries := [] } : Registry V) :=
  ⟨by simp, by simp, by simp [scrape]⟩

/-- **Every entry has one usable source**, and calls that throw change nothing, exactly along
the sequences of calls that give no entry a second source, from the owned and the sampled
interface, and create no histogram with bad buckets. -/
theorem usable_iff (calls : List (Call V)) :
    (Always step Usable ({ entries := [] } : Registry V) calls ∧
        Meets step ThrowsCleanly ({ entries := [] } : Registry V) calls) ↔
      Meets step Proper ({ entries := [] } : Registry V) calls := by
  have exactly : Always step Usable ({ entries := [] } : Registry V) calls ↔
      Meets step Proper ({ entries := [] } : Registry V) calls := by
    refine always_iff_meets (fun _ usable => usable) (fun r c r' usable proper stepped => ?_)
      (fun r c r' usable improper stepped usable' => ?_) _ calls usable_empty
    · cases stepped
      exact (usable.call_iff c).mpr proper
    · cases stepped
      exact improper ((usable.call_iff c).mp usable')
  refine ⟨fun both => exactly.mp both.1, fun proper => ⟨exactly.mpr proper, ?_⟩⟩
  refine Meets.imp (fun r c _ usable _ proper => ?_) _ calls (exactly.mpr proper) proper
  exact usable.throwsCleanly c proper

def noBuckets : List (Call Int) := [.histogram (text "h") [] [] []]

/-- The call throws, its entry stays behind, and the next scrape reads through a null pointer. -/
theorem noBuckets_abandoned :
    ¬Always step Usable ({ entries := [] } : Registry Int) noBuckets ∧
      ¬Meets step ThrowsCleanly ({ entries := [] } : Registry Int) noBuckets ∧
      (run step ({ entries := [] } : Registry Int) noBuckets).map
          (fun r => (r.entries.length, (r.scrape {}).isNone)) = some (1, true) := by
  refine ⟨fun always => ?_, fun clean => ?_, by decide +kernel⟩
  · have spoiled := always.2.scrapes {}
    exact absurd spoiled (by decide +kernel)
  · have changed := clean.1 _ rfl
    exact absurd (congrArg List.length changed) (by decide +kernel)

-- A counter that is registered as sampled afterwards has two sources.
example : (run step ({ entries := [] } : Registry Int)
    [.counter (text "c") [] [], .registerSampled (text "c") [] .counter (fun _ => 7) []]).map
    (fun r => r.entries.map fun e => (e.counter.isSome, e.sample.isSome)) =
      some [(true, true)] := by
  decide +kernel

end Registry
end Cox.Metrics

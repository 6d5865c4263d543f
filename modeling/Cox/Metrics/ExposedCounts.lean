import Cox.Lib.Decimal
import Cox.Metrics.Prometheus

/-!
# Counts in the exposition

A stream prints numbers of type `double` with six significant digits. A count is converted to one
without a loss up to `2 ^ 53`, but the text that is exposed for it has six digits. From a million
on a counter is rounded, and stands still in the text while it goes on.
-/
namespace Cox.Metrics

open Cox.Lib Cox.Lib.Decimal List

/-- A number as a stream prints it, with the precision 6 that it has from the start. -/
def exposed (x : Double) : Bytes := general 5 x.val

/-- The source of an entry has this integer for its value. -/
inductive Entry.Holds (e : Entry Double) : ℤ → Prop where
  | counter (c : Counter) (type : e.type = .counter) (own : e.sample = none)
      (source : e.counter = some c) : Holds e c.value.toNat
  | gauge (g : Gauge) (type : e.type = .gauge) (own : e.sample = none)
      (source : e.gauge = some g) : Holds e g.value
  | sampled (sample : Unit → Double) (n : ℤ) (type : e.type ≠ .histogram)
      (source : e.sample = some sample) (value : (sample ()).val = n) : Holds e n

theorem Entry.Holds.read (e : Entry Double) (n : ℤ) (holds : e.Holds n) (small : |n| < 2 ^ 53)
    (p : MetricPoint Double) (reads : e.read = some p) :
    p.type ≠ .histogram ∧ p.value.val = n := by
  have type := (Registry.read_header e p reads).2
  unfold Entry.read at reads
  cases holds with
  | counter c isCounter own source =>
    rw [own, isCounter, source] at reads
    cases reads
    refine ⟨by rw [type, isCounter]; decide, Double.val_natCast _ ?_⟩
    rw [Nat.abs_cast] at small
    exact_mod_cast small
  | gauge g isGauge own source =>
    rw [own, isGauge, source] at reads
    cases reads
    exact ⟨by rw [type, isGauge]; decide, Double.val_intCast _ small⟩
  | sampled sample n isNumber source value =>
    rw [source] at reads
    cases reads
    exact ⟨type ▸ isNumber, value⟩

theorem sampleLines_number (print : Double → Bytes) (p : MetricPoint Double)
    (number : p.type ≠ .histogram) :
    sampleLines print p = sampleLine p.name (renderLabels p.labels [] []) (print p.value) := by
  unfold sampleLines
  cases type : p.type with
  | counter => rfl
  | gauge => rfl
  | histogram => exact absurd type number

theorem prometheus_ne_iff (print : Double → Bytes) (before after : List (MetricPoint Double))
    (p : MetricPoint Double) (number : p.type ≠ .histogram) (value : Double) :
    prometheus print (before ++ { p with value } :: after) ≠
        prometheus print (before ++ p :: after) ↔ print value ≠ print p.value := by
  have line := sampleLines_number print p number
  have line' := sampleLines_number print { p with value } number
  simp only [prometheus, flatMap_append, flatMap_cons, pointText, line, line',
    sampleLine, ne_eq, append_cancel_left_eq, append_cancel_right_eq]

theorem read_inc (e : Entry Double) (c : Counter) (type : e.type = .counter)
    (own : e.sample = none) (source : e.counter = some c) (room : c.value.toNat + 1 < 2 ^ 53)
    (p : MetricPoint Double) (reads : e.read = some p) :
    ({ e with counter := e.counter.map (·.inc 1) } : Entry Double).read =
      some { p with value := ((c.value.toNat + 1 : ℕ) : Double) } := by
  have next : (c.inc 1).value.toNat = c.value.toNat + 1 := by
    show (c.value + 1).toNat = _
    rw [UInt64.toNat_add]
    exact Nat.mod_eq_of_lt (by simp; omega)
  cases e
  cases type
  cases own
  cases source
  cases reads
  simp only [Entry.read, Option.map_some, next]
  rfl

/-- **The number exposed for a count is exact if six digits suffice for it.** In the text of a
full scrape an entry whose value is an integer below `2 ^ 53` has a line with a number, and this
stands for the integer exactly if it has at most six significant digits. A counter is exposed
exactly, and its next increment changes the text, as long as it is below a million and no
longer. -/
theorem exposed_iff (r : Registry Double) (points : List (MetricPoint Double))
    (scraped : r.scrape {} = some points) (i : ℕ) (e : Entry Double)
    (place : r.entries[i]? = some e) :
    ∃ p, points[i]? = some p ∧
      (∀ n, e.Holds n → |n| < 2 ^ 53 →
        sampleLines exposed p =
            sampleLine p.name (renderLabels p.labels [] []) (exposed p.value) ∧
          (denoted (exposed p.value) = some (n : ℚ) ↔ FewDigits 5 n.natAbs)) ∧
      ∀ c, e.type = .counter → e.sample = none → e.counter = some c →
        c.value.toNat + 1 < 2 ^ 53 →
        ∃ r' points', r.use (.countUp i 1) = some r' ∧ r'.scrape {} = some points' ∧
          (denoted (exposed p.value) = some (c.value.toNat : ℚ) ∧
            prometheus exposed points' ≠ prometheus exposed points ↔
              c.value.toNat < 1000000) := by
  obtain ⟨before, p, after, rfl, position, reads, updated⟩ :=
    r.scrape_update points scraped i e place
  refine ⟨p, by simp [← position], fun n holds small => ?_, fun c type own source room => ?_⟩
  · obtain ⟨number, value⟩ := holds.read e n small p reads
    refine ⟨sampleLines_number exposed p number, ?_⟩
    rw [exposed, value]
    exact denoted_general_iff 5 n
  · obtain ⟨number, value⟩ := Entry.Holds.read e _ (.counter c type own source)
      (by rw [Nat.abs_cast]; exact_mod_cast (by omega : c.value.toNat < 2 ^ 53)) p reads
    rw [Int.cast_natCast] at value
    have next := updated (fun e => { e with counter := e.counter.map (·.inc 1) })
      { p with value := ((c.value.toNat + 1 : ℕ) : Double) } (read_inc e c type own source room p reads)
    refine ⟨_, _, rfl, next, ?_⟩
    rw [prometheus_ne_iff exposed before after p number, exposed, exposed, value,
      Double.val_natCast _ room, ← Int.cast_natCast c.value.toNat, denoted_general_iff,
      Int.natAbs_natCast, Int.cast_natCast]
    constructor
    · rintro ⟨few, changed⟩
      exact (general_succ_ne_iff 5 _ few).mp changed
    · intro small
      have few := fewDigits_of_le 5 c.value.toNat (by omega)
      exact ⟨few, (general_succ_ne_iff 5 _ few).mpr small⟩

def oneCounter (value : UInt64) : Registry Double :=
  { entries := [
      { name := text "hits_total", help := [], type := .counter, labels := [],
        counter := some ⟨value⟩ }] }

def oneCounterText (value : UInt64) : Option Bytes :=
  ((oneCounter value).scrape {}).map (prometheus exposed)

/-- The last count that is still told from the next. -/
theorem exposed_belowMillion :
    ∃ points r' points', (oneCounter 999999).scrape {} = some points ∧
      (oneCounter 999999).use (.countUp 0 1) = some r' ∧ r'.scrape {} = some points' ∧
      prometheus exposed points' ≠ prometheus exposed points := by
  obtain ⟨p, -, -, counts⟩ := exposed_iff (oneCounter 999999) _ rfl 0 _ rfl
  obtain ⟨r', points', used, scraped, tells⟩ := counts ⟨999999⟩ rfl rfl rfl (by decide)
  exact ⟨_, r', points', rfl, used, scraped, (tells.mpr (by decide)).2⟩

/-- A count of seven digits is rounded, and the counter goes from a million to a million and one
without a change in the text. -/
theorem million_standsStill :
    oneCounterText 1234567 =
        some (text "# HELP hits_total \n# TYPE hits_total counter\nhits_total 1.23457e+06\n") ∧
      denoted (text "1.23457e+06") = some 1234570 ∧
      ((oneCounter 1000000).use (.countUp 0 1)).map (·.scrape {}) =
        some ((oneCounter 1000001).scrape {}) ∧
      oneCounterText 1000001 = oneCounterText 1000000 := by
  refine ⟨?_, ?_, ?_, ?_⟩
  · decide +kernel
  · decide +kernel
  · rfl
  · decide +kernel

end Cox.Metrics

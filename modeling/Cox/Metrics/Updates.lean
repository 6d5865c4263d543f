import Cox.Metrics.Histogram
import Cox.Metrics.Scrape

/-!
# A registry in use

Calls register instruments, and the references they hand out are used to update them. Whatever
is done with a registry, the points that it lists are complete: a histogram has a count for each
of its bounds and one more, so that its buckets can be gone through by position.
-/
namespace Cox.Metrics

open Cox.Lib Machine List Option

variable {V : Type}

/-- What is done to a registry and to the instruments of its entries. -/
inductive Use (V : Type) where
  | call (c : Registry.Call V)
  | countUp (i : Nat) (n : UInt64)
  | gaugeUp (i : Nat) (n : Int)
  | gaugeDown (i : Nat) (n : Int)
  | gaugeSet (i : Nat) (v : Int)
  | observe (i : Nat) (v : V)

/-- Histograms are not sampled and have a count for each bound and one more. -/
structure Entry.Complete (e : Entry V) : Prop where
  owned : e.type = .histogram → e.sample = none
  counts : ∀ h ∈ e.histogram, h.counts.length = h.bounds.length + 1

theorem Entry.Complete.same {e e' : Entry V} (complete : e.Complete) (type : e'.type = e.type)
    (histogram : e'.histogram = e.histogram) (sample : e'.sample = e.sample) : e'.Complete := by
  refine ⟨fun isHistogram => ?_, ?_⟩
  · rw [sample]
    exact complete.owned (type ▸ isHistogram)
  · rw [histogram]
    exact complete.counts

namespace Registry

def update (r : Registry V) (i : Nat) (change : Entry V → Entry V) : Registry V :=
  { r with entries := r.entries.modify i change }

def Complete (r : Registry V) : Prop := ∀ e ∈ r.entries, e.Complete

theorem Complete.update {r : Registry V} (complete : r.Complete) (i : Nat)
    (change : Entry V → Entry V) (keeps : ∀ e, e.Complete → (change e).Complete) :
    (r.update i change).Complete := by
  intro e inside
  obtain ⟨j, place, rfl⟩ := mem_iff_getElem.mp inside
  have place' : j < r.entries.length := by simpa [Registry.update] using place
  have before := complete _ (getElem_mem place')
  simp only [Registry.update, getElem_modify]
  split
  · exact keeps _ before
  · exact before

theorem Complete.found {r r' : Registry V} {name help : Bytes} {type : MetricType} {labels : Labels}
    {fill : Entry V → Except MetricsError (Entry V)} {result : Except MetricsError Nat}
    (complete : r.Complete) (found : Found r name help type labels fill r' result)
    (fills : ∀ e e', e.Complete → e.type = type → fill e = .ok e' → e'.Complete) :
    r'.Complete := by
  have bare : Entry.Complete ({ name, help, type, labels } : Entry V) :=
    ⟨fun _ => rfl, fun _ none => by cases none⟩
  have appended (e' : Entry V) (complete' : e'.Complete) :
      Complete { r with entries := r.entries ++ [e'] } :=
    forall_mem_append.mpr ⟨complete, forall_mem_singleton.mpr complete'⟩
  cases found with
  | mismatch | kept => exact complete
  | filled i e e' place same fits filled =>
    intro x inside
    rcases mem_or_eq_of_mem_set inside with before | rfl
    · exact complete x before
    · exact fills e _ (complete e (mem_of_getElem? place)) fits filled
  | created e' _ filled => exact appended e' (fills _ e' bare rfl filled)
  | abandoned => exact appended _ bare

section Reading

variable [Zero V] [NatCast V] [IntCast V]

theorem Complete.scrape {r : Registry V} (complete : r.Complete) (filter : ScrapeFilter V)
    (points : List (MetricPoint V)) (scraped : r.scrape filter = some points) :
    ∀ p ∈ points, p.type = .histogram → p.bucketCounts.length = p.bucketBounds.length + 1 := by
  intro p listed isHistogram
  obtain ⟨e, inside, reads⟩ := exists_read_of_mem_scrape r filter points scraped p listed
  have type : e.type = .histogram := (read_header e p reads).2.symm.trans isHistogram
  obtain ⟨owned, counts⟩ := complete e inside
  rw [Entry.read, owned type, type] at reads
  obtain ⟨h, has, rfl⟩ := map_eq_some_iff.mp reads
  simpa using counts h has

theorem scrape_update (r : Registry V) (points : List (MetricPoint V))
    (scraped : r.scrape {} = some points) (i : Nat) (e : Entry V) (place : r.entries[i]? = some e) :
    ∃ before p after, points = before ++ p :: after ∧ before.length = i ∧ e.read = some p ∧
      ∀ change p', (change e).read = some p' →
        (r.update i change).scrape {} = some (before ++ p' :: after) := by
  obtain ⟨inside, rfl⟩ := List.getElem?_eq_some_iff.mp place
  have split : r.entries = r.entries.take i ++ r.entries[i] :: r.entries.drop (i + 1) := by simp
  rw [scrape_all, split, mapM_append, mapM_cons] at scraped
  obtain ⟨before, first, scraped⟩ := bind_eq_some_iff.mp scraped
  obtain ⟨rest, scraped, listed⟩ := bind_eq_some_iff.mp scraped
  obtain ⟨p, reads, scraped⟩ := bind_eq_some_iff.mp scraped
  obtain ⟨after, last, cons⟩ := bind_eq_some_iff.mp scraped
  cases cons
  cases listed
  refine ⟨before, p, after, rfl, ?_, reads, fun change p' reads' => ?_⟩
  · rw [length_points _ before first, length_take, min_eq_left inside.le]
  · rw [scrape_all, update, modify_eq_take_cons_drop inside, mapM_append,
      mapM_cons, first, reads', last]
    rfl

end Reading

variable [LT V] [DecidableLT V] [Zero V]

theorem Complete.made {e e' : Entry V} {buckets : List V} (complete : e.Complete)
    (made : e.makeHistogram buckets = .ok e') : e'.Complete := by
  unfold Entry.makeHistogram at made
  split at made
  · unfold Histogram.make at made
    split_ifs at made <;> cases made
    refine ⟨complete.owned, ?_⟩
    rintro _ ⟨⟩
    simp
  · cases made
    exact complete

theorem Complete.call {r : Registry V} (complete : r.Complete) (c : Call V) :
    (r.call c).1.Complete := by
  cases c with
  | counter name help labels =>
    refine complete.found (found_withEntry r name help .counter labels _) ?_
    rintro e _ before _ ⟨⟩
    unfold Entry.makeCounter
    split
    · exact before.same rfl rfl rfl
    · exact before
  | gauge name help labels =>
    refine complete.found (found_withEntry r name help .gauge labels _) ?_
    rintro e _ before _ ⟨⟩
    unfold Entry.makeGauge
    split
    · exact before.same rfl rfl rfl
    · exact before
  | histogram name help buckets labels =>
    exact complete.found (found_withEntry r name help .histogram labels _)
      fun e e' before _ made => Complete.made before made
  | registerSampled name help type sample labels =>
    unfold Registry.call registerSampled
    dsimp only
    split
    · exact complete
    next supported =>
      refine complete.found (found_withEntry r name help type labels _) ?_
      rintro e _ before fits ⟨⟩
      exact ⟨fun isHistogram => absurd (fits.symm.trans isHistogram) supported, before.counts⟩

variable [Add V]

def use (r : Registry V) : Use V → Option (Registry V)
  | .call c => step r c
  | .countUp i n => some (r.update i fun e => { e with counter := e.counter.map (·.inc n) })
  | .gaugeUp i n => some (r.update i fun e => { e with gauge := e.gauge.map (·.inc n) })
  | .gaugeDown i n => some (r.update i fun e => { e with gauge := e.gauge.map (·.dec n) })
  | .gaugeSet i v => some (r.update i fun e => { e with gauge := e.gauge.map (·.set v) })
  | .observe i v => some (r.update i fun e => { e with histogram := e.histogram.map (·.observe v) })

theorem complete_run (uses : List (Use V)) (r : Registry V)
    (reached : run use ({ entries := [] } : Registry V) uses = some r) : r.Complete := by
  have always : Always use Complete ({ entries := [] } : Registry V) uses := by
    refine always_of_keeps (fun r u r' complete stepped => ?_) _ uses (by simp [Complete])
    cases u with
    | call c =>
      cases stepped
      exact complete.call c
    | countUp | gaugeUp | gaugeDown | gaugeSet =>
      cases stepped
      exact complete.update _ _ fun e before => before.same rfl rfl rfl
    | observe i v =>
      cases stepped
      refine complete.update i _ fun e before => ⟨before.owned, ?_⟩
      rintro _ observed
      obtain ⟨h, has, rfl⟩ := map_eq_some_iff.mp observed
      simpa [Histogram.observe] using before.counts h has
  exact always.last _ _ _ reached

end Registry
end Cox.Metrics

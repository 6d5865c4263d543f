import Cox.Metrics.Registry

/-!
# Filtered scrapes

`ScrapeFilter::matches` of metrics/registry.cc decides about a point that has been built. A
filtered scrape decides about the entry where it can, before it reads a source, and leaves only
the predicate to the point. The two agree: what a filtered scrape lists is what the filter
keeps of a scrape of everything.
-/
namespace Cox.Metrics

open Cox.Lib List Option

variable {V : Type} [Zero V] [NatCast V] [IntCast V]

def ScrapeFilter.matches (filter : ScrapeFilter V) (p : MetricPoint V) : Bool :=
  if !filter.namePrefix.isEmpty && !filter.namePrefix.isPrefixOf p.name then false
  else if !filter.includeHistograms && p.type == .histogram then false
  else
    match filter.predicate with
    | some predicate => predicate p
    | none => true

namespace Registry

theorem read_header (e : Entry V) (p : MetricPoint V) (reads : e.read = some p) :
    p.name = e.name ∧ p.type = e.type := by
  unfold Entry.read at reads
  split at reads
  · cases reads
    exact ⟨rfl, rfl⟩
  · split at reads <;> obtain ⟨_, _, rfl⟩ := map_eq_some_iff.mp reads <;> exact ⟨rfl, rfl⟩

theorem scrapeEntry_all (e : Entry V) : scrapeEntry {} e = e.read.map some := by
  unfold scrapeEntry
  cases e.read <;> rfl

theorem scrapeEntry_eq (filter : ScrapeFilter V) (e : Entry V) (p : MetricPoint V)
    (reads : e.read = some p) :
    scrapeEntry filter e = some (if filter.matches p then some p else none) := by
  obtain ⟨name, type⟩ := read_header e p reads
  unfold scrapeEntry ScrapeFilter.matches
  rw [reads, name, type]
  split
  · rfl
  · split
    · rfl
    · cases filter.predicate <;> rfl

theorem mapM_scrapeEntry (filter : ScrapeFilter V) (entries : List (Entry V))
    (points : List (Option (MetricPoint V)))
    (full : entries.mapM (scrapeEntry {}) = some points) :
    (entries.mapM (scrapeEntry filter)).map (·.filterMap id) =
      some ((points.filterMap id).filter filter.matches) := by
  induction entries generalizing points with
  | nil =>
    cases full
    rfl
  | cons e entries ih =>
    rw [mapM_cons, scrapeEntry_all] at full
    cases reads : e.read with
    | none => simp [reads] at full
    | some p =>
      cases rest : entries.mapM (scrapeEntry ({} : ScrapeFilter V)) with
      | none => simp [reads, rest] at full
      | some others =>
        have whole : points = some p :: others := by
          simpa [reads, rest] using full.symm
        obtain ⟨kept, scraped, filtered⟩ := map_eq_some_iff.mp (ih others rest)
        rw [whole, mapM_cons, scrapeEntry_eq filter e p reads, scraped]
        cases passes : filter.matches p with
        | true => simpa [passes] using filtered
        | false => simpa [passes] using filtered

/-- **A filtered scrape is the filtered full scrape**: the same points, in the same order and with
the same values. -/
theorem scrape_eq_filter (r : Registry V) (filter : ScrapeFilter V) (points : List (MetricPoint V))
    (full : r.scrape {} = some points) :
    r.scrape filter = some (points.filter filter.matches) := by
  obtain ⟨read, scraped, listed⟩ := Option.map_eq_some_iff.mp full
  rw [scrape, mapM_scrapeEntry filter r.entries read scraped, listed]

theorem scrape_all (r : Registry V) : r.scrape {} = r.entries.mapM Entry.read := by
  unfold scrape
  induction r.entries with
  | nil => rfl
  | cons e entries ih =>
    rw [mapM_cons, mapM_cons, ← ih, scrapeEntry_all]
    cases e.read with
    | none => rfl
    | some p => cases entries.mapM (scrapeEntry ({} : ScrapeFilter V)) <;> rfl

theorem length_points (entries : List (Entry V)) (points : List (MetricPoint V))
    (read : entries.mapM Entry.read = some points) : points.length = entries.length := by
  induction entries generalizing points with
  | nil =>
    cases read
    rfl
  | cons e entries ih =>
    rw [mapM_cons] at read
    obtain ⟨p, -, read⟩ := bind_eq_some_iff.mp read
    obtain ⟨rest, others, read⟩ := bind_eq_some_iff.mp read
    cases read
    simp [ih rest others]

theorem exists_read_of_mem_scrape (r : Registry V) (filter : ScrapeFilter V)
    (points : List (MetricPoint V)) (scraped : r.scrape filter = some points) (p : MetricPoint V)
    (listed : p ∈ points) : ∃ e ∈ r.entries, e.read = some p := by
  have one (e : Entry V) (found : scrapeEntry filter e = some (some p)) : e.read = some p := by
    cases reads : e.read with
    | none =>
      unfold scrapeEntry at found
      rw [reads] at found
      split_ifs at found <;> cases found
    | some q =>
      rw [scrapeEntry_eq filter e q reads] at found
      split at found <;> cases found
      rfl
  obtain ⟨read, mapped, rfl⟩ := map_eq_some_iff.mp scraped
  have inside : some p ∈ read := by simpa using listed
  clear scraped listed
  generalize r.entries = entries at mapped
  induction entries generalizing read with
  | nil =>
    cases mapped
    cases inside
  | cons e entries ih =>
    rw [mapM_cons] at mapped
    obtain ⟨first, found, mapped⟩ := bind_eq_some_iff.mp mapped
    obtain ⟨rest, others, mapped⟩ := bind_eq_some_iff.mp mapped
    cases mapped
    rcases mem_cons.mp inside with rfl | later
    · exact ⟨e, mem_cons_self .., one e found⟩
    · obtain ⟨e', member, reads⟩ := ih rest later others
      exact ⟨e', mem_cons_of_mem e member, reads⟩

/-- Requests that have been counted, a sampled queue and a histogram of latencies. -/
def threeKinds : Registry Int :=
  { entries := [
      { name := text "http_requests", help := [], type := .counter, labels := [],
        counter := some ⟨7⟩ },
      { name := text "http_queue", help := [], type := .gauge, labels := [],
        sample := some fun _ => 3 },
      { name := text "http_latency", help := [], type := .histogram, labels := [],
        histogram := some ⟨[1, 5], [2, 1, 0], 3, 4⟩ },
      { name := text "dns_queries", help := [], type := .counter, labels := [],
        counter := some ⟨9⟩ }] }

/-- Everything of the server but histograms, if it is above five. -/
def busyHttp : ScrapeFilter Int :=
  { namePrefix := text "http_", includeHistograms := false, predicate := some fun p => 5 < p.value }

theorem scrape_threeKinds :
    (threeKinds.scrape busyHttp).map (·.map fun p => (p.name, p.value)) =
        some [(text "http_requests", 7)] ∧
      threeKinds.scrape busyHttp =
        some (((threeKinds.scrape {}).getD []).filter busyHttp.matches) :=
  ⟨by decide +kernel, scrape_eq_filter threeKinds busyHttp _ (by rfl)⟩

end Registry
end Cox.Metrics

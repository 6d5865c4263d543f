import Mathlib.Data.List.Chain
import Mathlib.Data.List.Perm.Basic
import Mathlib.Algebra.GroupWithZero.Nat
import Cox.Metrics.Registry

/-!
# Histograms

`Histogram` of metrics/metrics.cc. An observation is placed in the first bucket whose bound is
not below it, or in the bucket behind all bounds, and `snapshot` adds the buckets up. Of the
numbers only their order matters here; how `double` adds them up does not.
-/
namespace Cox.Metrics

open List

namespace Histogram

variable {V : Type}

/-- `Histogram::Snapshot`. -/
structure Snapshot (V : Type) where
  bounds : List V
  counts : List UInt64
  count : UInt64
  sum : V

def snapshot (h : Histogram V) : Snapshot V :=
  { bounds := h.bounds, counts := cumulative 0 h.counts, count := h.count, sum := h.sum }

section Observations

variable [LT V] [DecidableLT V] [Add V]

/-- `std::lower_bound`: the first place whose bound is not below the value, or the length. -/
def lowerBound (bounds : List V) (v : V) : Nat := bounds.findIdx fun b => !decide (b < v)

def observe (h : Histogram V) (v : V) : Histogram V :=
  { h with
    counts := h.counts.modify (lowerBound h.bounds v) (· + 1)
    count := h.count + 1
    sum := h.sum + v }

def observeAll (h : Histogram V) (values : List V) : Histogram V := values.foldl observe h

/-- The observations leave the bounds alone. -/
@[simp] theorem observeAll_bounds (h : Histogram V) (values : List V) :
    (h.observeAll values).bounds = h.bounds := by
  unfold observeAll
  induction values generalizing h with
  | nil => rfl
  | cons v values ih => exact ih (h.observe v)

theorem observeAll_concat (h : Histogram V) (values : List V) (v : V) :
    h.observeAll (values ++ [v]) = (h.observeAll values).observe v := foldl_concat ..

end Observations

/-! ### One more in a bucket -/

theorem cumulative_succ (sum : UInt64) (counts : List UInt64) :
    cumulative (sum + 1) counts = (cumulative sum counts).map (· + 1) := by
  induction counts generalizing sum with
  | nil => rfl
  | cons count counts ih =>
    have regroup : sum + 1 + count = sum + count + 1 := by
      rw [UInt64.add_assoc, UInt64.add_comm 1, ← UInt64.add_assoc]
    simp only [cumulative, map_cons, regroup, ih]

theorem cumulative_modify (sum : UInt64) (counts : List UInt64) (idx i : Nat) :
    (cumulative sum (counts.modify idx (· + 1)))[i]? =
      (cumulative sum counts)[i]?.map fun c => if idx ≤ i then c + 1 else c := by
  induction counts generalizing sum idx i with
  | nil => simp [cumulative]
  | cons count counts ih =>
    cases idx with
    | zero =>
      rw [modify_zero_cons, cumulative, cumulative, ← UInt64.add_assoc, cumulative_succ]
      cases i <;> simp
    | succ idx =>
      rw [modify_succ_cons, cumulative, cumulative]
      cases i with
      | zero => simp
      | succ i => simpa using ih (sum + count) idx i

@[simp] theorem length_cumulative (sum : UInt64) (counts : List UInt64) :
    (cumulative sum counts).length = counts.length := by
  induction counts generalizing sum with
  | nil => rfl
  | cons count counts ih => rw [cumulative, length_cons, ih, length_cons]

theorem cumulative_replicate (n : Nat) : cumulative 0 (List.replicate n 0) = List.replicate n 0 := by
  induction n with
  | zero => rfl
  | succ n ih => simpa [replicate_succ, cumulative] using ih

/-! ### The buckets against the observations -/

section Ordered

variable [LinearOrder V]

theorem strictlyAscending_iff (bounds : List V) :
    strictlyAscending bounds = true ↔ bounds.Pairwise (· < ·) := by
  rw [← isChain_iff_pairwise]
  induction bounds with
  | nil => simp [strictlyAscending]
  | cons a bounds ih =>
    cases bounds with
    | nil => simp [strictlyAscending]
    | cons b bounds => simp [strictlyAscending, ih]

theorem lowerBound_le_iff (bounds : List V) (v : V) (ascending : bounds.Pairwise (· < ·)) (i : Nat)
    (inside : i < bounds.length) : lowerBound bounds v ≤ i ↔ v ≤ bounds[i] := by
  constructor
  · intro reached
    have first := findIdx_getElem (w := reached.trans_lt inside)
    rw [Bool.not_eq_true', decide_eq_false_iff_not, not_lt] at first
    rcases reached.eq_or_lt with same | before
    · subst same
      exact first
    · exact first.trans (pairwise_iff_getElem.mp ascending _ i _ inside before).le
  · intro notBelow
    by_contra before
    have below := not_of_lt_findIdx (not_le.mp before)
    simp at below
    exact below.not_ge notBelow

theorem make_ascending [Zero V] (bounds : List V) (nonempty : bounds ≠ [])
    (ascending : bounds.Pairwise (· < ·)) :
    make bounds =
      .ok { bounds, counts := List.replicate (bounds.length + 1) 0, sum := 0 } := by
  rw [make, if_neg (by simpa using nonempty),
    if_pos ((strictlyAscending_iff bounds).mpr ascending)]

/-- The observations up to each bound, and all of them. -/
def tally (bounds values : List V) : List Nat :=
  bounds.map (fun b => values.countP (· ≤ b)) ++ [values.length]

theorem tally_getElem? (bounds values : List V) (ascending : bounds.Pairwise (· < ·)) (i : Nat) :
    (tally bounds values)[i]? =
      if i ≤ bounds.length then some (values.countP fun v => lowerBound bounds v ≤ i)
      else none := by
  rw [tally]
  rcases Nat.lt_trichotomy i bounds.length with inside | rfl | outside
  · have same (v : V) := lowerBound_le_iff bounds v ascending i inside
    rw [if_pos inside.le, List.getElem?_append_left (by simpa using inside)]
    simp [inside, same]
  · have all (v : V) : lowerBound bounds v ≤ bounds.length := findIdx_le_length
    simp [all]
  · rw [if_neg (by omega), List.getElem?_eq_none (by simp; omega)]

theorem le_length_of_mem_tally (bounds values : List V) (c : Nat)
    (inside : c ∈ tally bounds values) : c ≤ values.length := by
  rcases mem_append.mp inside with bucket | last
  · obtain ⟨b, -, rfl⟩ := mem_map.mp bucket
    exact countP_le_length
  · exact (mem_singleton.mp last).le

theorem tally_sorted (bounds values : List V) (ascending : bounds.Pairwise (· < ·)) :
    (tally bounds values).Pairwise (· ≤ ·) := by
  refine pairwise_append.mpr ⟨?_, pairwise_singleton .., ?_⟩
  · refine pairwise_map.mpr (ascending.imp fun below => ?_)
    refine countP_mono_left fun v _ upTo => ?_
    simp only [decide_eq_true_eq] at upTo ⊢
    exact upTo.trans below.le
  · intro c inside last same
    rw [mem_singleton.mp same]
    exact le_length_of_mem_tally bounds values c (mem_append_left _ inside)

theorem tally_perm (bounds values other : List V) (reordered : values.Perm other) :
    tally bounds values = tally bounds other := by
  simp only [tally, reordered.length_eq, reordered.countP_eq]

variable [Add V]

section Observed

variable (h : Histogram V) (values : List V)

theorem cumulative_observeAll (i : Nat)
    (empty : h.counts = List.replicate (h.bounds.length + 1) 0) :
    (cumulative 0 (h.observeAll values).counts)[i]? =
      if i ≤ h.bounds.length then
        some (UInt64.ofNat (values.countP fun v => lowerBound h.bounds v ≤ i))
      else none := by
  induction values using List.reverseRecOn with
  | nil =>
    rw [observeAll, foldl_nil, empty, cumulative_replicate, List.getElem?_replicate]
    exact if_congr Nat.lt_succ_iff rfl rfl
  | append_singleton values v ih =>
    rw [observeAll_concat, observe, observeAll_bounds]
    dsimp only
    rw [cumulative_modify, ih, countP_append, countP_singleton]
    by_cases inside : i ≤ h.bounds.length
    · by_cases reaches : lowerBound h.bounds v ≤ i
      · simp [inside, reaches]
      · simp [inside, reaches]
    · simp [inside]

theorem count_observeAll (empty : h.count = 0) :
    (h.observeAll values).count = UInt64.ofNat values.length := by
  induction values using List.reverseRecOn with
  | nil => exact empty
  | append_singleton values v ih =>
    rw [observeAll_concat, observe, ih, length_append, length_singleton,
      UInt64.ofNat_add]
    rfl

theorem sum_observeAll : (h.observeAll values).sum = values.foldl (· + ·) h.sum := by
  induction values using List.reverseRecOn with
  | nil => rfl
  | append_singleton values v ih => rw [observeAll_concat, observe, ih, foldl_concat]

theorem snapshot_observeAll (ascending : h.bounds.Pairwise (· < ·))
    (emptyBuckets : h.counts = List.replicate (h.bounds.length + 1) 0) (empty : h.count = 0) :
    (h.observeAll values).snapshot =
      { bounds := h.bounds
        counts := (tally h.bounds values).map UInt64.ofNat
        count := UInt64.ofNat values.length
        sum := values.foldl (· + ·) h.sum } := by
  have counts : cumulative 0 (h.observeAll values).counts =
      (tally h.bounds values).map UInt64.ofNat := by
    refine ext_getElem? fun i => ?_
    rw [cumulative_observeAll h values i emptyBuckets, List.getElem?_map,
      tally_getElem? h.bounds values ascending]
    split <;> rfl
  rw [snapshot, counts, observeAll_bounds, count_observeAll h values empty, sum_observeAll]

end Observed

theorem map_toNat_ofNat (counts : List Nat) (fit : ∀ c ∈ counts, c < 2 ^ 64) :
    (counts.map UInt64.ofNat).map UInt64.toNat = counts := by
  calc (counts.map UInt64.ofNat).map UInt64.toNat = counts.map (fun c => c) := by
        rw [map_map]
        exact map_congr_left fun c inside => UInt64.toNat_ofNat_of_lt' (fit c inside)
    _ = counts := map_id' counts

/-- **Buckets are cumulative and exact**: whatever is observed, each count of a snapshot is the
number of observations up to its bound, the last count and the total are all of them, the counts
do not decrease, and the order of the observations does not matter. Of the sum the last holds
as far as the order of the additions does not matter either. -/
theorem snapshot_tallies [Zero V] (bounds : List V) (nonempty : bounds ≠ [])
    (ascending : bounds.Pairwise (· < ·)) :
    ∃ h : Histogram V, Histogram.make bounds = .ok h ∧ ∀ values : List V,
      (values.length < 2 ^ 64 →
        (h.observeAll values).snapshot.counts.map UInt64.toNat =
            bounds.map (fun b => values.countP (· ≤ b)) ++ [values.length] ∧
          (h.observeAll values).snapshot.count.toNat = values.length ∧
          ((h.observeAll values).snapshot.counts.map UInt64.toNat).Pairwise (· ≤ ·)) ∧
      ∀ other, values.Perm other →
        (h.observeAll other).snapshot.bounds = (h.observeAll values).snapshot.bounds ∧
          (h.observeAll other).snapshot.counts = (h.observeAll values).snapshot.counts ∧
          (h.observeAll other).snapshot.count = (h.observeAll values).snapshot.count ∧
          ((∀ a b c : V, a + b + c = a + c + b) →
            (h.observeAll other).snapshot = (h.observeAll values).snapshot) := by
  refine ⟨_, make_ascending bounds nonempty ascending, fun values => ⟨fun fits => ?_, ?_⟩⟩
  · rw [snapshot_observeAll _ values ascending rfl rfl]
    have sorted := tally_sorted bounds values ascending
    have fit (c : Nat) (inside : c ∈ tally bounds values) : c < 2 ^ 64 :=
      (le_length_of_mem_tally bounds values c inside).trans_lt fits
    rw [map_toNat_ofNat _ fit]
    exact ⟨rfl, UInt64.toNat_ofNat_of_lt' fits, sorted⟩
  · intro other reordered
    rw [snapshot_observeAll _ values ascending rfl rfl, snapshot_observeAll _ other ascending rfl rfl,
      tally_perm bounds values other reordered, reordered.length_eq]
    refine ⟨rfl, rfl, rfl, fun swaps => ?_⟩
    have commutes : RightCommutative ((· + ·) : V → V → V) := ⟨swaps⟩
    rw [reordered.foldl_eq]

end Ordered

/-- A value at a bound is counted there, and one beyond the last bound only in the total. -/
theorem tallies_atBounds :
    ∃ h : Histogram Nat, Histogram.make [1, 5] = .ok h ∧
      (h.observeAll [5, 1, 0, 9]).snapshot.counts.map UInt64.toNat = [2, 3, 4] ∧
      (h.observeAll [9, 0, 1, 5]).snapshot = (h.observeAll [5, 1, 0, 9]).snapshot := by
  obtain ⟨h, made, tallies⟩ := snapshot_tallies [1, 5] (by decide) (by decide)
  obtain ⟨exact, unordered⟩ := tallies [5, 1, 0, 9]
  refine ⟨h, made, (exact (by decide)).1, ?_⟩
  exact (unordered [9, 0, 1, 5] (by decide)).2.2.2 Nat.add_right_comm

end Histogram
end Cox.Metrics

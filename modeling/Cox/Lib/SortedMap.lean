import Mathlib.Data.List.Basic

/-!
# Ordered maps

Finite maps kept as a list of entries with strictly increasing keys, the way an
ordered map iterates over them.
-/
namespace Cox.Lib

open List

structure SortedMap (κ ν : Type) [LT κ] where
  entries : List (κ × ν)
  sorted : entries.Pairwise fun a b => a.1 < b.1

namespace SortedMap

variable {κ ν : Type} [LT κ]

@[ext] theorem ext {m n : SortedMap κ ν} (same : m.entries = n.entries) : m = n := by
  cases m; cases n; cases same; rfl

def empty : SortedMap κ ν := ⟨[], .nil⟩

instance [DecidableEq κ] [DecidableEq ν] : DecidableEq (SortedMap κ ν) := fun m n =>
  decidable_of_iff (m.entries = n.entries) ⟨ext, fun same => same ▸ rfl⟩

def lookupEntry [DecidableEq κ] (k : κ) : List (κ × ν) → Option ν
  | [] => none
  | e :: rest => if k = e.1 then some e.2 else lookupEntry k rest

/-- `m.find(k)`. -/
def find? [DecidableEq κ] (m : SortedMap κ ν) (k : κ) : Option ν := lookupEntry k m.entries

omit [LT κ] in
theorem lookupEntry_none [DecidableEq κ] (es : List (κ × ν)) (k : κ) (missing : k ∉ es.map Prod.fst) :
    lookupEntry k es = none := by
  induction es with
  | nil => rfl
  | cons e es ih =>
    simp only [map_cons, mem_cons, not_or] at missing
    rw [lookupEntry, if_neg missing.1, ih missing.2]

omit [LT κ] in
theorem mem_of_lookupEntry [DecidableEq κ] (es : List (κ × ν)) (k : κ) (v : ν)
    (found : lookupEntry k es = some v) : (k, v) ∈ es := by
  induction es with
  | nil => cases found
  | cons e es ih =>
    rw [lookupEntry] at found
    split at found
    next same =>
      cases found
      exact mem_cons.mpr (.inl (Prod.ext same rfl))
    next => exact mem_cons_of_mem _ (ih found)

omit [LT κ] in
theorem lookupEntry_filter [DecidableEq κ] (es : List (κ × ν)) (p : κ → Bool) (k : κ) :
    lookupEntry k (es.filter fun e => p e.1) = if p k then lookupEntry k es else none := by
  induction es with
  | nil => simp [lookupEntry]
  | cons e es ih =>
    rw [filter_cons, lookupEntry]
    by_cases same : k = e.1
    · subst same
      cases kept : p e.1 <;> simp [kept, lookupEntry, ih]
    · cases kept : p e.1 <;> simp [same, lookupEntry, ih]

/-- `m.erase(k)`. -/
def erase [DecidableEq κ] (m : SortedMap κ ν) (k : κ) : SortedMap κ ν :=
  ⟨m.entries.filter fun e => e.1 ≠ k, m.sorted.filter _⟩

theorem find?_erase [DecidableEq κ] (m : SortedMap κ ν) (k k' : κ) :
    (m.erase k).find? k' = if k' = k then none else m.find? k' := by
  have filtered := lookupEntry_filter m.entries (fun key => decide (key ≠ k)) k'
  simpa only [find?, erase, decide_eq_true_eq, ite_not] using filtered

theorem keys_nodup [Std.Irrefl (α := κ) (· < ·)] (m : SortedMap κ ν) :
    (m.entries.map Prod.fst).Nodup := by
  refine List.Pairwise.map _ (fun a b below => ?_) m.sorted
  intro same
  exact Std.Irrefl.irrefl (r := (· < ·)) _ (same ▸ below)

private theorem first_key_le [DecidableEq κ] (e f : κ × ν) (es fs : List (κ × ν))
    (sorted : (f :: fs).Pairwise fun a b => a.1 < b.1)
    (same : ∀ k, lookupEntry k (e :: es) = lookupEntry k (f :: fs)) : e.1 = f.1 ∨ f.1 < e.1 := by
  have found : lookupEntry e.1 (f :: fs) = some e.2 := by
    rw [← same, lookupEntry, if_pos rfl]
  rcases mem_cons.mp (mem_of_lookupEntry _ _ _ found) with first | later
  · exact .inl (congrArg Prod.fst first)
  · exact .inr ((pairwise_cons.mp sorted).1 _ later)

section Order

variable [DecidableEq κ] [Trans (α := κ) (· < ·) (· < ·) (· < ·)] [Std.Irrefl (α := κ) (· < ·)]

private theorem lookupEntry_ext (es fs : List (κ × ν)) (left : es.Pairwise fun a b => a.1 < b.1)
    (right : fs.Pairwise fun a b => a.1 < b.1)
    (same : ∀ k, lookupEntry k es = lookupEntry k fs) : es = fs := by
  induction es generalizing fs with
  | nil =>
    cases fs with
    | nil => rfl
    | cons f fs => simpa [lookupEntry] using same f.1
  | cons e es ih =>
    cases fs with
    | nil => simpa [lookupEntry] using same e.1
    | cons f fs =>
      -- the first keys are the least ones, so they are equal
      have key : e.1 = f.1 := by
        rcases first_key_le e f es fs right same with equal | below
        · exact equal
        · rcases first_key_le f e fs es left (fun k => (same k).symm) with equal | above
          · exact equal.symm
          · exact absurd (Trans.trans below above) (Std.Irrefl.irrefl (r := (· < ·)) f.1)
      have value : e.2 = f.2 := by simpa [lookupEntry, key] using same e.1
      obtain ⟨aboveE, left⟩ := pairwise_cons.mp left
      obtain ⟨aboveF, right⟩ := pairwise_cons.mp right
      have rest : es = fs := by
        refine ih fs left right fun k => ?_
        by_cases first : k = e.1
        · subst first
          have absentE : e.1 ∉ es.map Prod.fst := by
            intro member
            obtain ⟨g, inside, equal⟩ := mem_map.mp member
            exact Std.Irrefl.irrefl (r := (· < ·)) e.1 (equal ▸ aboveE g inside)
          have absentF : e.1 ∉ fs.map Prod.fst := by
            intro member
            obtain ⟨g, inside, equal⟩ := mem_map.mp member
            have below := aboveF g inside
            rw [equal, key] at below
            exact Std.Irrefl.irrefl (r := (· < ·)) f.1 below
          rw [lookupEntry_none es _ absentE, lookupEntry_none fs _ absentF]
        · have shared := same k
          rwa [lookupEntry, lookupEntry, if_neg first, if_neg (key ▸ first)] at shared
      rw [rest, Prod.ext key value]

theorem ext_find? {m n : SortedMap κ ν} (same : ∀ k, m.find? k = n.find? k) : m = n :=
  ext (lookupEntry_ext m.entries n.entries m.sorted n.sorted same)

end Order

variable [DecidableEq κ] [DecidableLT κ]

/-- Put an entry in its place, over an entry with the same key. -/
def insertEntry (k : κ) (v : ν) : List (κ × ν) → List (κ × ν)
  | [] => [(k, v)]
  | e :: rest =>
    if k = e.1 then (k, v) :: rest
    else if k < e.1 then (k, v) :: e :: rest
    else e :: insertEntry k v rest

theorem mem_insertEntry (k : κ) (v : ν) (es : List (κ × ν)) (e : κ × ν)
    (member : e ∈ insertEntry k v es) : e = (k, v) ∨ e ∈ es := by
  induction es with
  | nil => simpa [insertEntry] using member
  | cons first rest ih =>
    simp only [insertEntry] at member
    split at member
    · rcases mem_cons.mp member with rfl | old
      · exact .inl rfl
      · exact .inr (mem_cons_of_mem _ old)
    · split at member
      · simpa using member
      · rcases mem_cons.mp member with rfl | old
        · exact .inr (mem_cons_self ..)
        · exact (ih old).imp id (mem_cons_of_mem _)

theorem length_insertEntry_le (k : κ) (v : ν) (es : List (κ × ν)) :
    (insertEntry k v es).length ≤ es.length + 1 := by
  induction es with
  | nil => simp [insertEntry]
  | cons first rest ih =>
    simp only [insertEntry]
    split
    · simp
    · split
      · simp
      · simpa using ih

private theorem lookupEntry_insertEntry (k k' : κ) (v : ν) (es : List (κ × ν)) :
    lookupEntry k' (insertEntry k v es) = if k' = k then some v else lookupEntry k' es := by
  induction es with
  | nil => rfl
  | cons first rest ih =>
    simp only [insertEntry]
    split
    -- the entry replaces the first one
    next equal =>
      subst equal
      by_cases same : k' = first.1 <;> simp [lookupEntry, same]
    next differs =>
      split
      · simp [lookupEntry]
      · by_cases head : k' = first.1
        · simp [lookupEntry, head, Ne.symm differs]
        · simp [lookupEntry, head, ih]

variable [Trans (α := κ) (· < ·) (· < ·) (· < ·)] [Std.Trichotomous (α := κ) (· < ·)]

theorem insertEntry_sorted (k : κ) (v : ν) (es : List (κ × ν))
    (sorted : es.Pairwise fun a b => a.1 < b.1) :
    (insertEntry k v es).Pairwise fun a b => a.1 < b.1 := by
  induction es with
  | nil => simp [insertEntry]
  | cons first rest ih =>
    obtain ⟨above, tail⟩ := pairwise_cons.mp sorted
    simp only [insertEntry]
    split
    next same => exact pairwise_cons.mpr ⟨fun e he => same ▸ above e he, tail⟩
    next differs =>
      split
      next below =>
        refine pairwise_cons.mpr ⟨fun e he => ?_, sorted⟩
        rcases mem_cons.mp he with rfl | he
        · exact below
        · exact Trans.trans below (above e he)
      next notBelow =>
        refine pairwise_cons.mpr ⟨fun e he => ?_, ih tail⟩
        rcases mem_insertEntry k v rest e he with rfl | he
        -- neither equal nor below, so the key belongs behind the first entry
        · by_contra notAbove
          exact differs (Std.Trichotomous.trichotomous (r := (· < ·)) _ _ notBelow notAbove)
        · exact above e he

/-- `m[k] = v`. -/
def insert (m : SortedMap κ ν) (k : κ) (v : ν) : SortedMap κ ν :=
  ⟨insertEntry k v m.entries, insertEntry_sorted k v m.entries m.sorted⟩

theorem length_insert_le (m : SortedMap κ ν) (k : κ) (v : ν) :
    (m.insert k v).entries.length ≤ m.entries.length + 1 :=
  length_insertEntry_le k v m.entries

theorem find?_insert (m : SortedMap κ ν) (k k' : κ) (v : ν) :
    (m.insert k v).find? k' = if k' = k then some v else m.find? k' :=
  lookupEntry_insertEntry k k' v m.entries

theorem find?_foldl_insert (es : List (κ × ν)) (distinct : (es.map Prod.fst).Nodup)
    (m : SortedMap κ ν) (k : κ) :
    (es.foldl (fun m e => m.insert e.1 e.2) m).find? k = (lookupEntry k es).or (m.find? k) := by
  induction es generalizing m with
  | nil => rfl
  | cons e es ih =>
    obtain ⟨new, distinct⟩ := nodup_cons.mp distinct
    rw [foldl_cons, ih distinct, find?_insert, lookupEntry]
    split
    next same =>
      -- the later entries do not replace it
      subst same
      rw [lookupEntry_none es e.1 new]
      rfl
    next => rfl

end SortedMap

end Cox.Lib

import Mathlib.Data.Set.Basic
import Mathlib.Order.Defs.LinearOrder
import Mathlib.Data.List.Nodup

/-!
# Schedules

A schedule is a set of jobs with deadlines. A round at some time gives every job that is
due its turn, the earliest first; in the meantime jobs may be added, and any job may be
cancelled. A job whose turn comes after it was cancelled does not run. When the round is
over, the jobs that repeat are back in the schedule at a later time.

`Round` says what a round may do, in terms of what happened during it. `Progress` is the
state of a round that is under way: it holds at the start, every deed preserves it, and at
the end it gives a `Round`.
-/
namespace Cox.Lib.Schedule

open List

/-- How jobs are told apart, when they are due, and which job takes the place of one that
had its turn in a round at the given time. -/
structure Discipline (Job Key Time : Type) where
  key : Job → Key
  deadline : Job → Time
  renew : Time → Job → Option Job

/-- What can happen during a round. -/
inductive Deed (Job Key : Type) where
  | turn (job : Job)
  | add (job : Job)
  | cancel (key : Key)
  deriving DecidableEq

variable {Job Key Time : Type}

def turns : List (Deed Job Key) → List Job
  | [] => []
  | .turn job :: deeds => job :: turns deeds
  | _ :: deeds => turns deeds

def adds : List (Deed Job Key) → List Job
  | [] => []
  | .add job :: deeds => job :: adds deeds
  | _ :: deeds => adds deeds

def cancels : List (Deed Job Key) → List Key
  | [] => []
  | .cancel key :: deeds => key :: cancels deeds
  | _ :: deeds => cancels deeds

/-- The jobs that run, where `gone` are the keys that were cancelled before: those whose
turn comes before they are cancelled. -/
def runs [DecidableEq Key] (d : Discipline Job Key Time) (gone : List Key) :
    List (Deed Job Key) → List Job
  | [] => []
  | .turn job :: deeds =>
    if d.key job ∈ gone then runs d gone deeds else job :: runs d gone deeds
  | .add _ :: deeds => runs d gone deeds
  | .cancel key :: deeds => runs d (key :: gone) deeds

@[simp] theorem turns_append (left right : List (Deed Job Key)) :
    turns (left ++ right) = turns left ++ turns right := by
  fun_induction turns left <;> simp_all [turns]

@[simp] theorem adds_append (left right : List (Deed Job Key)) :
    adds (left ++ right) = adds left ++ adds right := by
  fun_induction adds left <;> simp_all [adds]

@[simp] theorem cancels_append (left right : List (Deed Job Key)) :
    cancels (left ++ right) = cancels left ++ cancels right := by
  fun_induction cancels left <;> simp_all [cancels]

section Runs

variable [DecidableEq Key] (d : Discipline Job Key Time) (gone : List Key)
  (deeds : List (Deed Job Key))

theorem runs_turn (job : Job) :
    runs d gone (deeds ++ [.turn job]) =
      runs d gone deeds ++ if d.key job ∈ gone ∨ d.key job ∈ cancels deeds then [] else [job] := by
  fun_induction runs d gone deeds with
  | case1 gone => simp [runs, cancels]
  | case2 gone other deeds skipped ih =>
    rw [cons_append, runs, if_pos skipped, ih]
    rfl
  | case3 gone other deeds goes ih =>
    rw [cons_append, runs, if_neg goes, ih]
    rfl
  | case4 gone other deeds ih =>
    rw [cons_append, runs, ih]
    rfl
  | case5 gone key deeds ih =>
    -- the key that is cancelled moves from the deeds to the keys that are gone
    have same : (d.key job = key ∨ d.key job ∈ gone) ∨ d.key job ∈ cancels deeds ↔
        d.key job ∈ gone ∨ d.key job = key ∨ d.key job ∈ cancels deeds := by tauto
    simp [runs, cancels, ih, same]

theorem runs_other (deed : Deed Job Key) (other : turns [deed] = []) :
    runs d gone (deeds ++ [deed]) = runs d gone deeds := by
  fun_induction runs d gone deeds with
  | case1 gone => cases deed <;> simp_all [runs, turns]
  | case2 gone _ deeds skipped ih => simp [runs, skipped, ih]
  | case3 gone _ deeds goes ih => simp [runs, goes, ih]
  | case4 gone _ deeds ih => simp [runs, ih]
  | case5 gone key deeds ih => simp [runs, ih]

end Runs

variable [LinearOrder Time]

/-- A round at time `now`, which has the schedule `before` and leaves the schedule `after`. -/
structure Round [DecidableEq Key] (d : Discipline Job Key Time) (now : Time) (before : Set Job)
    (deeds : List (Deed Job Key)) (ran : List Job) (after : Set Job) : Prop where
  due : ∀ job, job ∈ turns deeds ↔ job ∈ before ∧ d.deadline job ≤ now
  once : (turns deeds).Nodup
  ordered : (turns deeds).Pairwise fun job next => d.deadline job ≤ d.deadline next
  ran : ran = runs d [] deeds
  after : ∀ job, job ∈ after ↔
    (d.key job ∉ cancels deeds ∧ (job ∈ before ∧ now < d.deadline job ∨ job ∈ adds deeds)) ∨
    ∃ old ∈ before, d.deadline old ≤ now ∧ d.key old ∉ cancels deeds ∧ d.renew now old = some job

/-- A round that is under way: `waiting` have not had their turn, and `current` are the
jobs of the schedule that are not part of the round. -/
structure Progress [DecidableEq Key] (d : Discipline Job Key Time) (now : Time) (before : Set Job)
    (deeds : List (Deed Job Key)) (ran : List Job) (waiting : List Job) (current : Set Job) :
    Prop where
  due : ∀ job, job ∈ turns deeds ++ waiting ↔ job ∈ before ∧ d.deadline job ≤ now
  once : (turns deeds ++ waiting).Nodup
  ordered : (turns deeds ++ waiting).Pairwise fun job next => d.deadline job ≤ d.deadline next
  ran : ran = runs d [] deeds
  current : ∀ job, job ∈ current ↔
    d.key job ∉ cancels deeds ∧ (job ∈ before ∧ now < d.deadline job ∨ job ∈ adds deeds)

namespace Progress

variable [DecidableEq Key] {d : Discipline Job Key Time} {now : Time} {before current : Set Job}
  {deeds : List (Deed Job Key)} {ran waiting : List Job}

theorem start (waiting : List Job) (current : Set Job)
    (due : ∀ job, job ∈ waiting ↔ job ∈ before ∧ d.deadline job ≤ now) (once : waiting.Nodup)
    (ordered : waiting.Pairwise fun job next => d.deadline job ≤ d.deadline next)
    (rest : ∀ job, job ∈ current ↔ job ∈ before ∧ now < d.deadline job) :
    Progress d now before [] [] waiting current :=
  ⟨due, once, ordered, rfl, fun job => by simp [rest, cancels, adds]⟩

theorem turn {job : Job} (progress : Progress d now before deeds ran (job :: waiting) current) :
    Progress d now before (deeds ++ [.turn job])
      (ran ++ if d.key job ∈ cancels deeds then [] else [job]) waiting current := by
  have same : turns (deeds ++ [.turn job]) ++ waiting = turns deeds ++ job :: waiting := by
    simp [turns]
  refine ⟨?_, ?_, ?_, ?_, ?_⟩
  · rw [same]; exact progress.due
  · rw [same]; exact progress.once
  · rw [same]; exact progress.ordered
  · rw [runs_turn, progress.ran]
    simp
  · simpa [cancels, adds] using progress.current

theorem add (progress : Progress d now before deeds ran waiting current) (job : Job)
    (new : d.key job ∉ cancels deeds) (current' : Set Job)
    (added : ∀ other, other ∈ current' ↔ other = job ∨ other ∈ current) :
    Progress d now before (deeds ++ [.add job]) ran waiting current' := by
  refine ⟨by simpa [turns] using progress.due, by simpa [turns] using progress.once,
    by simpa [turns] using progress.ordered, ?_, fun other => ?_⟩
  · rw [runs_other d [] deeds (.add job) rfl]
    exact progress.ran
  · rw [added, progress.current]
    simp only [cancels_append, adds_append, cancels, adds, append_nil, mem_append,
      mem_singleton]
    constructor
    · rintro (rfl | ⟨kept, inside⟩)
      · exact ⟨new, .inr (.inr rfl)⟩
      · exact ⟨kept, inside.imp_right .inl⟩
    · rintro ⟨kept, old | old | same⟩
      · exact .inr ⟨kept, .inl old⟩
      · exact .inr ⟨kept, .inr old⟩
      · exact .inl same

theorem cancel (progress : Progress d now before deeds ran waiting current) (key : Key)
    (current' : Set Job)
    (removed : ∀ job, job ∈ current' ↔ job ∈ current ∧ d.key job ≠ key) :
    Progress d now before (deeds ++ [.cancel key]) ran waiting current' := by
  refine ⟨by simpa [turns] using progress.due, by simpa [turns] using progress.once,
    by simpa [turns] using progress.ordered, ?_, fun job => ?_⟩
  · rw [runs_other d [] deeds (.cancel key) rfl]
    exact progress.ran
  · rw [removed, progress.current]
    simp only [cancels_append, adds_append, cancels, adds, append_nil, mem_append,
      mem_singleton, not_or]
    tauto

/-- When every job has had its turn, those that repeat go back into the schedule. -/
theorem finish (progress : Progress d now before deeds ran [] current) (after : Set Job)
    (renewed : ∀ job, job ∈ after ↔ job ∈ current ∨
      ∃ old ∈ before, d.deadline old ≤ now ∧ d.key old ∉ cancels deeds ∧
        d.renew now old = some job) :
    Round d now before deeds ran after :=
  ⟨by simpa using progress.due, by simpa using progress.once, by simpa using progress.ordered,
    progress.ran, fun job => by rw [renewed, progress.current]⟩

end Progress

theorem filter_due_perm (due : Job → Prop) [DecidablePred due] (jobs : List Job) :
    (jobs.filter (fun job => ¬due job) ++ jobs.filter fun job => due job).Perm jobs := by
  refine perm_append_comm.trans ?_
  simpa using filter_append_perm (fun job => decide (due job)) jobs

end Cox.Lib.Schedule

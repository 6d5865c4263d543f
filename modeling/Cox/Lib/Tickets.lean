import Mathlib.Data.List.Nodup

/-!
# Numbered requests

Every request gets a number. A thread holds the number of its request until the request is
accepted or refused; some requests are accepted at once. Then no request is accepted twice,
and none is both accepted and refused.
-/
namespace Cox.Lib

open List

structure Tickets (Thread : Type) where
  issued : Nat
  held : Thread → Option Nat
  accepted : List Nat
  refused : List Nat

namespace Tickets

variable {Thread : Type} [DecidableEq Thread]

inductive Step (t : Tickets Thread) : Tickets Thread → Prop where
  | rest : Step t t
  | issue (thread : Thread) (held : Thread → Option Nat)
      (takes : ∀ other, held other = if other = thread then some t.issued else t.held other) :
      Step t { t with issued := t.issued + 1, held }
  | direct : Step t { t with issued := t.issued + 1, accepted := t.accepted ++ [t.issued] }
  | accept (thread : Thread) (ticket : Nat) (holds : t.held thread = some ticket)
      (held : Thread → Option Nat)
      (leaves : ∀ other, held other = if other = thread then none else t.held other) :
      Step t { t with held, accepted := t.accepted ++ [ticket] }
  | refuse (thread : Thread) (ticket : Nat) (holds : t.held thread = some ticket)
      (held : Thread → Option Nat)
      (leaves : ∀ other, held other = if other = thread then none else t.held other) :
      Step t { t with held, refused := t.refused ++ [ticket] }

structure Unique (t : Tickets Thread) : Prop where
  accepted : ∀ ticket ∈ t.accepted, ticket < t.issued
  refused : ∀ ticket ∈ t.refused, ticket < t.issued
  once : t.accepted.Nodup
  apart : ∀ ticket ∈ t.refused, ticket ∉ t.accepted
  pending : ∀ thread ticket, t.held thread = some ticket →
    ticket < t.issued ∧ ticket ∉ t.accepted ∧ ticket ∉ t.refused
  own : ∀ thread other ticket, t.held thread = some ticket → t.held other = some ticket →
    thread = other

variable {t t' : Tickets Thread}

omit [DecidableEq Thread] in
theorem Unique.fresh (unique : Unique t) :
    t.issued ∉ t.accepted ∧ t.issued ∉ t.refused ∧ ∀ thread, t.held thread ≠ some t.issued :=
  ⟨fun used => Nat.lt_irrefl _ (unique.accepted _ used),
    fun used => Nat.lt_irrefl _ (unique.refused _ used),
    fun thread used => Nat.lt_irrefl _ (unique.pending thread _ used).1⟩

theorem nodup_concat {accepted : List Nat} {ticket : Nat} (once : accepted.Nodup)
    (new : ticket ∉ accepted) : (accepted ++ [ticket]).Nodup := by
  rw [← concat_eq_append]
  exact once.concat new

theorem Unique.issue (unique : Unique t) (thread : Thread) (held : Thread → Option Nat)
    (takes : ∀ other, held other = if other = thread then some t.issued else t.held other) :
    Unique { t with issued := t.issued + 1, held } where
  accepted := fun ticket old => Nat.lt_succ_of_lt (unique.accepted ticket old)
  refused := fun ticket old => Nat.lt_succ_of_lt (unique.refused ticket old)
  once := unique.once
  apart := unique.apart
  pending := by
    intro other ticket holds
    have fresh := unique.fresh
    simp only [takes] at holds
    split at holds
    · cases holds
      exact ⟨Nat.lt_succ_self _, fresh.1, fresh.2.1⟩
    · have pending := unique.pending other ticket holds
      exact ⟨Nat.lt_succ_of_lt pending.1, pending.2⟩
  own := by
    intro first second ticket one two
    have fresh := unique.fresh.2.2
    simp only [takes] at one two
    split at one
    next here =>
      cases one
      split at two
      next there => rw [here, there]
      next => exact absurd two (fresh second)
    next =>
      split at two
      next =>
        cases two
        exact absurd one (fresh first)
      next => exact unique.own first second ticket one two

theorem Unique.release (unique : Unique t) (thread : Thread) (ticket : Nat)
    (holds : t.held thread = some ticket) (held : Thread → Option Nat)
    (leaves : ∀ other, held other = if other = thread then none else t.held other)
    (other : Thread) (number : Nat) (still : held other = some number) :
    t.held other = some number ∧ number ≠ ticket := by
  rw [leaves] at still
  split at still
  next => cases still
  next apart =>
    refine ⟨still, fun same => apart ?_⟩
    subst same
    exact unique.own other thread number still holds

omit [DecidableEq Thread] in
theorem Unique.direct (unique : Unique t) :
    Unique { t with issued := t.issued + 1, accepted := t.accepted ++ [t.issued] } := by
  have fresh := unique.fresh
  refine ⟨fun ticket member => ?_, fun ticket old => ?_, nodup_concat unique.once fresh.1,
    fun ticket old => ?_, fun thread ticket holds => ?_, unique.own⟩
  · rcases mem_append.mp member with old | new
    · exact Nat.lt_succ_of_lt (unique.accepted ticket old)
    · rw [mem_singleton.mp new]
      exact Nat.lt_succ_self _
  · exact Nat.lt_succ_of_lt (unique.refused ticket old)
  · have less := unique.refused ticket old
    simp only [mem_append, mem_singleton, not_or]
    exact ⟨unique.apart ticket old, Nat.ne_of_lt less⟩
  · have pending := unique.pending thread ticket holds
    simp only [mem_append, mem_singleton, not_or]
    exact ⟨Nat.lt_succ_of_lt pending.1, ⟨pending.2.1, Nat.ne_of_lt pending.1⟩, pending.2.2⟩

section Unique

variable (unique : Unique t) (thread : Thread) (ticket : Nat) (holds : t.held thread = some ticket)
  (held : Thread → Option Nat)
  (leaves : ∀ other, held other = if other = thread then none else t.held other)
include unique holds leaves

theorem Unique.accept : Unique { t with held, accepted := t.accepted ++ [ticket] } := by
  have pending := unique.pending thread ticket holds
  have release := unique.release thread ticket holds held leaves
  refine ⟨?_, unique.refused, nodup_concat unique.once pending.2.1,
    fun number old => ?_, fun other number still => ?_, fun one two number first second => ?_⟩
  · exact forall_mem_append.mpr ⟨unique.accepted, forall_mem_singleton.mpr pending.1⟩
  · simp only [mem_append, mem_singleton, not_or]
    refine ⟨unique.apart number old, ?_⟩
    rintro rfl
    exact pending.2.2 old
  · obtain ⟨was, apart⟩ := release other number still
    have before := unique.pending other number was
    simp only [mem_append, mem_singleton, not_or]
    exact ⟨before.1, ⟨before.2.1, apart⟩, before.2.2⟩
  · exact unique.own one two number (release one number first).1 (release two number second).1

theorem Unique.refuse : Unique { t with held, refused := t.refused ++ [ticket] } := by
  have pending := unique.pending thread ticket holds
  have release := unique.release thread ticket holds held leaves
  refine ⟨unique.accepted, ?_, unique.once, ?_, fun other number still => ?_,
    fun one two number first second => ?_⟩
  · exact forall_mem_append.mpr ⟨unique.refused, forall_mem_singleton.mpr pending.1⟩
  · exact forall_mem_append.mpr ⟨unique.apart, forall_mem_singleton.mpr pending.2.1⟩
  · obtain ⟨was, apart⟩ := release other number still
    have before := unique.pending other number was
    simp only [mem_append, mem_singleton, not_or]
    exact ⟨before.1, before.2.1, before.2.2, apart⟩
  · exact unique.own one two number (release one number first).1 (release two number second).1

end Unique

theorem Unique.step (unique : Unique t) (step : Step t t') : Unique t' := by
  cases step with
  | rest => exact unique
  | issue thread held takes => exact unique.issue thread held takes
  | direct => exact unique.direct
  | accept thread ticket holds held leaves => exact unique.accept thread ticket holds held leaves
  | refuse thread ticket holds held leaves => exact unique.refuse thread ticket holds held leaves

end Tickets

end Cox.Lib

import Mathlib.Data.List.Basic
import Mathlib.Data.List.Count
import Mathlib.Data.List.Perm.Basic

/-!
# Handing messages over before the end

Messages are admitted while the door is open, travel to the one who writes, and are written to
a sink that takes any part of them; what it does not take is buffered, perhaps after having
been held for a while. At some point the sink is told that nothing will follow. That is in
order if by then no message is on its way and nothing is held: then everything that was
admitted has been taken, and nothing is written any more.

The sink may also be torn down; then messages may be dropped.
-/
namespace Cox.Lib

open List

/-- The state of a handover of messages `μ` made of items `α`. -/
structure Handover (μ α : Type) where
  /-- Messages are admitted. -/
  admitting : Bool
  /-- The sink was not torn down. -/
  intact : Bool
  /-- The sink was told that nothing will follow. -/
  ended : Bool
  called : List μ
  executed : List μ
  sent : List μ
  /-- How often a message is on its way. -/
  flight : μ → Nat
  /-- What is held back on its way to the buffer. -/
  loose : List (List α)
  buffer : List α
  accepted : List α
  /-- Waiting for the sink to be ready. -/
  interest : Bool
  /-- How often something was offered to the sink. -/
  attempts : Nat

namespace Handover

variable {μ α : Type} [DecidableEq μ]

/-- What was not taken is held or buffered. -/
def leave (o : Handover μ α) (rest : List α) (held : Bool) : Handover μ α :=
  match rest, held with
  | [], _ => o
  | rest, true => { o with loose := rest :: o.loose }
  | rest, false => { o with buffer := o.buffer ++ rest, interest := true }

/-- The writer has come to a message, of which the sink takes the first `n` items. -/
def write (o : Handover μ α) (data : μ → List α) (m : μ) (n : Nat) (flight : μ → Nat)
    (attempts : Nat) : Handover μ α :=
  { o with
    executed := o.executed ++ [m]
    sent := o.sent ++ [m]
    flight
    accepted := o.accepted ++ (data m).take n
    attempts }

inductive Step (data : μ → List α) (o : Handover μ α) : Handover μ α → Prop where
  | rest : Step data o o
  | enter (m : μ) (flight : μ → Nat) (admitting : o.admitting = true)
      (enters : ∀ m', flight m' = o.flight m' + [m].count m') :
      Step data o { o with called := o.called ++ [m], flight }
  | drop (m : μ) (flight : μ → Nat) (torn : o.intact = false)
      (leaves : ∀ m', o.flight m' = flight m' + [m].count m') :
      Step data o { o with executed := o.executed ++ [m], flight }
  | send (m : μ) (n : Nat) (flight : μ → Nat) (attempts : Nat) (held : Bool)
      (leaves : ∀ m', o.flight m' = flight m' + [m].count m') :
      Step data o ((o.write data m n flight attempts).leave ((data m).drop n) held)
  | settle (rest : List α) (others : List (List α)) (first : o.loose = rest :: others) :
      Step data o { o with loose := others, buffer := o.buffer ++ rest, interest := true }
  | attempt (attempts : Nat) (waits : o.interest = true) : Step data o { o with attempts }
  | flush (n attempts : Nat) (waits : o.interest = true) :
      Step data o { o with
        accepted := o.accepted ++ o.buffer.take n
        buffer := o.buffer.drop n
        interest := !(o.buffer.drop n).isEmpty
        attempts }
  | close : Step data o { o with admitting := false, intact := false, interest := false }
  | shut : Step data o { o with admitting := false }
  | finish (shut : o.admitting = false) (drained : o.interest = false) :
      Step data o { o with ended := true }

/-- Doors that were shut stay shut, and what was torn down stays so. -/
theorem Step.backwards {data : μ → List α} {o o' : Handover μ α} (step : Step data o o') :
    (o'.admitting = true → o.admitting = true) ∧ (o'.intact = true → o.intact = true) := by
  cases step with
  | rest | enter | drop | settle | attempt | flush | finish => exact ⟨id, id⟩
  | send m n flight attempts held leaves =>
    unfold leave
    split <;> exact ⟨id, id⟩
  | close => exact ⟨fun admits => (by cases admits), fun intact => (by cases intact)⟩
  | shut => exact ⟨fun admits => (by cases admits), id⟩

theorem Step.called_grows {data : μ → List α} {o o' : Handover μ α} (step : Step data o o') :
    ∃ more, o'.called = o.called ++ more := by
  have same : ∃ more, o.called = o.called ++ more := ⟨[], (append_nil _).symm⟩
  cases step with
  | rest | drop | settle | attempt | flush | close | shut | finish => exact same
  | enter m flight admitting enters => exact ⟨[m], rfl⟩
  | send m n flight attempts held leaves =>
    unfold leave
    split <;> exact same

/-- Nothing is on its way and nothing is held. -/
structure Settled (o : Handover μ α) : Prop where
  reached : o.executed.Perm o.called
  placed : o.loose = []

structure Sound (data : μ → List α) (o : Handover μ α) : Prop where
  accounted : ∀ m, o.called.count m = o.executed.count m + o.flight m
  kept : o.intact = true → o.executed = o.sent
  items : (o.accepted ++ o.buffer ++ o.loose.flatten).Perm (o.sent.map data).flatten
  pieces : ∀ rest ∈ o.loose, rest ≠ []
  fed : o.interest = true → o.buffer ≠ []
  waits : o.intact = true → o.buffer ≠ [] → o.interest = true
  done : o.ended = true → o.admitting = false ∧ o.interest = false ∧ Settled o

section Sound

variable {data : μ → List α} {o o' : Handover μ α}

theorem Sound.landed (sound : Sound data o) (settled : Settled o) (m : μ) : o.flight m = 0 := by
  have all := sound.accounted m
  rw [settled.reached.count_eq] at all
  omega

theorem Sound.delivered (sound : Sound data o) (settled : Settled o) (intact : o.intact = true)
    (drained : o.interest = false) :
    o.called.Perm o.sent ∧ o.accepted.Perm (o.sent.map data).flatten := by
  have empty : o.buffer = [] := by
    by_contra some
    rw [sound.waits intact some] at drained
    cases drained
  have items := sound.items
  rw [empty, settled.placed, flatten_nil, append_nil, append_nil] at items
  exact ⟨sound.kept intact ▸ settled.reached.symm, items⟩

theorem Sound.not_ended (sound : Sound data o) (m : μ) (flight : μ → Nat)
    (leaves : ∀ m', o.flight m' = flight m' + [m].count m') : ¬o.ended = true := by
  intro ended
  have none := sound.landed (sound.done ended).2.2 m
  have some := leaves m
  rw [count_singleton_self] at some
  omega

theorem Sound.still (sound : Sound data o) (ended : o.ended = true) (step : Step data o o') :
    o'.attempts = o.attempts ∧ o'.buffer = o.buffer := by
  obtain ⟨_, drained, settled⟩ := sound.done ended
  cases step with
  | rest | enter | drop | close | shut | finish => exact ⟨rfl, rfl⟩
  | send m n flight attempts held leaves => exact absurd ended (sound.not_ended m flight leaves)
  | settle rest others first =>
    rw [settled.placed] at first
    cases first
  | attempt attempts waits | flush n attempts waits =>
    rw [drained] at waits
    cases waits

theorem accounted_leaves {called executed : List μ} {flight flight' : μ → Nat} (m : μ)
    (accounted : ∀ m', called.count m' = executed.count m' + flight m')
    (leaves : ∀ m', flight m' = flight' m' + [m].count m') (m' : μ) :
    called.count m' = (executed ++ [m]).count m' + flight' m' := by
  rw [count_append, accounted m', leaves m']
  omega

variable (sound : Sound data o)
include sound

theorem items_written (m : μ) (n : Nat) :
    (o.accepted ++ (data m).take n ++ o.buffer ++ o.loose.flatten ++ (data m).drop n).Perm
      ((o.sent ++ [m]).map data).flatten := by
  have whole : (data m).take n ++ (data m).drop n = data m := take_append_drop ..
  rw [map_append, flatten_append, map_singleton, flatten_singleton]
  refine List.Perm.trans ?_ (sound.items.append_right (data m))
  nth_rewrite 3 [← whole]
  simp only [append_assoc]
  refine List.Perm.append_left _ ?_
  simp only [← append_assoc]
  refine List.Perm.append_right _ ?_
  rw [append_assoc]
  exact perm_append_comm

theorem Sound.send (m : μ) (n : Nat) (flight : μ → Nat) (attempts : Nat) (held : Bool)
    (leaves : ∀ m', o.flight m' = flight m' + [m].count m') :
    Sound data ((o.write data m n flight attempts).leave ((data m).drop n) held) := by
  have accounted := accounted_leaves m sound.accounted leaves
  have kept (intact : o.intact = true) : o.executed ++ [m] = o.sent ++ [m] := by
    rw [sound.kept intact]
  have items := items_written sound m n
  have early := sound.not_ended m flight leaves
  cases rest : (data m).drop n with
  | nil =>
    rw [rest, append_nil] at items
    exact ⟨accounted, kept, items, sound.pieces, sound.fed, sound.waits,
      fun ended => absurd ended early⟩
  | cons a later =>
    rw [rest] at items
    cases held with
    | true =>
      refine ⟨accounted, kept, ?_, ?_, sound.fed, sound.waits, fun ended => absurd ended early⟩
      · refine List.Perm.trans ?_ items
        show (_ ++ _ ++ ((a :: later) ++ o.loose.flatten)).Perm _
        rw [append_assoc _ o.loose.flatten]
        exact List.Perm.append_left _ perm_append_comm
      · exact forall_mem_cons.mpr ⟨cons_ne_nil a later, sound.pieces⟩
    | false =>
      refine ⟨accounted, kept, ?_, sound.pieces, fun _ => ?_, fun _ _ => rfl,
        fun ended => absurd ended early⟩
      · refine List.Perm.trans ?_ items
        show (o.accepted ++ (data m).take n ++ (o.buffer ++ (a :: later)) ++ o.loose.flatten).Perm _
        simp only [append_assoc]
        refine List.Perm.append_left _ (List.Perm.append_left _ (List.Perm.append_left _ ?_))
        exact perm_append_comm
      · exact append_ne_nil_of_right_ne_nil _ (cons_ne_nil a later)

theorem Sound.settle (rest : List α) (others : List (List α)) (first : o.loose = rest :: others) :
    Sound data { o with loose := others, buffer := o.buffer ++ rest, interest := true } := by
  have items := sound.items
  have pieces := sound.pieces
  rw [first] at items pieces
  rw [flatten_cons, ← append_assoc, append_assoc o.accepted] at items
  obtain ⟨some, others'⟩ := forall_mem_cons.mp pieces
  refine ⟨sound.accounted, sound.kept, items, others', fun _ => ?_, fun _ _ => rfl, fun ended => ?_⟩
  · exact append_ne_nil_of_right_ne_nil _ some
  · have placed := (sound.done ended).2.2.placed
    rw [first] at placed
    cases placed

theorem Sound.flush (n attempts : Nat) (waits : o.interest = true) :
    Sound data { o with
      accepted := o.accepted ++ o.buffer.take n
      buffer := o.buffer.drop n
      interest := !(o.buffer.drop n).isEmpty
      attempts } := by
  refine ⟨sound.accounted, sound.kept, ?_, sound.pieces, ?_, ?_, fun ended => ?_⟩
  · show (o.accepted ++ o.buffer.take n ++ o.buffer.drop n ++ o.loose.flatten).Perm _
    rw [append_assoc o.accepted, take_append_drop]
    exact sound.items
  · simp
  · simp
  · have drained := (sound.done ended).2.1
    rw [waits] at drained
    cases drained

/-- Every step keeps the handover sound, if it does not end it before it is settled. -/
theorem Sound.step (step : Step data o o') (orderly : o'.ended = true → o.ended = true ∨ Settled o) :
    Sound data o' := by
  cases step with
  | rest => exact sound
  | enter m flight admitting enters =>
    refine ⟨fun m' => ?_, sound.kept, sound.items, sound.pieces, sound.fed, sound.waits,
      fun ended => ?_⟩
    · show (o.called ++ [m]).count m' = o.executed.count m' + flight m'
      rw [count_append, sound.accounted m', enters m']
      omega
    -- nothing is admitted after the end
    · have shut := (sound.done ended).1
      rw [admitting] at shut
      cases shut
  | drop m flight torn leaves =>
    refine ⟨accounted_leaves m sound.accounted leaves, fun intact => ?_, sound.items, sound.pieces,
      sound.fed, sound.waits, fun ended => absurd ended (sound.not_ended m flight leaves)⟩
    have torn' : o.intact = true := intact
    rw [torn] at torn'
    cases torn'
  | send m n flight attempts held leaves => exact sound.send m n flight attempts held leaves
  | settle rest others first => exact sound.settle rest others first
  | attempt attempts waits =>
    exact ⟨sound.accounted, sound.kept, sound.items, sound.pieces, sound.fed, sound.waits,
      fun ended => (sound.done ended).imp id (And.imp id fun settled => ⟨settled.reached, settled.placed⟩)⟩
  | flush n attempts waits => exact sound.flush n attempts waits
  | close =>
    refine ⟨sound.accounted, fun intact => (by cases intact), sound.items, sound.pieces,
      fun waits => (by cases waits), fun intact => (by cases intact), fun ended => ?_⟩
    have settled := (sound.done ended).2.2
    exact ⟨rfl, rfl, settled.reached, settled.placed⟩
  | shut =>
    refine ⟨sound.accounted, sound.kept, sound.items, sound.pieces, sound.fed, sound.waits,
      fun ended => ?_⟩
    obtain ⟨_, drained, settled⟩ := sound.done ended
    exact ⟨rfl, drained, settled.reached, settled.placed⟩
  | finish shut drained =>
    refine ⟨sound.accounted, sound.kept, sound.items, sound.pieces, sound.fed, sound.waits,
      fun _ => ⟨shut, drained, ?_⟩⟩
    have settled : Settled o := (orderly rfl).elim (fun ended => (sound.done ended).2.2) id
    exact ⟨settled.reached, settled.placed⟩

end Sound

end Handover

end Cox.Lib

import Mathlib.Data.List.Basic

/-!
# Resumable parsers

A resumable parser looks at the input buffered so far and plays one round: it
consumes some of the input and asks for another round, it rejects the input, or
it stops because it is finished or has to wait for more. Calling it again after
more input has arrived resumes where it stopped.

The laws below talk about one round only. They give the theorem the callers
need: cutting the input into pieces and resuming after each of them has the same
outcome as one call on the whole input.
-/
namespace Cox.Lib.Resumable

open List

/-- The result of one round. `take s n` consumes `n` items and goes on in `s`;
`fail s n` rejects the input, with `n` items already consumed. -/
inductive Round (σ : Type) where
  | stop (s : σ)
  | fail (s : σ) (n : Nat)
  | take (s : σ) (n : Nat)
  deriving DecidableEq, Repr

variable {σ α ν : Type}

/-- Play rounds until one of them stops or fails. -/
def drive (round : σ → List α → Round σ) : Nat → σ → List α → σ × List α
  | 0, s, b => (s, b)
  | fuel + 1, s, b =>
    match round s b with
    | .stop s' => (s', b)
    | .fail s' n => (s', b.drop n)
    | .take s' n => drive round fuel s' (b.drop n)

/-- One call of the parser. Every round that goes on consumes input, so the
length of the buffer bounds the number of rounds. -/
def parse (round : σ → List α → Round σ) (s : σ) (b : List α) : σ × List α :=
  drive round (b.length + 1) s b

/-- Append each piece to the unconsumed input and call the parser after it. -/
def feed (round : σ → List α → Round σ) (x : σ × List α) : List (List α) → σ × List α
  | [] => x
  | piece :: pieces => feed round (parse round x.1 (x.2 ++ piece)) pieces

/-- A round that goes on consumes at least one item and no more than there are. -/
def Consumes (round : σ → List α → Round σ) : Prop :=
  ∀ s b s' n, round s b = .take s' n → 0 < n ∧ n ≤ b.length

section Calls

variable {round : σ → List α → Round σ}

theorem drive_fuel (consumes : Consumes round) (fuel more : Nat) (s : σ) (b : List α)
    (enough : b.length < fuel) : drive round (fuel + more) s b = drive round fuel s b := by
  -- every round that goes on shortens the buffer, so the fuel outlasts it
  induction fuel generalizing s b with
  | zero => omega
  | succ fuel ih =>
    rw [Nat.add_right_comm]
    simp only [drive]
    cases played : round s b with
    | stop s' => rfl
    | fail s' n => rfl
    | take s' n =>
      have bound := consumes s b s' n played
      exact ih s' (b.drop n) (by rw [length_drop]; omega)

theorem parse_stop (s s' : σ) (b : List α) (played : round s b = .stop s') :
    parse round s b = (s', b) := by
  simp only [parse, drive, played]

theorem parse_fail (s s' : σ) (b : List α) (n : Nat) (played : round s b = .fail s' n) :
    parse round s b = (s', b.drop n) := by
  simp only [parse, drive, played]

theorem parse_take (consumes : Consumes round) (s s' : σ) (b : List α) (n : Nat)
    (played : round s b = .take s' n) : parse round s b = parse round s' (b.drop n) := by
  have bound := consumes s b s' n played
  have split : b.length = (b.drop n).length + 1 + (n - 1) := by rw [length_drop]; omega
  simp only [parse, drive, played]
  rw [split]
  exact drive_fuel consumes _ _ s' (b.drop n) (by omega)

theorem parse_induction (consumes : Consumes round) {P : σ → List α → Prop}
    (stop : ∀ s b s', round s b = .stop s' → P s b)
    (fail : ∀ s b s' n, round s b = .fail s' n → P s b)
    (take : ∀ s b s' n, round s b = .take s' n → P s' (b.drop n) → P s b)
    (s : σ) (b : List α) : P s b := by
  -- on the length of the buffer, which every round that goes on shortens
  induction size : b.length using Nat.strongRecOn generalizing s b with
  | _ size' ih =>
    subst size
    cases played : round s b with
    | stop s' => exact stop s b s' played
    | fail s' n => exact fail s b s' n played
    | take s' n =>
      have bound := consumes s b s' n played
      exact take s b s' n played
        (ih (b.drop n).length (by rw [length_drop]; omega) s' (b.drop n) rfl)

theorem parse_preserves (consumes : Consumes round) {P : σ → Prop}
    (stop : ∀ s b s', P s → round s b = .stop s' → P s')
    (fail : ∀ s b s' n, P s → round s b = .fail s' n → P s')
    (take : ∀ s b s' n, P s → round s b = .take s' n → P s')
    (s : σ) (b : List α) (initial : P s) : P (parse round s b).1 := by
  revert initial
  induction s, b using parse_induction consumes with
  | stop s b s' played =>
    intro initial
    rw [parse_stop s s' b played]
    exact stop s b s' initial played
  | fail s b s' n played =>
    intro initial
    rw [parse_fail s s' b n played]
    exact fail s b s' n initial played
  | take s b s' n played ih =>
    intro initial
    rw [parse_take consumes s s' b n played]
    exact ih (take s b s' n initial played)

theorem feed_append (x : σ × List α) (pieces more : List (List α)) :
    feed round x (pieces ++ more) = feed round (feed round x pieces) more := by
  induction pieces generalizing x with
  | nil => rfl
  | cons piece pieces ih => exact ih _

theorem parse_length_le (consumes : Consumes round) (s : σ) (b : List α) :
    (parse round s b).2.length ≤ b.length := by
  induction s, b using parse_induction consumes with
  | stop s b s' played => exact Nat.le_of_eq (by rw [parse_stop s s' b played])
  | fail s b s' n played =>
    rw [parse_fail s s' b n played, length_drop]
    omega
  | take s b s' n played ih =>
    rw [length_drop] at ih
    rw [parse_take consumes s s' b n played]
    omega

end Calls

section History

variable {round : σ → List α → Round σ} {P : List α → σ → Prop} (consumes : Consumes round)
  (stop : ∀ read s b s', P read s → round s b = .stop s' → P read s')
  (fail : ∀ read s b s' n, P read s → round s b = .fail s' n → P (read ++ b.take n) s')
  (take : ∀ read s b s' n, P read s → round s b = .take s' n → P (read ++ b.take n) s')
  (read : List α)
include consumes stop fail take

/-- A property of the items read so far and the state, which every round keeps, holds after a
call, and what has been read and what is left are together the input. -/
theorem parse_reads (s : σ) (b : List α) (initial : P read s) :
    ∃ read', read ++ b = read' ++ (parse round s b).2 ∧ P read' (parse round s b).1 := by
  induction s, b using parse_induction consumes generalizing read with
  | stop s b s' played =>
    rw [parse_stop s s' b played]
    exact ⟨read, rfl, stop read s b s' initial played⟩
  | fail s b s' n played =>
    rw [parse_fail s s' b n played]
    refine ⟨read ++ b.take n, ?_, fail read s b s' n initial played⟩
    rw [append_assoc, take_append_drop]
  | take s b s' n played ih =>
    obtain ⟨read', whole, holds⟩ := ih (read ++ b.take n) (take read s b s' n initial played)
    rw [append_assoc, take_append_drop] at whole
    rw [parse_take consumes s s' b n played]
    exact ⟨read', whole, holds⟩

theorem feed_reads (x : σ × List α) (pieces : List (List α)) (initial : P read x.1) :
    ∃ read', read ++ (x.2 ++ pieces.flatten) = read' ++ (feed round x pieces).2 ∧
      P read' (feed round x pieces).1 := by
  induction pieces generalizing read x with
  | nil => exact ⟨read, by simp [feed], initial⟩
  | cons piece pieces ih =>
    obtain ⟨read', whole, holds⟩ := parse_reads consumes stop fail take read x.1 (x.2 ++ piece) initial
    obtain ⟨read'', rest, later⟩ := ih read' (parse round x.1 (x.2 ++ piece)) holds
    refine ⟨read'', ?_, later⟩
    rw [feed, ← rest, flatten_cons, ← append_assoc x.2, ← append_assoc read, whole,
      append_assoc]

end History

/-- Two outcomes agree when they are equal, or when both reject the input with
the same verdict. What a rejecting parser has stored does not matter. -/
def Agree (rejected : σ → Prop) (verdict : σ → ν) (x y : σ × List α) : Prop :=
  x = y ∨ (rejected x.1 ∧ rejected y.1 ∧ verdict x.1 = verdict y.1)

section Agree

variable {rejected : σ → Prop} {verdict : σ → ν}

theorem Agree.refl (x : σ × List α) : Agree rejected verdict x x := .inl rfl

theorem Agree.trans {x y z : σ × List α} (left : Agree rejected verdict x y)
    (right : Agree rejected verdict y z) : Agree rejected verdict x z := by
  rcases left with rfl | ⟨hx, hy, same⟩
  · exact right
  · rcases right with rfl | ⟨_, hz, same'⟩
    · exact .inr ⟨hx, hy, same⟩
    · exact .inr ⟨hx, hz, same.trans same'⟩

end Agree

/-- The laws of one round, for the states `good` that the parser can be in.

`takeMore` is the law with content. A round played on the first part of the input
is either played unchanged on the longer input, or it has consumed all of that
first part, and the next round on the rest together with it is what one round on
the longer input does. -/
structure Lawful (round : σ → List α → Round σ) (good rejected : σ → Prop) (verdict : σ → ν) :
    Prop where
  consumes : Consumes round
  goodTake : ∀ s b s' n, good s → round s b = .take s' n → good s'
  goodFail : ∀ s b s' n, good s → round s b = .fail s' n → good s' ∧ rejected s'
  stopSame : ∀ s b s', good s → round s b = .stop s' → s' = s
  rejectedStops : ∀ s b, rejected s → round s b = .stop s
  failMore : ∀ s a b s' n, good s → round s a = .fail s' n →
    ∃ s'' m, round s (a ++ b) = .fail s'' m ∧ verdict s'' = verdict s'
  takeMore : ∀ s a b s' n, good s → b ≠ [] → round s a = .take s' n →
    round s (a ++ b) = .take s' n ∨
    (n = a.length ∧
      ((∃ s'' k, round s' b = .take s'' k ∧ round s (a ++ b) = .take s'' (n + k)) ∨
       (∃ t u i j, round s' b = .fail t i ∧ round s (a ++ b) = .fail u j ∧
        verdict u = verdict t)))

namespace Lawful

variable {round : σ → List α → Round σ} {good rejected : σ → Prop} {verdict : σ → ν}

variable (laws : Lawful round good rejected verdict)
include laws

section Call

variable (s : σ) (b : List α) (hs : good s)
include hs

theorem parse_good : good (parse round s b).1 := by
  apply parse_preserves laws.consumes _ _ laws.goodTake s b hs
  · intro s b s' hs played
    rw [laws.stopSame s b s' hs played]
    exact hs
  · intro s b s' n hs played
    exact (laws.goodFail s b s' n hs played).1

theorem parse_waits :
    round (parse round s b).1 (parse round s b).2 = .stop (parse round s b).1 := by
  revert hs
  induction s, b using parse_induction laws.consumes with
  | stop s b s' played =>
    intro hs
    have same := laws.stopSame s b s' hs played
    subst same
    rw [parse_stop s' s' b played]
    exact played
  | fail s b s' n played =>
    intro hs
    rw [parse_fail s s' b n played]
    exact laws.rejectedStops s' _ (laws.goodFail s b s' n hs played).2
  | take s b s' n played ih =>
    intro hs
    rw [parse_take laws.consumes s s' b n played]
    exact ih (laws.goodTake s b s' n hs played)

theorem parse_settled : parse round (parse round s b).1 (parse round s b).2 = parse round s b :=
  parse_stop _ _ _ (laws.parse_waits s b hs)

theorem parse_shrinks :
    (parse round s b).1 = s ∨ rejected (parse round s b).1 ∨
      (parse round s b).2.length < b.length := by
  revert hs
  induction s, b using parse_induction laws.consumes with
  | stop s b s' played =>
    intro hs
    rw [parse_stop s s' b played]
    exact .inl (laws.stopSame s b s' hs played)
  | fail s b s' n played =>
    intro hs
    rw [parse_fail s s' b n played]
    exact .inr (.inl (laws.goodFail s b s' n hs played).2)
  | take s b s' n played =>
    intro hs
    have bound := laws.consumes s b s' n played
    have short := parse_length_le laws.consumes s' (b.drop n)
    rw [length_drop] at short
    rw [parse_take laws.consumes s s' b n played]
    exact .inr (.inr (by omega))

end Call

/-- Resuming after `a` with more input `c` agrees with one call on `a ++ c`. -/
theorem parse_append (s : σ) (a c : List α) (hs : good s) :
    Agree rejected verdict
      (parse round (parse round s a).1 ((parse round s a).2 ++ c)) (parse round s (a ++ c)) := by
  revert hs
  induction s, a using parse_induction laws.consumes with
  | stop s a s' played =>
    intro hs
    have same := laws.stopSame s a s' hs played
    subst same
    rw [parse_stop s' s' a played]
    exact Agree.refl _
  | fail s a s' n played =>
    intro hs
    -- the longer input is rejected as well, perhaps with something else consumed
    obtain ⟨s'', m, replayed, same⟩ := laws.failMore s a c s' n hs played
    have stuck := laws.rejectedStops s' (a.drop n ++ c) (laws.goodFail s a s' n hs played).2
    rw [parse_fail s s' a n played, parse_fail s s'' (a ++ c) m replayed,
      parse_stop s' s' _ stuck]
    exact .inr ⟨(laws.goodFail s a s' n hs played).2, (laws.goodFail s _ s'' m hs replayed).2,
      same.symm⟩
  | take s a s' n played ih =>
    intro hs
    have resumed := ih (laws.goodTake s a s' n hs played)
    rw [← parse_take laws.consumes s s' a n played] at resumed
    refine resumed.trans ?_
    -- `resumed` speaks about the rest after the first round; compare that round on both inputs
    by_cases empty : c = []
    · subst empty
      rw [append_nil, append_nil, parse_take laws.consumes s s' a n played]
      exact Agree.refl _
    have bound := laws.consumes s a s' n played
    rcases laws.takeMore s a c s' n hs empty played with same | ⟨whole, next | failed⟩
    -- the longer input does not change the round
    · rw [parse_take laws.consumes s s' (a ++ c) n same, drop_append_of_le_length bound.2]
      exact Agree.refl _
    -- the round ended where `a` ends, and one round on `a ++ c` does the work of two
    · obtain ⟨s'', k, second, joined⟩ := next
      rw [parse_take laws.consumes s s'' (a ++ c) (n + k) joined, whole, drop_length,
        nil_append, parse_take laws.consumes s' s'' c k second, drop_length_add_append]
      exact Agree.refl _
    -- as before, but the second round rejects
    · obtain ⟨t, u, i, j, second, joined, same⟩ := failed
      rw [whole, drop_length, nil_append, parse_fail s' t c i second,
        parse_fail s u (a ++ c) j joined]
      exact .inr ⟨(laws.goodFail s' c t i (laws.goodTake s a s' n hs played) second).2,
        (laws.goodFail s _ u j hs joined).2, same.symm⟩

/-- **Split invariance**: feeding the pieces one by one to a parser that waits for
input agrees with one call on all of them. -/
theorem feed_agrees (s : σ) (b : List α) (pieces : List (List α)) (hs : good s)
    (settled : parse round s b = (s, b)) :
    Agree rejected verdict (feed round (s, b) pieces) (parse round s (b ++ pieces.flatten)) := by
  induction pieces generalizing s b with
  | nil =>
    rw [flatten_nil, append_nil, settled]
    exact Agree.refl _
  | cons piece pieces ih =>
    -- after a piece the parser waits again, so the induction hypothesis applies there
    have first := ih (parse round s (b ++ piece)).1 (parse round s (b ++ piece)).2
      (laws.parse_good s (b ++ piece) hs) (laws.parse_settled s (b ++ piece) hs)
    have second := laws.parse_append s (b ++ piece) pieces.flatten hs
    rw [append_assoc] at second
    exact first.trans second

theorem feed_rejected (x : σ × List α) (pieces : List (List α)) (refused : rejected x.1) :
    (feed round x pieces).1 = x.1 := by
  induction pieces generalizing x with
  | nil => rfl
  | cons piece pieces ih =>
    have stuck := parse_stop x.1 x.1 _ (laws.rejectedStops x.1 (x.2 ++ piece) refused)
    rw [feed, stuck]
    exact ih (x.1, x.2 ++ piece) refused

end Lawful

/-! ### The rounds of a call -/

section Rounds

/-- The loop that starts in `s` with the input `b` comes to a round in `t` with `c`. -/
inductive Visits (round : σ → List α → Round σ) : σ → List α → σ → List α → Prop where
  | first (s : σ) (b : List α) : Visits round s b s b
  | next (s : σ) (b : List α) (s' : σ) (n : Nat) (t : σ) (c : List α) :
      round s b = .take s' n → Visits round s' (b.drop n) t c → Visits round s b t c

/-- A call returns, the rounds that go on consume input and have a state as it should be, and
calling again without new input changes nothing. -/
structure Settles (round : σ → List α → Round σ) (proper : σ → Prop) (s : σ) (b : List α) :
    Prop where
  returns : ∃ t c, Visits round s b t c ∧
    ((∃ t', round t c = .stop t' ∧ parse round s b = (t', c)) ∨
      ∃ t' n, round t c = .fail t' n ∧ parse round s b = (t', c.drop n))
  consumes : ∀ t c t' n, Visits round s b t c → round t c = .take t' n → 0 < n ∧ n ≤ c.length
  always : ∀ t c, Visits round s b t c → proper t
  again : parse round (parse round s b).1 (parse round s b).2 = parse round s b

variable {round : σ → List α → Round σ} {good rejected proper : σ → Prop} {verdict : σ → ν}

theorem parse_returns (consumes : Consumes round) (s : σ) (b : List α) :
    ∃ t c, Visits round s b t c ∧
      ((∃ t', round t c = .stop t' ∧ parse round s b = (t', c)) ∨
        ∃ t' n, round t c = .fail t' n ∧ parse round s b = (t', c.drop n)) := by
  induction s, b using parse_induction consumes with
  | stop s b s' played => exact ⟨s, b, .first s b, .inl ⟨s', played, parse_stop s s' b played⟩⟩
  | fail s b s' n played =>
    exact ⟨s, b, .first s b, .inr ⟨s', n, played, parse_fail s s' b n played⟩⟩
  | take s b s' n played ih =>
    obtain ⟨t, c, visits, last⟩ := ih
    refine ⟨t, c, .next s b s' n t c played visits, ?_⟩
    rw [parse_take consumes s s' b n played]
    exact last

theorem Visits.keeps (keeps : ∀ s b s' n, good s → round s b = .take s' n → good s') (s t : σ)
    (b c : List α) (visits : Visits round s b t c) (initial : good s) : good t := by
  induction visits with
  | first => exact initial
  | next s b s' n t c played _ ih => exact ih (keeps s b s' n initial played)

theorem Lawful.settles (laws : Lawful round good rejected verdict)
    (enough : ∀ s, good s → proper s) (s : σ) (b : List α) (hs : good s) :
    Settles round proper s b where
  returns := parse_returns laws.consumes s b
  consumes := fun t c t' n _ played => laws.consumes t c t' n played
  always := fun t c visits => enough t (visits.keeps laws.goodTake s t b c hs)
  again := laws.parse_settled s b hs

theorem settles_of_stop (consumes : Consumes round) (s s' : σ) (b : List α) (hs : proper s)
    (played : round s b = .stop s') (final : round s' b = .stop s') :
    Settles round proper s b where
  returns := parse_returns consumes s b
  consumes := fun t c t' n _ played => consumes t c t' n played
  always := by
    intro t c visits
    cases visits with
    | first => exact hs
    | next _ _ _ _ _ _ taken =>
      rw [played] at taken
      cases taken
  again := by
    rw [parse_stop s s' b played]
    exact parse_stop s' s' b final

end Rounds

section Related

variable {τ : Type}

/-- Two parsers do the same in a round, and their states stay related. -/
inductive SameRound (related : σ → τ → Prop) : Round σ → Round τ → Prop where
  | stop (s : σ) (t : τ) : related s t → SameRound related (.stop s) (.stop t)
  | fail (s : σ) (t : τ) (n : Nat) : related s t → SameRound related (.fail s n) (.fail t n)
  | take (s : σ) (t : τ) (n : Nat) : related s t → SameRound related (.take s n) (.take t n)

theorem parse_related {round : σ → List α → Round σ} {round' : τ → List α → Round τ}
    {related : σ → τ → Prop} (consumes : Consumes round) (consumes' : Consumes round')
    (same : ∀ s t b, related s t → SameRound related (round s b) (round' t b))
    (s : σ) (t : τ) (b : List α) (initial : related s t) :
    related (parse round s b).1 (parse round' t b).1 ∧
      (parse round s b).2 = (parse round' t b).2 := by
  induction s, b using parse_induction consumes generalizing t with
  | stop s b s' played =>
    have both := same s t b initial
    rw [played] at both
    generalize other : round' t b = r at both
    cases both with
    | stop _ t' holds =>
      rw [parse_stop s s' b played, parse_stop t t' b other]
      exact ⟨holds, rfl⟩
  | fail s b s' n played =>
    have both := same s t b initial
    rw [played] at both
    generalize other : round' t b = r at both
    cases both with
    | fail _ t' _ holds =>
      rw [parse_fail s s' b n played, parse_fail t t' b n other]
      exact ⟨holds, rfl⟩
  | take s b s' n played ih =>
    have both := same s t b initial
    rw [played] at both
    generalize other : round' t b = r at both
    cases both with
    | take _ t' _ holds =>
      rw [parse_take consumes s s' b n played, parse_take consumes' t t' b n other]
      exact ih t' holds

end Related

end Cox.Lib.Resumable

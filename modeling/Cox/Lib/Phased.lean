import Cox.Lib.Resumable

/-!
# Parsers of lines and data

A parser of a text protocol alternates between phases: it waits for a line, which is
handled once all of it has arrived, or it takes data as they arrive, up to a number of
items or without end, or it skips some items. If every phase goes on in the right way, the
parser is resumable: how its input was cut does not matter.

The rules at the end run such a parser over a line or over data that are there as a whole.
-/
namespace Cox.Lib.Resumable

open List

/-- How the end of a line is found. -/
structure Delimiter (α : Type) where
  find : List α → Option Nat
  width : Nat
  bound : ∀ b i, find b = some i → i + width ≤ b.length
  stays : ∀ a b i, find a = some i → find (a ++ b) = some i

/-- What a parser waits for. -/
inductive Phase (σ α : Type) where
  /-- The next line, to be handled as a whole. -/
  | line (handle : List α → Round σ)
  /-- Data, of which there is room for some more, or for any number. -/
  | data (room : Option Nat) (receive : List α → σ)
  | skip (n : Nat) (next : σ)
  | done

variable {σ α : Type}

/-- The part of the input for which there is room. -/
def cut (room : Option Nat) (b : List α) : List α :=
  match room with
  | some n => b.take n
  | none => b

def play (d : Delimiter α) (s : σ) (b : List α) : Phase σ α → Round σ
  | .line handle =>
    match d.find b with
    | some i => handle (b.take i)
    | none => .stop s
  | .data room receive =>
    if (cut room b).length = 0 then .stop s else .take (receive (cut room b)) (cut room b).length
  | .skip n next => if n ≤ b.length then .take next n else .stop s
  | .done => .stop s

/-- A handler takes the line with its end, or it rejects the input. -/
def LineHandled (d : Delimiter α) (good rejected : σ → Prop) (line : List α) : Round σ → Prop
  | .take s n => n = line.length + d.width ∧ good s
  | .fail s _ => good s ∧ rejected s
  | .stop _ => False

/-- The laws of the phases. Data that leave room are followed by the rest of the data, and it
does not matter where they were cut. -/
structure Phased (d : Delimiter α) (round : σ → List α → Round σ) (phase : σ → Phase σ α)
    (good rejected : σ → Prop) : Prop where
  consumes : Consumes round
  plays : ∀ s b, good s → round s b = play d s b (phase s)
  rejectedStops : ∀ s b, rejected s → round s b = .stop s
  line : ∀ s handle, good s → phase s = .line handle →
    ∀ line, LineHandled d good rejected line (handle line)
  room : ∀ s room receive, good s → phase s = .data room receive → room ≠ some 0
  data : ∀ s room receive, good s → phase s = .data room receive →
    ∀ x, (∀ n ∈ room, x.length ≤ n) → good (receive x)
  dataMore : ∀ s room receive, good s → phase s = .data room receive →
    ∀ x, (∀ n ∈ room, x.length < n) → ∃ receive',
      phase (receive x) = .data (room.map (· - x.length)) receive' ∧
        ∀ y, receive' y = receive (x ++ y)
  skip : ∀ s n next, good s → phase s = .skip n next → good next

section Cut

variable (room : Option Nat) (a b : List α)

theorem cut_fits : ∀ n ∈ room, (cut room a).length ≤ n := by
  rintro n rfl
  exact length_take_le n a

theorem cut_cases : (cut room (a ++ b) = cut room a) ∨
    ((∀ n ∈ room, a.length < n) ∧ cut room a = a ∧
      cut room (a ++ b) = a ++ cut (room.map (· - a.length)) b) := by
  cases room with
  | none => exact .inr ⟨fun n h => (nomatch h), rfl, rfl⟩
  | some n =>
    by_cases filled : n ≤ a.length
    · exact .inl (take_append_of_le_length filled)
    · refine .inr ⟨?_, take_of_length_le (by omega), ?_⟩
      · rintro m ⟨⟩
        omega
      · have split : n = a.length + (n - a.length) := by omega
        simp only [cut, Option.map_some]
        rw [split, take_length_add_append]
        simp

theorem cut_length_pos (some : room ≠ some 0) (nonempty : b ≠ []) : (cut room b).length ≠ 0 := by
  have size : 0 < b.length := length_pos_iff.mpr nonempty
  cases room with
  | none => exact Nat.ne_of_gt size
  | some n =>
    have positive : n ≠ 0 := fun zero => some (congrArg Option.some zero)
    rw [cut, length_take]
    omega

end Cut

namespace Phased

variable {d : Delimiter α} {round : σ → List α → Round σ} {phase : σ → Phase σ α}
  {good rejected : σ → Prop}

inductive Plays (d : Delimiter α) (phase : σ → Phase σ α) (s : σ) (b : List α) : Round σ → Prop where
  | wait : Plays d phase s b (.stop s)
  | line (handle : List α → Round σ) (i : Nat) : phase s = .line handle → d.find b = some i →
      Plays d phase s b (handle (b.take i))
  | data (room : Option Nat) (receive : List α → σ) : phase s = .data room receive →
      (cut room b).length ≠ 0 → Plays d phase s b (.take (receive (cut room b)) (cut room b).length)
  | skip (n : Nat) (next : σ) : phase s = .skip n next → n ≤ b.length →
      Plays d phase s b (.take next n)

variable (laws : Phased d round phase good rejected)
include laws

section Rounds

variable (s : σ) (b : List α)

theorem round_plays (hs : good s) : Plays d phase s b (round s b) := by
  rw [laws.plays s b hs]
  cases now : phase s with
  | line handle =>
    simp only [play]
    split
    next i found => exact .line handle i now found
    · exact .wait
  | data room receive =>
    simp only [play]
    split
    · exact .wait
    next some => exact .data room receive now some
  | skip n next =>
    simp only [play]
    split
    next enough => exact .skip n next now enough
    · exact .wait
  | done => exact .wait

theorem plays_of_round (r : Round σ) (hs : good s) (played : round s b = r) : Plays d phase s b r :=
  played ▸ laws.round_plays s b hs

private theorem round_line (hs : good s) (handle : List α → Round σ) (i : Nat)
    (now : phase s = .line handle) (found : d.find b = some i) : round s b = handle (b.take i) := by
  rw [laws.plays s b hs, now]
  simp only [play, found]

private theorem round_data (hs : good s) (room : Option Nat) (receive : List α → σ)
    (now : phase s = .data room receive) (some : (cut room b).length ≠ 0) :
    round s b = .take (receive (cut room b)) (cut room b).length := by
  rw [laws.plays s b hs, now]
  exact if_neg some

end Rounds

private theorem line_more (s : σ) (a b : List α) (hs : good s) (handle : List α → Round σ) (i : Nat)
    (now : phase s = .line handle) (found : d.find a = some i) :
    round s (a ++ b) = handle (a.take i) := by
  have bound := d.bound a i found
  rw [laws.round_line s (a ++ b) hs handle i now (d.stays a b i found),
    take_append_of_le_length (by omega)]

/-- **Parsers of lines and data are resumable.** -/
theorem lawful : Lawful round good rejected (fun _ => ()) where
  consumes := laws.consumes
  goodTake := by
    intro s b s' n hs played
    have plays := laws.plays_of_round s b _ hs played
    generalize result : Round.take s' n = r at plays
    cases plays with
    | wait => cases result
    | line handle i now found =>
      have handled := laws.line s handle hs now (b.take i)
      rw [← result] at handled
      exact handled.2
    | data room receive now =>
      cases result
      exact laws.data s room receive hs now _ (cut_fits room b)
    | skip n next now =>
      cases result
      exact laws.skip s _ _ hs now
  goodFail := by
    intro s b s' n hs played
    have plays := laws.plays_of_round s b _ hs played
    generalize result : Round.fail s' n = r at plays
    cases plays with
    | line handle i now found =>
      have handled := laws.line s handle hs now (b.take i)
      rw [← result] at handled
      exact handled
    | wait | data | skip => cases result
  stopSame := by
    intro s b s' hs played
    have plays := laws.plays_of_round s b _ hs played
    generalize result : Round.stop s' = r at plays
    cases plays with
    | wait =>
      cases result
      rfl
    | line handle i now found =>
      have handled := laws.line s handle hs now (b.take i)
      rw [← result] at handled
      exact handled.elim
    | data | skip => cases result
  rejectedStops := laws.rejectedStops
  failMore := by
    intro s a b s' n hs played
    have plays := laws.plays_of_round s a _ hs played
    generalize result : Round.fail s' n = r at plays
    cases plays with
    | line handle i now found =>
      exact ⟨s', n, (laws.line_more s a b hs handle i now found).trans result.symm, rfl⟩
    | wait | data | skip => cases result
  takeMore := by
    intro s a b s' n hs nonempty played
    have plays := laws.plays_of_round s a _ hs played
    generalize result : Round.take s' n = r at plays
    cases plays with
    | wait => cases result
    | line handle i now found =>
      exact .inl (laws.line_more s a b hs handle i now found)
    | skip n next now enough =>
      cases result
      left
      rw [laws.plays s (a ++ b) hs, now]
      exact if_pos (by rw [length_append]; omega)
    | data room receive now some =>
      cases result
      rcases cut_cases room a b with same | ⟨short, whole, joined⟩
      -- the room is filled by the first part
      · left
        rw [← same] at some ⊢
        exact laws.round_data s (a ++ b) hs room receive now some
      -- all of the first part was taken, and the data go on in the second
      · right
        rw [whole] at some ⊢
        obtain ⟨receive', next, more⟩ := laws.dataMore s room receive hs now a short
        have fits : good (receive a) :=
          laws.data s room receive hs now a fun n h => Nat.le_of_lt (short n h)
        have rest := cut_length_pos _ b (laws.room (receive a) _ receive' fits next) nonempty
        refine ⟨rfl, .inl ⟨_, _, laws.round_data (receive a) b fits _ receive' next rest, ?_⟩⟩
        rw [laws.round_data s (a ++ b) hs room receive now (by rw [joined, length_append]; omega),
          joined, more, length_append]

/-! ### Input that is there -/

theorem parse_line (s s' : σ) (b : List α) (i : Nat) (hs : good s) (handle : List α → Round σ)
    (now : phase s = .line handle) (found : d.find b = some i)
    (taken : handle (b.take i) = .take s' (i + d.width)) :
    parse round s b = parse round s' (b.drop (i + d.width)) :=
  parse_take laws.consumes s s' b _ ((laws.round_line s b hs handle i now found).trans taken)

theorem parse_rejected (s s' : σ) (b : List α) (i n : Nat) (hs : good s) (handle : List α → Round σ)
    (now : phase s = .line handle) (found : d.find b = some i)
    (failed : handle (b.take i) = .fail s' n) : parse round s b = (s', b.drop n) :=
  parse_fail s s' b n ((laws.round_line s b hs handle i now found).trans failed)

theorem parse_data (s : σ) (x rest : List α) (hs : good s) (receive : List α → σ)
    (now : phase s = .data (some x.length) receive) (nonempty : x ≠ []) :
    parse round s (x ++ rest) = parse round (receive x) rest := by
  have all : cut (some x.length) (x ++ rest) = x := take_left
  have size : x.length ≠ 0 := fun zero => nonempty (length_eq_zero_iff.mp zero)
  have played := laws.round_data s (x ++ rest) hs _ receive now (by rw [all]; exact size)
  rw [parse_take laws.consumes s _ _ _ played, all, drop_left]

theorem parse_skip (s next : σ) (x rest : List α) (hs : good s)
    (now : phase s = .skip x.length next) : parse round s (x ++ rest) = parse round next rest := by
  have played : round s (x ++ rest) = .take next x.length := by
    rw [laws.plays s _ hs, now]
    exact if_pos (by simp)
  rw [parse_take laws.consumes s _ _ _ played, drop_left]

end Phased

end Cox.Lib.Resumable

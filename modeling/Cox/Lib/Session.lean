import Cox.Lib.Resumable

/-!
# Sessions over a resumable parser

A session reads message after message from one stream. Each complete message is
served, which restarts the parser for the next one or closes the session; a rejected
message closes it. A session is a resumable parser again, so its output does not
depend on how the stream was cut into pieces.
-/
namespace Cox.Lib.Resumable

/-- The parser, the output so far, and whether the session is over. -/
structure Session (σ ω : Type) where
  parser : σ
  out : ω
  closed : Bool

/-- What a session does with the outcomes of its parser. -/
structure Service (σ ω ν : Type) where
  complete : σ → Bool
  rejected : σ → Bool
  verdict : σ → ν
  serve : ω → σ → Session σ ω
  reject : ω → ν → ω

variable {σ α ω ν : Type}

namespace Service

variable (service : Service σ ω ν) (round : σ → List α → Round σ)

def turnDown (out : ω) (c : σ) : Session σ ω := ⟨c, service.reject out (service.verdict c), true⟩

/-- The next round of a session whose parser took input and is now `c`. -/
def goOn (out : ω) (c : σ) (n : Nat) : Round (Session σ ω) :=
  if service.complete c then
    if (service.serve out c).closed then .fail (service.serve out c) n
    else .take (service.serve out c) n
  else .take ⟨c, out, false⟩ n

def sessionRound (s : Session σ ω) (b : List α) : Round (Session σ ω) :=
  if s.closed then .stop s
  else match round s.parser b with
    | .stop c => .stop ⟨c, s.out, false⟩
    | .fail c n => .fail (service.turnDown s.out c) n
    | .take c n => service.goOn s.out c n

/-- What the session makes of the state in which its parser has stopped. -/
def turn (out : ω) (c : σ) : Session σ ω :=
  if service.rejected c then service.turnDown out c
  else if service.complete c then service.serve out c
  else ⟨c, out, false⟩

/-- A complete message stops the parser, and serving it restarts the parser. -/
structure LawfulService (good : σ → Prop) : Prop where
  parser : Lawful round good (fun c => service.rejected c = true) service.verdict
  completeStops : ∀ c b, service.complete c = true → round c b = .stop c
  notBoth : ∀ c, service.complete c = true → service.rejected c = false
  takeAccepts : ∀ p b c n, good p → round p b = .take c n → service.rejected c = false
  served : ∀ out c, good c → good (service.serve out c).parser ∧
    service.complete (service.serve out c).parser = false ∧
    service.rejected (service.serve out c).parser = false

section Rounds

variable {service round}

theorem sessionRound_closed (s : Session σ ω) (b : List α) (ended : s.closed = true) :
    service.sessionRound round s b = .stop s := by
  simp only [sessionRound, ended, if_true]

section Round

variable (s : Session σ ω) (c : σ) (b : List α)

theorem sessionRound_stop (going : s.closed = false) (played : round s.parser b = .stop c) :
    service.sessionRound round s b = .stop ⟨c, s.out, false⟩ := by
  simp only [sessionRound, going, played, Bool.false_eq_true, if_false]

theorem sessionRound_fail (n : Nat) (going : s.closed = false)
    (played : round s.parser b = .fail c n) :
    service.sessionRound round s b = .fail (service.turnDown s.out c) n := by
  simp only [sessionRound, going, played, Bool.false_eq_true, if_false]

theorem sessionRound_take (n : Nat) (going : s.closed = false)
    (played : round s.parser b = .take c n) :
    service.sessionRound round s b = service.goOn s.out c n := by
  simp only [sessionRound, going, played, Bool.false_eq_true, if_false]

end Round

/-- Everything a round of a session can do. -/
inductive Plays (service : Service σ ω ν) (round : σ → List α → Round σ) (s : Session σ ω)
    (b : List α) : Round (Session σ ω) → Prop where
  | ended : s.closed = true → Plays service round s b (.stop s)
  | wait (c : σ) : s.closed = false → round s.parser b = .stop c →
      Plays service round s b (.stop ⟨c, s.out, false⟩)
  | fail (c : σ) (n : Nat) : s.closed = false → round s.parser b = .fail c n →
      Plays service round s b (.fail (service.turnDown s.out c) n)
  | take (c : σ) (n : Nat) : s.closed = false → round s.parser b = .take c n →
      service.complete c = false → Plays service round s b (.take ⟨c, s.out, false⟩ n)
  | serve (c : σ) (n : Nat) : s.closed = false → round s.parser b = .take c n →
      service.complete c = true → (service.serve s.out c).closed = false →
      Plays service round s b (.take (service.serve s.out c) n)
  | close (c : σ) (n : Nat) : s.closed = false → round s.parser b = .take c n →
      service.complete c = true → (service.serve s.out c).closed = true →
      Plays service round s b (.fail (service.serve s.out c) n)

theorem sessionRound_plays (service : Service σ ω ν) (round : σ → List α → Round σ)
    (s : Session σ ω) (b : List α) :
    Plays service round s b (service.sessionRound round s b) := by
  cases going : s.closed with
  | true =>
    rw [sessionRound_closed s b going]
    exact .ended going
  | false =>
    cases played : round s.parser b with
    | stop c =>
      rw [sessionRound_stop s c b going played]
      exact .wait c going played
    | fail c n =>
      rw [sessionRound_fail s c b n going played]
      exact .fail c n going played
    -- whether the message is complete, and whether serving it ends the session
    | take c n =>
      rw [sessionRound_take s c b n going played]
      unfold goOn
      split_ifs with complete closed
      · exact .close c n going played complete closed
      · exact .serve c n going played complete (by simpa using closed)
      · exact .take c n going played (by simpa using complete)

end Rounds

namespace LawfulService

variable {service round} {good : σ → Prop}

section Laws

variable (laws : service.LawfulService round good)
include laws

theorem complete_more (p c : σ) (a b : List α) (n : Nat) (hp : good p)
    (played : round p a = .take c n) (complete : service.complete c = true) :
    round p (a ++ b) = .take c n := by
  by_cases empty : b = []
  · rw [empty, List.append_nil, played]
  rcases laws.parser.takeMore p a b c n hp empty played with same | ⟨_, next | failed⟩
  · exact same
  -- a complete message stops the parser: there is no second round to join with
  · obtain ⟨_, _, second, _⟩ := next
    rw [laws.completeStops c b complete] at second
    cases second
  · obtain ⟨_, _, _, _, second, _⟩ := failed
    rw [laws.completeStops c b complete] at second
    cases second

private theorem session_takeMore (s : Session σ ω) (a b : List α) (c : σ) (n : Nat)
    (hs : good s.parser) (nonempty : b ≠ []) (going : s.closed = false)
    (played : round s.parser a = .take c n) (unfinished : service.complete c = false) :
    service.sessionRound round s (a ++ b) = .take ⟨c, s.out, false⟩ n ∨
    (n = a.length ∧
      ((∃ s'' k, service.sessionRound round ⟨c, s.out, false⟩ b = .take s'' k ∧
          service.sessionRound round s (a ++ b) = .take s'' (n + k)) ∨
       (∃ t u i j, service.sessionRound round ⟨c, s.out, false⟩ b = .fail t i ∧
          service.sessionRound round s (a ++ b) = .fail u j ∧ u.out = t.out))) := by
  rcases laws.parser.takeMore s.parser a b c n hs nonempty played with same | ⟨whole, next | failed⟩
  -- the parser's round does not change, so neither does the session's
  · left
    rw [sessionRound_take s c (a ++ b) n going same, goOn, if_neg (by simp [unfinished])]
  · obtain ⟨c'', k, second, joined⟩ := next
    refine .inr ⟨whole, ?_⟩
    rw [sessionRound_take ⟨c, s.out, false⟩ c'' b k rfl second,
      sessionRound_take s c'' (a ++ b) (n + k) going joined]
    -- the joint round completes a message exactly when the second one does
    unfold goOn
    split_ifs
    · exact .inr ⟨_, _, _, _, rfl, rfl, rfl⟩
    · exact .inl ⟨_, _, rfl, rfl⟩
    · exact .inl ⟨_, _, rfl, rfl⟩
  · obtain ⟨t, u, i, j, second, joined, same⟩ := failed
    refine .inr ⟨whole, .inr ⟨_, _, i, j, sessionRound_fail ⟨c, s.out, false⟩ t b i rfl second,
      sessionRound_fail s u (a ++ b) j going joined, ?_⟩⟩
    simp only [turnDown, same]

/-- **Sessions are resumable**: a session obeys the laws of a resumable parser, with
its output as the verdict once it is closed. -/
theorem session_lawful :
    Lawful (service.sessionRound round) (fun s => good s.parser) (fun s => s.closed = true)
      (fun s => s.out) where
  consumes := by
    intro s b s' n played
    have plays := sessionRound_plays service round s b
    rw [played] at plays
    cases plays with
    | take c n _ inner | serve c n _ inner => exact laws.parser.consumes s.parser b c n inner
  goodTake := by
    intro s b s' n hs played
    have plays := sessionRound_plays service round s b
    rw [played] at plays
    cases plays with
    | take c n _ inner => exact laws.parser.goodTake s.parser b c n hs inner
    | serve c n _ inner =>
      exact (laws.served s.out c (laws.parser.goodTake s.parser b c n hs inner)).1
  goodFail := by
    intro s b s' n hs played
    have plays := sessionRound_plays service round s b
    rw [played] at plays
    cases plays with
    | fail c n _ inner => exact ⟨(laws.parser.goodFail s.parser b c n hs inner).1, rfl⟩
    | close c n _ inner _ closed =>
      exact ⟨(laws.served s.out c (laws.parser.goodTake s.parser b c n hs inner)).1, closed⟩
  stopSame := by
    intro s b s' hs played
    have plays := sessionRound_plays service round s b
    rw [played] at plays
    cases plays with
    | ended => rfl
    | wait c going inner =>
      rw [laws.parser.stopSame s.parser b c hs inner, ← going]
  rejectedStops := by
    intro s b ended
    exact sessionRound_closed s b ended
  failMore := by
    intro s a b s' n hs played
    have plays := sessionRound_plays service round s a
    rw [played] at plays
    cases plays with
    | fail c n going inner =>
      obtain ⟨c', m, again, same⟩ := laws.parser.failMore s.parser a b c n hs inner
      refine ⟨_, m, sessionRound_fail s c' (a ++ b) m going again, ?_⟩
      simp only [turnDown, same]
    | close c n going inner complete closed =>
      refine ⟨service.serve s.out c, n, ?_, rfl⟩
      rw [sessionRound_take s c (a ++ b) n going
        (laws.complete_more s.parser c a b n hs inner complete), goOn, if_pos complete, if_pos closed]
  takeMore := by
    intro s a b s' n hs nonempty played
    have plays := sessionRound_plays service round s a
    rw [played] at plays
    cases plays with
    | take c n going inner unfinished =>
      exact session_takeMore laws s a b c n hs nonempty going inner unfinished
    | serve c n going inner complete again =>
      left
      rw [sessionRound_take s c (a ++ b) n going
        (laws.complete_more s.parser c a b n hs inner complete), goOn, if_pos complete,
        if_neg (by simp [again])]

theorem parse_turn (p : σ) (out : ω) (b : List α) (hp : good p)
    (unfinished : service.complete p = false) (accepted : service.rejected p = false) :
    parse (service.sessionRound round) ⟨p, out, false⟩ b =
      parse (service.sessionRound round) (service.turn out (parse round p b).1)
        (parse round p b).2 := by
  have consumes := laws.session_lawful.consumes
  revert hp unfinished accepted
  -- over the rounds of the parser; the session plays the same ones until its parser stops
  induction p, b using parse_induction laws.parser.consumes with
  | stop p b c played =>
    intro hp unfinished accepted
    have same := laws.parser.stopSame p b c hp played
    subst same
    simp [parse_stop c c b played, turn, unfinished, accepted]
  | fail p b c n played =>
    intro hp _ _
    have rejected := (laws.parser.goodFail p b c n hp played).2
    rw [parse_fail p c b n played,
      parse_fail _ _ b n (sessionRound_fail ⟨p, out, false⟩ c b n rfl played), turn, if_pos rejected,
      parse_stop _ _ _ (sessionRound_closed _ _ rfl)]
  | take p b c n played ih =>
    intro hp _ _
    have hc := laws.parser.goodTake p b c n hp played
    have next : service.sessionRound round ⟨p, out, false⟩ b = service.goOn out c n :=
      sessionRound_take ⟨p, out, false⟩ c b n rfl played
    rw [parse_take laws.parser.consumes p c b n played]
    -- a round that completes the message is the last one before the turn
    by_cases complete : service.complete c = true
    · have accepted := laws.notBoth c complete
      rw [goOn, if_pos complete] at next
      rw [parse_stop c c _ (laws.completeStops c _ complete), turn, if_neg (by simp [accepted]),
        if_pos complete]
      split_ifs at next with closed
      · rw [parse_fail _ _ b n next, parse_stop _ _ _ (sessionRound_closed _ _ closed)]
      · exact parse_take consumes _ _ b n next
    · rw [goOn, if_neg complete] at next
      rw [parse_take consumes _ _ b n next]
      exact ih hc (by simpa using complete) (laws.takeAccepts p b c n hp played)

end Laws

/-- While a session is open its parser is in the middle of a message. -/
def Open (service : Service σ ω ν) (good : σ → Prop) (s : Session σ ω) : Prop :=
  good s.parser ∧ (s.closed = false →
    service.complete s.parser = false ∧ service.rejected s.parser = false)

theorem parse_open (laws : service.LawfulService round good) (s : Session σ ω) (b : List α)
    (hs : Open service good s) : Open service good (parse (service.sessionRound round) s b).1 := by
  have lawful := laws.session_lawful
  refine parse_preserves lawful.consumes ?_ ?_ ?_ s b hs
  · intro s b s' hs played
    rw [lawful.stopSame s b s' hs.1 played]
    exact hs
  · intro s b s' n hs played
    obtain ⟨kept, ended⟩ := lawful.goodFail s b s' n hs.1 played
    exact ⟨kept, fun going => by simp [ended] at going⟩
  · intro s b s' n hs played
    refine ⟨lawful.goodTake s b s' n hs.1 played, fun _ => ?_⟩
    have plays := sessionRound_plays service round s b
    rw [played] at plays
    cases plays with
    | take c n _ inner unfinished =>
      exact ⟨unfinished, laws.takeAccepts s.parser b c n hs.1 inner⟩
    | serve c n _ inner =>
      exact (laws.served s.out c (laws.parser.goodTake s.parser b c n hs.1 inner)).2

end LawfulService

end Service

end Cox.Lib.Resumable

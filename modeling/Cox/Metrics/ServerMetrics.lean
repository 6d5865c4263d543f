import Mathlib.Data.Int.ModEq
import Mathlib.Data.List.Nodup
import Mathlib.Data.List.Perm.Subperm
import Mathlib.Logic.Function.Basic
import Cox.Lib.Machine

/-!
# Metrics of the connections of a server

`installServerMetrics` of metrics/server_metrics.cc: the connection callback that it chains
before the application's, run for connections on several io loops.

The callback asks `connected()` twice, once under the lock of the set of live names and once
after it; `shutdown` or `forceClose` on another thread may come between. Each update of a
counter is a step of its own. What happens under the lock is one step: the set is not touched
without the lock, and the state is loaded once there. The application's callback comes last
and touches no metric; what it does to connections is further events.

The counters of connections count their increments; the value of a counter, a `uint64_t`, is
that number modulo 2⁶⁴. The byte counts wrap.
-/
namespace Cox.Metrics

open Cox.Lib Machine List Function

/-- What `connected()` depends on: `kConnecting`, `kConnected`, or a later state. -/
inductive ConnState where
  | fresh
  | up
  | down
  deriving DecidableEq, Repr

/-- Where a callback stands: the step that it takes next. -/
inductive Phase where
  /-- The section under the lock. -/
  | dedup
  /-- The second call of `connected()`. -/
  | recheck (accountDisconnect : Bool)
  | accept
  | raise
  | close
  | lower
  | foldIn
  | foldOut
  deriving DecidableEq, Repr

variable {N L : Type} [DecidableEq N] [DecidableEq L]

/-- The connections `N` of a server, the loops `L` they run on, and the instruments. -/
structure ServerMetrics (N L : Type) where
  state : N → ConnState := fun _ => .fresh
  bytesRead : N → UInt64 := fun _ => 0
  bytesWritten : N → UInt64 := fun _ => 0
  /-- The callback that a loop is in, with its connection. -/
  active : L → Option (N × Phase) := fun _ => none
  /-- The names in `dedup->live`. -/
  dedupLive : N → Bool := fun _ => false
  accepted : Nat := 0
  closed : Nat := 0
  live : Int := 0
  bytesIn : UInt64 := 0
  bytesOut : UInt64 := 0
  -- the history: for whom each instrument was updated
  accepts : List N := []
  raises : List N := []
  closes : List N := []
  lowers : List N := []
  foldedIn : List (N × UInt64) := []
  foldedOut : List (N × UInt64) := []

namespace ServerMetrics

def goTo (m : ServerMetrics N L) (l : L) (n : N) (phase : Phase) : ServerMetrics N L :=
  { m with active := Function.update m.active l (some (n, phase)) }

def finish (m : ServerMetrics N L) (l : L) : ServerMetrics N L :=
  { m with active := Function.update m.active l none }

def advance (m : ServerMetrics N L) (l : L) (n : N) : Phase → ServerMetrics N L
  | .dedup =>
    if m.state n = .up then
      { m with dedupLive := Function.update m.dedupLive n true }.goTo l n (.recheck false)
    else
      { m with dedupLive := Function.update m.dedupLive n false }.goTo l n
        (.recheck (m.dedupLive n))
  | .recheck accountDisconnect =>
    if m.state n = .up then m.goTo l n .accept
    else if accountDisconnect then m.goTo l n .close
    else m.finish l
  | .accept =>
    { m with accepted := m.accepted + 1, accepts := n :: m.accepts }.goTo l n .raise
  | .raise => { m with live := m.live + 1, raises := n :: m.raises }.finish l
  | .close => { m with closed := m.closed + 1, closes := n :: m.closes }.goTo l n .lower
  | .lower => { m with live := m.live - 1, lowers := n :: m.lowers }.goTo l n .foldIn
  | .foldIn =>
    { m with
      bytesIn := m.bytesIn + m.bytesRead n
      foldedIn := (n, m.bytesRead n) :: m.foldedIn }.goTo l n .foldOut
  | .foldOut =>
    { m with
      bytesOut := m.bytesOut + m.bytesWritten n
      foldedOut := (n, m.bytesWritten n) :: m.foldedOut }.finish l

def initial : ServerMetrics N L := {}

inductive Event (N L : Type) where
  /-- `connectEstablished` stores `kConnected` and invokes the callback. -/
  | establish (n : N)
  /-- `handleClose` or `connectDestroyed` stores `kDisconnected` and invokes the callback. -/
  | disconnect (n : N)
  /-- Another thread stores `kDisconnecting`. -/
  | drop (n : N)
  | transfer (n : N) (read wrote : UInt64)
  /-- The callback on a loop takes its next step. -/
  | proceed (l : L)

/-- `loopOf` is the loop of a connection, on which its callbacks run. -/
def step (loopOf : N → L) (m : ServerMetrics N L) : Event N L → Option (ServerMetrics N L)
  | .establish n =>
    if m.state n = .fresh ∧ m.active (loopOf n) = none then
      some ({ m with state := Function.update m.state n .up }.goTo (loopOf n) n .dedup)
    else none
  | .disconnect n =>
    if m.state n ≠ .fresh ∧ m.active (loopOf n) = none then
      some ({ m with state := Function.update m.state n .down }.goTo (loopOf n) n .dedup)
    else none
  | .drop n =>
    if m.state n ≠ .fresh then some { m with state := Function.update m.state n .down } else none
  | .transfer n read wrote =>
    some { m with
      bytesRead := Function.update m.bytesRead n (m.bytesRead n + read)
      bytesWritten := Function.update m.bytesWritten n (m.bytesWritten n + wrote) }
  | .proceed l =>
    match m.active l with
    | some (n, phase) => some (m.advance l n phase)
    | none => none

/-! ### The account of one connection -/

/-- How far the callback for a connection has come, if its loop is in one. -/
def phaseOf (loopOf : N → L) (m : ServerMetrics N L) (n : N) : Option Phase :=
  match m.active (loopOf n) with
  | some (k, phase) => if k = n then some phase else none
  | none => none

/-- What concerns one connection: its state, its callback, whether its name is in the set, and
how often each instrument was updated for it. -/
structure Account where
  state : ConnState
  phase : Option Phase
  known : Bool
  accepted : Nat
  raised : Nat
  closed : Nat
  lowered : Nat
  foldedIn : Nat
  foldedOut : Nat

def account (loopOf : N → L) (m : ServerMetrics N L) (n : N) : Account where
  state := m.state n
  phase := phaseOf loopOf m n
  known := m.dedupLive n
  accepted := m.accepts.count n
  raised := m.raises.count n
  closed := m.closes.count n
  lowered := m.lowers.count n
  foldedIn := (m.foldedIn.map Prod.fst).count n
  foldedOut := (m.foldedOut.map Prod.fst).count n

namespace Account

/-- What can happen to the account of a connection. A callback that finds the connection down
and has nothing to account for ignores it; `Ignored` limits where that may happen. -/
inductive Step (Ignored : Account → Prop) (a : Account) : Account → Prop where
  | establish (fresh : a.state = .fresh) (idle : a.phase = none) :
      Step Ignored a { a with state := .up, phase := some .dedup }
  | disconnect (begun : a.state ≠ .fresh) (idle : a.phase = none) :
      Step Ignored a { a with state := .down, phase := some .dedup }
  | drop (begun : a.state ≠ .fresh) : Step Ignored a { a with state := .down }
  | insert (now : a.phase = some .dedup) (up : a.state = .up) :
      Step Ignored a { a with known := true, phase := some (.recheck false) }
  | erase (now : a.phase = some .dedup) (down : a.state ≠ .up) :
      Step Ignored a { a with known := false, phase := some (.recheck a.known) }
  | accepts (account : Bool) (now : a.phase = some (.recheck account)) (up : a.state = .up) :
      Step Ignored a { a with phase := some .accept }
  | closes (now : a.phase = some (.recheck true)) (down : a.state ≠ .up) :
      Step Ignored a { a with phase := some .close }
  | ignores (now : a.phase = some (.recheck false)) (down : a.state ≠ .up) (may : Ignored a) :
      Step Ignored a { a with phase := none }
  | accept (now : a.phase = some .accept) :
      Step Ignored a { a with accepted := a.accepted + 1, phase := some .raise }
  | raise (now : a.phase = some .raise) :
      Step Ignored a { a with raised := a.raised + 1, phase := none }
  | close (now : a.phase = some .close) :
      Step Ignored a { a with closed := a.closed + 1, phase := some .lower }
  | lower (now : a.phase = some .lower) :
      Step Ignored a { a with lowered := a.lowered + 1, phase := some .foldIn }
  | foldIn (now : a.phase = some .foldIn) :
      Step Ignored a { a with foldedIn := a.foldedIn + 1, phase := some .foldOut }
  | foldOut (now : a.phase = some .foldOut) :
      Step Ignored a { a with foldedOut := a.foldedOut + 1, phase := none }

def doing (a : Account) (phase : Phase) : Nat := if a.phase = some phase then 1 else 0

/-- One if the callback is about to find the connection up and to insert its name. -/
def entering (a : Account) : Nat := if a.phase = some .dedup ∧ a.state = .up then 1 else 0

/-- The updates for a connection come one after the other, and one disconnect at most is
accounted: the right to it is about to enter the set, in the set, taken out, or used. -/
structure Sound (a : Account) : Prop where
  accepted : a.accepted = a.raised + a.doing .raise
  closed : a.closed = a.lowered + a.doing .lower
  lowered : a.lowered = a.foldedIn + a.doing .foldIn
  folded : a.foldedIn = a.foldedOut + a.doing .foldOut
  once : a.entering + a.known.toNat + a.doing (.recheck true) + a.doing .close + a.closed ≤ 1
  fresh : a.state = .fresh → a.phase = none ∧ a.known = false ∧ a.closed = 0
  gone : a.phase = some (.recheck true) → a.state = .down

/-- A connection whose disconnect is accounted, or may still be, has been counted as live. -/
structure Paid (a : Account) : Prop where
  known : a.known = true → 1 ≤ a.raised ∨ a.phase = some (.recheck false) ∨
    a.phase = some .accept ∨ a.phase = some .raise
  closing : a.phase = some (.recheck true) ∨ a.phase = some .close ∨ 1 ≤ a.closed → 1 ≤ a.raised

section Step

variable {Ignored : Account → Prop} {a b : Account}

theorem Sound.step (sound : Sound a) (step : Step Ignored a b) : Sound b where
  accepted := by
    have before := sound.accepted
    clear sound
    cases step <;> simp_all [doing]
  closed := by
    have before := sound.closed
    clear sound
    cases step <;> simp_all [doing]
  lowered := by
    have before := sound.lowered
    clear sound
    cases step <;> simp_all [doing]
  folded := by
    have before := sound.folded
    clear sound
    cases step <;> simp_all [doing]
  once := by
    obtain ⟨_, _, _, _, once, fresh, _⟩ := sound
    cases step with
    | erase now down =>
      -- the right to account goes from the set to the callback
      cases known : a.known
      all_goals simp_all [doing, entering]
    | _ => simp_all [doing, entering] <;> omega
  fresh := by
    have before := sound.fresh
    clear sound
    cases step <;> simp_all
  gone := by
    have fresh := sound.fresh
    have before := sound.gone
    clear sound
    cases step with
    | erase now down => cases state : a.state <;> simp_all
    | _ => simp_all

theorem Paid.step (paid : Paid a) (step : Step (fun a => a.known = false) a b) : Paid b := by
  obtain ⟨known, closing⟩ := paid
  cases step with
  | accepts account now up => cases account <;> constructor <;> simp_all
  | erase now down =>
    -- only a name that was in the set is accounted for
    refine ⟨by simp, fun closes => ?_⟩
    rcases closes with taken | closes | closes
    · simpa [now] using known (by simpa using taken)
    · cases closes
    · exact closing (.inr (.inr closes))
  | _ => constructor <;> simp_all

end Step

end Account

/-! ### Accounts along a run -/

section Accounts

variable {loopOf : N → L} {m m' : ServerMetrics N L}

/-- A callback runs on the loop of its connection. -/
def OnLoop (loopOf : N → L) (m : ServerMetrics N L) : Prop :=
  ∀ l n phase, m.active l = some (n, phase) → loopOf n = l

omit [DecidableEq L] in
theorem phaseOf_self (l : L) (n : N) (here : loopOf n = l) (phase : Option Phase)
    (active : m.active l = phase.map (n, ·)) : phaseOf loopOf m n = phase := by
  unfold phaseOf
  rw [here, active]
  cases phase <;> simp

theorem phaseOf_other (m' : ServerMetrics N L) (l : L) (n k : N) (other : k ≠ n)
    (now : Option Phase) (free : ∀ x, m.active l = some x → x.1 = n)
    (active : m'.active = update m.active l (now.map (n, ·))) :
    phaseOf loopOf m' k = phaseOf loopOf m k := by
  unfold phaseOf
  rw [active]
  by_cases here : loopOf k = l
  · have before : (match m.active l with
        | some (j, phase) => if j = k then some phase else none
        | none => none) = none := by
      split
      next j phase found =>
        rw [if_neg]
        rintro rfl
        exact other (free _ found)
      · rfl
    rw [here, before, update_self]
    cases now with
    | none => rfl
    | some phase => simp [Ne.symm other]
  · rw [update_of_ne here]

theorem advance_active (l : L) (n : N) (phase : Phase) :
    ∃ now : Option Phase,
      (m.advance l n phase).active = update m.active l (now.map (n, ·)) := by
  cases phase <;> simp only [advance]
  case dedup => split <;> exact ⟨some _, rfl⟩
  case recheck =>
    split
    · exact ⟨some _, rfl⟩
    · split
      · exact ⟨some _, rfl⟩
      · exact ⟨none, rfl⟩
  case raise | foldOut => exact ⟨none, rfl⟩
  all_goals exact ⟨some _, rfl⟩

theorem account_advance_other (l : L) (n k : N) (other : k ≠ n) (phase : Phase)
    (now : m.active l = some (n, phase)) :
    account loopOf (m.advance l n phase) k = account loopOf m k := by
  obtain ⟨after, active⟩ := advance_active (m := m) l n phase
  have same : phaseOf loopOf (m.advance l n phase) k = phaseOf loopOf m k :=
    phaseOf_other _ l n k other after (by rw [now]; rintro _ ⟨⟩; rfl) active
  unfold account
  rw [same]
  cases phase <;> simp only [advance]
  case dedup => split <;> simp [goTo, update_of_ne other]
  case recheck =>
    split
    · rfl
    · split <;> rfl
  all_goals simp [goTo, finish, count_cons_of_ne (Ne.symm other)]

theorem account_goTo (l : L) (n : N) (here : loopOf n = l) (phase : Phase) :
    account loopOf (m.goTo l n phase) n = { account loopOf m n with phase := some phase } := by
  have now := phaseOf_self (m := m.goTo l n phase) l n here (some phase) (by simp [goTo])
  unfold account
  rw [now]
  rfl

theorem account_finish (l : L) (n : N) (here : loopOf n = l) :
    account loopOf (m.finish l) n = { account loopOf m n with phase := none } := by
  have now := phaseOf_self (m := m.finish l) l n here none (by simp [finish])
  unfold account
  rw [now]
  rfl

theorem account_advance_self {Ignored : Account → Prop} (l : L) (n : N) (phase : Phase)
    (here : loopOf n = l) (active : m.active l = some (n, phase))
    (may : phase = .recheck false → m.state n ≠ .up → Ignored (account loopOf m n)) :
    Account.Step Ignored (account loopOf m n) (account loopOf (m.advance l n phase) n) := by
  have now : (account loopOf m n).phase = some phase := phaseOf_self l n here (some phase) active
  have goes (d : ServerMetrics N L) (next : Phase) (b : Account)
      (stepped : Account.Step Ignored (account loopOf m n) b)
      (same : { account loopOf d n with phase := some next } = b) :
      Account.Step Ignored (account loopOf m n) (account loopOf (d.goTo l n next) n) := by
    rw [account_goTo l n here, same]
    exact stepped
  have ends (d : ServerMetrics N L) (b : Account)
      (stepped : Account.Step Ignored (account loopOf m n) b)
      (same : { account loopOf d n with phase := none } = b) :
      Account.Step Ignored (account loopOf m n) (account loopOf (d.finish l) n) := by
    rw [account_finish l n here, same]
    exact stepped
  cases phase with
  | dedup =>
    simp only [advance]
    split
    next up => exact goes _ _ _ (.insert now up) (by simp [account])
    next down => exact goes _ _ _ (.erase now down) (by simp [account])
  | recheck accountDisconnect =>
    simp only [advance]
    split
    next up => exact goes _ _ _ (.accepts accountDisconnect now up) rfl
    next down =>
      cases accountDisconnect with
      | true => exact goes _ _ _ (.closes now down) rfl
      | false => exact ends _ _ (.ignores now down (may rfl down)) rfl
  | accept => exact goes _ _ _ (.accept now) (by simp [account])
  | raise => exact ends _ _ (.raise now) (by simp [account])
  | close => exact goes _ _ _ (.close now) (by simp [account])
  | lower => exact goes _ _ _ (.lower now) (by simp [account])
  | foldIn => exact goes _ _ _ (.foldIn now) (by simp [account])
  | foldOut => exact ends _ _ (.foldOut now) (by simp [account])

theorem account_begins (n k : N) (state : ConnState) (idle : m.active (loopOf n) = none) :
    account loopOf ({ m with state := update m.state n state }.goTo (loopOf n) n .dedup) k =
      if k = n then { account loopOf m k with state, phase := some .dedup }
      else account loopOf m k := by
  split
  next same =>
    rw [same, account_goTo (loopOf n) n rfl]
    simp [account]
  next other =>
    have same : phaseOf loopOf
        ({ m with state := update m.state n state }.goTo (loopOf n) n .dedup) k =
        phaseOf loopOf m k :=
      phaseOf_other _ (loopOf n) n k other (some .dedup) (by simp [idle]) rfl
    unfold account
    rw [same]
    simp [goTo, update_of_ne other]

theorem account_step (Ignored : Account → Prop) (onLoop : OnLoop loopOf m) (e : Event N L)
    (stepped : m.step loopOf e = some m')
    (may : ∀ l n, e = .proceed l → m.active l = some (n, .recheck false) → m.state n ≠ .up →
      Ignored (account loopOf m n)) (k : N) :
    account loopOf m' k = account loopOf m k ∨
      Account.Step Ignored (account loopOf m k) (account loopOf m' k) := by
  have rests (n : N) (idle : m.active (loopOf n) = none) : (account loopOf m n).phase = none :=
    phaseOf_self (loopOf n) n rfl none idle
  cases e with
  | establish n =>
    simp only [step] at stepped
    split at stepped <;> cases stepped
    next fresh =>
      rw [account_begins n k .up fresh.2]
      split
      next same => exact .inr (.establish (same ▸ fresh.1) (same ▸ rests n fresh.2))
      next => exact .inl rfl
  | disconnect n =>
    simp only [step] at stepped
    split at stepped <;> cases stepped
    next begun =>
      rw [account_begins n k .down begun.2]
      split
      next same => exact .inr (.disconnect (same ▸ begun.1) (same ▸ rests n begun.2))
      next => exact .inl rfl
  | drop n =>
    simp only [step] at stepped
    split at stepped <;> cases stepped
    next begun =>
      by_cases same : k = n
      · subst same
        have dropped : Account.Step Ignored (account loopOf m k) _ := .drop begun
        right
        simpa [account, phaseOf] using dropped
      · left
        simp [account, phaseOf, update_of_ne same]
  | transfer n read wrote =>
    cases stepped
    exact .inl rfl
  | proceed l =>
    simp only [step] at stepped
    split at stepped <;> cases stepped
    next n phase active =>
      by_cases same : k = n
      · subst same
        refine .inr (account_advance_self l k phase (onLoop l k phase active) active ?_)
        rintro rfl down
        exact may l k rfl active down
      · exact .inl (account_advance_other l n k same phase active)

theorem OnLoop.step (onLoop : OnLoop loopOf m) (e : Event N L) (stepped : m.step loopOf e = some m') :
    OnLoop loopOf m' := by
  have begins (d : ServerMetrics N L) (l : L) (n : N) (now : Option Phase) (here : loopOf n = l)
      (active : d.active = update m.active l (now.map (n, ·))) : OnLoop loopOf d := by
    intro l' n' phase found
    rw [active, update_apply] at found
    split at found
    next same =>
      cases now with
      | none => cases found
      | some now =>
        cases found
        rw [here, same]
    · exact onLoop l' n' phase found
  cases e with
  | establish n | disconnect n =>
    simp only [ServerMetrics.step] at stepped
    split at stepped <;> cases stepped
    exact begins _ (loopOf n) n (some .dedup) rfl rfl
  | drop n =>
    simp only [ServerMetrics.step] at stepped
    split at stepped <;> cases stepped
    exact onLoop
  | transfer n read wrote =>
    cases stepped
    exact onLoop
  | proceed l =>
    simp only [ServerMetrics.step] at stepped
    split at stepped <;> cases stepped
    next n phase found =>
      obtain ⟨now, active⟩ := advance_active (m := m) l n phase
      exact begins _ l n now (onLoop l n phase found) active

end Accounts

/-! ### The instruments -/

def total (folded : List (N × UInt64)) : UInt64 := folded.foldr (fun entry sum => sum + entry.2) 0

structure Counted (m : ServerMetrics N L) : Prop where
  accepted : m.accepted = m.accepts.length
  closed : m.closed = m.closes.length
  live : m.live = (m.raises.length : Int) - m.lowers.length
  bytesIn : m.bytesIn = total m.foldedIn
  bytesOut : m.bytesOut = total m.foldedOut

theorem Counted.step {loopOf : N → L} {m m' : ServerMetrics N L} (counted : Counted m)
    (e : Event N L) (stepped : m.step loopOf e = some m') : Counted m' := by
  obtain ⟨accepted, closed, live, bytesIn, bytesOut⟩ := counted
  cases e with
  | establish n | disconnect n | drop n =>
    simp only [ServerMetrics.step] at stepped
    split at stepped <;> cases stepped
    exact ⟨accepted, closed, live, bytesIn, bytesOut⟩
  | transfer n read wrote =>
    cases stepped
    exact ⟨accepted, closed, live, bytesIn, bytesOut⟩
  | proceed l =>
    simp only [ServerMetrics.step] at stepped
    split at stepped <;> cases stepped
    next n phase active =>
      cases phase with
      | dedup =>
        simp only [advance]
        split <;> exact ⟨accepted, closed, live, bytesIn, bytesOut⟩
      | recheck accountDisconnect =>
        simp only [advance]
        split
        · exact ⟨accepted, closed, live, bytesIn, bytesOut⟩
        · split <;> exact ⟨accepted, closed, live, bytesIn, bytesOut⟩
      | accept => exact ⟨congrArg (· + 1) accepted, closed, live, bytesIn, bytesOut⟩
      | close => exact ⟨accepted, congrArg (· + 1) closed, live, bytesIn, bytesOut⟩
      | raise =>
        refine ⟨accepted, closed, ?_, bytesIn, bytesOut⟩
        simp only [advance, finish, length_cons]
        omega
      | lower =>
        refine ⟨accepted, closed, ?_, bytesIn, bytesOut⟩
        simp only [advance, goTo, length_cons]
        omega
      | foldIn => exact ⟨accepted, closed, live, congrArg (· + m.bytesRead n) bytesIn, bytesOut⟩
      | foldOut => exact ⟨accepted, closed, live, bytesIn, congrArg (· + m.bytesWritten n) bytesOut⟩

/-- No callback is between its two updates of a connect, or of a disconnect. -/
def NoneHalfway (m : ServerMetrics N L) : Prop :=
  ∀ l n, m.active l ≠ some (n, .raise) ∧ m.active l ≠ some (n, .lower)

structure Consistent (m : ServerMetrics N L) : Prop where
  live : NoneHalfway m → m.live = (m.accepted : Int) - m.closed
  nonneg : 0 ≤ m.live
  bytesIn : m.bytesIn = total m.foldedIn ∧ (m.foldedIn.map Prod.fst).Nodup
  bytesOut : m.bytesOut = total m.foldedOut ∧ (m.foldedOut.map Prod.fst).Nodup

/-- A callback that has found the connection up, and so has inserted its name, finds it up the
second time. -/
def ReadsAgree (m : ServerMetrics N L) : Event N L → Prop
  | .proceed l => ∀ x ∈ m.active l,
      x.2 = .recheck false → m.dedupLive x.1 = true → m.state x.1 = .up
  | _ => True

instance (m : ServerMetrics N L) (e : Event N L) : Decidable (ReadsAgree m e) := by
  cases e <;> unfold ReadsAgree <;> infer_instance

structure Kept (loopOf : N → L) (m : ServerMetrics N L) : Prop where
  onLoop : OnLoop loopOf m
  counted : Counted m
  sound : ∀ n, (account loopOf m n).Sound

section Run

variable {loopOf : N → L} {m m' : ServerMetrics N L}

theorem Kept.step (kept : Kept loopOf m) (e : Event N L) (stepped : m.step loopOf e = some m') :
    Kept loopOf m' := by
  refine ⟨kept.onLoop.step e stepped, kept.counted.step e stepped, fun n => ?_⟩
  rcases account_step (fun _ => True) kept.onLoop e stepped (fun _ _ _ _ _ => trivial) n with
    same | moves
  · rw [same]
    exact kept.sound n
  · exact (kept.sound n).step moves

theorem paid_step (onLoop : OnLoop loopOf m) (paid : ∀ n, (account loopOf m n).Paid)
    (e : Event N L) (agree : ReadsAgree m e) (stepped : m.step loopOf e = some m') (n : N) :
    (account loopOf m' n).Paid := by
  have moved := account_step (fun a => a.known = false) onLoop e stepped (by
    rintro l k rfl active down
    by_contra known
    exact down (agree (k, .recheck false) active rfl (by simpa [account] using known)))
  rcases moved n with same | moves
  · rw [same]
    exact paid n
  · exact (paid n).step moves

omit [DecidableEq L] in
theorem Kept.live (kept : Kept loopOf m) (noneHalfway : NoneHalfway m) :
    m.live = (m.accepted : Int) - m.closed := by
  have idle (n : N) (phase : Phase) (halfway : phase = .raise ∨ phase = .lower) :
      (account loopOf m n).doing phase = 0 := by
    unfold Account.doing
    rw [if_neg]
    intro now
    have active : m.active (loopOf n) = some (n, phase) := by
      revert now
      simp only [account, phaseOf]
      split
      next k found active =>
        split
        next same =>
          intro now
          cases now
          rw [active, same]
        · simp
      · simp
    rcases halfway with rfl | rfl
    · exact (noneHalfway _ n).1 active
    · exact (noneHalfway _ n).2 active
  have accepts : m.accepts.Perm m.raises := by
    refine perm_iff_count.mpr fun n => ?_
    have sound := (kept.sound n).accepted
    rw [idle n .raise (.inl rfl)] at sound
    exact sound
  have closes : m.closes.Perm m.lowers := by
    refine perm_iff_count.mpr fun n => ?_
    have sound := (kept.sound n).closed
    rw [idle n .lower (.inr rfl)] at sound
    exact sound
  rw [kept.counted.live, kept.counted.accepted, kept.counted.closed, accepts.length_eq,
    closes.length_eq]

omit [DecidableEq L] in
theorem Kept.nonneg (kept : Kept loopOf m) (paid : ∀ n, (account loopOf m n).Paid) :
    0 ≤ m.live := by
  have covered : m.lowers.Subperm m.raises := by
    refine subperm_ext_iff.mpr fun n member => ?_
    have lowered : 1 ≤ m.lowers.count n := count_pos_iff.mpr member
    have closed : m.closes.count n = m.lowers.count n + _ := (kept.sound n).closed
    have once := (kept.sound n).once
    have raised : 1 ≤ m.raises.count n := (paid n).closing (.inr (.inr (by
      show 1 ≤ m.closes.count n
      omega)))
    have most : m.closes.count n ≤ 1 := by
      have closes : (account loopOf m n).closed = m.closes.count n := rfl
      omega
    omega
  have shorter := covered.length_le
  rw [kept.counted.live]
  omega

omit [DecidableEq L] in
theorem Kept.foldedOnce (kept : Kept loopOf m) :
    (m.foldedIn.map Prod.fst).Nodup ∧ (m.foldedOut.map Prod.fst).Nodup := by
  have most (n : N) : (m.foldedIn.map Prod.fst).count n ≤ 1 ∧
      (m.foldedOut.map Prod.fst).count n ≤ 1 := by
    have foldedIn : (account loopOf m n).foldedIn = (m.foldedIn.map Prod.fst).count n := rfl
    have foldedOut : (account loopOf m n).foldedOut = (m.foldedOut.map Prod.fst).count n := rfl
    have sound := kept.sound n
    have folded := sound.folded
    have lowered := sound.lowered
    have closed := sound.closed
    have once := sound.once
    omega
  exact ⟨nodup_iff_count_le_one.mpr fun n => (most n).1,
    nodup_iff_count_le_one.mpr fun n => (most n).2⟩

omit [DecidableEq L] in
theorem Kept.consistent (kept : Kept loopOf m) (paid : ∀ n, (account loopOf m n).Paid) :
    Consistent m where
  live := kept.live
  nonneg := kept.nonneg paid
  bytesIn := ⟨kept.counted.bytesIn, kept.foldedOnce.1⟩
  bytesOut := ⟨kept.counted.bytesOut, kept.foldedOnce.2⟩

end Run

omit [DecidableEq L] in
theorem kept_initial (loopOf : N → L) : Kept loopOf initial where
  onLoop := by simp [OnLoop, initial]
  counted := ⟨rfl, rfl, rfl, rfl, rfl⟩
  sound := by
    intro n
    constructor <;> simp [account, phaseOf, initial, Account.doing, Account.entering]

omit [DecidableEq L] in
theorem paid_initial (loopOf : N → L) (n : N) : (account loopOf initial n).Paid := by
  constructor <;> simp [account, phaseOf, initial]

/-- The instruments balance when no callback is half-way, their values modulo 2⁶⁴ as well, and
the byte counters are the sums of what was folded in, once for a connection at most. -/
structure Balanced (m : ServerMetrics N L) : Prop where
  live : NoneHalfway m → m.live = (m.accepted : Int) - m.closed
  values : NoneHalfway m →
    m.live ≡ (m.accepted % 2 ^ 64 : Nat) - (m.closed % 2 ^ 64 : Nat) [ZMOD 2 ^ 64]
  bytesIn : m.bytesIn = total m.foldedIn ∧ (m.foldedIn.map Prod.fst).Nodup
  bytesOut : m.bytesOut = total m.foldedOut ∧ (m.foldedOut.map Prod.fst).Nodup

omit [DecidableEq L] in
theorem Kept.balanced {loopOf : N → L} {m : ServerMetrics N L} (kept : Kept loopOf m) : Balanced m where
  live := kept.live
  values := by
    intro noneHalfway
    rw [kept.live noneHalfway, Int.ModEq]
    omega
  bytesIn := ⟨kept.counted.bytesIn, kept.foldedOnce.1⟩
  bytesOut := ⟨kept.counted.bytesOut, kept.foldedOnce.2⟩

/-- Whatever the loops and the other threads do. -/
theorem balanced_always (loopOf : N → L) (events : List (Event N L)) :
    Always (step loopOf) Balanced initial events := by
  have kept : Always (step loopOf) (Kept loopOf) initial events := by
    refine always_of_keeps (fun m e m' kept stepped => ?_) initial events (kept_initial loopOf)
    exact kept.step e stepped
  exact Always.mono (fun _ kept => kept.balanced) initial events kept

/-- **The metrics are consistent** along every run in which each callback that first finds
its connection up finds it up again, whatever the loops and the other threads do. -/
theorem consistent_always (loopOf : N → L) (events : List (Event N L))
    (agree : Meets (step loopOf) ReadsAgree initial events) :
    Always (step loopOf) Consistent initial events := by
  have kept : Always (step loopOf)
      (fun m => Kept loopOf m ∧ ∀ n, (account loopOf m n).Paid) initial events := by
    refine always_of_meets (fun m e m' kept agree stepped => ?_) initial events
      ⟨kept_initial loopOf, paid_initial loopOf⟩ agree
    exact ⟨kept.1.step e stepped, paid_step kept.1.onLoop kept.2 e agree stepped⟩
  exact Always.mono (fun _ kept => kept.1.consistent kept.2) initial events kept

/-- Two connections on two loops; one of them is dropped by another thread, and its
disconnect is announced twice. -/
def droppedOnce : List (Event Nat Nat) :=
  [.establish 1, .establish 2, .proceed 1, .proceed 2, .proceed 2, .proceed 1, .proceed 1,
    .proceed 2, .proceed 2, .proceed 1, .transfer 1 10 20, .drop 1,
    .disconnect 1, .proceed 1, .proceed 1, .proceed 1, .proceed 1, .proceed 1, .proceed 1,
    .disconnect 1, .proceed 1, .proceed 1]

theorem consistent_droppedOnce :
    Meets (step id) ReadsAgree initial droppedOnce ∧
      Always (step id) Consistent initial droppedOnce ∧
      (run (step id) initial droppedOnce).map
          (fun m => (m.accepted, m.closed, m.live, m.foldedIn)) = some (2, 1, 1, [(1, 10)]) :=
  have agree : Meets (step id) ReadsAgree initial droppedOnce := by decide +kernel
  ⟨agree, consistent_always id droppedOnce agree, by decide +kernel⟩

/-- Another thread drops the connection between the two readings of its connect callback. -/
def droppedBetween : List (Event Nat Nat) :=
  [.establish 1, .proceed 1, .drop 1, .proceed 1,
    .disconnect 1, .proceed 1, .proceed 1, .proceed 1, .proceed 1, .proceed 1, .proceed 1]

/-- The connection is closed without having been accepted, and the gauge is below zero. -/
theorem droppedBetween_negative :
    ¬Always (step id) Consistent initial droppedBetween ∧
      (run (step id) initial droppedBetween).map
          (fun m => (m.accepted, m.closed, m.live, m.active 1)) = some (0, 1, -1, none) := by
  refine ⟨fun always => ?_, by decide +kernel⟩
  have nonneg := Always.mono (fun _ consistent => Consistent.nonneg consistent) _ _ always
  exact absurd nonneg (by decide +kernel)

-- A callback has finished on loop 1 while the one on loop 2 is between its two updates.
example : (run (step id) initial [.establish 1, .establish 2, .proceed 1, .proceed 2, .proceed 2,
    .proceed 2, .proceed 1, .proceed 1, .proceed 1]).map
    (fun m => (m.active 1, m.active 2, m.accepted, m.closed, m.live)) =
      some ((none, some (2, .raise), 2, 0, 1) : Option (Nat × Phase) × _) := by
  decide +kernel

end ServerMetrics
end Cox.Metrics

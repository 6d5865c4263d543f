import Cox.Net.Connector

/-!
# The sockets of the connector

While it is connecting, the connector should watch one open socket, and otherwise own none.
Nothing in `connect` looks at the state, though: a second `start` replaces the channel of
the attempt in progress, and `restart` forgets it. The destruction of a channel is put off
to a task, which destroys whatever channel is there when it runs.

The sockets are followed on a small machine of their own, which the connector simulates.
For this machine the condition under which no socket is lost is exact.
-/
namespace Cox.Net.Connector

open Cox.Lib List Machine Option

/-- The part of the connector that is about its sockets. -/
structure Custody where
  state : ConnectorState
  channel : Option Nat
  registered : List Nat
  sockets : Tokens

inductive Deed where
  | rest
  | attempt (verdict : Verdict)
  /-- The channel is removed, and its socket closed or handed over. -/
  | drop (state : ConnectorState)
  | resetChannel
  | restart (verdict : Verdict)
  deriving DecidableEq

namespace Custody

def attempt (k : Custody) : Verdict → Custody
  | .connecting =>
    { state := .connecting
      channel := some k.sockets.made
      registered := k.sockets.made :: k.registered
      sockets := k.sockets.make }
  | .retry =>
    { k with state := .disconnected, sockets := k.sockets.make.spend k.sockets.made }
  | .unexpected => { k with sockets := k.sockets.make.spend k.sockets.made }

def drop (k : Custody) (state : ConnectorState) : Option Custody :=
  k.channel.map fun sockfd =>
    { k with
      state := state
      registered := k.registered.erase sockfd
      sockets := k.sockets.spend sockfd }

def perform (k : Custody) : Deed → Option Custody
  | .rest => some k
  | .attempt verdict => some (k.attempt verdict)
  | .drop state => k.drop state
  | .resetChannel => some { k with channel := none }
  | .restart verdict => some ({ k with state := .disconnected }.attempt verdict)

/-- The channel is there, is registered, and watches the only socket that is open. -/
def Watches (k : Custody) : Prop :=
  ∃ sockfd ∈ k.channel, sockfd ∈ k.registered ∧ k.sockets.OnlyLeft sockfd

/-- One open socket, and watched, while connecting; none otherwise. -/
def OneSocket (k : Custody) : Prop :=
  (k.state = .connecting → k.Watches) ∧ (k.state ≠ .connecting → k.sockets.AllSpent)

instance (k : Custody) : Decidable k.Watches := inferInstanceAs (Decidable (∃ sockfd ∈ _, _ ∧ _))

instance (k : Custody) : Decidable k.OneSocket := inferInstanceAs (Decidable ((_ → _) ∧ (_ → _)))

/-- The attempt in progress is not overtaken by another one, or by the task that resets the
channel of an earlier one. -/
def Minds (k : Custody) : Deed → Prop
  | .attempt verdict => k.state = .connecting → verdict = .unexpected
  | .resetChannel | .restart _ => k.state ≠ .connecting
  | .rest | .drop _ => True

/-- The invariant: the open socket, and nothing is spent that was not made. -/
structure Sound (k : Custody) : Prop where
  oneSocket : k.OneSocket
  known : k.sockets.Known

variable {k k' : Custody}

/-! ### Deeds that mind the attempt -/

theorem Sound.attempt (sound : Sound k) (idle : k.state ≠ .connecting) (verdict : Verdict) :
    Sound (k.attempt verdict) := by
  have spent := sound.oneSocket.2 idle
  have closed : (k.sockets.make.spend k.sockets.made).AllSpent := (spent.make sound.known).spend
  have known := sound.known.make.spend k.sockets.made (Nat.lt_succ_self _)
  cases verdict with
  | connecting =>
    refine ⟨⟨fun _ => ?_, fun other => absurd rfl other⟩, sound.known.make⟩
    -- the new socket is the only one left, and its channel is registered
    exact ⟨k.sockets.made, rfl, mem_cons_self .., spent.make sound.known⟩
  | retry =>
    refine ⟨⟨fun here => ?_, fun _ => closed⟩, known⟩
    cases here
  | unexpected => exact ⟨⟨fun here => absurd here idle, fun _ => closed⟩, known⟩

theorem Sound.attempt_unexpected (sound : Sound k) (here : k.state = .connecting) :
    Sound (k.attempt .unexpected) := by
  obtain ⟨sockfd, held, watched, left⟩ := sound.oneSocket.1 here
  refine ⟨⟨fun _ => ⟨sockfd, held, watched, left.makeSpend sound.known⟩, fun other => ?_⟩, ?_⟩
  · exact absurd here other
  · exact sound.known.make.spend k.sockets.made (Nat.lt_succ_self _)

theorem Sound.drop (sound : Sound k) (here : k.state = .connecting) (state : ConnectorState)
    (left : state ≠ .connecting) (dropped : k.drop state = some k') : Sound k' := by
  obtain ⟨sockfd, held, _, only⟩ := sound.oneSocket.1 here
  rw [Custody.drop, held] at dropped
  cases dropped
  exact ⟨⟨fun back => absurd back left, fun _ => only.spend⟩, sound.known.spend sockfd only.1⟩

/-! ### Deeds that do not -/

section Attempt

variable (k : Custody) (verdict : Verdict) {sockfd : Nat} (made : sockfd < k.sockets.made)
  (unspent : k.sockets.spent.count sockfd = 0)
include made unspent

theorem unspent_attempt :
    sockfd < (k.attempt verdict).sockets.made ∧
      (k.attempt verdict).sockets.spent.count sockfd = 0 := by
  have later : sockfd < k.sockets.made + 1 := Nat.lt_succ_of_lt made
  have other : (k.sockets.make.spend k.sockets.made).spent.count sockfd = 0 := by
    rw [Tokens.count_spend, if_neg (Nat.ne_of_lt made)]
    exact unspent
  cases verdict with
  | connecting => exact ⟨later, unspent⟩
  | retry | unexpected => exact ⟨later, other⟩

theorem attempt_loses (changes : k.state = .connecting → verdict ≠ .unexpected) :
    ¬(k.attempt verdict).OneSocket := by
  obtain ⟨stillMade, stillOpen⟩ := unspent_attempt k verdict made unspent
  rintro ⟨connecting, idle⟩
  cases verdict with
  | connecting =>
    -- the new channel watches the new socket
    obtain ⟨_, new, _, left⟩ := connecting rfl
    cases new
    exact Tokens.not_onlyLeft _ stillMade (Nat.ne_of_lt made) stillOpen left
  | retry => exact Tokens.not_allSpent _ stillMade stillOpen (idle nofun)
  | unexpected =>
    exact Tokens.not_allSpent _ stillMade stillOpen (idle fun here => changes here rfl)

end Attempt

/-! ### The machine -/

/-- The deed leaves the state `connecting` only by dropping the socket. -/
def Sensible (k : Custody) : Deed → Prop
  | .drop state => k.state = .connecting ∧ state ≠ .connecting
  | .rest | .attempt _ | .resetChannel | .restart _ => True

theorem Sound.perform (sound : Sound k) (deed : Deed) (minds : k.Minds deed)
    (sensible : k.Sensible deed) (performed : k.perform deed = some k') : Sound k' := by
  cases deed with
  | rest =>
    cases performed
    exact sound
  | attempt verdict =>
    cases performed
    -- beside an attempt in progress, one that fails for an unexpected reason is harmless
    by_cases here : k.state = .connecting
    · rw [minds here]
      exact sound.attempt_unexpected here
    · exact sound.attempt here verdict
  | drop state => exact sound.drop sensible.1 state sensible.2 performed
  | resetChannel =>
    cases performed
    exact ⟨⟨fun here => absurd here minds, fun other => sound.oneSocket.2 other⟩, sound.known⟩
  | restart verdict =>
    cases performed
    -- no attempt is forgotten, so the state may as well be set
    have idle : Sound { k with state := .disconnected } :=
      ⟨⟨nofun, fun _ => sound.oneSocket.2 minds⟩, sound.known⟩
    exact idle.attempt nofun verdict

theorem Sound.loses (sound : Sound k) (deed : Deed) (minds : ¬k.Minds deed)
    (performed : k.perform deed = some k') : ¬k'.OneSocket := by
  -- with no attempt in progress there is nothing to mind
  have here : k.state = .connecting := by
    by_contra idle
    cases deed with
    | rest | drop => exact minds trivial
    | attempt => exact minds fun here => absurd here idle
    | resetChannel | restart => exact minds idle
  obtain ⟨sockfd, held, _, made, unspent, _⟩ := sound.oneSocket.1 here
  cases deed with
  | rest | drop => exact absurd trivial minds
  | attempt verdict =>
    cases performed
    exact attempt_loses k verdict made unspent fun here same => minds fun _ => same
  | resetChannel =>
    cases performed
    -- the channel is gone, and the state still says connecting
    rintro ⟨connecting, _⟩
    obtain ⟨_, none, _⟩ := connecting here
    cases none
  | restart verdict =>
    cases performed
    exact attempt_loses { k with state := .disconnected } verdict made unspent nofun

end Custody

/-! ### The connector -/

variable {InetAddress : Type}

def custody (c : Connector InetAddress) : Custody := ⟨c.state, c.channel, c.registered, c.sockets⟩

def dropDeed (c : Connector InetAddress) (state : ConnectorState) : Deed :=
  if c.state = .connecting then .drop state else .rest

def attemptDeed (c : Connector InetAddress) (errno : Errno) : Deed :=
  if c.wanted then .attempt errno.verdict else .rest

def taskDeed (c : Connector InetAddress) (errno : Errno) : Task → Deed
  | .resetChannel => .resetChannel
  | .connect => c.attemptDeed errno

def timerDeed (c : Connector InetAddress) (errno : Errno) : TimerTask → Deed
  | .connectTimeout => c.dropDeed .disconnected
  | .retry => c.attemptDeed errno

def deed (c : Connector InetAddress) : Event → Deed
  | .start errno => .attempt errno.verdict
  | .restart errno => .restart errno.verdict
  | .stop | .loop .handleError => c.dropDeed .disconnected
  | .loop (.handleWrite soError selfConnect) =>
    c.dropDeed (if soError = 0 ∧ selfConnect = false then .connected else .disconnected)
  | .loop (.task errno) => c.pendingTasks.head?.elim .rest (c.taskDeed errno)
  | .loop (.turn errno) => c.expired.head?.elim .rest fun timer => c.timerDeed errno timer.2
  | .loop (.expire _) | .loop (.tick _) => .rest

section Simulation

variable {c c' : Connector InetAddress}

section Retry

variable (c : Connector InetAddress)

theorem custody_retry (sockfd : Nat) :
    (c.retry sockfd).custody =
      { c.custody with state := .disconnected, sockets := c.sockets.spend sockfd } := by
  unfold retry
  dsimp only
  split
  · split <;> rfl
  · rfl

theorem custody_connect (errno : Errno) :
    (c.connect errno).custody = c.custody.attempt errno.verdict := by
  unfold connect
  dsimp only
  split
  next same => rw [same]; rfl
  next same => rw [same, custody_retry]; rfl
  next same => rw [same]; rfl

theorem custody_cancelConnectTimeout : c.cancelConnectTimeout.custody = c.custody := by
  unfold cancelConnectTimeout
  split <;> rfl

theorem custody_cancelRetry : c.cancelRetry.custody = c.custody := by
  unfold cancelRetry
  split <;> rfl

theorem custody_established (sockfd : Nat) :
    (c.established sockfd).custody =
      { c.custody with state := .connected, sockets := c.sockets.spend sockfd } := by
  unfold established
  dsimp only
  split <;> rfl

end Retry

theorem custody_drop (d : Connector InetAddress) (same : d.custody = c.custody)
    (finish : Nat × Connector InetAddress → Connector InetAddress) (state : ConnectorState)
    (spends : ∀ x, (finish x).custody =
      { x.2.custody with state := state, sockets := x.2.sockets.spend x.1 })
    (idle : Connector InetAddress) (unchanged : idle.custody = c.custody)
    (done : (if c.state = .connecting then d.removeAndResetChannel.map finish else some idle) =
      some c') : c.custody.perform (c.dropDeed state) = some c'.custody := by
  unfold dropDeed
  split at done
  next here =>
    obtain ⟨x, taken, rfl⟩ := map_eq_some_iff.mp done
    obtain ⟨sockfd, held, rfl⟩ := map_eq_some_iff.mp taken
    rw [if_pos here, spends, ← same]
    simp only [Custody.perform, Custody.drop, custody, held]
    rfl
  next other =>
    cases done
    rw [if_neg other]
    exact congrArg some unchanged.symm

theorem custody_stop (stopped : c.stop = some c') :
    c.custody.perform (c.dropDeed .disconnected) = some c'.custody := by
  -- the timers are cancelled first, which does not concern the sockets
  let d := { c with wanted := false }.cancelConnectTimeout.cancelRetry
  have same : d.custody = c.custody := by
    rw [custody_cancelRetry, custody_cancelConnectTimeout]
    rfl
  have state : d.state = c.state := congrArg Custody.state same
  change (if d.state = .connecting then _ else some d) = some c' at stopped
  rw [state] at stopped
  exact custody_drop d same _ _ (fun _ => rfl) d same stopped

theorem custody_handleWrite (soError : Nat) (selfConnect : Bool)
    (handled : c.handleWrite soError selfConnect = some c') :
    c.custody.perform (c.dropDeed (if soError = 0 ∧ selfConnect = false then .connected
      else .disconnected)) = some c'.custody := by
  unfold handleWrite at handled
  rw [ite_not] at handled
  refine custody_drop _ (custody_cancelConnectTimeout c) _ _ (fun x => ?_) c rfl handled
  -- handed over or closed by `established`, and closed by `retry` otherwise
  by_cases fine : soError = 0 ∧ selfConnect = false
  · simp only [fine.1, fine.2, ne_eq, not_true, if_false, Bool.false_eq_true, and_self, if_true]
    exact custody_established ..
  · rw [if_neg fine]
    by_cases clean : soError = 0
    · have self : selfConnect = true := by simpa [clean] using fine
      simp only [clean, self, ne_eq, not_true, if_false, if_true]
      exact custody_retry ..
    · simp only [clean, ne_eq, not_false_eq_true, if_true]
      exact custody_retry ..

theorem custody_tries (d : Connector InetAddress) (same : d.custody = c.custody) (errno : Errno) :
    c.custody.perform (c.attemptDeed errno) =
      some (if c.wanted then d.connect errno else d).custody := by
  unfold attemptDeed
  split
  · rw [custody_connect, same]
    rfl
  · exact congrArg some same.symm

theorem custody_loopStep (e : LoopEvent) (stepped : c.loopStep e = some c') :
    c.custody.perform (c.deed (.loop e)) = some c'.custody := by
  cases e with
  | handleWrite soError selfConnect => exact custody_handleWrite soError selfConnect stepped
  | handleError =>
    exact custody_drop _ (custody_cancelConnectTimeout c) _ _ (fun x => custody_retry ..) c rfl
      stepped
  | task errno =>
    simp only [loopStep] at stepped
    split at stepped
    · cases stepped
    next task rest waiting =>
      cases stepped
      simp only [deed, waiting, List.head?_cons, Option.elim]
      cases task with
      | resetChannel => rfl
      | connect => exact custody_tries { c with pendingTasks := rest } rfl errno
  | expire due =>
    simp only [loopStep] at stepped
    split at stepped <;> cases stepped
    rfl
  | turn errno =>
    simp only [loopStep] at stepped
    split at stepped
    · cases stepped
    next timer rest waiting =>
      simp only [deed, waiting, List.head?_cons, Option.elim]
      cases fires : timer.2 with
      | connectTimeout =>
        rw [fires] at stepped
        unfold runTimer onConnectTimeout at stepped
        rw [ite_not] at stepped
        -- the timer has left the batch before its handler looks at the state
        exact custody_drop { c with expired := rest, connectTimerArmed := false } rfl _ _
          (fun x => custody_retry ..) { c with expired := rest, connectTimerArmed := false } rfl
          stepped
      | retry =>
        rw [fires] at stepped
        cases stepped
        exact custody_tries { c with expired := rest, retryTimerArmed := false } rfl errno
  | tick elapsed =>
    cases stepped
    rfl

theorem custody_step (e : Event) (stepped : c.step e = some c') :
    c.custody.perform (c.deed e) = some c'.custody := by
  cases e with
  | start errno =>
    cases stepped
    exact congrArg some (custody_connect { c with wanted := true } errno).symm
  | stop => exact custody_stop stepped
  | restart errno =>
    cases stepped
    unfold restart startInLoop
    rw [if_pos rfl, custody_connect]
    rfl
  | loop e => exact custody_loopStep e stepped

theorem dropDeed_sensible (c : Connector InetAddress) (state : ConnectorState)
    (left : state ≠ .connecting) : c.custody.Sensible (c.dropDeed state) := by
  unfold dropDeed
  split
  next here => exact ⟨here, left⟩
  next => trivial

theorem attemptDeed_sensible (c : Connector InetAddress) (errno : Errno) :
    c.custody.Sensible (c.attemptDeed errno) := by
  unfold attemptDeed
  split <;> trivial

theorem deed_sensible (c : Connector InetAddress) (e : Event) : c.custody.Sensible (c.deed e) := by
  cases e with
  | start | restart => trivial
  | stop => exact dropDeed_sensible c _ nofun
  | loop e =>
    cases e with
    | expire | tick => trivial
    | handleError => exact dropDeed_sensible c _ nofun
    | handleWrite =>
      refine dropDeed_sensible c _ ?_
      split <;> exact nofun
    | task errno =>
      unfold deed
      cases c.pendingTasks.head? with
      | none => trivial
      | some task =>
        cases task with
        | resetChannel => trivial
        | connect => exact attemptDeed_sensible c errno
    | turn errno =>
      unfold deed
      cases c.expired.head? with
      | none => trivial
      | some timer =>
        cases fires : timer.2 with
        | connectTimeout => simpa [timerDeed, fires] using dropDeed_sensible c .disconnected nofun
        | retry => simpa [timerDeed, fires] using attemptDeed_sensible c errno

/-! ### Runs -/

/-- The event does not overtake the attempt in progress. -/
def MindsAttempt (c : Connector InetAddress) (e : Event) : Prop := c.custody.Minds (c.deed e)

/-- One open socket, and watched, while connecting; none otherwise. -/
def OwnsOneSocket (c : Connector InetAddress) : Prop := c.custody.OneSocket

instance (c : Connector InetAddress) : Decidable (OwnsOneSocket c) :=
  inferInstanceAs (Decidable c.custody.OneSocket)

theorem sound_new (first : InetAddress) (others : List InetAddress) (backoffKey : Bytes)
    (callback : Bool) : (new first others backoffKey callback).custody.Sound := by
  refine ⟨⟨nofun, fun _ k made => absurd made (Nat.not_lt_zero k)⟩, fun k spent => ?_⟩
  exact absurd spent not_mem_nil

theorem sound_step (sound : c.custody.Sound) (e : Event) (minds : MindsAttempt c e)
    (stepped : c.step e = some c') : c'.custody.Sound :=
  sound.perform _ minds (deed_sensible c e) (custody_step e stepped)

/-- **One socket**: along a run, the connector watches its one open socket while it is
connecting and owns none otherwise, exactly when no attempt in progress is overtaken by
another attempt, by `restart`, or by the task that resets the channel of an earlier one. -/
theorem ownsOneSocket_iff (first : InetAddress) (others : List InetAddress) (backoffKey : Bytes)
    (callback : Bool) (events : List Event) :
    Machine.Always step OwnsOneSocket (new first others backoffKey callback) events ↔
      Machine.Meets step MindsAttempt (new first others backoffKey callback) events := by
  have breaks (c : Connector InetAddress) (e : Event) (c' : Connector InetAddress)
      (sound : c.custody.Sound) (minds : ¬MindsAttempt c e) (stepped : c.step e = some c') :
      ¬OwnsOneSocket c' := sound.loses _ minds (custody_step e stepped)
  exact Machine.always_iff_meets (fun c sound => sound.oneSocket)
    (fun c e c' sound => sound_step sound e) breaks _ events
    (sound_new first others backoffKey callback)

/-- `TcpClient::connect` twice: the first socket is open, and nobody watches it. -/
theorem startTwice_losesSocket :
    let events : List Event := [.start .inProgress, .start .inProgress]
    (Machine.run step (new () [] [] true) events).map
        (fun c => (c.state, c.channel, c.sockets)) = some (.connecting, some 1, ⟨2, []⟩) ∧
      ¬Machine.Always step OwnsOneSocket (new () [] [] true) events := by
  decide +kernel

/-! ### Attempts that wait -/

/-- An attempt begins only when none is in progress, and no channel is still to be reset. -/
def Patient (c : Connector InetAddress) (e : Event) : Prop :=
  match c.deed e with
  | .attempt _ | .restart _ => c.state ≠ .connecting ∧ .resetChannel ∉ c.pendingTasks
  | .rest | .drop _ | .resetChannel => True

theorem idle_of_dropDeed (state : ConnectorState) (left : state ≠ .connecting)
    (performed : c.custody.perform (c.dropDeed state) = some c'.custody) :
    c'.state ≠ .connecting := by
  unfold dropDeed at performed
  split at performed
  next here =>
    obtain ⟨sockfd, _, same⟩ := map_eq_some_iff.mp performed
    -- the state is the one after the drop
    rw [show c'.state = state from (congrArg Custody.state same).symm]
    exact left
  next idle =>
    rw [show c'.state = c.state from (congrArg Custody.state (Option.some.inj performed)).symm]
    exact idle

theorem connect_pendingTasks (c : Connector InetAddress) (errno : Errno)
    (connecting : (c.connect errno).state = .connecting) :
    (c.connect errno).pendingTasks = c.pendingTasks := by
  have state : (c.custody.attempt errno.verdict).state = .connecting :=
    (congrArg Custody.state (custody_connect c errno)).symm.trans connecting
  unfold connect
  dsimp only
  split
  next => rfl
  next verdict =>
    rw [verdict] at state
    cases state
  next => rfl

theorem tries_pendingTasks (c : Connector InetAddress) (errno : Errno)
    (connecting : (if c.wanted then c.connect errno else c).state = .connecting) :
    (if c.wanted then c.connect errno else c).pendingTasks = c.pendingTasks := by
  split
  next wanted =>
    rw [if_pos wanted] at connecting
    exact connect_pendingTasks c errno connecting
  next => rfl

theorem pendingTasks_step (e : Event) (stepped : c.step e = some c')
    (connecting : c'.state = .connecting) : c'.pendingTasks <:+ c.pendingTasks := by
  have performed := custody_step e stepped
  cases e with
  | start errno =>
    cases stepped
    exact ⟨[], connect_pendingTasks { c with wanted := true } errno connecting⟩
  -- `stop` and the handlers leave no attempt in progress
  | stop => exact absurd connecting (idle_of_dropDeed .disconnected nofun performed)
  | restart errno =>
    cases stepped
    unfold restart startInLoop at connecting ⊢
    rw [if_pos rfl] at connecting ⊢
    exact ⟨[], connect_pendingTasks _ errno connecting⟩
  | loop e =>
    cases e with
    | handleWrite soError selfConnect =>
      refine absurd connecting (idle_of_dropDeed _ ?_ performed)
      split <;> exact nofun
    | handleError => exact absurd connecting (idle_of_dropDeed .disconnected nofun performed)
    | task errno =>
      simp only [step, loopStep] at stepped
      split at stepped <;> cases stepped
      next task rest waiting =>
        rw [waiting]
        cases task with
        | resetChannel => exact suffix_cons ..
        | connect =>
          have same := tries_pendingTasks { c with pendingTasks := rest } errno connecting
          exact ⟨[Task.connect], congrArg (List.cons Task.connect) same⟩
    | expire due =>
      simp only [step, loopStep] at stepped
      split at stepped <;> cases stepped
      exact suffix_refl _
    | turn errno =>
      simp only [step, loopStep] at stepped
      split at stepped
      · cases stepped
      next timer rest waiting =>
        simp only [deed, waiting, List.head?_cons, Option.elim] at performed
        cases fires : timer.2 with
        | connectTimeout =>
          rw [fires] at performed
          exact absurd connecting (idle_of_dropDeed .disconnected nofun performed)
        | retry =>
          rw [fires] at stepped
          cases stepped
          exact ⟨[], tries_pendingTasks { c with expired := rest, retryTimerArmed := false } errno
            connecting⟩
    | tick elapsed =>
      cases stepped
      exact suffix_refl _

/-- No channel is still to be reset while an attempt is in progress. -/
def NoReset (c : Connector InetAddress) : Prop :=
  c.state = .connecting → .resetChannel ∉ c.pendingTasks

theorem NoReset.step (noReset : NoReset c) (e : Event) (patient : Patient c e)
    (stepped : c.step e = some c') : NoReset c' := by
  intro connecting pending
  have before := (pendingTasks_step e stepped connecting).subset pending
  have performed := custody_step e stepped
  unfold Patient at patient
  cases does : c.deed e with
  | attempt | restart =>
    rw [does] at patient
    exact patient.2 before
  | rest | resetChannel =>
    rw [does] at performed
    have same : c'.state = c.state := congrArg Custody.state (Option.some.inj performed).symm
    exact noReset (same.symm.trans connecting) before
  | drop state =>
    -- the connector is not connecting after that
    have sensible := deed_sensible c e
    rw [does] at performed sensible
    obtain ⟨sockfd, _, same⟩ := map_eq_some_iff.mp performed
    exact sensible.2 ((congrArg Custody.state same).trans connecting)

theorem pending_of_resetChannel (c : Connector InetAddress) (e : Event)
    (does : c.deed e = .resetChannel) : .resetChannel ∈ c.pendingTasks := by
  have never (state : ConnectorState) : c.dropDeed state ≠ .resetChannel := by
    unfold dropDeed
    split <;> exact nofun
  have nor (errno : Errno) : c.attemptDeed errno ≠ .resetChannel := by
    unfold attemptDeed
    split <;> exact nofun
  cases e with
  | start | restart => cases does
  | stop => exact absurd does (never _)
  | loop e =>
    cases e with
    | handleWrite | handleError => exact absurd does (never _)
    | expire | tick => cases does
    | task errno =>
      cases waiting : c.pendingTasks with
      | nil => simp [deed, waiting] at does
      | cons task rest =>
        cases task with
        | resetChannel => exact mem_cons_self ..
        | connect =>
          simp only [deed, waiting, List.head?_cons, Option.elim] at does
          exact absurd does (nor errno)
    | turn errno =>
      cases waiting : c.expired.head? with
      | none => simp [deed, waiting] at does
      | some timer =>
        simp only [deed, waiting, Option.elim] at does
        cases fires : timer.2 <;> rw [fires] at does
        · exact absurd does (never _)
        · exact absurd does (nor errno)

theorem NoReset.minds (noReset : NoReset c) (e : Event) (patient : Patient c e) :
    MindsAttempt c e := by
  unfold Patient at patient
  unfold MindsAttempt
  cases does : c.deed e with
  | attempt =>
    rw [does] at patient
    exact fun here => absurd here patient.1
  | restart =>
    rw [does] at patient
    exact patient.1
  | resetChannel =>
    intro here
    exact noReset here (pending_of_resetChannel c e does)
  | rest | drop => trivial

/-- The connector owns one socket along every run in which attempts wait for their turn. -/
theorem ownsOneSocket_of_patient (first : InetAddress) (others : List InetAddress)
    (backoffKey : Bytes) (callback : Bool) (events : List Event)
    (patient : Meets step Patient (new first others backoffKey callback) events) :
    Always step OwnsOneSocket (new first others backoffKey callback) events := by
  have fresh : NoReset (new first others backoffKey callback) := fun here => nomatch here
  have always := always_of_meets
    (fun _ e _ (noReset : NoReset _) => noReset.step e) _ events fresh patient
  have minds : Meets step MindsAttempt (new first others backoffKey callback) events :=
    Meets.imp (fun _ e _ (noReset : NoReset _) _ patient => noReset.minds e patient)
      _ events always patient
  have sound : Always step (fun c => c.custody.Sound) _ events :=
    always_of_meets (fun c e c' sound => sound_step sound e) _ events
      (sound_new first others backoffKey callback) minds
  exact Always.mono (fun c sound => sound.oneSocket) _ events sound

/-- An attempt fails, and the next one begins after the delay. -/
theorem ownsOneSocket_retries :
    let events : List Event := [.start .inProgress, .loop .handleError, .loop (.task .zero),
      .loop (.expire [1]), .loop (.turn .inProgress)]
    (run step (new () [] [] true) events).map (fun c => (c.state, c.channel, c.sockets)) =
        some (.connecting, some 1, ⟨2, [0]⟩) ∧
      Always step OwnsOneSocket (new () [] [] true) events :=
  ⟨by decide +kernel, ownsOneSocket_of_patient () [] [] true _
    ⟨⟨nofun, nofun⟩, trivial, trivial, trivial, ⟨nofun, nofun⟩, trivial⟩⟩

end Simulation

end Cox.Net.Connector

import Cox.Reactor.EventLoop

/-!
# Dispatching the active channels

`poll` reports channels that the poller knows, and `loop()` then calls `handleEvents` on
each of them in turn. The list is a snapshot: a handler may remove the channel of another
connection on the same loop, and the loop calls that channel all the same when its turn
comes.

A removal takes effect at once. `TcpConnection::forceClose` on the loop thread goes through
`handleClose`, the close callback, `TcpServer::removeConnection` and `connectDestroyed`, and
each `runInLoop` on the way runs in place when the connection lives on the server's loop.
-/
namespace Cox.Reactor.EventLoop

open Cox.Lib

variable {Task : Type}

def Registered (e : EventLoop Task) (channel : Channel) : Prop :=
  e.channels channel.fd = some channel

instance (e : EventLoop Task) (channel : Channel) : Decidable (e.Registered channel) :=
  inferInstanceAs (Decidable (_ = _))

/-- A channel is registered at the moment at which `handleEvents` is called on it. -/
def DispatchesRegistered (e : EventLoop Task) : Event Task → Prop
  | .nextChannel => ∀ channel ∈ e.activeChannels.head?, e.Registered channel
  | _ => True

/-- No channel that waits for its turn loses its place in the poller, by a removal or to
another channel with the same descriptor. -/
def SparesActive (e : EventLoop Task) : Event Task → Prop
  | .updateChannel channel => ∀ active ∈ e.activeChannels, active.fd = channel.fd → active = channel
  | .removeChannel (some channel) => ∀ active ∈ e.activeChannels, active.fd ≠ channel.fd
  | _ => True

instance (e : EventLoop Task) (event : Event Task) : Decidable (DispatchesRegistered e event) := by
  cases event <;> unfold DispatchesRegistered <;> infer_instance

instance (e : EventLoop Task) (event : Event Task) : Decidable (SparesActive e event) := by
  unfold SparesActive
  split <;> infer_instance

def ActiveRegistered (e : EventLoop Task) : Prop := ∀ channel ∈ e.activeChannels, e.Registered channel

section Steps

variable {e e' : EventLoop Task}

theorem wakeup_channels (e : EventLoop Task) :
    e.wakeup.channels = e.channels ∧ e.wakeup.activeChannels = e.activeChannels := by
  unfold wakeup
  split <;> exact ⟨rfl, rfl⟩

variable (active : ActiveRegistered e)
include active

theorem ActiveRegistered.same (channels : e'.channels = e.channels)
    (fewer : e'.activeChannels ⊆ e.activeChannels) : ActiveRegistered e' := by
  intro channel member
  unfold Registered
  rw [channels]
  exact active channel (fewer member)

theorem ActiveRegistered.updateChannel (channel : Channel)
    (spared : ∀ other ∈ e.activeChannels, other.fd = channel.fd → other = channel) :
    ActiveRegistered (e.updateChannel channel) := by
  intro other member
  by_cases same : other.fd = channel.fd
  · rw [spared other member same]
    exact Function.update_self ..
  · exact (Function.update_of_ne same ..).trans (active other member)

theorem ActiveRegistered.removeChannel (channel : Channel)
    (spared : ∀ other ∈ e.activeChannels, other.fd ≠ channel.fd) :
    ActiveRegistered (e.removeChannel (some channel)) := by
  intro other member
  exact (Function.update_of_ne (spared other member) ..).trans (active other member)

theorem ActiveRegistered.continueCall (t : ThreadId) (phase : CallPhase) :
    ActiveRegistered (e.continueCall t phase) := by
  obtain ⟨channels, waiting⟩ := wakeup_channels e
  have woken : ActiveRegistered (e.wakeup.leave t) := active.same channels (waiting ▸ fun _ => id)
  cases phase with
  | quitting => exact woken
  | queued =>
    unfold EventLoop.continueCall
    dsimp only
    split
    · exact woken
    · exact active.same rfl (fun _ => id)

theorem ActiveRegistered.go (event : Event Task) (went : e.go event = some e') :
    ActiveRegistered e' := by
  cases event with
  | poll reported =>
    -- `poll` reports registered channels only
    simp only [EventLoop.go] at went
    split at went
    · split at went <;> cases went
      next known => exact known
    · cases went
  | nextChannel =>
    simp only [EventLoop.go] at went
    split at went <;> cases went
    next channel rest _ waiting =>
      exact active.same rfl (fun other member => waiting ▸ List.mem_cons_of_mem _ member)
  | checkQuit =>
    simp only [EventLoop.go] at went
    split at went
    · split at went <;> cases went
      · exact active.same rfl (fun _ => id)
      · exact active.same rfl (List.nil_subset _)
    · cases went
  | loop | handleWakeup | handled | dispatched | doPendingTasks | nextTask | taskDone | tasksDone =>
    simp only [EventLoop.go] at went
    split at went
    · (repeat' split at went) <;> cases went
      all_goals exact active.same rfl (fun _ => id)
    · cases went
  | _ => cases went

theorem ActiveRegistered.step (event : Event Task) (spares : SparesActive e event)
    (stepped : e.step event = some e') : ActiveRegistered e' := by
  cases moves_step stepped with
  | updateChannel channel => exact active.updateChannel channel spares
  | removeChannel channel =>
    cases channel with
    | none => exact active
    | some channel => exact active.removeChannel channel spares
  | queueInLoop => exact active.same rfl (fun _ => id)
  | runInLoop =>
    unfold runInLoop
    split
    · exact active
    · exact active.same rfl (fun _ => id)
  | quit =>
    unfold setQuit
    split <;> exact active.same rfl (fun _ => id)
  | proceed t phase => exact active.continueCall t phase
  | goes went => exact active.go _ went

end Steps

/-- `handleEvents` is called on registered channels only, along every run in which no
channel that waits for its turn loses its place in the poller. -/
theorem dispatchesRegistered_always (loopThreadId : ThreadId) (wakeupChannel timerChannel : Channel)
    (events : List (Event Task))
    (spares : Machine.Meets step SparesActive
      (initial loopThreadId wakeupChannel timerChannel) events) :
    Machine.Meets step DispatchesRegistered
      (initial loopThreadId wakeupChannel timerChannel) events := by
  have none : ActiveRegistered (initial loopThreadId wakeupChannel timerChannel : EventLoop Task) :=
    fun _ member => absurd member List.not_mem_nil
  have always := Machine.always_of_meets
    (fun _ event _ (active : ActiveRegistered _) => active.step event) _ events none spares
  refine Machine.Meets.imp (fun e event _ (active : ActiveRegistered e) _ _ => ?_) _ events always
    spares
  cases event with
  | nextChannel => exact fun channel first => active channel (List.mem_of_mem_head? first)
  | _ => trivial

/-- A loop on thread 1 that is about to dispatch two connections, in the handler of the
first one. -/
def twoActive : List (Event Nat) :=
  [.updateChannel ⟨7, 2⟩, .updateChannel ⟨8, 3⟩, .loop, .checkQuit, .poll [⟨7, 2⟩, ⟨8, 3⟩],
    .nextChannel]

/-- What closing a connection by force comes to when it lives on the server's own loop:
`disableAll` in `handleClose`, and `remove` in `connectDestroyed`. -/
def closes (channel : Channel) : List (Event Nat) :=
  [.updateChannel channel, .removeChannel (some channel)]

/-- The first connection closes itself. -/
theorem dispatchesRegistered_closesItself :
    Machine.Meets step DispatchesRegistered (initial 1 ⟨5, 0⟩ ⟨6, 1⟩)
      (twoActive ++ closes ⟨7, 2⟩ ++ [.handled, .nextChannel]) :=
  dispatchesRegistered_always 1 ⟨5, 0⟩ ⟨6, 1⟩ _ (by decide +kernel)

/-- The first connection closes the second one, whose channel is called nevertheless. -/
theorem closesOther_dispatched :
    (Machine.run step (initial 1 ⟨5, 0⟩ ⟨6, 1⟩)
        (twoActive ++ closes ⟨8, 3⟩ ++ [.handled, .nextChannel])).map
      (fun e => (e.phase, e.channels 8)) = some (.handling ⟨8, 3⟩, none) ∧
    ¬Machine.Meets step DispatchesRegistered (initial 1 ⟨5, 0⟩ ⟨6, 1⟩)
      (twoActive ++ closes ⟨8, 3⟩ ++ [.handled, .nextChannel]) := by
  decide +kernel

end Cox.Reactor.EventLoop

import Cox.Net.TcpPosts

/-!
# The state of a connection only moves forward

`shutdown` and `forceClose` load `state_` and store `kDisconnecting` in two steps. On the
loop thread nothing comes between them; in a call of another thread the loop may close the
connection there, and the store then takes it out of `kDisconnected`. That is the only way
back, and without it `forceClose` closes a connection once.
-/
namespace Cox.Net.TcpConnection

open Cox.Lib Machine List

/-! ### What a task stores -/

def storedBy (state : TcpState) : ConnTask → TcpState
  | .handleClose | .disconnect => .disconnected
  | .setDisconnecting => .disconnecting
  | _ => state

section Steps

variable {c c' : TcpConnection} {rest : List ConnTask}

theorem state_exec (read : Option Bytes) (wrote : Option Nat) (t : ConnTask)
    (ran : c.exec read wrote rest t = some c') : c'.state = storedBy c.state t := by
  cases t with
  | handleClose | disconnect | setDisconnecting | closeCallback =>
    cases ran
    rfl
  | handleRead =>
    cases ran
    exact (handleRead_announces c read rest).1
  | _ => exact (quietly_exec c c' read wrote rest _ (by simp [Loud]) ran).state

/-! ### Where the next task comes from -/

def Asked : ConnTask → Prop
  | .sendInLoop _ | .shutdownInLoop | .forceCloseInLoop | .stopReadInLoop | .startReadInLoop => True
  | _ => False

structure Asks (c : TcpConnection) : Prop where
  queued : ∀ task ∈ c.batch ++ c.pendingTasks, Asked task
  calls : ∀ t task,
    c.inCall t = some (.storing task) ∨ c.inCall t = some (.queueing task) → Asked task

theorem Asks.same (asks : Asks c) (inCall : c'.inCall = c.inCall)
    (tasks : c'.batch ++ c'.pendingTasks = c.batch ++ c.pendingTasks) : Asks c' where
  queued := by
    rw [tasks]
    exact asks.queued
  calls := by
    rw [inCall]
    exact asks.calls

theorem Asks.enter (asks : Asks c) (t : ThreadId) (phase : Option CallPhase)
    (asked : ∀ task, phase = some (.storing task) ∨ phase = some (.queueing task) → Asked task) :
    Asks (c.enter t phase) where
  queued := asks.queued
  calls := by
    intro u task inCall
    simp only [TcpConnection.enter, Function.update_apply] at inCall
    split at inCall
    · exact asked task inCall
    · exact asks.calls u task inCall

theorem Asks.startCall (asks : Asks c) (t : ThreadId) (call : Call) : Asks (c.startCall t call) := by
  cases call with
  | send data =>
    simp only [TcpConnection.startCall]
    split
    · have called : Asks (c.calls ⟨some t, data⟩) := asks.same rfl rfl
      apply called.enter t _
      rintro task (same | same) <;> cases same
      trivial
    · exact asks
  | shutdown =>
    simp only [TcpConnection.startCall]
    split
    · apply asks.enter t _
      rintro task (same | same) <;> cases same
      trivial
    · exact asks
  | forceClose =>
    simp only [TcpConnection.startCall]
    split
    all_goals
      apply asks.enter t _
      rintro task (same | same) <;> cases same
      try trivial
  | stopRead | startRead =>
    apply asks.enter t _
    rintro task (same | same) <;> cases same
    trivial

theorem Asks.continueCall (asks : Asks c) (t : ThreadId) (phase : CallPhase)
    (inCall : c.inCall t = some phase) : Asks (c.continueCall t phase) := by
  cases phase with
  | forceCloseDisconnecting =>
    simp only [TcpConnection.continueCall]
    split
    all_goals
      apply asks.enter t _
      rintro task (same | same) <;> cases same
      try trivial
  | storing task =>
    have stored : Asks (c.setState .disconnecting) := asks.same rfl rfl
    apply stored.enter t _
    rintro other (same | same) <;> cases same
    exact asks.calls t task (.inl inCall)
  | queueing task =>
    have queued : Asks { c with pendingTasks := c.pendingTasks ++ [task] } :=
      ⟨forall_mem_queued asks.queued task (asks.calls t task (.inr inCall)), asks.calls⟩
    apply queued.enter t _
    rintro other (same | same) <;> cases same

theorem Asks.step (asks : Asks c) (e : Event) (stepped : c.step e = some c') : Asks c' := by
  cases moves_step stepped with
  | establish | begins | returns | send | refuses => exact asks.same rfl rfl
  | task read wrote t rest head ran =>
    obtain ⟨inCall, batch, pending, _⟩ := posting_exec read wrote t ran
    exact asks.same inCall (by rw [batch, pending])
  | doPendingTasks between => exact asks.same rfl (by simp [between.2.2])
  | nextPendingTask t batch _ _ first =>
    refine ⟨fun task inside => asks.queued task ?_, asks.calls⟩
    rw [first]
    exact mem_cons_of_mem t inside
  | call t call _ _ _ same => exact same ▸ asks.startCall t call
  | proceed t phase inside _ _ _ same => exact same ▸ asks.continueCall t phase inside

/-- The task that comes next after a step: it was next before, it begins something, another
thread has asked for it, the task before put it there, or it was waiting. -/
theorem head_step {Behind : ConnTask → Prop} (shaped : Shaped Behind c) (asks : Asks c) (e : Event)
    (stepped : c.step e = some c') (t : ConnTask) (next : c'.todo.head? = some t) :
    c.todo.head? = some t ∧ (∀ read wrote, e ≠ .task read wrote) ∨ Starts c e t ∨ Asked t ∨
      (∃ running, Heads c c' running t) ∨ Behind t := by
  cases moves_step stepped with
  | establish => cases next
  | begins _ _ tasks _ _ _ _ starts => exact .inr (.inl (starts t next))
  | task read wrote running rest head ran =>
    have waiting : ∀ u ∈ rest, Behind u := by
      have tail := shaped.todo
      rwa [head] at tail
    cases flows_exec c c' read wrote rest running ran with
    | goesOn new todo _ _ heads =>
      rw [todo] at next
      cases new with
      | nil => exact .inr (.inr (.inr (.inr (waiting t (mem_of_mem_head? next)))))
      | cons first new => exact .inr (.inr (.inr (.inl ⟨running, heads t next⟩)))
    | calls new todo =>
      rw [todo] at next
      cases next
  | returns rest stack _ framed =>
    have waited : Behind t := by
      refine shaped.stack rest ?_ t (mem_of_mem_head? next)
      rw [framed]
      exact mem_cons_self ..
    exact .inr (.inr (.inr (.inr waited)))
  | send data =>
    cases next
    exact .inr (.inr (.inl trivial))
  | refuses | doPendingTasks | call | proceed => exact .inl ⟨next, by simp⟩
  | nextPendingTask task batch _ _ first =>
    cases next
    refine .inr (.inr (.inl (asks.queued t ?_)))
    rw [first]
    exact mem_cons_self ..

end Steps

/-! ### The order of the states -/

/-- The place of a state in `kConnecting < kConnected < kDisconnecting < kDisconnected`. -/
def rank : TcpState → Nat
  | .connecting => 0
  | .connected => 1
  | .disconnecting => 2
  | .disconnected => 3

def MovesForward (c : TcpConnection) (e : Event) : Prop :=
  ∀ c' ∈ c.step e, rank c.state ≤ rank c'.state

instance (c : TcpConnection) (e : Event) : Decidable (MovesForward c e) :=
  inferInstanceAs (Decidable (∀ c' ∈ c.step e, rank c.state ≤ rank c'.state))

/-- Another thread stores `kDisconnecting` only while the connection is not closed yet. -/
def StoresInTime (c : TcpConnection) : Event → Prop
  | .proceed t =>
    match c.inCall t with
    | some (.storing _) => c.state ≠ .disconnected
    | _ => True
  | _ => True

instance (c : TcpConnection) (e : Event) : Decidable (StoresInTime c e) := by
  apply @Event.casesOn (fun e => Decidable (StoresInTime c e)) e <;> intros <;> unfold StoresInTime
  case proceed t =>
    dsimp only
    split <;> infer_instance
  all_goals infer_instance

/-- Counts the runs of `handleClose` that `forceCloseInLoop` asks for. -/
def noteForced (c : TcpConnection) (e : Event) (forced : Nat) : Nat :=
  match e, c.todo with
  | .task _ _, .forceCloseInLoop :: _ => if c.state = .disconnected then forced else forced + 1
  | _, _ => forced

/-- On the loop thread the store of `kDisconnecting` follows the load at once. -/
structure InOrder (c : TcpConnection) : Prop where
  asks : Asks c
  shaped : Shaped (· ≠ .setDisconnecting) c
  looked : c.todo.head? = some .setDisconnecting → c.state ≠ .disconnected

section Forward

variable {c c' : TcpConnection} {e : Event}

theorem waits_ne_setDisconnecting (t : ConnTask) (waits : Waits c e t) : t ≠ .setDisconnecting := by
  rintro rfl
  rcases waits_cases waits with ⟨_, other⟩ | ⟨_, other | other⟩ | (other | other) |
    ⟨_, _, _, _, follows⟩
  case inr.inr.inr => exact follows
  all_goals cases other

section InOrder

variable (inOrder : InOrder c) (stepped : c.step e = some c')
include inOrder stepped

theorem InOrder.state_step :
    rank c.state ≤ rank c'.state ∨ ¬StoresInTime c e ∧ c'.state = .disconnecting := by
  cases moves_step stepped with
  | establish _ fresh =>
    left
    simp [fresh, rank]
  | begins | returns | send | refuses | doPendingTasks | nextPendingTask | call =>
    exact .inl le_rfl
  | task read wrote t rest head ran =>
    left
    rw [state_exec read wrote t ran]
    cases t with
    | handleClose | disconnect => cases c.state <;> simp [storedBy, rank]
    | setDisconnecting =>
      have looked := inOrder.looked (by rw [head]; rfl)
      revert looked
      cases c.state <;> simp [storedBy, rank]
    | _ => exact le_rfl
  | proceed t phase inside _ _ _ _ stored =>
    rcases stored with rfl | ⟨rfl, task, rfl⟩
    · exact .inl le_rfl
    · by_cases closed : c.state = .disconnected
      · right
        simp [StoresInTime, inside, closed]
      · left
        revert closed
        cases c.state <;> simp [rank]

theorem InOrder.step : InOrder c' where
  asks := inOrder.asks.step e stepped
  shaped := inOrder.shaped.step e waits_ne_setDisconnecting stepped
  looked := by
    intro next closed
    rcases head_step inOrder.shaped inOrder.asks e stepped _ next with
      ⟨before, other⟩ | starts | asked | ⟨running, heads⟩ | behind
    · -- the task was next before: only another thread has moved, and it does not close
      have looked := inOrder.looked before
      cases moves_step stepped with
      | establish => cases next
      | begins _ idle | returns _ _ idle | send _ idle | nextPendingTask _ _ idle =>
        rw [idle] at before
        cases before
      | refuses | doPendingTasks | call => exact looked closed
      | task read wrote => exact other read wrote rfl
      | proceed _ _ _ _ _ _ _ stored =>
        rcases stored with rfl | ⟨rfl, _⟩
        · exact looked closed
        · cases closed
    · rcases starts_cases starts with ⟨_, other⟩ | ⟨opening, _⟩
      · simp at other
      · simp [openings] at opening
    · exact asked
    · exact heads.2 (heads.1 ▸ closed)
    · exact behind rfl

/-- The only step back is a store of `kDisconnecting` by another thread, too late. -/
theorem InOrder.forward_iff : MovesForward c e ↔ StoresInTime c e := by
  have moved := inOrder.state_step stepped
  constructor
  · intro forward
    by_contra late
    cases moves_step stepped with
    | proceed t phase inside _ _ _ same =>
      cases phase with
      | storing task =>
        have closed : c.state = .disconnected := by simpa [StoresInTime, inside] using late
        rw [← same] at stepped
        have back := forward _ stepped
        simp [closed, continueCall, enter, setState, rank] at back
      | _ => simp [StoresInTime, inside] at late
    | _ => exact late (by first | trivial | cases e <;> trivial)
  · rintro inTime c'' reached
    cases stepped.symm.trans reached
    rcases moved with forward | ⟨late, _⟩
    · exact forward
    · exact absurd inTime late

end InOrder

/-- A connection that `forceClose` has closed is closed, or about to be. -/
def ForcedOnce (x : TcpConnection × Nat) : Prop :=
  x.2 = 0 ∨ x.2 = 1 ∧ (x.1.state = .disconnected ∨ x.1.todo.head? = some .handleClose)

theorem noteForced_closed (closed : c.state = .disconnected) (forced : Nat) :
    noteForced c e forced = forced := by
  unfold noteForced
  split
  · rw [if_pos closed]
  · rfl

theorem closing_step (closing : c.todo.head? = some .handleClose) (stepped : c.step e = some c')
    (forced : Nat) : noteForced c e forced = forced ∧
      (c'.state = .disconnected ∨ c'.todo.head? = some .handleClose) := by
  cases moves_step stepped with
  | establish between => simp [between.1] at closing
  | begins _ idle | returns _ _ idle | send _ idle | nextPendingTask _ _ idle =>
    rw [idle] at closing
    cases closing
  | refuses | doPendingTasks | call | proceed => exact ⟨rfl, .inr closing⟩
  | task read wrote t rest head ran =>
    rw [head] at closing
    cases closing
    refine ⟨by simp [noteForced, head], .inl ?_⟩
    rw [state_exec read wrote _ ran]
    rfl

theorem ForcedOnce.step {forced : Nat} (once : ForcedOnce (c, forced)) (forward : MovesForward c e)
    (stepped : c.step e = some c') : ForcedOnce (c', noteForced c e forced) := by
  rcases once with none | ⟨rfl, closed | closing⟩
  · -- the first time: `forceCloseInLoop` has found the connection open
    obtain rfl : forced = 0 := none
    by_cases asks : ∃ read wrote rest, e = .task read wrote ∧ c.todo = .forceCloseInLoop :: rest
    · obtain ⟨read, wrote, rest, rfl, head⟩ := asks
      by_cases closed : c.state = .disconnected
      · exact .inl (noteForced_closed closed 0)
      · simp only [step, head, exec, if_neg closed] at stepped
        cases stepped
        exact .inr ⟨by simp [noteForced, head, closed], .inr rfl⟩
    · left
      unfold noteForced
      split
      next read wrote rest head => exact absurd ⟨read, wrote, rest, rfl, head⟩ asks
      · rfl
  · -- a closed connection stays closed, and `forceCloseInLoop` does nothing on it
    refine .inr ⟨noteForced_closed closed 1, .inl ?_⟩
    have still := forward c' stepped
    rw [closed] at still
    revert still
    cases c'.state <;> simp [rank]
  · exact .inr (closing_step closing stepped 1)

end Forward

theorem inOrder_initial (settings : Settings) : InOrder (initial settings) where
  asks := ⟨by simp [initial], by simp [initial]⟩
  shaped := ⟨by simp [initial], by simp [initial]⟩
  looked := by simp [initial]

/-- **The state moves forward**, and `forceClose` leads to `handleClose` at most once, as
long as no other thread stores `kDisconnecting` into a connection that the loop has closed
since its load; such a store takes the state back. -/
theorem movesForward_iff (settings : Settings) (events : List Event) :
    let start := initial settings
    (Meets step MovesForward start events ∧
        Always (remembering step noteForced) (fun x => x.2 ≤ 1) (start, 0) events) ↔
      Meets step StoresInTime start events := by
  intro start
  have inOrder : Always step InOrder start events :=
    always_of_keeps (fun _ _ _ inOrder stepped => inOrder.step stepped) start events
      (inOrder_initial ..)
  have same : Meets step MovesForward start events ↔ Meets step StoresInTime start events :=
    meets_congr (P := InOrder) (fun _ _ _ inOrder stepped => inOrder.forward_iff stepped) start
      events inOrder
  refine ⟨fun both => same.mp both.1, fun inTime => ⟨same.mpr inTime, ?_⟩⟩
  have once : Always (remembering step noteForced) ForcedOnce (start, 0) events := by
    refine always_remembering (fun c forced e c' once forward stepped => ?_) start 0 events
      (Or.inl rfl) (same.mpr inTime)
    exact once.step forward stepped
  refine Always.mono (fun x once => ?_) _ events once
  rcases once with none | ⟨one, _⟩
  · omega
  · omega

/-- Two threads call `forceClose` and find the connection up. The loop closes it for the
first of them before the second one stores `kDisconnecting`. -/
def forcedByTwo : List Event :=
  [.establish, .returns, .task none none, .task none none,
    .call 7 .forceClose, .call 8 .forceClose, .proceed 7, .proceed 7,
    .doPendingTasks, .nextPendingTask, .task none none, .task none none, .returns,
    .task none none, .destroy, .task none none, .returns,
    .proceed 8]

/-- The state goes back to `kDisconnecting`, and `handleClose` runs again on the connection
that is destroyed already. -/
theorem forcedByTwo_back :
    ¬Meets step MovesForward (initial {}) forcedByTwo ∧
      (run (remembering step noteForced) (initial {}, 0)
        (forcedByTwo ++ [.proceed 8, .doPendingTasks, .nextPendingTask, .task none none,
          .task none none, .returns, .task none none])).map (fun x => (x.2, x.1.log)) =
        some (2, [.connection true, .connection false, .closed, .connection false, .closed]) := by
  decide +kernel

end Cox.Net.TcpConnection

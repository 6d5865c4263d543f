import Cox.Net.TcpConnection

/-!
# The control flow of a connection

What the two calls of `write` can do, and what a task may leave behind it, on `todo` and on the
stack. An invariant says which tasks may wait behind others; it is enough to look at the few that
the handlers put there.
-/
namespace Cox.Net.TcpConnection

open Cox.Lib List

/-! ### What the two calls of `write` do -/

/-- What the direct write of `sendInLoop` does: the kernel takes all of the data, or the rest is
left, or `write` fails. -/
inductive Offers (c : TcpConnection) (data : Bytes) (rest : List ConnTask) (c' : TcpConnection) :
    Prop where
  | whole (n : Nat) (all : n = data.length) (next : c' = (c.accept data n).invoke .writeComplete rest)
  | part (n : Nat) (within : n ≤ data.length)
      (next : c' = (c.accept data n).queueRest (data.drop n) rest)
  | failed (next : c' = c.queueRest data rest)

theorem offers_writeDirectly (c c' : TcpConnection) (data : Bytes) (wrote : Option Nat)
    (rest : List ConnTask) (ran : c.writeDirectly data wrote rest = some c') :
    Offers c data rest c' := by
  unfold writeDirectly at ran
  split at ran
  next n =>
    split at ran
    next => cases ran
    next within =>
      split at ran
      next all => exact .whole n all (Option.some.inj ran).symm
      next => exact .part n (Nat.not_lt.mp within) (Option.some.inj ran).symm
  next => exact .failed (Option.some.inj ran).symm

/-- What `handleWrite` does: nobody asked for it, or the kernel takes nothing, or it takes some
of the buffer. -/
inductive Flushes (c : TcpConnection) (rest : List ConnTask) (c' : TcpConnection) : Prop where
  | unasked (next : c' = c.next rest)
  | nothing (on : c.isWriting = true) (next : c' = (c.note .write).next rest)
  | takes (n : Nat) (on : c.isWriting = true) (within : n ≤ c.outputBuffer.length)
      (next : c' = (c.note .write).written n rest)

theorem flushes_handleWrite (c c' : TcpConnection) (wrote : Option Nat) (rest : List ConnTask)
    (ran : c.handleWrite wrote rest = some c') : Flushes c rest c' := by
  unfold handleWrite at ran
  split at ran
  next => exact .unasked (Option.some.inj ran).symm
  next asked =>
    have on : c.isWriting = true := by simpa using asked
    split at ran
    next n =>
      split at ran
      next => cases ran
      next within =>
        split at ran
        next => exact .nothing on (Option.some.inj ran).symm
        next => exact .takes n on (Nat.not_lt.mp within) (Option.some.inj ran).symm
    next => exact .nothing on (Option.some.inj ran).symm

/-! ### What a task leaves behind it -/

/-- The tasks that a handler leaves behind a callback or behind another task. -/
def Follows (c : TcpConnection) (running : ConnTask) : ConnTask → Prop
  | .capInput | .finishShutdown | .shutdownInLoop | .forceCloseInLoop => True
  | .closeCallback => running = .handleClose
  | .queueOutput _ => c.highWaterMark ≠ none
  | _ => False

/-- The tasks that a handler puts first. One that closes the connection, or is about to
store `kDisconnecting`, comes from a handler that has just found the connection open, or
from an event handler that does not look. -/
def Heads (c c' : TcpConnection) (running : ConnTask) : ConnTask → Prop
  | .sendInLoop _ | .queueOutput _ | .handleRead | .disconnect | .closeCallback => False
  | .setDisconnecting => c'.state = c.state ∧ c.state ≠ .disconnected
  | .handleClose | .handleError => c'.state = c.state ∧
      (c.state ≠ .disconnected ∨ running = .handleError ∨ running = .handleRead)
  | _ => True

/-- The tasks of `c'` are those of `c` without the first, with new ones before them, and
possibly with a callback that has to return first. -/
inductive Flows (c c' : TcpConnection) (running : ConnTask) (rest : List ConnTask) : Prop where
  | goesOn (new : List ConnTask) (todo : c'.todo = new ++ rest) (stack : c'.stack = c.stack)
      (behind : ∀ t ∈ new.tail, Follows c running t) (heads : ∀ t ∈ new.head?, Heads c c' running t)
  | calls (new : List ConnTask) (todo : c'.todo = []) (stack : c'.stack = (new ++ rest) :: c.stack)
      (behind : ∀ t ∈ new, Follows c running t)

section Flow

variable (c d : TcpConnection) (running : ConnTask) (rest : List ConnTask)

theorem flows_next (stack : d.stack = c.stack) : Flows c (d.next rest) running rest :=
  .goesOn [] rfl stack (by simp) (by simp)

theorem flows_push (first : ConnTask) (tail : List ConnTask)
    (behind : ∀ t ∈ tail, Follows c running t)
    (heads : Heads c (c.next (first :: tail ++ rest)) running first) :
    Flows c (c.next (first :: tail ++ rest)) running rest :=
  .goesOn (first :: tail) rfl rfl behind (by simpa using heads)

theorem flows_invoke (n : ConnNote) (new : List ConnTask) (stack : d.stack = c.stack)
    (behind : ∀ t ∈ new, Follows c running t) : Flows c (d.invoke n (new ++ rest)) running rest :=
  .calls new rfl (by simp [invoke, note, stack]) behind

theorem flows_queueOutput (data : Bytes) (stack : d.stack = c.stack) :
    Flows c (d.queueOutput data rest) running rest := by
  refine .goesOn [.armWriteTimer] rfl ?_ (by simp) (by simp [Heads])
  unfold queueOutput
  split <;> exact stack

theorem flows_queueRest (data : Bytes) (stack : d.stack = c.stack)
    (mark : d.highWaterMark = c.highWaterMark) :
    Flows c (d.queueRest data rest) running rest := by
  unfold queueRest
  split
  · exact flows_next c d running rest stack
  · dsimp only
    split
    next limit found =>
      split
      -- the mark is crossed: the callback runs before the data is in the buffer
      · refine flows_invoke c d running rest _ [.queueOutput data] stack ?_
        have set : c.highWaterMark ≠ none := by simp [← mark, found]
        simpa [Follows] using set
      · exact flows_queueOutput c d running rest data stack
    · exact flows_queueOutput c d running rest data stack

theorem flows_writeDirectly (c' : TcpConnection) (data : Bytes) (wrote : Option Nat)
    (stack : d.stack = c.stack) (mark : d.highWaterMark = c.highWaterMark)
    (ran : d.writeDirectly data wrote rest = some c') : Flows c c' running rest := by
  cases offers_writeDirectly d c' data wrote rest ran with
  | whole n all next =>
    rw [next]
    exact flows_invoke c _ running rest _ [] stack (by simp)
  | part n within next =>
    rw [next]
    exact flows_queueRest c _ running rest _ stack mark
  | failed next =>
    rw [next]
    exact flows_queueRest c d running rest _ stack mark

theorem flows_sendInLoop (c' : TcpConnection) (message : Message) (wrote : Option Nat)
    (ran : c.sendInLoop message wrote rest = some c') : Flows c c' running rest := by
  unfold sendInLoop at ran
  split at ran
  · cases ran
    exact flows_next c _ running rest rfl
  · split at ran
    · exact flows_writeDirectly c _ running rest c' _ wrote (by dsimp only [note, record, reach])
        (by dsimp only [note, record, reach]) ran
    · cases ran
      exact flows_queueRest c _ running rest _ (by dsimp only [record, reach])
        (by dsimp only [record, reach])

theorem flows_handleWrite (c' : TcpConnection) (wrote : Option Nat)
    (ran : c.handleWrite wrote rest = some c') : Flows c c' running rest := by
  cases flushes_handleWrite c c' wrote rest ran with
  | unasked next =>
    rw [next]
    exact flows_next c c running rest rfl
  | nothing on next =>
    rw [next]
    exact flows_next c _ running rest rfl
  | takes n on within next =>
    rw [next]
    unfold written
    split
    -- the buffer is empty: `finishShutdown` waits behind the write-complete callback
    · exact flows_invoke c _ running rest _ [.finishShutdown]
        (by dsimp only [cancelWriteTimer, disableWrite, retrieve, accept, note])
        (by simp [Follows])
    · exact flows_next c _ running rest (by dsimp only [retrieve, accept, note])

theorem flows_handleRead (read : Option Bytes) :
    Flows c (c.handleRead read rest) .handleRead rest := by
  unfold handleRead
  split
  · exact flows_push c .handleRead rest .handleClose [] (by simp) ⟨rfl, .inr (.inr rfl)⟩
  · refine flows_invoke c _ .handleRead rest _ [.capInput] ?_ (by simp [Follows])
    unfold resetIdleTimer
    split <;> rfl
  · exact flows_push c .handleRead rest .handleError [] (by simp) ⟨rfl, .inr (.inr rfl)⟩

end Flow

theorem flows_exec (c c' : TcpConnection) (read : Option Bytes) (wrote : Option Nat)
    (rest : List ConnTask) (t : ConnTask) (ran : c.exec read wrote rest t = some c') :
    Flows c c' t rest := by
  cases t with
  | handleWrite => exact flows_handleWrite c _ rest c' wrote ran
  | sendInLoop message => exact flows_sendInLoop c _ rest c' message wrote ran
  | handleRead =>
    cases ran
    exact flows_handleRead c rest read
  | queueOutput data =>
    cases ran
    exact flows_queueOutput c c _ rest data rfl
  | handleError =>
    cases ran
    exact flows_push c _ rest .handleClose [] (by simp) ⟨rfl, .inr (.inl rfl)⟩
  | handleClose =>
    cases ran
    exact flows_invoke c _ _ rest _ [.closeCallback] rfl (by simp [Follows])
  | closeCallback =>
    cases ran
    exact flows_invoke c c _ rest _ [] rfl (by simp)
  | disconnect =>
    cases ran
    exact flows_invoke c _ _ rest _ [] rfl (by simp)
  | setDisconnecting | removeChannel =>
    cases ran
    exact flows_next c _ _ rest rfl
  | resetIdleTimer | armWriteTimer | armMaxAgeTimer =>
    cases ran
    apply flows_next
    simp only [resetIdleTimer, armWriteTimer, armMaxAgeTimer]
    split <;> rfl
  | capInput =>
    simp only [exec] at ran
    split at ran <;> cases ran
    · exact flows_push c _ rest .forceClose [] (by simp) trivial
    · exact flows_next c c _ rest rfl
  | finishShutdown =>
    simp only [exec] at ran
    split at ran <;> cases ran
    · exact flows_push c _ rest .shutdownInLoop [] (by simp) trivial
    · exact flows_next c c _ rest rfl
  | shutdown =>
    simp only [exec] at ran
    split at ran <;> cases ran
    next up =>
      exact flows_push c _ rest .setDisconnecting [.shutdownInLoop] (by simp [Follows])
        ⟨rfl, by simp [up]⟩
    · exact flows_next c c _ rest rfl
  | forceClose =>
    simp only [exec] at ran
    split at ran <;> cases ran
    next up =>
      exact flows_push c _ rest .setDisconnecting [.forceCloseInLoop] (by simp [Follows])
        ⟨rfl, by simp [up]⟩
    · exact flows_push c _ rest .forceCloseDisconnecting [] (by simp) trivial
  | forceCloseDisconnecting =>
    simp only [exec] at ran
    split at ran <;> cases ran
    next up =>
      exact flows_push c _ rest .setDisconnecting [.forceCloseInLoop] (by simp [Follows])
        ⟨rfl, by simp [up]⟩
    · exact flows_next c c _ rest rfl
  | forceCloseInLoop =>
    simp only [exec] at ran
    split at ran <;> cases ran
    · exact flows_next c c _ rest rfl
    next up => exact flows_push c _ rest .handleClose [] (by simp) ⟨rfl, .inl up⟩
  | shutdownInLoop | stopReadInLoop | startReadInLoop =>
    simp only [exec] at ran
    split at ran <;> cases ran
    · exact flows_next c _ _ rest rfl
    · exact flows_next c _ _ rest rfl

/-- Only tasks of one kind wait behind others, on `todo` and behind callbacks. -/
structure Shaped (Behind : ConnTask → Prop) (c : TcpConnection) : Prop where
  todo : ∀ t ∈ c.todo.tail, Behind t
  stack : ∀ frame ∈ c.stack, ∀ t ∈ frame, Behind t

section Shape

variable {Behind : ConnTask → Prop} {c c' : TcpConnection}

theorem Shaped.same (shaped : Shaped Behind c) (todo : c'.todo = c.todo)
    (stack : c'.stack = c.stack) : Shaped Behind c' where
  todo := todo ▸ shaped.todo
  stack := stack ▸ shaped.stack

theorem Shaped.begins (shaped : Shaped Behind c) (tasks : List ConnTask) (todo : c'.todo = tasks)
    (stack : c'.stack = c.stack) (behind : ∀ t ∈ tasks.tail, Behind t) : Shaped Behind c' where
  todo := todo ▸ behind
  stack := stack ▸ shaped.stack

theorem Shaped.single (shaped : Shaped Behind c) (t : ConnTask) (todo : c'.todo = [t])
    (stack : c'.stack = c.stack) : Shaped Behind c' :=
  shaped.begins [t] todo stack (fun _ inside => by cases inside)

theorem Shaped.flows (shaped : Shaped Behind c) (t : ConnTask) (rest : List ConnTask)
    (head : c.todo = t :: rest) (follows : ∀ u, Follows c t u → Behind u)
    (flow : Flows c c' t rest) : Shaped Behind c' := by
  have waiting : ∀ t ∈ rest, Behind t := by
    have tail := shaped.todo
    rwa [head] at tail
  -- new tasks are behind others by `Follows`, old ones because they were before
  have before (new : List ConnTask) (behind : ∀ u ∈ new, Follows c t u) :
      ∀ u ∈ new ++ rest, Behind u := by
    exact forall_mem_append.mpr ⟨fun u h => follows u (behind u h), waiting⟩
  cases flow with
  | goesOn new todo stack behind _ =>
    refine ⟨?_, stack ▸ shaped.stack⟩
    rw [todo]
    cases new with
    | nil => exact fun t inside => waiting t (mem_of_mem_tail inside)
    | cons first new => exact before new behind
  | calls new todo stack behind =>
    refine ⟨by simp [todo], ?_⟩
    rw [stack]
    exact forall_mem_cons.mpr ⟨before new behind, shaped.stack⟩

def Waits (c : TcpConnection) (e : Event) (t : ConnTask) : Prop :=
  match e with
  | .establish => t = .armMaxAgeTimer ∨ t = .resetIdleTimer
  | .destroy => t = .removeChannel
  | .dispatch error read write => t ∈ (handlers error read write).tail
  | .task _ _ => ∃ running, Follows c running t
  | _ => False

def Starts (c : TcpConnection) (e : Event) (t : ConnTask) : Prop :=
  match e with
  | .destroy => t = .disconnect ∧ c.state = .connected ∨ t = .removeChannel
  | .dispatch error read write => t ∈ (handlers error read write).head?
  | .shutdown => t = .shutdown
  | .forceClose | .idleTimeout | .writeTimeout | .maxAge => t = .forceClose
  | .stopRead => t = .stopReadInLoop
  | .startRead => t = .startReadInLoop
  | _ => False

/-- The events on which the loop thread, at rest, begins with tasks that no queue and no
message is behind. -/
def Event.Begins : Event → Prop
  | .destroy | .dispatch _ _ _ | .shutdown | .forceClose | .stopRead | .startRead | .retrieve _
  | .idleTimeout | .writeTimeout | .maxAge => True
  | _ => False

/-- New tasks; besides them only timers and the input buffer are touched. -/
def begun (c : TcpConnection) (tasks : List ConnTask) (idle write maxAge : Bool)
    (input : Bytes) : TcpConnection :=
  { c with
    todo := tasks
    idleTimerArmed := idle
    writeTimerArmed := write
    maxAgeTimerArmed := maxAge
    inputBuffer := input }

theorem begins_step {e : Event} (stepped : c.step e = some c') (begins : e.Begins) :
    c.todo = [] ∧ ∃ tasks idle write maxAge input, c' = c.begun tasks idle write maxAge input ∧
      (∀ t ∈ tasks.head?, Starts c e t) ∧ ∀ t ∈ tasks.tail, Waits c e t := by
  cases e with
  | destroy =>
    simp only [step] at stepped
    split at stepped <;> cases stepped
    next rests =>
      refine ⟨rests, _, _, _, _, _, rfl, ?_⟩
      -- `disconnect` comes first only if the connection is up
      by_cases up : c.state = .connected <;> simp [Starts, Waits, up]
  | dispatch error read write =>
    simp only [step] at stepped
    split at stepped <;> cases stepped
    next between => exact ⟨between.1.1, _, _, _, _, _, rfl, fun _ first => first, fun _ => id⟩
  | shutdown | forceClose | stopRead | startRead =>
    simp only [step] at stepped
    split at stepped <;> cases stepped
    next rests => exact ⟨rests, _, _, _, _, _, rfl, by simp [Starts], by simp⟩
  | retrieve n =>
    simp only [step] at stepped
    split at stepped <;> cases stepped
    next rests => exact ⟨rests, c.todo, _, _, _, _, rfl, by simp [rests], by simp [rests]⟩
  | idleTimeout | maxAge =>
    simp only [step] at stepped
    split at stepped <;> cases stepped
    next between => exact ⟨between.1.1, _, _, _, _, _, rfl, by simp [Starts], by simp⟩
  | writeTimeout =>
    simp only [step] at stepped
    split at stepped <;> cases stepped
    next between =>
      have rests := between.1.1
      split
      · exact ⟨rests, c.todo, _, _, _, _, rfl, by simp [rests], by simp [rests]⟩
      · exact ⟨rests, _, _, _, _, _, rfl, by simp [Starts], by simp⟩
  | _ => exact begins.elim

def openings : List ConnTask :=
  [.handleError, .handleRead, .handleWrite, .disconnect, .removeChannel, .shutdown, .forceClose,
    .stopReadInLoop, .startReadInLoop]

/-- Only `connectDestroyed` begins with `disconnect` or with `removeChannel`. -/
theorem starts_cases {e : Event} {t : ConnTask} (starts : Starts c e t) :
    e = .destroy ∧ (t = .disconnect ∨ t = .removeChannel) ∨
      t ∈ openings ∧ t ≠ .disconnect ∧ t ≠ .removeChannel := by
  cases e with
  | destroy =>
    left
    rcases starts with ⟨rfl, _⟩ | rfl <;> simp
  | dispatch error read write =>
    right
    cases error <;> cases read <;> cases write <;> cases starts <;> decide
  | shutdown | forceClose | stopRead | startRead | idleTimeout | writeTimeout | maxAge =>
    right
    cases starts
    decide
  | _ => exact starts.elim

theorem waits_cases {e : Event} {t : ConnTask} (waits : Waits c e t) :
    e = .destroy ∧ t = .removeChannel ∨
      e = .establish ∧ (t = .armMaxAgeTimer ∨ t = .resetIdleTimer) ∨
      (t = .handleRead ∨ t = .handleWrite) ∨
      ∃ read wrote running, e = .task read wrote ∧ Follows c running t := by
  cases e with
  | destroy => exact .inl ⟨rfl, waits⟩
  | establish => exact .inr (.inl ⟨rfl, waits⟩)
  | dispatch error read write =>
    right; right; left
    revert waits
    cases error <;> cases read <;> cases write <;> simp +contextual [Waits, handlers]
  | task read wrote =>
    obtain ⟨running, follows⟩ := waits
    exact .inr (.inr (.inr ⟨read, wrote, running, rfl, follows⟩))
  | _ => exact waits.elim

theorem begun_mem {e : Event} (tasks : List ConnTask) (starts : ∀ t ∈ tasks.head?, Starts c e t)
    (behind : ∀ t ∈ tasks.tail, Waits c e t) (begins : e.Begins) (t : ConnTask)
    (inside : t ∈ tasks) : t ∈ openings := by
  cases tasks with
  | nil => cases inside
  | cons first tasks =>
    rcases mem_cons.mp inside with rfl | later
    · rcases starts_cases (starts _ rfl) with ⟨_, rfl | rfl⟩ | other
      · decide
      · decide
      · exact other.1
    · rcases waits_cases (behind _ later) with ⟨_, rfl⟩ | ⟨rfl, _⟩ | other | ⟨_, _, _, rfl, _⟩
      · decide
      · exact begins.elim
      · rcases other with rfl | rfl <;> decide
      · exact begins.elim

inductive Moves (c : TcpConnection) : Event → TcpConnection → Prop where
  | establish (between : c.Between) (fresh : c.state = .connecting) :
      Moves c .establish
        ((c.setState .connected).enableRead.notify [.resetIdleTimer, .armMaxAgeTimer])
  | begins {e : Event} (begins : e.Begins) (idle : c.todo = []) (tasks : List ConnTask)
      (idleTimer writeTimer maxAgeTimer : Bool) (input : Bytes)
      (starts : ∀ t ∈ tasks.head?, Starts c e t) (behind : ∀ t ∈ tasks.tail, Waits c e t) :
      Moves c e (c.begun tasks idleTimer writeTimer maxAgeTimer input)
  | task {c' : TcpConnection} (read : Option Bytes) (wrote : Option Nat) (t : ConnTask)
      (rest : List ConnTask) (head : c.todo = t :: rest)
      (ran : c.exec read wrote rest t = some c') : Moves c (.task read wrote) c'
  | returns (rest : List ConnTask) (stack : List (List ConnTask)) (idle : c.todo = [])
      (framed : c.stack = rest :: stack) : Moves c .returns { c with todo := rest, stack }
  | send (data : Bytes) (idle : c.todo = []) (up : c.state = .connected) :
      Moves c (.send data) ((c.calls ⟨none, data⟩).next [.sendInLoop ⟨none, data⟩])
  | refuses (data : Bytes) : Moves c (.send data) c
  | doPendingTasks (between : c.Between) :
      Moves c .doPendingTasks { c with batch := c.pendingTasks, pendingTasks := [] }
  | nextPendingTask (t : ConnTask) (batch : List ConnTask) (idle : c.todo = [])
      (empty : c.stack = []) (first : c.batch = t :: batch) :
      Moves c .nextPendingTask { c with todo := [t], batch }
  | call (t : ThreadId) (call : Call) (idle : c.inCall t = none) (called : List Message)
      (inCall : ThreadId → Option CallPhase)
      (same : c.startCall t call = { c with called, inCall }) :
      Moves c (.call t call) { c with called, inCall }
  | proceed (t : ThreadId) (phase : CallPhase) (inside : c.inCall t = some phase)
      (state : TcpState) (pendingTasks : List ConnTask) (inCall : ThreadId → Option CallPhase)
      (same : c.continueCall t phase = { c with state, pendingTasks, inCall })
      (stored : state = c.state ∨ state = .disconnecting ∧ ∃ task, phase = .storing task) :
      Moves c (.proceed t) { c with state, pendingTasks, inCall }

theorem startCall_apart (t : ThreadId) (call : Call) :
    ∃ called inCall, c.startCall t call = { c with called, inCall } := by
  cases call <;> simp only [startCall]
  case stopRead | startRead => exact ⟨_, _, rfl⟩
  all_goals split <;> exact ⟨_, _, rfl⟩

theorem continueCall_apart (t : ThreadId) (phase : CallPhase) :
    ∃ state pendingTasks inCall,
      c.continueCall t phase = { c with state, pendingTasks, inCall } ∧
      (state = c.state ∨ state = .disconnecting ∧ ∃ task, phase = .storing task) := by
  cases phase with
  | forceCloseDisconnecting =>
    simp only [continueCall]
    split <;> exact ⟨_, _, _, rfl, .inl rfl⟩
  | storing task => exact ⟨_, _, _, rfl, .inr ⟨rfl, task, rfl⟩⟩
  | queueing task => exact ⟨_, _, _, rfl, .inl rfl⟩

theorem moves_step {e : Event} (stepped : c.step e = some c') : Moves c e c' := by
  cases e with
  | destroy | dispatch | shutdown | forceClose | stopRead | startRead | retrieve | idleTimeout
  | writeTimeout | maxAge =>
    obtain ⟨idle, tasks, _, _, _, _, rfl, starts, behind⟩ := begins_step stepped trivial
    refine .begins ?_ idle tasks _ _ _ _ starts behind
    trivial
  | establish =>
    simp only [step] at stepped
    split at stepped <;> cases stepped
    next fresh => exact .establish fresh.1 fresh.2
  | task read wrote =>
    simp only [step] at stepped
    split at stepped
    next t rest head => exact .task read wrote t rest head stepped
    · cases stepped
  | returns =>
    simp only [step] at stepped
    split at stepped <;> cases stepped
    next rest stack idle framed => exact .returns rest stack idle framed
  | send data =>
    simp only [step] at stepped
    split at stepped
    · cases stepped
    next idle =>
      split at stepped <;> cases stepped
      next up => exact .send data (not_not.mp idle) up
      · exact .refuses data
  | doPendingTasks =>
    simp only [step] at stepped
    split at stepped <;> cases stepped
    next between => exact .doPendingTasks between
  | nextPendingTask =>
    simp only [step] at stepped
    split at stepped <;> cases stepped
    next t batch idle empty first => exact .nextPendingTask t batch idle empty first
  | call t call =>
    simp only [step] at stepped
    split at stepped <;> cases stepped
    next idle =>
      obtain ⟨called, inCall, same⟩ := startCall_apart (c := c) t call
      exact same ▸ .call t call idle called inCall same
  | proceed t =>
    simp only [step] at stepped
    split at stepped <;> cases stepped
    next phase inside =>
      obtain ⟨_, _, _, same, stored⟩ := continueCall_apart (c := c) t phase
      exact same ▸ .proceed t phase inside _ _ _ same stored

theorem Shaped.step (shaped : Shaped Behind c) (e : Event) (waits : ∀ t, Waits c e t → Behind t)
    (stepped : c.step e = some c') : Shaped Behind c' := by
  cases moves_step stepped with
  | begins _ _ tasks _ _ _ _ _ behind =>
    exact shaped.begins tasks rfl rfl (fun t inside => waits t (behind t inside))
  | establish =>
    refine ⟨by simp [notify, invoke], ?_⟩
    refine forall_mem_cons.mpr ⟨fun t inside => ?_, shaped.stack⟩
    apply waits
    simpa [Waits, or_comm] using inside
  | task read wrote t rest head ran =>
    exact shaped.flows t rest head (fun u follows => waits u ⟨t, follows⟩)
      (flows_exec c c' read wrote rest t ran)
  | returns rest stack _ framed =>
    have frames := shaped.stack
    rw [framed] at frames
    exact ⟨fun t inside => frames rest (mem_cons_self ..) t (mem_of_mem_tail inside),
      fun frame inStack => frames frame (mem_cons_of_mem _ inStack)⟩
  | send => exact shaped.single _ rfl rfl
  | refuses => exact shaped
  | doPendingTasks | call | proceed => exact shaped.same rfl rfl
  | nextPendingTask => exact shaped.single _ rfl rfl

end Shape

end Cox.Net.TcpConnection

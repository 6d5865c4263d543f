import Cox.Net.TcpForward
import Cox.Net.TcpHalfClose

/-!
# Teardown of a connection

The owner of a connection ends it with `connectDestroyed`, which announces the disconnect of
a connection that is still `kConnected` and takes the channel out of the poller. A connection
that `handleClose` has closed was announced before. One that is `kDisconnecting` is neither:
after `shutdown` the application may never hear that the connection is gone.
-/
namespace Cox.Net.TcpConnection

open Cox.Lib Machine List

/-! ### The tasks ahead -/

def ahead (c : TcpConnection) : List ConnTask := c.todo ++ c.stack.flatten

def Spawned : ConnTask → Prop
  | .handleError | .handleClose | .capInput | .finishShutdown | .closeCallback | .queueOutput _
  | .shutdownInLoop | .forceClose | .forceCloseDisconnecting | .setDisconnecting
  | .forceCloseInLoop | .armWriteTimer => True
  | _ => False

section Ahead

variable {c c' d : TcpConnection} {rest : List ConnTask}

/-- The running handler goes on with what was left, waits for a callback, or has put
something first. -/
def GoesOn (c' : TcpConnection) (rest : List ConnTask) : Prop :=
  c'.todo = rest ∨ c'.todo = [] ∨ ∃ first, c'.todo.head? = some first ∧ Spawned first

theorem goesOn_next : GoesOn (d.next rest) rest := .inl rfl

theorem goesOn_push (first : ConnTask) (tasks : List ConnTask) (spawned : Spawned first) :
    GoesOn (d.next (first :: tasks)) rest :=
  .inr (.inr ⟨first, rfl, spawned⟩)

theorem goesOn_invoke (n : ConnNote) (tasks : List ConnTask) : GoesOn (d.invoke n tasks) rest :=
  .inr (.inl rfl)

theorem goesOn_queueRest (data : Bytes) : GoesOn (d.queueRest data rest) rest := by
  unfold queueRest
  split
  · exact goesOn_next
  · dsimp only
    split
    · split
      · exact goesOn_invoke _ _
      · exact goesOn_push .armWriteTimer rest trivial
    · exact goesOn_push .armWriteTimer rest trivial

theorem goesOn_sendInLoop (message : Message) (wrote : Option Nat)
    (ran : c.sendInLoop message wrote rest = some c') : GoesOn c' rest := by
  cases sends_sendInLoop wrote rest ran with
  | drops closed next =>
    rw [next]
    exact goesOn_next
  | whole d written direct next =>
    rw [next]
    exact goesOn_invoke _ _
  | leaves d n written direct next =>
    rw [next]
    exact goesOn_queueRest _

theorem goesOn_handleWrite (wrote : Option Nat) (ran : c.handleWrite wrote rest = some c') :
    GoesOn c' rest := by
  cases flushes_handleWrite c c' wrote rest ran with
  | unasked next =>
    rw [next]
    exact goesOn_next
  | nothing on next =>
    rw [next]
    exact goesOn_next
  | takes n on within next =>
    rw [next]
    unfold written
    split
    · exact goesOn_invoke _ _
    · exact goesOn_next

theorem goesOn_exec (read : Option Bytes) (wrote : Option Nat) (t : ConnTask)
    (ran : c.exec read wrote rest t = some c') : GoesOn c' rest := by
  cases t with
  | sendInLoop message => exact goesOn_sendInLoop message wrote ran
  | handleWrite => exact goesOn_handleWrite wrote ran
  | handleRead =>
    cases ran
    unfold handleRead
    split
    · exact goesOn_push .handleClose rest trivial
    · exact goesOn_invoke _ _
    · exact goesOn_push .handleError rest trivial
  | handleError | queueOutput =>
    cases ran
    exact goesOn_push _ rest trivial
  | handleClose | closeCallback | disconnect =>
    cases ran
    exact goesOn_invoke _ _
  | setDisconnecting | removeChannel | resetIdleTimer | armWriteTimer | armMaxAgeTimer =>
    cases ran
    exact goesOn_next
  | capInput | finishShutdown | shutdown | shutdownInLoop | forceClose | forceCloseDisconnecting
  | forceCloseInLoop | stopReadInLoop | startReadInLoop =>
    simp only [exec] at ran
    split at ran <;> cases ran
    all_goals first | exact goesOn_next | exact goesOn_push _ _ trivial

theorem spawned_of_follows (running t : ConnTask) (follows : Follows c running t) : Spawned t := by
  cases t <;> trivial

theorem ahead_exec (read : Option Bytes) (wrote : Option Nat) (t : ConnTask)
    (ran : c.exec read wrote rest t = some c') (u : ConnTask) (inside : u ∈ c'.ahead) :
    u ∈ rest ++ c.stack.flatten ∨ Spawned u := by
  have goesOn := goesOn_exec read wrote t ran
  have new_or_old (new : List ConnTask) (fresh : ∀ v ∈ new, Spawned v)
      (inside : u ∈ (new ++ rest) ++ c.stack.flatten) : u ∈ rest ++ c.stack.flatten ∨ Spawned u := by
    rw [append_assoc] at inside
    exact (mem_append.mp inside).elim (fun new => .inr (fresh u new)) .inl
  cases flows_exec c c' read wrote rest t ran with
  | goesOn new todo stack behind _ =>
    refine new_or_old new ?_ (by rwa [ahead, todo, stack] at inside)
    cases new with
    | nil => simp
    | cons first tail =>
      -- `new` is not empty, so its first task is one that the handler has put there
      have put : Spawned first := by
        rcases goesOn with same | none | ⟨found, head, spawned⟩
        · rw [same] at todo
          have lengths := congrArg List.length todo
          simp at lengths
          omega
        · simp [none] at todo
        · rw [todo] at head
          cases head
          exact spawned
      intro v member
      rcases mem_cons.mp member with rfl | later
      · exact put
      · exact spawned_of_follows t v (behind v later)
  | calls new todo stack behind =>
    refine new_or_old new (fun v member => spawned_of_follows t v (behind v member)) ?_
    simpa [ahead, todo, stack] using inside

theorem ahead_step (asks : Asks c) (e : Event) (stepped : c.step e = some c') (u : ConnTask)
    (inside : u ∈ c'.ahead) :
    u ∈ c.ahead ∨ Spawned u ∨ Asked u ∨ Starts c e u ∨ e = .establish ∨
      e.Begins ∧ Waits c e u := by
  cases moves_step stepped with
  | establish => exact .inr (.inr (.inr (.inr (.inl rfl))))
  | begins begins idle tasks _ _ _ _ starts behind =>
    rcases mem_append.mp inside with new | old
    · cases tasks with
      | nil => cases new
      | cons first tasks =>
        rcases mem_cons.mp new with rfl | later
        · exact .inr (.inr (.inr (.inl (starts _ rfl))))
        · exact .inr (.inr (.inr (.inr (.inr ⟨begins, behind u later⟩))))
    · exact .inl (mem_append_right _ old)
  | task read wrote t rest head ran =>
    rcases ahead_exec read wrote t ran u inside with old | spawned
    · left
      rw [ahead, head]
      exact mem_cons_of_mem t old
    · exact .inr (.inl spawned)
  | returns rest stack idle framed =>
    left
    rw [ahead, idle, framed]
    exact inside
  | send data =>
    rcases mem_append.mp inside with new | old
    · rw [mem_singleton.mp new]
      exact .inr (.inr (.inl trivial))
    · exact .inl (mem_append_right _ old)
  | refuses | doPendingTasks | call | proceed => exact .inl inside
  | nextPendingTask t batch idle empty first =>
    rcases mem_append.mp inside with new | old
    · refine .inr (.inr (.inl (asks.queued u ?_)))
      rw [mem_singleton.mp new, first]
      exact mem_cons_self ..
    · exact .inl (mem_append_right _ old)

end Ahead

/-! ### What is announced -/

section Notes

variable {c c' : TcpConnection} {rest : List ConnTask}

/-- A task only adds to the log; a connect is not among it, a disconnect is if that is stored. -/
theorem notes_exec (read : Option Bytes) (wrote : Option Nat) (t : ConnTask)
    (ran : c.exec read wrote rest t = some c') :
    ∃ notes, c'.log = c.log ++ notes ∧ .connection true ∉ notes ∧
      (.connection false ∈ notes ↔ t = .handleClose ∨ t = .disconnect) := by
  cases t with
  | handleClose | disconnect =>
    cases ran
    exact ⟨[.connection false], rfl, by simp, by simp⟩
  | closeCallback =>
    cases ran
    exact ⟨[.closed], rfl, by simp, by simp⟩
  | setDisconnecting =>
    cases ran
    exact ⟨[], by simp [next, setState], by simp, by simp⟩
  | handleRead =>
    cases ran
    unfold handleRead
    split
    · exact ⟨[], by simp [next], by simp, by simp⟩
    · refine ⟨[.message], ?_, by simp, by simp⟩
      unfold resetIdleTimer
      split <;> rfl
    · exact ⟨[], by simp [next], by simp, by simp⟩
  | _ =>
    obtain ⟨notes, log, quiet⟩ := (quietly_exec c c' read wrote rest _ (by simp [Loud]) ran).log
    exact ⟨notes, log, fun inside => quiet _ inside,
      iff_of_false (fun inside => quiet _ inside) (by simp)⟩

theorem log_step (e : Event) (stepped : c.step e = some c') :
    (∀ n ∈ c.log, n ∈ c'.log) ∧
      (.connection true ∈ c'.log → .connection true ∈ c.log ∨ e = .establish) := by
  cases moves_step stepped with
  | establish =>
    refine ⟨fun n old => ?_, fun _ => .inr rfl⟩
    simp [notify, invoke, note, enableRead, setState, old]
  | begins | returns | send | refuses | doPendingTasks | nextPendingTask | call | proceed =>
    exact ⟨fun _ => id, .inl⟩
  | task read wrote t rest head ran =>
    obtain ⟨notes, log, none, _⟩ := notes_exec read wrote t ran
    rw [log]
    refine ⟨fun n old => mem_append_left _ old, fun inside => .inl ?_⟩
    exact (mem_append.mp inside).elim id fun new => absurd new none

end Notes

/-! ### Before the connection is established -/

/-- The tasks that leave a connection that is not up yet as it is. -/
def Early : ConnTask → Prop
  | .shutdown | .forceClose | .forceCloseDisconnecting | .stopReadInLoop | .startReadInLoop
  | .removeChannel => True
  | _ => False

/-- A connection before `connectEstablished`: nothing is under way that would store a state. -/
structure Untouched (c : TcpConnection) : Prop where
  state : c.state = .connecting
  stack : c.stack = []
  todo : ∀ t ∈ c.todo, Early t
  queued : ∀ t ∈ c.batch ++ c.pendingTasks, Early t
  calls : ∀ t phase, c.inCall t = some phase →
    phase = .forceCloseDisconnecting ∨ ∃ task, phase = .queueing task ∧ Early task
  silent : .connection true ∉ c.log

def Opened (c : TcpConnection) : Prop := c.state ≠ .connecting ∧ .connection true ∈ c.log

section Opening

variable {c c' : TcpConnection} {e : Event}

theorem Untouched.begun (untouched : Untouched c) (stepped : c.step e = some c')
    (tasks : List ConnTask) (starts : ∀ t ∈ tasks.head?, Starts c e t)
    (behind : ∀ t ∈ tasks.tail, Waits c e t) (begins : e.Begins) : ∀ t ∈ tasks, Early t := by
  have first (t : ConnTask) (starts : Starts c e t) : Early t := by
    cases e with
    | dispatch => simp [step, untouched.state] at stepped
    | destroy =>
      rcases starts with ⟨_, up⟩ | rfl
      · rw [untouched.state] at up
        cases up
      · trivial
    | shutdown | forceClose | stopRead | startRead | idleTimeout | writeTimeout | maxAge =>
      cases starts
      trivial
    | _ => exact starts.elim
  have later (t : ConnTask) (waits : Waits c e t) : Early t := by
    cases e with
    | dispatch => simp [step, untouched.state] at stepped
    | destroy =>
      cases waits
      trivial
    | establish | task => exact begins.elim
    | _ => exact waits.elim
  cases tasks with
  | nil => simp
  | cons t tasks =>
    intro u inside
    rcases mem_cons.mp inside with rfl | tail
    · exact first u (starts u rfl)
    · exact later u (behind u tail)

theorem early_exec (read : Option Bytes) (wrote : Option Nat) (rest : List ConnTask) (t : ConnTask)
    (early : Early t) (fresh : c.state = .connecting) (ran : c.exec read wrote rest t = some c') :
    c'.state = .connecting ∧ c'.stack = c.stack ∧ ∀ u ∈ c'.todo, u ∈ rest ∨ Early u := by
  cases t with
  | shutdown | forceCloseDisconnecting =>
    simp only [exec, fresh, reduceCtorEq, if_false] at ran
    cases ran
    exact ⟨fresh, rfl, fun _ => .inl⟩
  | forceClose =>
    simp only [exec, fresh, reduceCtorEq, if_false] at ran
    cases ran
    refine ⟨fresh, rfl, fun u inside => ?_⟩
    rcases mem_cons.mp inside with rfl | old
    · exact .inr trivial
    · exact .inl old
  | stopReadInLoop | startReadInLoop =>
    simp only [exec] at ran
    split at ran <;> cases ran
    all_goals exact ⟨fresh, rfl, fun _ => .inl⟩
  | removeChannel =>
    cases ran
    exact ⟨fresh, rfl, fun _ => .inl⟩
  | _ => exact early.elim

section Untouched

variable (untouched : Untouched c)
include untouched

theorem Untouched.task (read : Option Bytes) (wrote : Option Nat) (t : ConnTask)
    (rest : List ConnTask) (head : c.todo = t :: rest) (ran : c.exec read wrote rest t = some c') :
    Untouched c' := by
  have tasks := untouched.todo
  rw [head] at tasks
  have early := tasks t (mem_cons_self ..)
  obtain ⟨state, stack, todo⟩ := early_exec read wrote rest t early untouched.state ran
  obtain ⟨inCall, batch, pending, _⟩ := posting_exec read wrote t ran
  obtain ⟨notes, log, none, _⟩ := notes_exec read wrote t ran
  refine ⟨state, stack.trans untouched.stack, fun u inside => ?_, ?_, ?_, ?_⟩
  · exact (todo u inside).elim (fun old => tasks u (mem_cons_of_mem t old)) id
  · rw [batch, pending]
    exact untouched.queued
  · rw [inCall]
    exact untouched.calls
  · rw [log]
    exact fun inside => (mem_append.mp inside).elim untouched.silent none

theorem Untouched.enter (t : ThreadId) (phase : Option CallPhase)
    (early : ∀ p, phase = some p → p = .forceCloseDisconnecting ∨ ∃ task, p = .queueing task ∧ Early task) :
    Untouched (c.enter t phase) := by
  refine { untouched with calls := fun u p inCall => ?_ }
  simp only [TcpConnection.enter, Function.update_apply] at inCall
  split at inCall
  · exact early p inCall
  · exact untouched.calls u p inCall

theorem Untouched.startCall (t : ThreadId) (call : Call) : Untouched (c.startCall t call) := by
  -- no call that stores a state gets past its load of `kConnecting`
  have down : c.state ≠ .connected := by simp [untouched.state]
  cases call with
  | send | shutdown =>
    simp only [TcpConnection.startCall, if_neg down]
    exact untouched
  | forceClose =>
    simp only [TcpConnection.startCall, if_neg down]
    exact untouched.enter t _ fun p same => Or.inl (Option.some.inj same).symm
  | stopRead | startRead =>
    exact untouched.enter t _ fun p same => .inr ⟨_, (Option.some.inj same).symm, trivial⟩

theorem Untouched.continueCall (t : ThreadId) (phase : CallPhase) (inCall : c.inCall t = some phase) :
    Untouched (c.continueCall t phase) := by
  rcases untouched.calls t phase inCall with rfl | ⟨task, rfl, early⟩
  · have down : c.state ≠ .disconnecting := by simp [untouched.state]
    simp only [TcpConnection.continueCall, if_neg down]
    exact untouched.enter t none (by simp)
  · have queued : Untouched { c with pendingTasks := c.pendingTasks ++ [task] } :=
      { untouched with queued := forall_mem_queued untouched.queued task early }
    exact queued.enter t none (by simp)

theorem Untouched.step (stepped : c.step e = some c') :
    Untouched c' ∨ e = .establish ∧ Opened c' := by
  cases moves_step stepped with
  | establish =>
    right
    exact ⟨rfl, by simp [notify, invoke, note, enableRead, setState],
      by simp [notify, invoke, note, enableRead, setState]⟩
  | begins begins idle tasks _ _ _ _ starts behind =>
    left
    exact { untouched with todo := untouched.begun stepped tasks starts behind begins }
  | task read wrote t rest head ran => exact .inl (untouched.task read wrote t rest head ran)
  | returns rest stack _ framed => simp [untouched.stack] at framed
  | send _ _ up => simp [untouched.state] at up
  | refuses => exact .inl untouched
  | doPendingTasks between =>
    have queued := untouched.queued
    rw [between.2.2] at queued
    left
    exact { untouched with queued := by simpa using queued }
  | nextPendingTask t batch _ _ first =>
    have queued := untouched.queued
    rw [first] at queued
    left
    refine { untouched with todo := ?_, queued := fun u inside => ?_ }
    · simpa using queued t (mem_cons_self ..)
    · exact queued u (mem_cons_of_mem t inside)
  | call t call _ _ _ same => exact .inl (same ▸ untouched.startCall t call)
  | proceed t phase inside _ _ _ same =>
    exact .inl (same ▸ untouched.continueCall t phase inside)

end Untouched

theorem Opened.step (opened : Opened c) (inOrder : InOrder c) (stepped : c.step e = some c') :
    Opened c' := by
  refine ⟨fun fresh => ?_, (log_step e stepped).1 _ opened.2⟩
  rcases inOrder.state_step stepped with forward | ⟨_, stored⟩
  · rw [fresh] at forward
    have before := opened.1
    revert forward before
    cases c.state <;> simp [rank]
  · rw [fresh] at stored
    cases stored

end Opening

/-! ### The owner lets go -/

/-- The last step of `connectDestroyed`: the channel leaves the poller, and it returns. -/
def EndsDestroy (c : TcpConnection) : Event → Prop
  | .task _ _ => c.todo.head? = some .removeChannel
  | _ => False

instance (c : TcpConnection) (e : Event) : Decidable (EndsDestroy c e) := by
  apply @Event.casesOn (fun e => Decidable (EndsDestroy c e)) e <;> intros <;> unfold EndsDestroy <;>
    infer_instance

/-- When `connectDestroyed` returns, a connect that was announced is matched by a disconnect. -/
def Matched (c : TcpConnection) (e : Event) : Prop :=
  EndsDestroy c e → .connection true ∈ c.log → .connection false ∈ c.log

instance (c : TcpConnection) (e : Event) : Decidable (Matched c e) :=
  inferInstanceAs (Decidable (_ → _ → _))

/-- Why a `connectDestroyed` that is under way may end without an announcement of its own. -/
def Accounted (c : TcpConnection) : Prop :=
  c.todo.head? = some .disconnect ∨ .connection false ∈ c.log ∨ c.state = .disconnecting ∨
    Untouched c

structure Owned (c : TcpConnection) : Prop where
  inOrder : InOrder c
  posts : Posts c
  stage : Untouched c ∨ Opened c
  removing : .removeChannel ∈ c.ahead → Accounted c

section Owner

variable {c c' : TcpConnection} {e : Event}

theorem removes_of_starts (starts : Starts c e .removeChannel) : e = .destroy := by
  rcases starts_cases starts with ⟨destroys, _⟩ | ⟨_, _, other⟩
  · exact destroys
  · exact absurd rfl other

theorem removes_of_waits (waits : Waits c e .removeChannel) : e = .destroy := by
  rcases waits_cases waits with ⟨destroys, _⟩ | ⟨_, other | other⟩ | (other | other) |
    ⟨_, _, _, _, follows⟩
  case inr.inr.inr => exact follows.elim
  case inl => exact destroys
  all_goals cases other

theorem Owned.destroys (owned : Owned c) (stepped : c.step .destroy = some c') : Accounted c' := by
  have early : Untouched c → Untouched c' := by
    intro untouched
    rcases untouched.step stepped with still | ⟨other, _⟩
    · exact still
    · cases other
  simp only [step] at stepped
  split at stepped <;> cases stepped
  rcases owned.stage with untouched | opened
  · exact .inr (.inr (.inr (early untouched)))
  · cases state : c.state with
    | connected =>
      left
      simp [next]
    | connecting => exact absurd state opened.1
    | disconnecting => exact .inr (.inr (.inl state))
    | disconnected => exact .inr (.inl (owned.posts.fallen state))

theorem disconnect_step (disconnects : c.todo.head? = some .disconnect)
    (stepped : c.step e = some c') :
    c'.todo.head? = some .disconnect ∨ .connection false ∈ c'.log := by
  cases moves_step stepped with
  | establish between => simp [between.1] at disconnects
  | begins _ idle | returns _ _ idle | send _ idle | nextPendingTask _ _ idle =>
    rw [idle] at disconnects
    cases disconnects
  | refuses | doPendingTasks | call | proceed => exact .inl disconnects
  | task read wrote t rest head ran =>
    rw [head] at disconnects
    cases disconnects
    obtain ⟨notes, log, _, told⟩ := notes_exec read wrote _ ran
    right
    rw [log]
    exact mem_append_right _ (told.mpr (.inr rfl))

theorem Owned.underWay (owned : Owned c) (pending : .removeChannel ∈ c.ahead)
    (stepped : c.step e = some c') : Accounted c' := by
  rcases owned.removing pending with disconnects | told | halfway | untouched
  · rcases disconnect_step disconnects stepped with still | told
    · exact .inl still
    · exact .inr (.inl told)
  · exact .inr (.inl ((log_step e stepped).1 _ told))
  · -- a connection that is half-way down stays so until `handleClose` announces the end
    by_cases still : c'.state = .disconnecting
    · exact .inr (.inr (.inl still))
    · have closed : c'.state = .disconnected := by
        rcases owned.inOrder.state_step stepped with forward | ⟨_, stored⟩
        · rw [halfway] at forward
          revert forward still
          cases c'.state <;> simp [rank]
        · exact absurd stored still
      exact .inr (.inl ((owned.posts.step e stepped).1.fallen closed))
  · rcases untouched.step stepped with still | ⟨rfl, _⟩
    · exact .inr (.inr (.inr still))
    -- `connectEstablished` does not run inside another handler
    · cases moves_step stepped with
      | establish between => simp [ahead, between.1, between.2.1] at pending
      | begins begins => exact begins.elim

theorem Owned.step (owned : Owned c) (stepped : c.step e = some c') : Owned c' where
  inOrder := owned.inOrder.step stepped
  posts := (owned.posts.step e stepped).1
  stage := by
    rcases owned.stage with untouched | opened
    · exact (untouched.step stepped).imp id And.right
    · exact .inr (opened.step owned.inOrder stepped)
  removing := by
    intro pending
    rcases ahead_step owned.inOrder.asks e stepped _ pending with
      before | spawned | asked | starts | rfl | ⟨begins, waits⟩
    · exact owned.underWay before stepped
    · exact spawned.elim
    · exact asked.elim
    · rw [removes_of_starts starts] at stepped
      exact owned.destroys stepped
    · cases moves_step stepped with
      | establish between =>
        simp [ahead, notify, invoke, note, enableRead, setState, between.2.1] at pending
      | begins begins => exact begins.elim
    · rw [removes_of_waits waits] at stepped
      exact owned.destroys stepped

end Owner

theorem owned_initial (settings : Settings) : Owned (initial settings) where
  inOrder := inOrder_initial ..
  posts := (handed_initial ..).posts
  stage := .inl ⟨rfl, rfl, by simp [initial], by simp [initial], by simp [initial],
    by simp [initial]⟩
  removing := by simp [ahead, initial]

/-! ### Between `shutdown` and `handleClose` -/

/-- How far the connection has come, by the steps that were made. -/
inductive Course where
  | up
  /-- A `shutdown` or `forceClose` took effect, and `handleClose` has not followed. -/
  | closing
  | closed
  deriving DecidableEq

/-- `shutdown` and `forceClose` take effect when they store `kDisconnecting`, on whatever thread. -/
def noteCourse (c : TcpConnection) (e : Event) (course : Course) : Course :=
  match e with
  | .task _ _ =>
    match c.todo, course with
    | .handleClose :: _, _ | .disconnect :: _, _ => .closed
    | .setDisconnecting :: _, .up => .closing
    | _, _ => course
  | .proceed t =>
    match c.inCall t, course with
    | some (.storing _), .up => .closing
    | _, _ => course
  | _ => course

/-- No `connectDestroyed` ends between a `shutdown` or `forceClose` that took effect and the
`handleClose` that follows it. -/
def NotBetween (x : TcpConnection × Course) (e : Event) : Prop :=
  EndsDestroy x.1 e → x.2 ≠ .closing

structure Charted (x : TcpConnection × Course) : Prop where
  owned : Owned x.1
  told : x.2 = .closed ↔ .connection false ∈ x.1.log
  halfway : x.1.state = .disconnecting → x.2 ≠ .up
  opened : x.2 = .closing → Opened x.1

section Course

variable {c c' : TcpConnection} {e : Event} {course : Course}

inductive Charts (c c' : TcpConnection) (course : Course) : Course → Prop where
  | rest (state : c'.state = .disconnecting → c.state = .disconnecting)
      (log : .connection false ∈ c'.log ↔ .connection false ∈ c.log) : Charts c c' course course
  | stores (touched : ¬Untouched c) (log : c'.log = c.log) :
      Charts c c' course (if course = .up then .closing else course)
  | ends (state : c'.state = .disconnected) (told : .connection false ∈ c'.log) :
      Charts c c' course .closed

theorem charts_task (read : Option Bytes) (wrote : Option Nat) (t : ConnTask)
    (rest : List ConnTask) (head : c.todo = t :: rest) (ran : c.exec read wrote rest t = some c') :
    Charts c c' course (noteCourse c (.task read wrote) course) := by
  have state := state_exec read wrote t ran
  obtain ⟨notes, log, _, told⟩ := notes_exec read wrote t ran
  cases t with
  | handleClose | disconnect =>
    simp only [noteCourse, head]
    refine .ends state ?_
    rw [log]
    exact mem_append_right _ (told.mpr (by simp))
  | setDisconnecting =>
    have touched : ¬Untouched c := by
      intro untouched
      have early := untouched.todo .setDisconnecting (by rw [head]; exact mem_cons_self ..)
      exact early
    cases ran
    have stores : Charts c ((c.setState .disconnecting).next rest) course _ := .stores touched rfl
    cases course <;> simpa [noteCourse, head] using stores
  | _ =>
    simp only [noteCourse, head]
    refine .rest (by rw [state]; exact id) ?_
    rw [log, mem_append]
    simp [told]

theorem charts_step (stepped : c.step e = some c') :
    Charts c c' course (noteCourse c e course) := by
  cases moves_step stepped with
  | establish => exact .rest nofun (by simp [notify, invoke, note, enableRead, setState])
  | begins begins =>
    cases e <;> first | exact begins.elim | exact .rest id .rfl
  | returns | send | refuses | doPendingTasks | nextPendingTask | call => exact .rest id .rfl
  | task read wrote t rest head ran => exact charts_task read wrote t rest head ran
  | proceed t phase inside state pendingTasks inCall _ stored =>
    cases phase with
    | storing task =>
      have touched : ¬Untouched c := by
        intro untouched
        rcases untouched.calls t _ inside with other | ⟨_, other, _⟩ <;> cases other
      have stores : Charts c { c with state, pendingTasks, inCall } course _ := .stores touched rfl
      cases course <;> simpa [noteCourse, inside] using stores
    | _ =>
      rcases stored with rfl | ⟨_, _, other⟩
      · simp only [noteCourse, inside]
        exact .rest id .rfl
      · cases other

theorem Charted.step (charted : Charted (c, course)) (stepped : c.step e = some c') :
    Charted (c', noteCourse c e course) := by
  obtain ⟨owned, told, halfway, opened⟩ := charted
  have owned' := owned.step stepped
  have charts : Charts c c' course (noteCourse c e course) := charts_step stepped
  generalize noteCourse c e course = course' at charts
  cases charts with
  | rest state log =>
    exact ⟨owned', told.trans log.symm, fun down => halfway (state down),
      fun closing => (opened closing).step owned.inOrder stepped⟩
  | stores touched log =>
    have opened : Opened c := owned.stage.resolve_left touched
    refine ⟨owned', ?_, fun _ => ?_, fun _ => opened.step owned.inOrder stepped⟩
    · dsimp only at told ⊢
      rw [log, ← told]
      cases course <;> simp
    · cases course <;> simp
  | ends state told => exact ⟨owned', by simpa using told, nofun, nofun⟩

/-- At the end of `connectDestroyed` the announcement can only be missing in between. -/
theorem Charted.matched_iff (charted : Charted (c, course)) :
    Matched c e ↔ NotBetween (c, course) e := by
  obtain ⟨owned, told, halfway, opened⟩ := charted
  constructor
  · intro matched ends closing
    have announced := told.mpr (matched ends (opened closing).2)
    rw [closing] at announced
    cases announced
  · intro notBetween ends up
    have first : c.todo.head? = some .removeChannel := by
      cases e with
      | task => exact ends
      | _ => exact ends.elim
    rcases owned.removing (mem_append_left _ (mem_of_mem_head? first)) with
      disconnects | announced | down | untouched
    · rw [first] at disconnects
      cases disconnects
    · exact announced
    · refine told.mp ?_
      have notUp := halfway down
      have notClosing := notBetween ends
      cases course
      · exact absurd rfl notUp
      · exact absurd rfl notClosing
      · rfl
    · exact absurd up untouched.silent

end Course

/-- **Connects are matched at teardown** exactly as long as no `connectDestroyed` ends between a
`shutdown` or `forceClose` that took effect and the `handleClose` that follows it. -/
theorem destroysMatched_iff (settings : Settings) (events : List Event) :
    let start := initial settings
    Meets step Matched start events ↔
      Meets (remembering step noteCourse) NotBetween (start, .up) events := by
  intro start
  refine meets_remembering_iff (fun c course e c' (charted : Charted (c, course)) stepped => ?_)
    (fun c course e c' charted _ => Charted.matched_iff charted) start .up events
    ⟨owned_initial .., by simp [start, initial], nofun, nofun⟩
  exact charted.step stepped

/-- The application half-closes the connection, and its owner goes away before the peer has
closed its side. -/
def destroyedHalfway : List Event :=
  [.establish, .returns, .task none none, .task none none,
    .shutdown, .task none none, .task none none, .task none none,
    .destroy, .task none none]

/-- `connectDestroyed` has returned, and no disconnect was announced. -/
theorem destroyedHalfway_unmatched :
    ¬Meets step Matched (initial {}) destroyedHalfway ∧
      (run step (initial {}) destroyedHalfway).map
          (fun c => (c.log, c.registered, c.ahead)) =
        some ([.connection true, .shutdownWrite], false, []) := by
  decide +kernel

end Cox.Net.TcpConnection

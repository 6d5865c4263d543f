import Cox.Net.TcpForward

/-!
# A closed connection is quiescent

A callback may close its connection, with `forceClose`, in the middle of a handler; what is
left of the handler then runs on a closed connection. Most of it looks at the state first.
Two parts do not: `connectEstablished` arms the timer for the maximal age, and `sendInLoop`
buffers the rest of its message after the callback for the high-water mark and asks for
write events again. And a connection that is closed only after `connectDestroyed`, which may
find it half-way down, is in the poller again.
-/
namespace Cox.Net.TcpConnection

open Cox.Lib Machine

def Unarmed (c : TcpConnection) : Prop :=
  c.idleTimerArmed = false ∧ c.writeTimerArmed = false ∧ c.maxAgeTimerArmed = false

def Uninterested (c : TcpConnection) : Prop := c.isReading = false ∧ c.isWriting = false

/-- Notes whether `connectDestroyed` has taken the channel out of the poller. -/
def noteRemoved (c : TcpConnection) (e : Event) (removed : Bool) : Bool :=
  match e, c.todo with
  | .task _ _, .removeChannel :: _ => true
  | _, _ => removed

/-- Once the connection is closed and no operation is running, nothing can wake it. -/
def Quiescent (x : TcpConnection × Bool) : Prop :=
  x.1.state = .disconnected → x.1.todo = [] → x.1.stack = [] →
    Uninterested x.1 ∧ Unarmed x.1 ∧ (x.2 = true → x.1.registered = false)

/-- The tasks that ask for something again without a look at the state. -/
def rearms (c : TcpConnection) : ConnTask → Bool
  | .queueOutput _ => true
  | .armMaxAgeTimer => c.maxAgeSeconds ≠ 0
  | _ => false

def closes : ConnTask → Bool
  | .handleClose | .disconnect => true
  | _ => false

/-- Nothing is asked for again on a connection that is closed, and none is closed after
`connectDestroyed`. -/
def RearmsNothing (x : TcpConnection × Bool) : Event → Prop
  | .task _ _ => ∀ t ∈ x.1.todo.head?,
      (x.1.state = .disconnected → rearms x.1 t = false) ∧ (x.2 = true → closes t = false)
  | _ => True

instance (x : TcpConnection × Bool) (e : Event) : Decidable (RearmsNothing x e) := by
  apply @Event.casesOn (fun e => Decidable (RearmsNothing x e)) e <;> intros <;> unfold RearmsNothing <;>
    infer_instance

instance (c : TcpConnection) : Decidable (Unarmed c) := inferInstanceAs (Decidable (_ ∧ _ ∧ _))

instance (c : TcpConnection) : Decidable (Uninterested c) := inferInstanceAs (Decidable (_ ∧ _))

instance (x : TcpConnection × Bool) : Decidable (Quiescent x) :=
  inferInstanceAs (Decidable (_ → _ → _ → _))

section Closed

variable {c c' : TcpConnection} {e : Event} {rest : List ConnTask}

structure Leaves (c c' : TcpConnection) : Prop where
  isReading : c'.isReading = c.isReading
  isWriting : c'.isWriting = c.isWriting
  registered : c'.registered = c.registered
  idle : c'.idleTimerArmed = c.idleTimerArmed
  write : c'.writeTimerArmed = c.writeTimerArmed
  maxAge : c'.maxAgeTimerArmed = c.maxAgeTimerArmed

theorem leaves_same (todo : List ConnTask) (stack : List (List ConnTask)) (log : List ConnNote) :
    Leaves c { c with todo, stack, log } := ⟨rfl, rfl, rfl, rfl, rfl, rfl⟩

theorem leaves_next : Leaves c (c.next rest) := leaves_same rest c.stack c.log

theorem leaves_handleRead (read : Option Bytes) (closed : c.state = .disconnected) :
    Leaves c (c.handleRead read rest) := by
  unfold handleRead
  split
  · exact leaves_next
  next data _ =>
    -- the idle timer is not armed again once the connection is closed
    have kept : (c.receive data).resetIdleTimer = c.receive data := by
      simp [resetIdleTimer, receive, closed]
    rw [kept]
    exact ⟨rfl, rfl, rfl, rfl, rfl, rfl⟩
  · exact leaves_next

theorem leaves_exec (read : Option Bytes) (wrote : Option Nat) (t : ConnTask)
    (closed : c.state = .disconnected) (uninterested : Uninterested c)
    (quiet : rearms c t = false)
    (other : t ≠ .handleClose ∧ t ≠ .disconnect ∧ t ≠ .removeChannel)
    (ran : c.exec read wrote rest t = some c') : Leaves c c' := by
  obtain ⟨reading, writing⟩ := uninterested
  cases t with
  | handleClose => exact absurd rfl other.1
  | disconnect => exact absurd rfl other.2.1
  | removeChannel => exact absurd rfl other.2.2
  | handleRead =>
    cases ran
    exact leaves_handleRead read closed
  | handleWrite =>
    simp only [exec, handleWrite, writing, Bool.not_false, if_true] at ran
    cases ran
    exact leaves_next
  | sendInLoop message =>
    simp only [exec, sendInLoop, if_pos closed] at ran
    cases ran
    exact ⟨rfl, rfl, rfl, rfl, rfl, rfl⟩
  | queueOutput data => cases quiet
  | armMaxAgeTimer =>
    have unset : c.maxAgeSeconds = 0 := by simpa [rearms] using quiet
    simp only [exec, armMaxAgeTimer, unset, true_or, if_true] at ran
    cases ran
    exact leaves_next
  | resetIdleTimer | armWriteTimer =>
    simp only [exec, resetIdleTimer, armWriteTimer, closed, ne_eq, reduceCtorEq,
      not_false_eq_true, or_true, if_true] at ran
    cases ran
    exact leaves_next
  | stopReadInLoop =>
    simp only [exec, reading, Bool.false_eq_true, and_false, if_false] at ran
    cases ran
    exact leaves_next
  | startReadInLoop =>
    simp only [exec, closed, reduceCtorEq, and_false, if_false] at ran
    cases ran
    exact leaves_next
  | handleError | closeCallback | setDisconnecting =>
    cases ran
    exact ⟨rfl, rfl, rfl, rfl, rfl, rfl⟩
  | capInput | finishShutdown | shutdown | shutdownInLoop | forceClose | forceCloseDisconnecting
  | forceCloseInLoop =>
    simp only [exec] at ran
    split at ran <;> cases ran
    all_goals exact ⟨rfl, rfl, rfl, rfl, rfl, rfl⟩

theorem Leaves.unarmed (leaves : Leaves c c') (unarmed : Unarmed c) : Unarmed c' :=
  ⟨leaves.idle.trans unarmed.1, leaves.write.trans unarmed.2.1, leaves.maxAge.trans unarmed.2.2⟩

theorem Leaves.uninterested (leaves : Leaves c c') (uninterested : Uninterested c) :
    Uninterested c' :=
  ⟨leaves.isReading.trans uninterested.1, leaves.isWriting.trans uninterested.2⟩

theorem unarmed_begins (begins : e.Begins) (stepped : c.step e = some c') :
    (Unarmed c → Unarmed c') ∧ (e = .destroy → Unarmed c') := by
  cases e with
  | destroy =>
    simp only [step] at stepped
    split at stepped <;> cases stepped
    exact ⟨fun _ => ⟨rfl, rfl, rfl⟩, fun _ => ⟨rfl, rfl, rfl⟩⟩
  | dispatch | shutdown | forceClose | stopRead | startRead | retrieve | idleTimeout =>
    simp only [step] at stepped
    split at stepped <;> cases stepped
    exact ⟨id, by simp⟩
  | writeTimeout =>
    simp only [step] at stepped
    split at stepped <;> cases stepped
    refine ⟨fun unarmed => ?_, by simp⟩
    split <;> exact ⟨unarmed.1, rfl, unarmed.2.2⟩
  | maxAge =>
    simp only [step] at stepped
    split at stepped <;> cases stepped
    exact ⟨fun unarmed => ⟨unarmed.1, unarmed.2.1, rfl⟩, by simp⟩
  | _ => exact begins.elim

/-! ### Runs -/

/-- A closed connection is still, also while an operation is running on it. -/
structure Stopped (x : TcpConnection × Bool) : Prop where
  asks : Asks x.1
  shaped : Shaped (· ≠ .disconnect) x.1
  cancelled : x.1.todo.head? = some .disconnect → Unarmed x.1
  still : x.1.state = .disconnected →
    Uninterested x.1 ∧ Unarmed x.1 ∧ (x.2 = true → x.1.registered = false)

theorem waits_ne_disconnect (t : ConnTask) (waits : Waits c e t) : t ≠ .disconnect := by
  rintro rfl
  rcases waits_cases waits with ⟨_, other⟩ | ⟨_, other | other⟩ | (other | other) |
    ⟨_, _, _, _, follows⟩
  case inr.inr.inr => exact follows
  all_goals cases other

theorem destroy_of_starts (starts : Starts c e .disconnect) : e = .destroy := by
  rcases starts_cases starts with ⟨destroys, _⟩ | ⟨_, other, _⟩
  · exact destroys
  · exact absurd rfl other

variable {removed : Bool} (stopped : Stopped (c, removed))
include stopped

theorem Stopped.cancelled_step (stepped : c.step e = some c')
    (next : c'.todo.head? = some .disconnect) : Unarmed c' := by
  rcases head_step stopped.shaped stopped.asks e stepped _ next with
    ⟨before, other⟩ | starts | asked | ⟨running, heads⟩ | behind
  · have unarmed := stopped.cancelled before
    cases moves_step stepped with
    | establish => cases next
    | begins _ idle | returns _ _ idle | send _ idle | nextPendingTask _ _ idle =>
      rw [idle] at before
      cases before
    | refuses | doPendingTasks | call | proceed => exact unarmed
    | task read wrote => exact absurd rfl (other read wrote)
  · obtain rfl := destroy_of_starts starts
    exact (unarmed_begins (e := .destroy) trivial stepped).2 rfl
  · exact asked.elim
  · exact heads.elim
  · exact absurd rfl behind

theorem Stopped.task (read : Option Bytes) (wrote : Option Nat) (t : ConnTask)
    (head : c.todo = t :: rest) (quiet : RearmsNothing (c, removed) (.task read wrote))
    (ran : c.exec read wrote rest t = some c') (closed : c'.state = .disconnected) :
    Uninterested c' ∧ Unarmed c' ∧
      (noteRemoved c (.task read wrote) removed = true → c'.registered = false) := by
  rw [state_exec read wrote t ran] at closed
  obtain ⟨unasked, once⟩ := quiet t (by rw [head]; rfl)
  by_cases again : t = .handleClose ∨ t = .disconnect
  · -- the channel was not removed before
    have kept : noteRemoved c (.task read wrote) removed ≠ true := by
      rcases again with rfl | rfl <;> simpa [noteRemoved, head, closes] using once
    rcases again with rfl | rfl
    · cases ran
      exact ⟨⟨rfl, rfl⟩, ⟨rfl, rfl, rfl⟩, fun removed => absurd removed kept⟩
    · have unarmed := stopped.cancelled (by rw [head]; rfl)
      cases ran
      exact ⟨⟨rfl, rfl⟩, unarmed, fun removed => absurd removed kept⟩
  · obtain ⟨notClose, notDisconnect⟩ := not_or.mp again
    -- the connection was closed before
    have before : c.state = .disconnected := by
      cases t with
      | handleClose | disconnect => simp at again
      | setDisconnecting => cases closed
      | _ => exact closed
    obtain ⟨uninterested, unarmed, removedBefore⟩ := stopped.still before
    by_cases removes : t = .removeChannel
    · subst removes
      cases ran
      exact ⟨uninterested, unarmed, fun _ => rfl⟩
    · have leaves := leaves_exec read wrote t before uninterested (unasked before)
        ⟨notClose, notDisconnect, removes⟩ ran
      refine ⟨leaves.uninterested uninterested, leaves.unarmed unarmed, fun noted => ?_⟩
      rw [leaves.registered]
      apply removedBefore
      cases t with
      | removeChannel => exact absurd rfl removes
      | _ => simpa [noteRemoved, head] using noted

theorem Stopped.step (quiet : RearmsNothing (c, removed) e) (stepped : c.step e = some c') :
    Stopped (c', noteRemoved c e removed) where
  asks := stopped.asks.step e stepped
  shaped := stopped.shaped.step e waits_ne_disconnect stepped
  cancelled := stopped.cancelled_step stepped
  still := by
    intro closed
    have still := stopped.still
    cases moves_step stepped with
    | establish => cases closed
    | begins begins =>
      obtain ⟨uninterested, unarmed, gone⟩ := still closed
      refine ⟨uninterested, (unarmed_begins begins stepped).1 unarmed, ?_⟩
      cases e <;> first | exact begins.elim | exact gone
    | task read wrote t rest head ran => exact stopped.task read wrote t head quiet ran closed
    | returns | send | refuses | doPendingTasks | nextPendingTask | call => exact still closed
    | proceed _ _ _ _ _ _ _ stored =>
      rcases stored with rfl | ⟨rfl, _⟩
      · exact still closed
      · cases closed

end Closed

theorem stopped_initial (settings : Settings) : Stopped (initial settings, false) where
  asks := (inOrder_initial ..).asks
  shaped := ⟨by simp [initial], by simp [initial]⟩
  cancelled := by simp [initial]
  still := by simp [initial]

/-- **A closed connection is quiescent** along every run in which no handler arms the timer
for the maximal age or buffers output after a callback has closed the connection, and no
connection is closed after `connectDestroyed`. -/
theorem quiescent_always (settings : Settings) (events : List Event)
    (quiet : Meets (remembering step noteRemoved) RearmsNothing (initial settings, false) events) :
    Always (remembering step noteRemoved) Quiescent (initial settings, false) events := by
  refine Always.mono (P := Stopped) (fun x stopped closed _ _ => stopped.still closed) _ events ?_
  refine always_of_meets_remembering (fun c removed e c' stopped quiet stepped => ?_) _ false events
    (stopped_initial ..) quiet
  exact stopped.step quiet stepped

/-- The message callback answers and closes the connection; the owner destroys it from the
close callback. -/
def closedByMessage : List Event :=
  [.establish, .returns, .task none none, .task none none,
    .dispatch false true false, .task (some [1]) none,
    .send [2, 3], .task none (some 1), .task none none,
    .forceClose, .task none none, .task none none, .task none none, .task none none, .returns,
    .task none none, .destroy, .task none none, .returns,
    .returns, .task none none]

theorem quiescent_closedByMessage :
    let start := initial { idleSeconds := 9, writeSeconds := 9, maxAgeSeconds := 9 }
    Meets (remembering step noteRemoved) RearmsNothing (start, false) closedByMessage ∧
      Always (remembering step noteRemoved) Quiescent (start, false) closedByMessage ∧
      (run (remembering step noteRemoved) (start, false) closedByMessage).map
          (fun x => (x.1.state, x.2, x.1.outputBuffer)) = some (.disconnected, true, [3]) := by
  intro start
  have quiet : Meets (remembering step noteRemoved) RearmsNothing (start, false) closedByMessage := by
    decide +kernel
  exact ⟨quiet, quiescent_always _ closedByMessage quiet, by decide +kernel⟩

/-- The connection callback refuses the new connection. -/
def refusedAtOnce : List Event :=
  [.establish, .forceClose, .task none none, .task none none, .task none none, .task none none,
    .returns, .task none none, .destroy, .task none none, .returns,
    .returns, .task none none, .task none none]

/-- `connectEstablished` goes on and arms the timer for the maximal age of the connection that
is closed and destroyed. -/
theorem refusedAtOnce_armed :
    ¬Always (remembering step noteRemoved) Quiescent (initial { maxAgeSeconds := 9 }, false)
        refusedAtOnce ∧
      (run step (initial { maxAgeSeconds := 9 }) refusedAtOnce).map
          (fun c => (c.state, c.maxAgeTimerArmed, c.todo, c.stack)) =
        some (.disconnected, true, [], []) := by
  decide +kernel

-- The callback for the high-water mark closes the connection: `sendInLoop` goes on, and the
-- channel that was removed is in the poller again, with a write interest.
example :
    (run (remembering step noteRemoved) (initial { highWaterMark := some 1 }, false)
      [.establish, .returns, .task none none, .task none none,
        .send [1], .task none (some 0),
        .forceClose, .task none none, .task none none, .task none none, .task none none, .returns,
        .task none none, .destroy, .task none none, .returns,
        .returns, .task none none, .task none none]).map
        (fun x => (x.1.state, x.2, x.1.registered, x.1.isWriting)) =
      some (.disconnected, true, true, true) := by
  decide +kernel

end Cox.Net.TcpConnection

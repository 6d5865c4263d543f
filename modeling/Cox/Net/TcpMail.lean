import Cox.Net.TcpControl

/-!
# The messages of a connection

Messages that the loop thread sends are handled at once; those of other threads travel
through the loop's queue. Whatever the interleaving, the loop thread comes to the messages
of each thread in the order of its calls.
-/
namespace Cox.Net.TcpConnection

open Cox.Lib List

/-- The messages of a connection, and the tasks that carry them to the loop thread. -/
structure Mail where
  highWaterMark : Option Nat
  called : List Message
  executed : List Message
  sent : List Message
  batch : List ConnTask
  pendingTasks : List ConnTask
  inCall : ThreadId → Option CallPhase

def mail (c : TcpConnection) : Mail where
  highWaterMark := c.highWaterMark
  called := c.called
  executed := c.executed
  sent := c.sent
  batch := c.batch
  pendingTasks := c.pendingTasks
  inCall := c.inCall

section Mail

variable (c : TcpConnection)

@[simp] theorem mail_note (n : ConnNote) : (c.note n).mail = c.mail := rfl

@[simp] theorem mail_next (tasks : List ConnTask) : (c.next tasks).mail = c.mail := rfl

@[simp] theorem mail_invoke (n : ConnNote) (rest : List ConnTask) :
    (c.invoke n rest).mail = c.mail := rfl

@[simp] theorem mail_notify (rest : List ConnTask) : (c.notify rest).mail = c.mail := rfl

@[simp] theorem mail_setState (state : TcpState) : (c.setState state).mail = c.mail := rfl

@[simp] theorem mail_disableAll : c.disableAll.mail = c.mail := rfl

@[simp] theorem mail_enableRead : c.enableRead.mail = c.mail := rfl

@[simp] theorem mail_remove : c.remove.mail = c.mail := rfl

@[simp] theorem mail_disableWrite : c.disableWrite.mail = c.mail := rfl

@[simp] theorem mail_enableWrite : c.enableWrite.mail = c.mail := rfl

@[simp] theorem mail_accept (data : Bytes) (n : Nat) : (c.accept data n).mail = c.mail := rfl

@[simp] theorem mail_append (data : Bytes) : (c.append data).mail = c.mail := rfl

@[simp] theorem mail_retrieve (n : Nat) : (c.retrieve n).mail = c.mail := rfl

@[simp] theorem mail_receive (data : Bytes) : (c.receive data).mail = c.mail := rfl

@[simp] theorem mail_cancelTimers : c.cancelTimers.mail = c.mail := rfl

@[simp] theorem mail_cancelWriteTimer : c.cancelWriteTimer.mail = c.mail := rfl

@[simp] theorem mail_resetIdleTimer : c.resetIdleTimer.mail = c.mail := by
  unfold resetIdleTimer
  split <;> rfl

@[simp] theorem mail_armWriteTimer : c.armWriteTimer.mail = c.mail := by
  unfold armWriteTimer
  split <;> rfl

@[simp] theorem mail_armMaxAgeTimer : c.armMaxAgeTimer.mail = c.mail := by
  unfold armMaxAgeTimer
  split <;> rfl

@[simp] theorem mail_queueOutput (data : Bytes) (rest : List ConnTask) :
    (c.queueOutput data rest).mail = c.mail := by
  unfold queueOutput
  split <;> simp

@[simp] theorem mail_queueRest (data : Bytes) (rest : List ConnTask) :
    (c.queueRest data rest).mail = c.mail := by
  unfold queueRest
  split
  · simp
  · dsimp only
    split
    · split <;> simp
    · simp

theorem mail_writeDirectly (c' : TcpConnection) (data : Bytes) (wrote : Option Nat)
    (rest : List ConnTask) (ran : c.writeDirectly data wrote rest = some c') :
    c'.mail = c.mail := by
  cases offers_writeDirectly c c' data wrote rest ran with
  | whole n all next => simp [next]
  | part n within next => simp [next]
  | failed next => simp [next]

theorem mail_handleWrite (c' : TcpConnection) (wrote : Option Nat) (rest : List ConnTask)
    (ran : c.handleWrite wrote rest = some c') : c'.mail = c.mail := by
  cases flushes_handleWrite c c' wrote rest ran with
  | unasked next => simp [next]
  | nothing on next => simp [next]
  | takes n on within next =>
    rw [next, written]
    split <;> simp

end Mail

theorem mail_sendInLoop (c c' : TcpConnection) (message : Message) (wrote : Option Nat)
    (rest : List ConnTask) (ran : c.sendInLoop message wrote rest = some c') :
    c'.mail = (if c.state = .disconnected then c.reach message
      else (c.reach message).record message).mail := by
  unfold sendInLoop at ran
  split at ran
  next closed =>
    cases ran
    rw [if_pos closed]
    rfl
  next up =>
    rw [if_neg up]
    split at ran
    · rw [mail_writeDirectly _ c' _ wrote rest ran]
      simp
    · cases ran
      simp

theorem mail_exec (c c' : TcpConnection) (read : Option Bytes) (wrote : Option Nat)
    (rest : List ConnTask) (t : ConnTask) (other : ∀ message, t ≠ .sendInLoop message)
    (ran : c.exec read wrote rest t = some c') : c'.mail = c.mail := by
  cases t with
  | sendInLoop message => exact absurd rfl (other message)
  | handleWrite => exact mail_handleWrite c c' wrote rest ran
  | handleRead =>
    cases ran
    unfold handleRead
    split <;> simp
  | handleClose =>
    cases ran
    unfold handleClose
    simp
  | handleError | closeCallback | removeChannel | resetIdleTimer | armWriteTimer | armMaxAgeTimer
  | queueOutput | disconnect | setDisconnecting =>
    cases ran
    simp
  | capInput | finishShutdown | shutdown | shutdownInLoop | forceClose | forceCloseDisconnecting
  | forceCloseInLoop | stopReadInLoop | startReadInLoop =>
    simp only [exec] at ran
    split at ran <;> cases ran <;> rfl

/-! ### What other threads do -/

/-- Other threads send, or stop and start reading, and nothing else. -/
def OthersSend : Event → Prop
  | .call _ .shutdown | .call _ .forceClose => False
  | _ => True

/-- A task from another thread: a message of its own, or a change of the read interest. -/
def Posted : ConnTask → Prop
  | .sendInLoop message => message.origin ≠ none
  | .stopReadInLoop | .startReadInLoop => True
  | _ => False

def carries : ConnTask → Option Message
  | .sendInLoop message => some message
  | _ => none

/-- A task that a thread may queue: its messages are under its own name. -/
def PostedBy (t : ThreadId) (task : ConnTask) : Prop :=
  Posted task ∧ ∀ message, carries task = some message → message.origin = some t

structure Outside (m : Mail) : Prop where
  posted : ∀ t ∈ m.batch ++ m.pendingTasks, Posted t
  calls : ∀ t phase, m.inCall t = some phase → ∃ task, phase = .queueing task ∧ PostedBy t task

section Outside

variable {m : Mail}

theorem Outside.call (outside : Outside m) (t : ThreadId) (task : ConnTask)
    (posted : PostedBy t task) (called : List Message) :
    Outside { m with
      called
      inCall := Function.update m.inCall t (some (.queueing task)) } := by
  refine ⟨outside.posted, fun u phase entered => ?_⟩
  dsimp only at entered
  by_cases here : u = t
  · subst here
    rw [Function.update_self, Option.some.injEq] at entered
    exact ⟨task, entered.symm, posted⟩
  · rw [Function.update_of_ne here] at entered
    exact outside.calls u phase entered

theorem forall_mem_queued {P : ConnTask → Prop} {batch pendingTasks : List ConnTask}
    (old : ∀ t ∈ batch ++ pendingTasks, P t) (task : ConnTask) (new : P task) :
    ∀ t ∈ batch ++ (pendingTasks ++ [task]), P t := by
  rw [← append_assoc]
  exact forall_mem_append.mpr ⟨old, forall_mem_singleton.mpr new⟩

theorem Outside.queue (outside : Outside m) (t : ThreadId) (task : ConnTask)
    (inCall : m.inCall t = some (.queueing task)) :
    Outside { m with
      pendingTasks := m.pendingTasks ++ [task]
      inCall := Function.update m.inCall t none } := by
  obtain ⟨_, same, posted, _⟩ := outside.calls t _ inCall
  cases same
  refine ⟨forall_mem_queued outside.posted task posted, fun u phase entered => ?_⟩
  dsimp only at entered
  by_cases here : u = t
  · subst here
    simp at entered
  · rw [Function.update_of_ne here] at entered
    exact outside.calls u phase entered

end Outside

theorem Outside.task {c c' : TcpConnection} (outside : Outside c.mail) (read : Option Bytes)
    (wrote : Option Nat) (t : ConnTask) (rest : List ConnTask)
    (ran : c.exec read wrote rest t = some c') : Outside c'.mail := by
  by_cases sends : ∃ message, t = .sendInLoop message
  · obtain ⟨message, rfl⟩ := sends
    rw [mail_sendInLoop c c' message wrote rest ran]
    split <;> exact ⟨outside.posted, outside.calls⟩
  · rw [mail_exec c c' read wrote rest t (fun message same => sends ⟨message, same⟩) ran]
    exact outside

theorem Outside.step {c c' : TcpConnection} (outside : Outside c.mail) (e : Event)
    (sends : OthersSend e) (stepped : c.step e = some c') : Outside c'.mail := by
  cases moves_step stepped with
  | task read wrote t rest _ ran => exact outside.task read wrote t rest ran
  | doPendingTasks =>
    refine ⟨fun t member => outside.posted t ?_, outside.calls⟩
    simp only [mail, append_nil] at member
    exact mem_append_right _ member
  | nextPendingTask t batch _ _ first =>
    refine ⟨fun u member => outside.posted u ?_, outside.calls⟩
    simp only [mail, first]
    exact mem_cons_of_mem _ member
  | call t call _ _ _ same =>
    rw [← same]
    cases call with
    -- these two post a task that ends the connection; such runs are excluded
    | shutdown | forceClose => exact sends.elim
    | send data =>
      unfold startCall
      dsimp only
      split
      · exact outside.call t (.sendInLoop ⟨some t, data⟩)
          ⟨by simp [Posted], fun message carried => by cases carried; rfl⟩ _
      · exact outside
    | stopRead => exact outside.call t .stopReadInLoop ⟨trivial, fun _ h => by cases h⟩ _
    | startRead => exact outside.call t .startReadInLoop ⟨trivial, fun _ h => by cases h⟩ _
  | proceed t phase inside _ _ _ same =>
    obtain ⟨task, rfl, _⟩ := outside.calls t phase inside
    exact same ▸ outside.queue t task inside
  | send => exact ⟨outside.posted, outside.calls⟩
  | establish | begins | returns | refuses => exact outside

/-! ### The order -/

def calling (inCall : ThreadId → Option CallPhase) : Option ThreadId → List Message
  | none => []
  | some t =>
    match inCall t with
    | some (.queueing task) => (carries task).toList
    | _ => []

def messagesOf (origin : Option ThreadId) (messages : List Message) : List Message :=
  messages.filter (·.origin = origin)

/-- For each thread, the messages that the loop thread has come to, those on their way and
the one about to be queued are the messages of its calls, in order. -/
def Ordered (todo : List ConnTask) (m : Mail) : Prop :=
  ∀ origin,
    messagesOf origin
      (m.executed ++ (todo.filterMap carries ++ (m.batch ++ m.pendingTasks).filterMap carries)) ++
        calling m.inCall origin = messagesOf origin m.called

section Order

variable {todo : List ConnTask} {m : Mail}

theorem messagesOf_append (origin : Option ThreadId) (left right : List Message) :
    messagesOf origin (left ++ right) = messagesOf origin left ++ messagesOf origin right :=
  filter_append ..

theorem Ordered.retask (ordered : Ordered todo m) (todo' : List ConnTask)
    (same : todo'.filterMap carries = todo.filterMap carries) : Ordered todo' m := by
  intro origin
  rw [same]
  exact ordered origin

theorem Ordered.reaches (ordered : Ordered todo m) (message : Message) (todo' : List ConnTask)
    (sent : List Message) (head : todo.filterMap carries = [message])
    (gone : todo'.filterMap carries = []) :
    Ordered todo' { m with executed := m.executed ++ [message], sent } := by
  intro origin
  have before := ordered origin
  rw [head] at before
  rw [gone, ← before, append_assoc]
  rfl

theorem Outside.own (outside : Outside m) :
    messagesOf none ((m.batch ++ m.pendingTasks).filterMap carries) = [] := by
  refine filter_eq_nil_iff.mpr (fun message inside => ?_)
  obtain ⟨t, member, carried⟩ := mem_filterMap.mp inside
  have posted := outside.posted t member
  cases t <;> cases carried
  rw [decide_eq_true_eq]
  exact posted

theorem Ordered.send (ordered : Ordered [] m) (outside : Outside m) (data : Bytes) :
    Ordered [.sendInLoop ⟨none, data⟩] { m with called := m.called ++ [⟨none, data⟩] } := by
  intro origin
  have before := ordered origin
  have single : [ConnTask.sendInLoop ⟨none, data⟩].filterMap carries = [⟨none, data⟩] := rfl
  dsimp only
  rw [filterMap_nil, nil_append, messagesOf_append] at before
  rw [single, messagesOf_append, messagesOf_append, messagesOf_append, ← before]
  cases origin with
  | none =>
    -- for the loop thread, no message of its own is overtaken in the queue
    rw [outside.own]
    simp [calling]
  | some t =>
    have other : messagesOf (some t) [⟨none, data⟩] = [] := rfl
    simp [other]

theorem Ordered.takes (ordered : Ordered todo m) (empty : m.batch = []) :
    Ordered todo { m with batch := m.pendingTasks, pendingTasks := [] } := by
  have same : m.pendingTasks ++ [] = m.batch ++ m.pendingTasks := by simp [empty]
  unfold Ordered
  dsimp only
  rw [same]
  exact ordered

theorem Ordered.nextTask (ordered : Ordered [] m) (t : ConnTask) (batch : List ConnTask)
    (first : m.batch = t :: batch) : Ordered [t] { m with batch } := by
  intro origin
  have before := ordered origin
  rw [first] at before
  rw [← before, ← filterMap_append]
  rfl

theorem calling_update (inCall : ThreadId → Option CallPhase) (t : ThreadId)
    (phase : Option CallPhase) (origin : Option ThreadId) :
    calling (Function.update inCall t phase) origin =
      if origin = some t then calling (fun _ => phase) origin else calling inCall origin := by
  cases origin with
  | none => rfl
  | some u =>
    by_cases here : u = t
    · subst here
      simp [calling]
    · simp [calling, here]

theorem messagesOf_carries (task : ConnTask) (t : ThreadId) (origin : Option ThreadId)
    (posted : PostedBy t task) :
    messagesOf origin (carries task).toList =
      if origin = some t then (carries task).toList else [] := by
  cases carried : carries task with
  | none => simp [messagesOf]
  | some message =>
    have sender := posted.2 message carried
    by_cases here : origin = some t
    · simp [messagesOf, sender, here]
    · simp [messagesOf, sender, here, Ne.symm here]

theorem Ordered.call (ordered : Ordered todo m) (t : ThreadId) (task : ConnTask)
    (idle : m.inCall t = none) (posted : PostedBy t task) :
    Ordered todo { m with
      called := m.called ++ (carries task).toList
      inCall := Function.update m.inCall t (some (.queueing task)) } := by
  intro origin
  dsimp only
  rw [messagesOf_append origin m.called, ← ordered origin, messagesOf_carries task t origin posted,
    calling_update]
  split
  next here => simp [here, calling, idle]
  · simp

theorem Ordered.queue (ordered : Ordered todo m) (t : ThreadId) (task : ConnTask)
    (inCall : m.inCall t = some (.queueing task)) (posted : PostedBy t task) :
    Ordered todo { m with
      pendingTasks := m.pendingTasks ++ [task]
      inCall := Function.update m.inCall t none } := by
  have single : [task].filterMap carries = (carries task).toList := by
    cases carried : carries task <;> simp [carried]
  intro origin
  dsimp only
  -- the message moves from the call to the end of the queue
  rw [← ordered origin, calling_update, ← append_assoc m.batch,
    filterMap_append (l := m.batch ++ m.pendingTasks), single,
    ← append_assoc (todo.filterMap carries), ← append_assoc m.executed,
    messagesOf_append origin _ (carries task).toList, messagesOf_carries task t origin posted,
    append_assoc]
  congr 1
  split
  next here => simp [here, calling, inCall]
  · simp

end Order

end Cox.Net.TcpConnection

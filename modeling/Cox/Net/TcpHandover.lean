import Cox.Lib.Handover
import Cox.Net.TcpDisconnect

/-!
# A connection as a handover

How messages get from the callers of `send` to the kernel: through the loop's queue or
directly, then through `write` or the output buffer. Every step of a connection is a step of
the abstract handover, whatever other threads do and also when the callback for the
high-water mark runs in the middle of `sendInLoop`. Telling the kernel that nothing will
follow is `shutdownWrite`.
-/
namespace Cox.Net.TcpConnection

open Cox.Lib List

/-! ### The abstraction -/

/-- `send` finds the connection open, or will do so once it is established. -/
def admitting (c : TcpConnection) : Bool := c.state == .connecting || c.state == .connected

/-- All tasks that are still to be run, the next one first. -/
def waiting (c : TcpConnection) : List ConnTask :=
  c.todo ++ (c.stack.flatten ++ (c.batch ++ c.pendingTasks))

/-- The bytes that a task has still to buffer. -/
def holds : ConnTask → Option Bytes
  | .queueOutput data => some data
  | _ => none

/-- How often a message is on its way to the loop thread. -/
def inFlight (c : TcpConnection) (m : Message) : Nat :=
  (c.waiting.filterMap carries).count m + (calling c.inCall m.origin).count m

def handover (c : TcpConnection) : Handover Message UInt8 where
  admitting := c.admitting
  intact := !c.log.contains (.connection false)
  ended := c.log.contains .shutdownWrite
  called := c.called
  executed := c.executed
  sent := c.sent
  flight := c.inFlight
  loose := c.waiting.filterMap holds
  buffer := c.outputBuffer
  accepted := c.accepted
  interest := c.isWriting
  attempts := c.log.count .write

/-- A step of the handover of messages by their data. -/
def Hands (c c' : TcpConnection) : Prop := Handover.Step Message.data c.handover c'.handover

/-! ### What does not concern the handover -/

def Plain (n : ConnNote) : Prop := n ≠ .connection false ∧ n ≠ .shutdownWrite ∧ n ≠ .write

def Light (t : ConnTask) : Prop := carries t = none ∧ holds t = none

/-- The messages are not touched, and only plain notes are added. -/
structure Aside (c c' : TcpConnection) : Prop where
  state : c'.state = c.state
  mail : c'.mail = c.mail
  log : ∃ notes, c'.log = c.log ++ notes ∧ ∀ n ∈ notes, Plain n

structure Unwritten (c c' : TcpConnection) : Prop where
  writing : c'.isWriting = c.isWriting
  buffer : c'.outputBuffer = c.outputBuffer
  accepted : c'.accepted = c.accepted

/-- Where the tasks that a task leaves behind are: before the others, or behind a callback. -/
inductive Placed (c c' : TcpConnection) (new rest : List ConnTask) : Prop where
  | first (todo : c'.todo = new ++ rest) (stack : c'.stack = c.stack)
  | behind (todo : c'.todo = []) (stack : c'.stack = (new ++ rest) :: c.stack)

section Aside

variable {c c' d : TcpConnection}

theorem aside_same (state : c'.state = c.state) (mail : c'.mail = c.mail) (log : c'.log = c.log) :
    Aside c c' :=
  ⟨state, mail, [], by rw [log, append_nil], by simp⟩

theorem Aside.next (aside : Aside c d) (tasks : List ConnTask) : Aside c (d.next tasks) :=
  ⟨aside.state, aside.mail, aside.log⟩

theorem Aside.invoke (aside : Aside c d) (n : ConnNote) (plain : Plain n) (rest : List ConnTask) :
    Aside c (d.invoke n rest) := by
  obtain ⟨notes, log, others⟩ := aside.log
  refine ⟨aside.state, aside.mail, notes ++ [n], ?_, ?_⟩
  · show d.log ++ [n] = c.log ++ (notes ++ [n])
    rw [log, append_assoc]
  · simpa [or_imp, forall_and] using ⟨others, plain⟩

theorem aside_refl (c : TcpConnection) : Aside c c := aside_same rfl rfl rfl

theorem waiting_cons (t : ConnTask) (rest : List ConnTask) (head : c.todo = t :: rest) :
    c.waiting = t :: (c.next rest).waiting := by
  rw [waiting, head]
  rfl

theorem loose_next (t : ConnTask) (rest : List ConnTask) (head : c.todo = t :: rest)
    (nothing : holds t = none) :
    (c.next rest).waiting.filterMap holds = c.waiting.filterMap holds := by
  rw [waiting_cons t rest head, filterMap_cons_none nothing]

section Placed

variable {new rest : List ConnTask} (placed : Placed c c' new rest) (t : ConnTask)
  (head : c.todo = t :: rest)
include placed head

theorem Placed.waiting (batch : c'.batch = c.batch) (pending : c'.pendingTasks = c.pendingTasks) :
    ∃ later, c.waiting = t :: later ∧ c'.waiting = new ++ later := by
  refine ⟨rest ++ (c.stack.flatten ++ (c.batch ++ c.pendingTasks)),
    by simp [TcpConnection.waiting, head], ?_⟩
  cases placed with
  | first todo stack => simp [TcpConnection.waiting, todo, stack, batch, pending]
  | behind todo stack => simp [TcpConnection.waiting, todo, stack, batch, pending]

theorem Placed.light (light : Light t) (fresh : ∀ u ∈ new, Light u) (mail : c'.mail = c.mail) :
    c'.waiting.filterMap carries = c.waiting.filterMap carries ∧
      c'.waiting.filterMap holds = c.waiting.filterMap holds := by
  obtain ⟨later, before, after⟩ := placed.waiting t head (congrArg Mail.batch mail)
    (congrArg Mail.pendingTasks mail)
  have nothing : new.filterMap carries = [] ∧ new.filterMap holds = [] :=
    ⟨filterMap_eq_nil_iff.mpr fun u inside => (fresh u inside).1,
      filterMap_eq_nil_iff.mpr fun u inside => (fresh u inside).2⟩
  rw [before, after, filterMap_append, filterMap_append, nothing.1, nothing.2,
    filterMap_cons_none light.1, filterMap_cons_none light.2]
  exact ⟨rfl, rfl⟩

end Placed

theorem marks_plain (log notes : List ConnNote) (plain : ∀ n ∈ notes, Plain n) :
    (log ++ notes).contains (.connection false) = log.contains (.connection false) ∧
      (log ++ notes).contains .shutdownWrite = log.contains .shutdownWrite ∧
      (log ++ notes).count .write = log.count .write := by
  have down : ConnNote.connection false ∉ notes := fun inside => (plain _ inside).1 rfl
  have ended : ConnNote.shutdownWrite ∉ notes := fun inside => (plain _ inside).2.1 rfl
  have writes : ConnNote.write ∉ notes := fun inside => (plain _ inside).2.2 rfl
  refine ⟨?_, ?_, ?_⟩
  · simp [contains_eq_mem, down]
  · simp [contains_eq_mem, ended]
  · rw [count_append, count_eq_zero.mpr writes]
    rfl

theorem Aside.handover (aside : Aside c c')
    (carried : c'.waiting.filterMap carries = c.waiting.filterMap carries)
    (held : c'.waiting.filterMap holds = c.waiting.filterMap holds) :
    c'.handover = { c.handover with
      buffer := c'.outputBuffer
      accepted := c'.accepted
      interest := c'.isWriting } := by
  obtain ⟨notes, log, plain⟩ := aside.log
  obtain ⟨down, ended, writes⟩ := marks_plain c.log notes plain
  have mail := aside.mail
  have called : c'.called = c.called := congrArg Mail.called mail
  have executed : c'.executed = c.executed := congrArg Mail.executed mail
  have sent : c'.sent = c.sent := congrArg Mail.sent mail
  have inCall : c'.inCall = c.inCall := congrArg Mail.inCall mail
  have flight : c'.inFlight = c.inFlight := by
    funext m
    rw [inFlight, inFlight, carried, inCall]
  unfold TcpConnection.handover admitting
  rw [aside.state, log, down, ended, writes, called, executed, sent, flight, held]

theorem Aside.handover_same (aside : Aside c c') (unwritten : Unwritten c c')
    (carried : c'.waiting.filterMap carries = c.waiting.filterMap carries)
    (held : c'.waiting.filterMap holds = c.waiting.filterMap holds) : c'.handover = c.handover := by
  rw [aside.handover carried held, unwritten.buffer, unwritten.accepted, unwritten.writing]
  rfl

end Aside

/-- The tasks that have to do with the output or store the state. -/
def Handles : ConnTask → Prop
  | .handleWrite | .handleClose | .sendInLoop _ | .queueOutput _ | .shutdownInLoop
  | .setDisconnecting | .disconnect => True
  | _ => False

/-- New tasks half-close the connection only after a store of `kDisconnecting`. -/
def StoresFirst (c c' : TcpConnection) (new rest : List ConnTask) : Prop :=
  .shutdownInLoop ∈ new →
    c.admitting = false ∨ (new.head? = some .setDisconnecting ∧ c'.todo = new ++ rest)

/-- What a task does that has nothing to do with the output. -/
structure Passes (c c' : TcpConnection) (new rest : List ConnTask) : Prop where
  aside : Aside c c'
  unwritten : Unwritten c c'
  placed : Placed c c' new rest
  light : ∀ u ∈ new, Light u
  storesFirst : StoresFirst c c' new rest

section Passes

variable {c c' d : TcpConnection} (rest : List ConnTask)

theorem passes_next (aside : Aside c d) (unwritten : Unwritten c d) (stack : d.stack = c.stack) :
    Passes c (d.next rest) [] rest :=
  ⟨aside.next rest, ⟨unwritten.1, unwritten.2, unwritten.3⟩, .first rfl stack, by simp,
    by simp [StoresFirst]⟩

theorem passes_push (t : ConnTask) (light : Light t) (other : t ≠ .shutdownInLoop) :
    Passes c (c.next (t :: rest)) [t] rest :=
  ⟨(aside_refl c).next _, ⟨rfl, rfl, rfl⟩, .first rfl rfl, by simpa using light,
    by simp [StoresFirst, other.symm]⟩

theorem passes_invoke (aside : Aside c d) (unwritten : Unwritten c d) (n : ConnNote) (plain : Plain n)
    (stack : d.stack = c.stack) (new : List ConnTask) (light : ∀ u ∈ new, Light u)
    (other : .shutdownInLoop ∉ new) : Passes c (d.invoke n (new ++ rest)) new rest :=
  ⟨aside.invoke n plain _, ⟨unwritten.1, unwritten.2, unwritten.3⟩,
    .behind rfl (by simp [invoke, note, stack]), light, fun inside => absurd inside other⟩

theorem passes_store (t : ConnTask) (light : Light t) :
    Passes c (c.next (.setDisconnecting :: t :: rest)) [.setDisconnecting, t] rest := by
  refine ⟨(aside_refl c).next _, ⟨rfl, rfl, rfl⟩, .first rfl rfl, ?_, fun _ => .inr ⟨rfl, rfl⟩⟩
  simpa using ⟨⟨rfl, rfl⟩, light⟩

theorem passes_handleRead (read : Option Bytes) :
    ∃ new, Passes c (c.handleRead read rest) new rest := by
  unfold handleRead
  split
  · exact ⟨_, passes_push rest .handleClose ⟨rfl, rfl⟩ (by simp)⟩
  · refine ⟨_, passes_invoke rest ?_ ?_ .message (by simp [Plain]) ?_ [.capInput]
      (by simp [Light, carries, holds]) (by simp)⟩
    all_goals unfold resetIdleTimer
    all_goals split
    all_goals first | exact aside_same rfl rfl rfl | exact ⟨rfl, rfl, rfl⟩ | rfl
  · exact ⟨_, passes_push rest .handleError ⟨rfl, rfl⟩ (by simp)⟩

theorem passes_exec (read : Option Bytes) (wrote : Option Nat) (t : ConnTask) (other : ¬Handles t)
    (ran : c.exec read wrote rest t = some c') : ∃ new, Passes c c' new rest := by
  cases t with
  -- these are the tasks that the handover is about
  | handleWrite | handleClose | sendInLoop | queueOutput | shutdownInLoop | setDisconnecting
  | disconnect => exact absurd trivial other
  | handleRead =>
    cases ran
    exact passes_handleRead rest read
  | handleError =>
    cases ran
    exact ⟨_, passes_push rest .handleClose ⟨rfl, rfl⟩ (by simp)⟩
  | closeCallback =>
    cases ran
    exact ⟨[], passes_invoke rest (aside_refl c) ⟨rfl, rfl, rfl⟩ .closed (by simp [Plain]) rfl []
      (by simp) (by simp)⟩
  | removeChannel =>
    cases ran
    exact ⟨_, passes_next rest (aside_same rfl rfl rfl) ⟨rfl, rfl, rfl⟩ rfl⟩
  | resetIdleTimer | armWriteTimer | armMaxAgeTimer =>
    cases ran
    simp only [resetIdleTimer, armWriteTimer, armMaxAgeTimer]
    split <;> exact ⟨_, passes_next rest (aside_same rfl rfl rfl) ⟨rfl, rfl, rfl⟩ rfl⟩
  | capInput =>
    simp only [exec] at ran
    split at ran <;> cases ran
    · exact ⟨_, passes_push rest .forceClose ⟨rfl, rfl⟩ (by simp)⟩
    · exact ⟨_, passes_next rest (aside_refl c) ⟨rfl, rfl, rfl⟩ rfl⟩
  | finishShutdown =>
    simp only [exec] at ran
    split at ran <;> cases ran
    -- `handleWrite` half-closes only when `kDisconnecting` was stored before
    next disconnecting =>
      refine ⟨[.shutdownInLoop], (aside_refl c).next _, ⟨rfl, rfl, rfl⟩, .first rfl rfl,
        by simp [Light, carries, holds], fun _ => .inl ?_⟩
      simp [admitting, disconnecting]
    · exact ⟨_, passes_next rest (aside_refl c) ⟨rfl, rfl, rfl⟩ rfl⟩
  | shutdown =>
    simp only [exec] at ran
    split at ran <;> cases ran
    · exact ⟨_, passes_store rest .shutdownInLoop ⟨rfl, rfl⟩⟩
    · exact ⟨_, passes_next rest (aside_refl c) ⟨rfl, rfl, rfl⟩ rfl⟩
  | forceClose =>
    simp only [exec] at ran
    split at ran <;> cases ran
    · exact ⟨_, passes_store rest .forceCloseInLoop ⟨rfl, rfl⟩⟩
    · exact ⟨_, passes_push rest .forceCloseDisconnecting ⟨rfl, rfl⟩ (by simp)⟩
  | forceCloseDisconnecting =>
    simp only [exec] at ran
    split at ran <;> cases ran
    · exact ⟨_, passes_store rest .forceCloseInLoop ⟨rfl, rfl⟩⟩
    · exact ⟨_, passes_next rest (aside_refl c) ⟨rfl, rfl, rfl⟩ rfl⟩
  | forceCloseInLoop =>
    simp only [exec] at ran
    split at ran <;> cases ran
    · exact ⟨_, passes_next rest (aside_refl c) ⟨rfl, rfl, rfl⟩ rfl⟩
    · exact ⟨_, passes_push rest .handleClose ⟨rfl, rfl⟩ (by simp)⟩
  | stopReadInLoop | startReadInLoop =>
    simp only [exec] at ran
    split at ran <;> cases ran
    · exact ⟨_, passes_next rest (aside_same rfl rfl rfl) ⟨rfl, rfl, rfl⟩ rfl⟩
    · exact ⟨_, passes_next rest (aside_refl c) ⟨rfl, rfl, rfl⟩ rfl⟩

end Passes

/-! ### The output -/

section Output

variable (c : TcpConnection) (rest : List ConnTask)

theorem handover_note (n : ConnNote) :
    (c.note n).handover = { c.handover with
      intact := c.handover.intact && decide (n ≠ .connection false)
      ended := c.handover.ended || decide (n = .shutdownWrite)
      attempts := c.handover.attempts + [n].count .write } := by
  have down : (!(c.log ++ [n]).contains (.connection false)) =
      (!c.log.contains (.connection false) && decide (n ≠ .connection false)) := by
    simp [contains_eq_mem, eq_comm]
  have ended : (c.log ++ [n]).contains .shutdownWrite =
      (c.log.contains .shutdownWrite || decide (n = .shutdownWrite)) := by
    simp [contains_eq_mem, eq_comm]
  have writes : (c.log ++ [n]).count ConnNote.write = c.log.count .write + [n].count .write :=
    count_append
  show { c.handover with
    intact := !(c.log ++ [n]).contains (.connection false)
    ended := (c.log ++ [n]).contains .shutdownWrite
    attempts := (c.log ++ [n]).count ConnNote.write } = _
  rw [down, ended, writes]
  rfl

theorem handover_invoke (n : ConnNote) :
    (c.invoke n rest).handover = ((c.next rest).note n).handover := by
  have aside : Aside ((c.next rest).note n) (c.invoke n rest) :=
    aside_same rfl rfl rfl
  apply aside.handover_same ⟨rfl, rfl, rfl⟩ <;> simp [waiting, invoke, note, next]

theorem handover_invoke_plain (n : ConnNote) (plain : Plain n) :
    (c.invoke n rest).handover = (c.next rest).handover := by
  have aside : Aside (c.next rest) ((c.next rest).note n) :=
    ⟨rfl, rfl, [n], rfl, by simpa using plain⟩
  exact (handover_invoke c rest n).trans (aside.handover_same ⟨rfl, rfl, rfl⟩ rfl rfl)

theorem handover_queueOutput (data : Bytes) :
    (c.queueOutput data rest).handover =
      { (c.next rest).handover with buffer := c.outputBuffer ++ data, interest := true } := by
  unfold queueOutput
  split
  next on =>
    show { (c.next rest).handover with buffer := c.outputBuffer ++ data, interest := c.isWriting } = _
    rw [on]
  · rfl

theorem handover_queueRest (data : Bytes) :
    ∃ held, (c.queueRest data rest).handover = (c.next rest).handover.leave data held := by
  unfold queueRest
  split
  next none =>
    subst none
    exact ⟨false, rfl⟩
  next some =>
    have buffered : (c.queueOutput data rest).handover = (c.next rest).handover.leave data false := by
      rw [handover_queueOutput]
      cases data with
      | nil => exact absurd rfl some
      | cons a data => rfl
    dsimp only
    split
    · split
      -- the callback runs before the bytes are in the buffer
      · refine ⟨true, ?_⟩
        rw [handover_invoke_plain _ _ _ (by simp [Plain])]
        cases data with
        | nil => exact absurd rfl some
        | cons a data => rfl
      · exact ⟨false, buffered⟩
    · exact ⟨false, buffered⟩

theorem inFlight_leaves (m : Message) (head : c.todo = .sendInLoop m :: rest) (m' : Message) :
    c.inFlight m' = (c.next rest).inFlight m' + [m].count m' := by
  have first : c.waiting.filterMap carries = m :: (c.next rest).waiting.filterMap carries := by
    rw [waiting_cons _ rest head]
    rfl
  rw [inFlight, inFlight, first, ← singleton_append, count_append]
  show _ = _ + (calling c.inCall m'.origin).count m' + _
  omega

end Output

/-- `sendInLoop` has come to a message, and the kernel has taken some of it. -/
structure Wrote (c d : TcpConnection) (m : Message) (n : Nat) : Prop where
  state : d.state = c.state
  stack : d.stack = c.stack
  mail : d.mail = { c.mail with executed := c.executed ++ [m], sent := c.sent ++ [m] }
  output : d.isWriting = c.isWriting ∧ d.outputBuffer = c.outputBuffer
  accepted : d.accepted = c.accepted ++ m.data.take n
  log : d.log = c.log ∨ d.log = c.log ++ [.write]

section Send

variable {c c' d : TcpConnection} {m : Message} {n : Nat} (rest : List ConnTask)

section Wrote

variable (wrote : Wrote c d m n) (head : c.todo = .sendInLoop m :: rest)
include wrote head

theorem Wrote.handover :
    (d.next rest).handover =
      c.handover.write Message.data m n (c.next rest).inFlight (d.log.count .write) := by
  have called : d.called = c.called := congrArg Mail.called wrote.mail
  have executed : d.executed = c.executed ++ [m] := congrArg Mail.executed wrote.mail
  have sent : d.sent = c.sent ++ [m] := congrArg Mail.sent wrote.mail
  have inCall : d.inCall = c.inCall := congrArg Mail.inCall wrote.mail
  have batch : d.batch = c.batch := congrArg Mail.batch wrote.mail
  have pending : d.pendingTasks = c.pendingTasks := congrArg Mail.pendingTasks wrote.mail
  -- the tasks behind the message are the same
  have later : (d.next rest).waiting = (c.next rest).waiting := by
    simp only [waiting, next, wrote.stack, batch, pending]
  have flight : (d.next rest).inFlight = (c.next rest).inFlight := by
    funext m'
    rw [inFlight, inFlight, later]
    show _ + (calling d.inCall _).count m' = _
    rw [inCall]
    rfl
  have loose : (d.next rest).waiting.filterMap holds = c.waiting.filterMap holds := by
    rw [later, loose_next _ rest head rfl]
  have marks : d.log.contains (.connection false) = c.log.contains (.connection false) ∧
      d.log.contains .shutdownWrite = c.log.contains .shutdownWrite := by
    rcases wrote.log with log | log <;> simp [log, contains_eq_mem]
  unfold TcpConnection.handover Handover.write admitting
  rw [flight, loose]
  show Handover.mk (d.state == _ || d.state == _) (!d.log.contains _) (d.log.contains _) d.called
    d.executed d.sent _ _ d.outputBuffer d.accepted d.isWriting _ = _
  rw [wrote.state, marks.1, marks.2, called, executed, sent, wrote.output.1, wrote.output.2,
    wrote.accepted]
  rfl

theorem Wrote.hands (left : ∃ held, c'.handover = (d.next rest).handover.leave (m.data.drop n) held) :
    Hands c c' := by
  obtain ⟨held, placed⟩ := left
  rw [Hands, placed, wrote.handover rest head]
  exact .send m n _ _ held (inFlight_leaves c rest m head)

end Wrote

theorem wrote_accept (c : TcpConnection) (m : Message) (n : Nat) :
    Wrote c ((((c.reach m).record m).note .write).accept m.data n) m n where
  -- by projection: `rfl` would compare the byte counters
  state := by dsimp only [accept, note, record, reach]
  stack := by dsimp only [accept, note, record, reach]
  mail := by
    rw [mail_accept]
    rfl
  output := by
    dsimp only [accept, note, record, reach]
    exact ⟨rfl, rfl⟩
  accepted := by dsimp only [accept, note, record, reach]
  log := by
    right
    dsimp only [accept, note, record, reach]

theorem wrote_record (c : TcpConnection) (m : Message) : Wrote c ((c.reach m).record m) m 0 where
  state := by dsimp only [record, reach]
  stack := by dsimp only [record, reach]
  mail := rfl
  output := by
    dsimp only [record, reach]
    exact ⟨rfl, rfl⟩
  accepted := by
    dsimp only [record, reach]
    rw [take_zero, append_nil]
  log := by
    left
    dsimp only [record, reach]

theorem wrote_note (c : TcpConnection) (m : Message) :
    Wrote c (((c.reach m).record m).note .write) m 0 := by
  have before := wrote_record c m
  have log : ((c.reach m).record m).log = c.log := by dsimp only [record, reach]
  generalize (c.reach m).record m = d at before log
  exact { before with log := .inr (congrArg (· ++ [ConnNote.write]) log) }

/-- What `sendInLoop` does with a message: it comes too late, or the kernel takes all of it, or
the rest of it is left. -/
inductive Sends (c : TcpConnection) (m : Message) (rest : List ConnTask) (c' : TcpConnection) :
    Prop where
  | drops (closed : c.state = .disconnected) (next : c' = (c.reach m).next rest)
  | whole (d : TcpConnection) (wrote : Wrote c d m m.data.length) (direct : c.outputBuffer = [])
      (next : c' = d.invoke .writeComplete rest)
  | leaves (d : TcpConnection) (n : Nat) (wrote : Wrote c d m n)
      (direct : m.data.take n = [] ∨ c.outputBuffer = [])
      (next : c' = d.queueRest (m.data.drop n) rest)

theorem sends_sendInLoop (wrote : Option Nat) (rest : List ConnTask)
    (ran : c.sendInLoop m wrote rest = some c') : Sends c m rest c' := by
  unfold sendInLoop at ran
  split at ran
  next closed => exact .drops closed (Option.some.inj ran).symm
  next =>
    split at ran
    next direct =>
      cases offers_writeDirectly _ c' m.data wrote rest ran with
      | whole n all next =>
        subst all
        exact .whole _ (wrote_accept c m _) direct.2 next
      | part n within next => exact .leaves _ n (wrote_accept c m n) (.inr direct.2) next
      | failed next => exact .leaves _ 0 (wrote_note c m) (.inl rfl) next
    -- something is buffered already, so `write` is not called
    next => exact .leaves _ 0 (wrote_record c m) (.inl rfl) (Option.some.inj ran).symm

theorem hands_sendInLoop (wrote : Option Nat) (rest : List ConnTask)
    (head : c.todo = .sendInLoop m :: rest)
    (fallen : c.state = .disconnected → .connection false ∈ c.log)
    (ran : c.sendInLoop m wrote rest = some c') : Hands c c' := by
  cases sends_sendInLoop wrote rest ran with
  | drops closed next =>
    -- the connection is down, and the message is dropped
    have torn : c.handover.intact = false := by simpa [handover] using fallen closed
    have same : ((c.reach m).next rest).handover =
        { c.handover with executed := c.executed ++ [m], flight := (c.next rest).inFlight } := by
      show { c.handover with
        executed := c.executed ++ [m]
        flight := (c.next rest).inFlight
        loose := (c.next rest).waiting.filterMap holds } = _
      rw [loose_next _ rest head rfl]
      rfl
    rw [Hands, next, same]
    exact .drop m _ torn (inFlight_leaves c rest m head)
  | whole d wrote direct next =>
    -- there is no rest, and the callback finds the handover as it is
    rw [next]
    refine wrote.hands rest head ⟨false, ?_⟩
    rw [handover_invoke_plain _ _ _ (by simp [Plain]), drop_length]
    rfl
  | leaves d n wrote direct next =>
    rw [next]
    exact wrote.hands rest head (handover_queueRest _ rest _)

theorem handover_next_light (c : TcpConnection) (t : ConnTask) (rest : List ConnTask)
    (head : c.todo = t :: rest) (light : Light t) : (c.next rest).handover = c.handover := by
  have aside : Aside c (c.next rest) := (aside_refl c).next rest
  refine aside.handover_same ⟨rfl, rfl, rfl⟩ ?_ (loose_next t rest head light.2)
  rw [waiting_cons t rest head, filterMap_cons_none light.1]

theorem handover_note_write (c : TcpConnection) :
    (c.note .write).handover = { c.handover with attempts := c.log.count .write + 1 } := by
  rw [handover_note]
  simp only [ne_eq, reduceCtorEq, not_false_eq_true, decide_true, Bool.and_true, decide_false,
    Bool.or_false]
  rfl

theorem hands_written (n : Nat) (rest : List ConnTask) (head : c.todo = .handleWrite :: rest)
    (on : c.isWriting = true) : Hands c ((c.note .write).written n rest) := by
  have flushed : Handover.Step Message.data c.handover _ := .flush n (c.log.count .write + 1) on
  -- the output is what the flush makes of it, whichever way the tasks go on
  have hands (d : TcpConnection) (new : List ConnTask) (aside : Aside (c.note .write) d)
      (placed : Placed (c.note .write) d new rest) (fresh : ∀ u ∈ new, Light u)
      (buffer : d.outputBuffer = c.outputBuffer.drop n)
      (accepted : d.accepted = c.accepted ++ c.outputBuffer.take n)
      (writing : d.isWriting = !(c.outputBuffer.drop n).isEmpty) : Hands c d := by
    obtain ⟨carried, held⟩ := placed.light _ head ⟨rfl, rfl⟩ fresh aside.mail
    rw [Hands, aside.handover carried held, handover_note_write, buffer, accepted, writing]
    exact flushed
  unfold written
  split
  next drained =>
    have drained' : c.outputBuffer.drop n = [] := drained
    refine hands _ [.finishShutdown] ?_ (.behind rfl ?_) (by simp [Light, carries, holds]) ?_ ?_ ?_
    · exact (aside_same (by dsimp only [accept, retrieve, disableWrite, cancelWriteTimer])
        (by simp) (by dsimp only [accept, retrieve, disableWrite, cancelWriteTimer])).invoke _
        (by simp [Plain]) _
    -- what is left are the equations of the output, field by field
    all_goals dsimp only [invoke, note, accept, retrieve, disableWrite, cancelWriteTimer]
    · rfl
    · rw [drained']
      rfl
  next more =>
    have more' : (c.outputBuffer.drop n).isEmpty = false := isEmpty_eq_false_iff.mpr more
    refine hands _ [] ?_ (.first rfl ?_) (by simp) ?_ ?_ ?_
    · exact (aside_same (by dsimp only [accept, retrieve]) (by simp)
        (by dsimp only [accept, retrieve])).next _
    all_goals dsimp only [next, note, accept, retrieve]
    rw [on, more']
    rfl

theorem hands_handleWrite (wrote : Option Nat) (rest : List ConnTask)
    (head : c.todo = .handleWrite :: rest) (ran : c.handleWrite wrote rest = some c') :
    Hands c c' := by
  have attempt (on : c.isWriting = true) : Hands c ((c.note .write).next rest) := by
    show Handover.Step _ _ ((c.next rest).note .write).handover
    rw [handover_note_write, handover_next_light c _ rest head ⟨rfl, rfl⟩]
    exact .attempt _ on
  cases flushes_handleWrite c c' wrote rest ran with
  | unasked next =>
    rw [Hands, next, handover_next_light c _ rest head ⟨rfl, rfl⟩]
    exact .rest
  | nothing on next =>
    rw [next]
    exact attempt on
  | takes n on within next =>
    rw [next]
    exact hands_written n rest head on

theorem hands_notify (t : ConnTask) (head : c.todo = t :: rest) (light : Light t)
    (closed : c'.handover = { ((c.next rest).note (.connection false)).handover with
      admitting := false
      interest := false }) : Hands c c' := by
  -- `connection false` is the note by which a connection counts as torn down
  rw [Hands, closed, handover_note, handover_next_light c t rest head light]
  simp only [ne_eq, not_true_eq_false, decide_false, Bool.and_false, reduceCtorEq, Bool.or_false]
  exact .close

theorem hands_handleClose (head : c.todo = .handleClose :: rest) :
    Hands c (c.handleClose rest) := by
  apply hands_notify rest _ head ⟨rfl, rfl⟩
  unfold handleClose notify
  rw [handover_invoke]
  rfl

theorem hands_disconnect (head : c.todo = .disconnect :: rest) :
    Hands c ((c.setState .disconnected).disableAll.notify rest) := by
  apply hands_notify rest _ head ⟨rfl, rfl⟩
  unfold notify
  rw [handover_invoke]
  rfl

theorem hands_setDisconnecting (head : c.todo = .setDisconnecting :: rest) :
    Hands c ((c.setState .disconnecting).next rest) := by
  have same := handover_next_light c _ rest head ⟨rfl, rfl⟩
  show Handover.Step _ _ { (c.next rest).handover with admitting := false }
  rw [same]
  exact .shut

theorem hands_queueOutput (data : Bytes) (rest : List ConnTask)
    (head : c.todo = .queueOutput data :: rest) : Hands c (c.queueOutput data rest) := by
  have loose : c.handover.loose = data :: (c.next rest).handover.loose := by
    show c.waiting.filterMap holds = _
    rw [waiting_cons _ rest head]
    rfl
  have carried : c.waiting.filterMap carries = (c.next rest).waiting.filterMap carries := by
    rw [waiting_cons _ rest head]
    rfl
  have flight : (c.next rest).inFlight = c.inFlight := by
    funext m
    rw [inFlight, inFlight, carried]
    rfl
  rw [Hands, handover_queueOutput]
  -- the bytes leave their task for the buffer
  show Handover.Step _ _ { c.handover with
    flight := (c.next rest).inFlight
    loose := (c.next rest).handover.loose
    buffer := c.outputBuffer ++ data
    interest := true }
  rw [flight]
  exact .settle data _ loose

theorem hands_shutdownInLoop (head : c.todo = .shutdownInLoop :: rest) (shut : c.admitting = false)
    (read : Option Bytes) (wrote : Option Nat)
    (ran : c.exec read wrote rest .shutdownInLoop = some c') : Hands c c' := by
  have same := handover_next_light c _ rest head ⟨rfl, rfl⟩
  simp only [exec] at ran
  split at ran <;> cases ran
  · rw [Hands, same]
    exact .rest
  -- nothing is buffered: `SHUT_WR`
  next drained =>
    show Handover.Step _ _ ((c.next rest).note .shutdownWrite).handover
    rw [handover_note, same]
    simp only [ne_eq, reduceCtorEq, not_false_eq_true, decide_true, Bool.and_true, Bool.or_true]
    exact .finish shut ((Bool.not_eq_true _).mp drained)

end Send

end Cox.Net.TcpConnection

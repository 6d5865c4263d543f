import Cox.Net.TcpMail

/-!
# The end of a connection

`handleClose` announces the disconnect whether or not that has happened before, and the
handlers that lead to it do not look either. As long as the poller never reports an error
together with readability, and neither of them for a connection that is closed already, the
disconnect is announced once and nothing follows it.
-/
namespace Cox.Net.TcpConnection

open Cox.Lib List

/-! ### What a task announces -/

/-- Everything but the announcements of the connection and its messages. -/
def Quiet : ConnNote → Prop
  | .connection _ | .message | .closed => False
  | _ => True

/-- The state stays, and only quiet notes are added. -/
structure Quietly (c c' : TcpConnection) : Prop where
  state : c'.state = c.state
  log : ∃ notes, c'.log = c.log ++ notes ∧ ∀ n ∈ notes, Quiet n

section Quietly

variable (c : TcpConnection)

theorem quietly_same {c d : TcpConnection} (state : d.state = c.state) (log : d.log = c.log) :
    Quietly c d :=
  ⟨state, [], by simp [log], by simp⟩

theorem Quietly.trans {c d e : TcpConnection} (first : Quietly c d) (second : Quietly d e) :
    Quietly c e := by
  obtain ⟨before, atFirst, quiet⟩ := first.log
  obtain ⟨after, atSecond, quiet'⟩ := second.log
  refine ⟨second.state.trans first.state, before ++ after, ?_, fun n inside => ?_⟩
  · rw [atSecond, atFirst, append_assoc]
  · rcases mem_append.mp inside with h | h
    · exact quiet n h
    · exact quiet' n h

theorem quietly_note (n : ConnNote) (quiet : Quiet n) : Quietly c (c.note n) :=
  ⟨rfl, [n], rfl, by simpa using quiet⟩

theorem quietly_invoke (n : ConnNote) (rest : List ConnTask) (quiet : Quiet n) :
    Quietly c (c.invoke n rest) :=
  ⟨rfl, [n], rfl, by simpa using quiet⟩

theorem quietly_next (tasks : List ConnTask) : Quietly c (c.next tasks) := quietly_same rfl rfl

theorem quietly_retrieve (n : Nat) : Quietly c (c.retrieve n) := quietly_same rfl rfl

theorem quietly_stopWriting : Quietly c c.disableWrite.cancelWriteTimer := quietly_same rfl rfl

theorem quietly_queueOutput (data : Bytes) (rest : List ConnTask) :
    Quietly c (c.queueOutput data rest) := by
  unfold queueOutput
  split <;> exact quietly_same rfl rfl

theorem quietly_queueRest (data : Bytes) (rest : List ConnTask) :
    Quietly c (c.queueRest data rest) := by
  unfold queueRest
  split
  · exact quietly_next c rest
  · dsimp only
    split
    · split
      · exact quietly_invoke c _ _ trivial
      · exact quietly_queueOutput c data rest
    · exact quietly_queueOutput c data rest

theorem quietly_writeDirectly (c' : TcpConnection) (data : Bytes) (wrote : Option Nat)
    (rest : List ConnTask) (ran : c.writeDirectly data wrote rest = some c') : Quietly c c' := by
  have accepted (n : Nat) : Quietly c (c.accept data n) := quietly_same rfl rfl
  cases offers_writeDirectly c c' data wrote rest ran with
  | whole n all next =>
    rw [next]
    exact (accepted n).trans (quietly_invoke _ _ rest trivial)
  | part n within next =>
    rw [next]
    exact (accepted n).trans (quietly_queueRest _ _ rest)
  | failed next =>
    rw [next]
    exact quietly_queueRest c data rest

theorem quietly_sendInLoop (c' : TcpConnection) (message : Message) (wrote : Option Nat)
    (rest : List ConnTask) (ran : c.sendInLoop message wrote rest = some c') : Quietly c c' := by
  have reached : Quietly c (c.reach message) := quietly_same rfl rfl
  have recorded : Quietly c ((c.reach message).record message) :=
    reached.trans (quietly_same rfl rfl)
  unfold sendInLoop at ran
  split at ran
  · cases ran
    exact reached.trans (quietly_next _ rest)
  · split at ran
    · exact (recorded.trans (quietly_note _ .write trivial)).trans
        (quietly_writeDirectly _ c' _ wrote rest ran)
    · cases ran
      exact recorded.trans (quietly_queueRest _ _ rest)

theorem quietly_handleWrite (c' : TcpConnection) (wrote : Option Nat) (rest : List ConnTask)
    (ran : c.handleWrite wrote rest = some c') : Quietly c c' := by
  have wrote' : Quietly c (c.note .write) := quietly_note c .write trivial
  cases flushes_handleWrite c c' wrote rest ran with
  | unasked next =>
    rw [next]
    exact quietly_next c rest
  | nothing on next =>
    rw [next]
    exact wrote'.trans (quietly_next _ rest)
  | takes n on within next =>
    rw [next]
    refine wrote'.trans ?_
    have taken (data : Bytes) : Quietly (c.note .write) ((c.note .write).accept data n) :=
      quietly_same rfl rfl
    have flushed := (taken (c.note .write).outputBuffer).trans (quietly_retrieve _ n)
    unfold written
    split
    · exact (flushed.trans (quietly_stopWriting _)).trans (quietly_invoke _ _ _ trivial)
    · exact flushed.trans (quietly_next _ rest)

end Quietly

/-- The tasks that announce something or store the state. -/
def Loud : ConnTask → Prop
  | .handleRead | .handleClose | .disconnect | .closeCallback | .setDisconnecting => True
  | _ => False

theorem quietly_exec (c c' : TcpConnection) (read : Option Bytes) (wrote : Option Nat)
    (rest : List ConnTask) (t : ConnTask) (calm : ¬Loud t)
    (ran : c.exec read wrote rest t = some c') : Quietly c c' := by
  cases t with
  | handleRead | handleClose | disconnect | closeCallback | setDisconnecting =>
    exact absurd trivial calm
  | sendInLoop message => exact quietly_sendInLoop c c' message wrote rest ran
  | handleWrite => exact quietly_handleWrite c c' wrote rest ran
  | queueOutput data =>
    cases ran
    exact quietly_queueOutput c data rest
  | handleError | removeChannel =>
    cases ran
    exact quietly_same rfl rfl
  | resetIdleTimer | armWriteTimer | armMaxAgeTimer =>
    cases ran
    simp only [resetIdleTimer, armWriteTimer, armMaxAgeTimer]
    split <;> exact quietly_same rfl rfl
  | shutdownInLoop =>
    simp only [exec] at ran
    split at ran <;> cases ran
    · exact quietly_next c rest
    · exact (quietly_note c .shutdownWrite trivial).trans (quietly_next _ rest)
  | capInput | finishShutdown | shutdown | forceClose | forceCloseDisconnecting | forceCloseInLoop
  | stopReadInLoop | startReadInLoop =>
    simp only [exec] at ran
    split at ran <;> cases ran <;> exact quietly_same rfl rfl

/-! ### Close callbacks that are still to come -/

/-- The close callbacks that running handlers have left to do. -/
def closesAhead (c : TcpConnection) : Nat := (c.todo ++ c.stack.flatten).count .closeCallback

theorem closesAhead_flows (c c' : TcpConnection) (t : ConnTask) (rest : List ConnTask)
    (head : c.todo = t :: rest) (other : t ≠ .handleClose) (flow : Flows c c' t rest) :
    c'.closesAhead + [t].count .closeCallback = c.closesAhead := by
  have whole : c.closesAhead =
      (rest ++ c.stack.flatten).count .closeCallback + [t].count .closeCallback := by
    rw [closesAhead, head, cons_append, ← singleton_append, count_append]
    omega
  have apart (new : List ConnTask) (behind : ∀ u ∈ new, Follows c t u) :
      .closeCallback ∉ new := fun inside => other (behind _ inside)
  rw [whole, closesAhead]
  cases flow with
  | goesOn new todo stack behind heads =>
    have none : new.count .closeCallback = 0 := by
      refine count_eq_zero.mpr (fun inside => ?_)
      cases new with
      | nil => cases inside
      | cons first new =>
        rcases mem_cons.mp inside with rfl | later
        · exact heads _ rfl
        · exact apart new behind later
    simp only [todo, stack, count_append, none]
    omega
  | calls new todo stack behind =>
    have none := count_eq_zero.mpr (apart new behind)
    simp only [todo, stack, flatten_cons, count_append, none, count_nil]
    omega

theorem closesAhead_handleClose (c : TcpConnection) (rest : List ConnTask)
    (head : c.todo = .handleClose :: rest) :
    (c.handleClose rest).closesAhead = c.closesAhead + 1 := by
  have todo : (c.handleClose rest).todo = [] := rfl
  have stack : (c.handleClose rest).stack = (.closeCallback :: rest) :: c.stack := rfl
  simp [closesAhead, todo, stack, head]

/-! ### The announcements -/

def Silent (log : List ConnNote) : Prop :=
  ∀ before after, log = before ++ .connection false :: after → .message ∉ after

theorem Silent.append {log : List ConnNote} (silent : Silent log) (notes : List ConnNote)
    (others : .message ∉ notes) : Silent (log ++ notes) := by
  intro before after same received
  -- where the split falls: in the new notes or in the old log
  rcases append_eq_append_iff.mp same with ⟨late, rfl, rest⟩ | ⟨early, rfl, rest⟩
  · -- the disconnect is among the new notes
    refine others ?_
    rw [rest]
    exact mem_append_right _ (mem_cons_of_mem _ received)
  · cases early with
    | nil =>
      refine others ?_
      rw [← show _ = notes from rest]
      exact mem_cons_of_mem _ received
    | cons first early =>
      obtain ⟨rfl, rfl⟩ := List.cons.inj rest
      rcases mem_append.mp received with h | h
      · exact silent before early rfl h
      · exact others h

theorem silent_of_up (log : List ConnNote) (up : .connection false ∉ log) : Silent log := by
  rintro before after rfl
  exact absurd (mem_append_right before (mem_cons_self ..)) up

/-- The disconnect was announced if and only if the connection is disconnected, and its
close callback has run or is still to come. -/
structure Announces (c : TcpConnection) : Prop where
  downs : c.log.count (.connection false) = if c.state = .disconnected then 1 else 0
  closes : c.log.count .closed + c.closesAhead ≤ c.log.count (.connection false)
  silent : Silent c.log

section Announces

variable {c c' : TcpConnection}

theorem Announces.quietly (announces : Announces c) (quietly : Quietly c c')
    (closes : c'.closesAhead ≤ c.closesAhead) : Announces c' := by
  obtain ⟨notes, log, quiet⟩ := quietly.log
  have apart (n : ConnNote) (loud : ¬Quiet n) : n ∉ notes := fun inside => loud (quiet n inside)
  have downs := count_eq_zero.mpr (apart (.connection false) id)
  have closed := count_eq_zero.mpr (apart .closed id)
  refine ⟨?_, ?_, log ▸ announces.silent.append notes (apart .message id)⟩
  · rw [log, quietly.state, count_append, downs]
    exact announces.downs
  · rw [log, count_append, count_append, downs, closed]
    have before := announces.closes
    omega

theorem Announces.up (announces : Announces c) (up : c.state ≠ .disconnected) :
    .connection false ∉ c.log ∧ c.log.count .closed + c.closesAhead = 0 := by
  have downs := announces.downs
  rw [if_neg up] at downs
  have closes := announces.closes
  exact ⟨count_eq_zero.mp downs, by omega⟩

theorem Announces.down (announces : Announces c) (up : c.state ≠ .disconnected)
    (state : c'.state = .disconnected) (log : c'.log = c.log ++ [.connection false])
    (closes : c'.closesAhead ≤ c.closesAhead + 1) : Announces c' := by
  obtain ⟨unannounced, before⟩ := announces.up up
  refine ⟨?_, ?_, log ▸ announces.silent.append _ (by simp)⟩
  · rw [log, if_pos state, count_append, count_eq_zero.mpr unannounced]
    rfl
  · rw [log, count_append, count_append, count_eq_zero.mpr unannounced]
    simp
    omega

theorem Announces.stillUp (announces : Announces c) (up : c.state ≠ .disconnected)
    (up' : c'.state ≠ .disconnected) (notes : List ConnNote) (log : c'.log = c.log ++ notes)
    (others : .connection false ∉ notes ∧ .closed ∉ notes)
    (closes : c'.closesAhead ≤ c.closesAhead) : Announces c' := by
  obtain ⟨unannounced, before⟩ := announces.up up
  have still : .connection false ∉ c'.log := by
    rw [log]
    exact fun inside => (mem_append.mp inside).elim unannounced others.1
  refine ⟨by rw [if_neg up', count_eq_zero.mpr still], ?_, silent_of_up _ still⟩
  rw [log, count_append, count_eq_zero.mpr others.2]
  omega

theorem Announces.ended (announces : Announces c) (state : c'.state = c.state)
    (log : c'.log = c.log ++ [.closed]) (closes : c'.closesAhead + 1 ≤ c.closesAhead) :
    Announces c' := by
  have before := announces.closes
  refine ⟨?_, ?_, log ▸ announces.silent.append _ (by simp)⟩
  · rw [log, state, count_append]
    exact announces.downs
  · rw [log, count_append, count_append]
    simp
    omega

end Announces

theorem handleRead_announces (c : TcpConnection) (read : Option Bytes) (rest : List ConnTask) :
    (c.handleRead read rest).state = c.state ∧
      ∃ notes, (c.handleRead read rest).log = c.log ++ notes ∧
        .connection false ∉ notes ∧ .closed ∉ notes := by
  unfold handleRead
  split
  · exact ⟨rfl, [], by simp [next], by simp⟩
  next data _ =>
    have kept : (c.receive data).resetIdleTimer.state = c.state ∧
        (c.receive data).resetIdleTimer.log = c.log := by
      unfold resetIdleTimer
      split <;> exact ⟨rfl, rfl⟩
    exact ⟨kept.1, [.message], by simp [invoke, note, kept.2], by simp⟩
  · exact ⟨rfl, [], by simp [next], by simp⟩

/-! ### Runs -/

def Closing : ConnTask → Prop
  | .handleError | .handleRead | .handleClose | .disconnect | .setDisconnecting => True
  | _ => False

structure Ends (c : TcpConnection) : Prop where
  shaped : Shaped (fun t => ¬Closing t) c
  head : ∀ t ∈ c.todo.head?, Closing t → c.state ≠ .disconnected
  outside : Outside c.mail
  announces : Announces c

/-- The poller does not report an error together with readability, and neither of them for
a connection that is closed. -/
def CalmDispatch (c : TcpConnection) : Event → Prop
  | .dispatch error read _ =>
    ¬(error ∧ read) ∧ (c.state = .disconnected → ¬error ∧ ¬read)
  | _ => True

instance (c : TcpConnection) (e : Event) : Decidable (CalmDispatch c e) := by
  cases e <;> unfold CalmDispatch <;> infer_instance

section Run

variable {c c' : TcpConnection}

theorem steady_waits (e : Event) (calm : CalmDispatch c e) (t : ConnTask) (waits : Waits c e t) :
    ¬Closing t := by
  cases e with
  | establish => rcases waits with rfl | rfl <;> exact id
  | destroy =>
    cases waits
    exact id
  | dispatch error read write =>
    have apart := calm.1
    cases error <;> cases read <;> cases write <;>
      simp_all [Waits, handlers, Closing]
  | task =>
    obtain ⟨running, follows⟩ := waits
    cases t <;> first | exact id | exact follows.elim
  | _ => exact waits.elim

theorem up_of_starts (e : Event) (calm : CalmDispatch c e) (t : ConnTask) (starts : Starts c e t)
    (closing : Closing t) : c.state ≠ .disconnected := by
  cases e with
  | destroy =>
    rcases starts with ⟨_, up⟩ | rfl
    · simp [up]
    · exact closing.elim
  | dispatch error read write =>
    intro closed
    obtain ⟨noError, noRead⟩ := calm.2 closed
    cases error <;> cases read <;> cases write <;> simp at noError noRead <;> cases starts
    exact closing
  | shutdown | forceClose | stopRead | startRead | idleTimeout | writeTimeout | maxAge =>
    cases starts
    exact closing.elim
  | _ => exact starts.elim

theorem Ends.head_flows (ends : Ends c) (t : ConnTask) (rest : List ConnTask)
    (head : c.todo = t :: rest) (flow : Flows c c' t rest) :
    ∀ u ∈ c'.todo.head?, Closing u → c'.state ≠ .disconnected := by
  intro u first closing
  cases flow with
  | goesOn new todo stack behind heads =>
    rw [todo] at first
    cases new with
    | nil =>
      -- what waited behind the task does not end the connection
      refine absurd closing (ends.shaped.todo u ?_)
      rw [head]
      exact mem_of_mem_head? first
    | cons v new =>
      cases first
      have placed := heads u rfl
      -- an event handler runs first only in a connection that is up
      have running : t = .handleError ∨ t = .handleRead → c.state ≠ .disconnected := by
        intro handler
        refine ends.head t (by simp [head]) ?_
        rcases handler with rfl | rfl <;> trivial
      cases u with
      | handleClose | handleError =>
        rw [placed.1]
        exact placed.2.elim id running
      | setDisconnecting => exact placed.1 ▸ placed.2
      | _ => first | exact placed.elim | exact closing.elim
  | calls new todo stack behind => simp [todo] at first

theorem Announces.exec (announces : Announces c) (read : Option Bytes) (wrote : Option Nat)
    (t : ConnTask) (rest : List ConnTask) (head : c.todo = t :: rest)
    (up : Closing t → c.state ≠ .disconnected) (ran : c.exec read wrote rest t = some c') :
    Announces c' := by
  have flow := flows_exec c c' read wrote rest t ran
  -- `handleClose` is the only task that leaves a close callback to be done
  by_cases close : t = .handleClose
  · subst close
    cases ran
    exact announces.down (up trivial) rfl rfl (closesAhead_handleClose c rest head).le
  have ahead := closesAhead_flows c c' t rest head close flow
  by_cases loud : Loud t
  · cases t with
    | handleRead =>
      cases ran
      -- a message is received while the connection is up
      obtain ⟨state, notes, log, others⟩ := handleRead_announces c read rest
      exact announces.stillUp (up trivial) (state ▸ up trivial) notes log others (by omega)
    | handleClose => exact absurd rfl close
    | disconnect =>
      cases ran
      exact announces.down (up trivial) rfl rfl (by omega)
    | closeCallback =>
      cases ran
      have counted : [ConnTask.closeCallback].count .closeCallback = 1 := rfl
      exact announces.ended rfl rfl (by omega)
    | setDisconnecting =>
      cases ran
      exact announces.stillUp (up trivial) (by simp [next, setState]) [] (by simp [next, setState])
        (by simp) (by omega)
    | _ => exact loud.elim
  · exact announces.quietly (quietly_exec c c' read wrote rest t loud ran) (by omega)

theorem Ends.task (ends : Ends c) (read : Option Bytes) (wrote : Option Nat) (t : ConnTask)
    (rest : List ConnTask) (head : c.todo = t :: rest)
    (ran : c.exec read wrote rest t = some c') : Ends c' := by
  have flow := flows_exec c c' read wrote rest t ran
  constructor
  · refine ends.shaped.flows t rest head (fun u follows => ?_) flow
    exact steady_waits (.task read wrote) trivial u ⟨t, follows⟩
  · exact ends.head_flows t rest head flow
  · exact ends.outside.task read wrote t rest ran
  · exact ends.announces.exec read wrote t rest head (ends.head t (by simp [head])) ran

theorem Ends.begins (ends : Ends c) (quietly : Quietly c c') (idle : c.todo = [])
    (stack : c'.stack = c.stack) (shaped : Shaped (fun t => ¬Closing t) c')
    (outside : Outside c'.mail)
    (head : ∀ t ∈ c'.todo.head?, Closing t → c.state ≠ .disconnected)
    (others : .closeCallback ∉ c'.todo) : Ends c' := by
  have ahead : c'.closesAhead ≤ c.closesAhead := by
    simp only [closesAhead, stack, idle, count_append, count_eq_zero.mpr others]
    simp
  exact ⟨shaped, quietly.state ▸ head, outside, ends.announces.quietly quietly ahead⟩

theorem Ends.elsewhere (ends : Ends c) (quietly : Quietly c c') (todo : c'.todo = c.todo)
    (stack : c'.stack = c.stack) (outside : Outside c'.mail) : Ends c' := by
  have ahead : c'.closesAhead ≤ c.closesAhead := by rw [closesAhead, todo, stack, closesAhead]
  refine ⟨ends.shaped.same todo stack, ?_, outside, ends.announces.quietly quietly ahead⟩
  rw [todo, quietly.state]
  exact ends.head

theorem Ends.step (ends : Ends c) (e : Event) (sends : OthersSend e) (calm : CalmDispatch c e)
    (stepped : c.step e = some c') : Ends c' := by
  have shaped := ends.shaped.step e (steady_waits e calm) stepped
  have outside := ends.outside.step e sends stepped
  cases moves_step stepped with
  | task read wrote t rest head ran => exact ends.task read wrote t rest head ran
  | establish between fresh =>
    refine ⟨shaped, by simp [notify, invoke], outside, ?_⟩
    refine ends.announces.stillUp (by simp [fresh]) (by simp [notify, invoke, note,
      enableRead, setState]) [.connection true] rfl (by simp) ?_
    simp [closesAhead, notify, invoke, note, enableRead, setState, between.1]
  | begins begins idle tasks _ _ _ _ starts behind =>
    refine ends.begins (quietly_same rfl rfl) idle rfl shaped outside ?_ ?_
    · exact fun t first => up_of_starts _ calm t (starts t first)
    · exact fun inside => absurd (begun_mem tasks starts behind begins _ inside) (by decide)
  | returns rest stack idle framed =>
    have member : rest ∈ c.stack := framed ▸ mem_cons_self ..
    refine ⟨shaped, fun t first closing => ?_, outside, ?_⟩
    · exact absurd closing (ends.shaped.stack rest member t (mem_of_mem_head? first))
    · refine ends.announces.quietly (quietly_same rfl rfl) ?_
      simp [closesAhead, idle, framed]
  | send data idle =>
    refine ends.begins (quietly_same rfl rfl) idle rfl shaped outside ?_ ?_
    · simp [next, Closing]
    · simp [next]
  | refuses => exact ends
  | doPendingTasks | call => exact ends.elsewhere (quietly_same rfl rfl) rfl rfl outside
  | nextPendingTask t batch idle _ first =>
    have posted := ends.outside.posted t (by simp [mail, first])
    refine ends.begins (quietly_same rfl rfl) idle rfl shaped outside ?_ ?_
    · intro u same
      cases same
      cases t <;> first | exact posted.elim | exact fun closing => closing.elim
    · intro inside
      cases mem_singleton.mp inside
      exact posted
  | proceed t phase inside _ _ _ same =>
    obtain ⟨task, rfl, _⟩ := ends.outside.calls t phase inside
    -- the call of another thread queues a task and touches nothing else
    rw [← same] at outside ⊢
    exact ends.elsewhere (quietly_same rfl rfl) rfl rfl outside

end Run

/-- The disconnect is announced at most once, the close callback runs at most once, and no
message follows the disconnect. -/
def AnnouncedOnce (c : TcpConnection) : Prop :=
  c.log.count (.connection false) ≤ 1 ∧ c.log.count .closed ≤ 1 ∧ Silent c.log

theorem Announces.once {c : TcpConnection} (announces : Announces c) : AnnouncedOnce c := by
  have downs : c.log.count (.connection false) ≤ 1 := by
    rw [announces.downs]
    split <;> omega
  have closes := announces.closes
  exact ⟨downs, by omega, announces.silent⟩

theorem ends_initial (settings : Settings) : Ends (initial settings) where
  shaped := ⟨fun _ h => (by cases h), fun _ h => (by cases h)⟩
  head _ h := by cases h
  outside := ⟨fun _ h => (by cases h), fun _ _ h => (by cases h)⟩
  announces := ⟨rfl, Nat.le_refl 0, silent_of_up _ (by simp [initial])⟩

/-- A connection that only the loop thread closes announces its end once, along every run
in which the poller reports an error or readability only for a connection that is not
closed, and not both at once. -/
theorem announcedOnce_always (settings : Settings) (events : List Event)
    (sends : ∀ e ∈ events, OthersSend e)
    (calm : Machine.Meets step CalmDispatch (initial settings) events) :
    Machine.Always step AnnouncedOnce (initial settings) events := by
  have meets := Machine.Meets.and _ events (Machine.meets_of_forall _ events sends) calm
  refine Machine.Always.mono (fun _ (ends : Ends _) => ends.announces.once) _ events ?_
  exact Machine.always_of_meets
    (fun _ e _ ends met stepped => ends.step e met.1 met.2 stepped) _ events (ends_initial settings) meets

/-- A message arrives and the application shuts down; the peer closes its end. -/
def peerCloses : List Event :=
  [.establish, .returns, .task none none, .task none none,
    .dispatch false true false, .task (some [1, 2]) none,
    .shutdown, .task none none, .task none none, .task none none, .returns, .task none none,
    .dispatch false true true, .task (some []) none, .task none none, .returns,
    .task none none, .destroy, .task none none, .returns, .task none none]

theorem announcedOnce_peerCloses :
    (Machine.run step (initial {}) peerCloses).map (·.log) =
      some [.connection true, .message, .shutdownWrite, .connection false, .closed] ∧
    Machine.Always step AnnouncedOnce (initial {}) peerCloses :=
  ⟨by decide +kernel, announcedOnce_always {} peerCloses
    (by simp [peerCloses, OthersSend]) (by decide +kernel)⟩

/-- The peer resets the connection: the poller reports the hang-up together with
readability, and `read` finds the end of the stream. -/
def hangUpReadable : List Event :=
  [.establish, .returns, .task none none, .task none none,
    .dispatch true true false, .task none none, .task none none, .returns,
    .task none none, .returns,
    .task (some []) none, .task none none, .returns, .task none none, .returns]

theorem hangUpReadable_announcedTwice :
    (Machine.run step (initial {}) hangUpReadable).map (·.log) =
      some [.connection true, .connection false, .closed, .connection false, .closed] ∧
    ¬Machine.Always step AnnouncedOnce (initial {}) hangUpReadable := by
  have logged : (Machine.run step (initial {}) hangUpReadable).map (·.log) =
      some [.connection true, .connection false, .closed, .connection false, .closed] := by
    decide +kernel
  refine ⟨logged, fun always => ?_⟩
  obtain ⟨c, ran, log⟩ := Option.map_eq_some_iff.mp logged
  have once := (Machine.Always.last _ c hangUpReadable always ran).1
  rw [log] at once
  exact absurd once (by decide)

end Cox.Net.TcpConnection

import Cox.Net.TcpHandover

/-!
# Steps of a connection as steps of the handover

The tasks of the loop thread and the calls of other threads. A `shutdownInLoop` is on its way
only after `kDisconnecting` was stored, by the loop thread or by another one, so when it runs
`send` does not admit messages any more.
-/
namespace Cox.Net.TcpConnection

open Cox.Lib List

/-! ### The callers -/

/-- What a call of another thread may be about to do. -/
def Proper (t : ThreadId) : CallPhase → Prop
  | .forceCloseDisconnecting => True
  | .storing task => task = .shutdownInLoop ∨ task = .forceCloseInLoop
  | .queueing task => holds task = none ∧ ∀ m, carries task = some m → m.origin = some t

/-- No half-close is under way, except behind a store of `kDisconnecting`. -/
structure Unstored (c : TcpConnection) : Prop where
  todo : c.todo.head? = some .setDisconnecting ∨ .shutdownInLoop ∉ c.todo
  later : .shutdownInLoop ∉ c.stack.flatten ++ (c.batch ++ c.pendingTasks)
  calls : ∀ t, c.inCall t ≠ some (.queueing .shutdownInLoop)

/-- The callers play by the rules, and a disconnect has been announced. -/
structure Posts (c : TcpConnection) : Prop where
  proper : ∀ t phase, c.inCall t = some phase → Proper t phase
  unstored : c.admitting = true → Unstored c
  fallen : c.state = .disconnected → .connection false ∈ c.log

section Task

variable {c c' d : TcpConnection} {rest : List ConnTask}

theorem light_of_not_handles (t : ConnTask) (other : ¬Handles t) : Light t := by
  cases t <;> first | exact ⟨rfl, rfl⟩ | exact absurd trivial other

theorem hands_exec (posts : Posts c) (read : Option Bytes) (wrote : Option Nat) (t : ConnTask)
    (head : c.todo = t :: rest) (ran : c.exec read wrote rest t = some c') : Hands c c' := by
  -- the tasks that write or store have a lemma each; the others pass by
  by_cases handles : Handles t
  · cases t with
    | sendInLoop m => exact hands_sendInLoop wrote rest head posts.fallen ran
    | handleWrite => exact hands_handleWrite wrote rest head ran
    | queueOutput data =>
      cases ran
      exact hands_queueOutput data rest head
    | handleClose =>
      cases ran
      exact hands_handleClose rest head
    | disconnect =>
      cases ran
      exact hands_disconnect rest head
    | setDisconnecting =>
      cases ran
      exact hands_setDisconnecting rest head
    | shutdownInLoop =>
      -- the store comes first, so nobody is admitted any more
      have shut : c.admitting = false := by
        by_contra admits
        have unstored := posts.unstored ((Bool.not_eq_false _).mp admits)
        have todo := unstored.todo
        simp [head] at todo
      exact hands_shutdownInLoop rest head shut read wrote ran
    | _ => exact handles.elim
  · obtain ⟨new, passes⟩ := passes_exec rest read wrote t handles ran
    obtain ⟨carried, held⟩ := passes.placed.light t head (light_of_not_handles t handles)
      passes.light passes.aside.mail
    rw [Hands, passes.aside.handover_same passes.unwritten carried held]
    exact .rest

theorem posting_exec (read : Option Bytes) (wrote : Option Nat) (t : ConnTask)
    (ran : c.exec read wrote rest t = some c') :
    c'.inCall = c.inCall ∧ c'.batch = c.batch ∧ c'.pendingTasks = c.pendingTasks ∧
      c'.highWaterMark = c.highWaterMark := by
  by_cases sends : ∃ message, t = .sendInLoop message
  · obtain ⟨message, rfl⟩ := sends
    have mail := mail_sendInLoop c c' message wrote rest ran
    split at mail
    all_goals exact ⟨congrArg Mail.inCall mail, congrArg Mail.batch mail,
      congrArg Mail.pendingTasks mail, congrArg Mail.highWaterMark mail⟩
  · have mail := mail_exec c c' read wrote rest t (fun message same => sends ⟨message, same⟩) ran
    exact ⟨congrArg Mail.inCall mail, congrArg Mail.batch mail, congrArg Mail.pendingTasks mail,
      congrArg Mail.highWaterMark mail⟩

/-- New tasks none of which half-closes the connection. -/
def Spawns (c c' : TcpConnection) (rest : List ConnTask) : Prop :=
  ∃ new, Placed c c' new rest ∧ .shutdownInLoop ∉ new

theorem spawns_next (stack : d.stack = c.stack) : Spawns c (d.next rest) rest :=
  ⟨[], .first rfl stack, by simp⟩

theorem spawns_queueRest (data : Bytes) (stack : d.stack = c.stack) :
    Spawns c (d.queueRest data rest) rest := by
  have buffered : Spawns c (d.queueOutput data rest) rest := by
    refine ⟨[.armWriteTimer], .first rfl ?_, by simp⟩
    unfold queueOutput
    split <;> exact stack
  unfold queueRest
  split
  · exact spawns_next stack
  · dsimp only
    split
    · split
      -- the high-water mark: the rest waits until the callback returns
      · exact ⟨[.queueOutput data], .behind rfl (by simp [invoke, note, stack]), by simp⟩
      · exact buffered
    · exact buffered

theorem spawns_handleWrite (wrote : Option Nat) (ran : c.handleWrite wrote rest = some c') :
    Spawns c c' rest := by
  cases flushes_handleWrite c c' wrote rest ran with
  | unasked next =>
    rw [next]
    exact spawns_next rfl
  | nothing on next =>
    rw [next]
    exact spawns_next rfl
  | takes n on within next =>
    rw [next]
    unfold written
    split
    · refine ⟨[.finishShutdown], .behind rfl ?_, by simp⟩
      dsimp only [invoke, note, accept, retrieve, disableWrite, cancelWriteTimer]
      rfl
    · exact spawns_next (by dsimp only [note, accept, retrieve])

theorem spawns_exec (read : Option Bytes) (wrote : Option Nat) (t : ConnTask) (handles : Handles t)
    (ran : c.exec read wrote rest t = some c') : Spawns c c' rest := by
  cases t with
  | sendInLoop m =>
    cases sends_sendInLoop wrote rest ran with
    | drops closed next =>
      rw [next]
      exact spawns_next rfl
    | whole d written direct next =>
      rw [next]
      exact ⟨[], .behind rfl (congrArg (rest :: ·) written.stack), by simp⟩
    | leaves d n written direct next =>
      rw [next]
      exact spawns_queueRest _ written.stack
  | handleWrite => exact spawns_handleWrite wrote ran
  | queueOutput data =>
    cases ran
    refine ⟨[.armWriteTimer], .first rfl ?_, by simp⟩
    unfold queueOutput
    split <;> rfl
  | handleClose =>
    cases ran
    exact ⟨[.closeCallback], .behind rfl rfl, by simp⟩
  | disconnect =>
    cases ran
    exact ⟨[], .behind rfl rfl, by simp⟩
  | setDisconnecting =>
    cases ran
    exact spawns_next rfl
  | shutdownInLoop =>
    simp only [exec] at ran
    split at ran <;> cases ran
    · exact spawns_next rfl
    · exact spawns_next rfl
  | _ => exact handles.elim

theorem fallen_exec (posts : Posts c) (read : Option Bytes) (wrote : Option Nat) (t : ConnTask)
    (ran : c.exec read wrote rest t = some c') (closed : c'.state = .disconnected) :
    .connection false ∈ c'.log := by
  -- otherwise the state is the old one, and the log only grows
  have before (state : c'.state = c.state) (log : ∃ notes, c'.log = c.log ++ notes) :
      .connection false ∈ c'.log := by
    obtain ⟨notes, same⟩ := log
    rw [same]
    exact mem_append_left _ (posts.fallen (state ▸ closed))
  by_cases loud : Loud t
  · cases t with
    -- both announce it in the same step
    | handleClose | disconnect =>
      cases ran
      exact mem_append_right _ (mem_singleton.mpr rfl)
    | setDisconnecting =>
      cases ran
      cases closed
    | handleRead =>
      cases ran
      obtain ⟨state, notes, log, _⟩ := handleRead_announces c read rest
      exact before state ⟨notes, log⟩
    | closeCallback =>
      cases ran
      exact before rfl ⟨[.closed], rfl⟩
    | _ => exact loud.elim
  · have quietly := quietly_exec c c' read wrote rest t loud ran
    obtain ⟨notes, log, _⟩ := quietly.log
    exact before quietly.state ⟨notes, log⟩

theorem storesFirst_exec (read : Option Bytes) (wrote : Option Nat) (t : ConnTask)
    (ran : c.exec read wrote rest t = some c') :
    ∃ new, Placed c c' new rest ∧ StoresFirst c c' new rest := by
  by_cases handles : Handles t
  · obtain ⟨new, placed, none⟩ := spawns_exec read wrote t handles ran
    exact ⟨new, placed, fun inside => absurd inside none⟩
  · obtain ⟨new, passes⟩ := passes_exec rest read wrote t handles ran
    exact ⟨new, passes.placed, passes.storesFirst⟩

theorem Unstored.placed (unstored : Unstored c) (t : ConnTask) (head : c.todo = t :: rest)
    (other : t ≠ .setDisconnecting) (admits : c.admitting = true) (new : List ConnTask)
    (placed : Placed c c' new rest) (storesFirst : StoresFirst c c' new rest)
    (inCall : c'.inCall = c.inCall) (batch : c'.batch = c.batch)
    (pending : c'.pendingTasks = c.pendingTasks) : Unstored c' := by
  have tail : .shutdownInLoop ∉ rest := by
    have todo := unstored.todo
    rw [head] at todo
    rcases todo with first | none
    · exact absurd (Option.some.inj first) other
    · exact fun inside => none (mem_cons_of_mem _ inside)
  -- a half-close among the new tasks stands behind a store
  have behind (inside : .shutdownInLoop ∈ new) :
      new.head? = some .setDisconnecting ∧ c'.todo = new ++ rest := by
    rcases storesFirst inside with shut | stands
    · rw [admits] at shut
      cases shut
    · exact stands
  refine ⟨?_, ?_, fun t => inCall ▸ unstored.calls t⟩
  · cases placed with
    | first todo stack =>
      rw [todo]
      by_cases inside : .shutdownInLoop ∈ new
      · left
        rw [List.head?_append, (behind inside).1]
        rfl
      · right
        exact fun somewhere => (mem_append.mp somewhere).elim inside tail
    | behind todo stack =>
      right
      rw [todo]
      exact not_mem_nil
  · rw [batch, pending]
    cases placed with
    | first todo stack =>
      rw [stack]
      exact unstored.later
    -- a callback runs first, and then no store stands at the head
    | behind todo stack =>
      have fresh : .shutdownInLoop ∉ new := by
        intro inside
        obtain ⟨first, same⟩ := behind inside
        rw [todo] at same
        have empty : new = [] := (append_eq_nil_iff.mp same.symm).1
        rw [empty] at first
        cases first
      rw [stack, flatten_cons, append_assoc]
      intro somewhere
      rcases mem_append.mp somewhere with inside | later
      · exact (mem_append.mp inside).elim fresh tail
      · exact unstored.later later

theorem Posts.task (posts : Posts c) (read : Option Bytes) (wrote : Option Nat) (t : ConnTask)
    (head : c.todo = t :: rest) (ran : c.exec read wrote rest t = some c') : Posts c' := by
  have hands := hands_exec posts read wrote t head ran
  obtain ⟨inCall, batch, pending, _⟩ := posting_exec read wrote t ran
  refine ⟨inCall ▸ posts.proper, fun admits => ?_, fallen_exec posts read wrote t ran⟩
  have before : c.admitting = true := hands.backwards.1 admits
  obtain ⟨new, placed, storesFirst⟩ := storesFirst_exec read wrote t ran
  refine (posts.unstored before).placed t head ?_ before new placed storesFirst inCall
    batch pending
  -- after the store nobody is admitted
  rintro rfl
  cases ran
  cases admits

end Task

/-! ### Events -/

section Event

variable {c c' : TcpConnection}

theorem handover_retask (c : TcpConnection) (todo : List ConnTask) (stack : List (List ConnTask))
    (batch pendingTasks : List ConnTask)
    (carried : (todo ++ (stack.flatten ++ (batch ++ pendingTasks))).filterMap carries =
      c.waiting.filterMap carries)
    (held : (todo ++ (stack.flatten ++ (batch ++ pendingTasks))).filterMap holds =
      c.waiting.filterMap holds) :
    ({ c with todo, stack, batch, pendingTasks } : TcpConnection).handover = c.handover := by
  have flight : ({ c with todo, stack, batch, pendingTasks } : TcpConnection).inFlight = c.inFlight := by
    funext m
    show (List.filterMap carries _).count m + _ = _
    rw [inFlight, ← carried]
    rfl
  show { c.handover with
    flight := ({ c with todo, stack, batch, pendingTasks } : TcpConnection).inFlight
    loose := (todo ++ (stack.flatten ++ (batch ++ pendingTasks))).filterMap holds } = _
  rw [flight, held]
  rfl

theorem handover_begun (idle : c.todo = []) (tasks : List ConnTask) (one two three : Bool)
    (input : Bytes) (light : ∀ t ∈ tasks, Light t) :
    (c.begun tasks one two three input).handover = c.handover := by
  have nothing : tasks.filterMap carries = [] ∧ tasks.filterMap holds = [] :=
    ⟨filterMap_eq_nil_iff.mpr fun u inside => (light u inside).1,
      filterMap_eq_nil_iff.mpr fun u inside => (light u inside).2⟩
  have aside : Aside c (c.begun tasks one two three input) := aside_same rfl rfl rfl
  refine aside.handover_same ⟨rfl, rfl, rfl⟩ ?_ ?_
  · show (tasks ++ _).filterMap carries = _
    rw [filterMap_append, nothing.1, waiting, idle]
    rfl
  · show (tasks ++ _).filterMap holds = _
    rw [filterMap_append, nothing.2, waiting, idle]
    rfl

theorem light_openings (t : ConnTask) (opening : t ∈ openings) :
    Light t ∧ t ≠ .shutdownInLoop := by
  simp only [openings, mem_cons, not_mem_nil, or_false] at opening
  rcases opening with rfl | rfl | rfl | rfl | rfl | rfl | rfl | rfl | rfl
  all_goals exact ⟨⟨rfl, rfl⟩, by simp⟩

theorem handover_enter (c : TcpConnection) (t : ThreadId) (phase : Option CallPhase)
    (before : calling c.inCall (some t) = []) (after : calling (fun _ => phase) (some t) = []) :
    (c.enter t phase).handover = c.handover := by
  have same (origin : Option ThreadId) :
      calling (Function.update c.inCall t phase) origin = calling c.inCall origin := by
    rw [calling_update]
    split
    next here => rw [here, before, after]
    · rfl
  have flight : (c.enter t phase).inFlight = c.inFlight := by
    funext m
    show _ + (calling (Function.update c.inCall t phase) m.origin).count m = _
    rw [same]
    rfl
  show { c.handover with flight := (c.enter t phase).inFlight } = _
  rw [flight]
  rfl

theorem hands_same (same : c'.handover = c.handover) : Hands c c' := by
  rw [Hands, same]
  exact .rest

/-- A step of the handover that keeps to the rules and does not half-close. -/
structure Keeps (c c' : TcpConnection) : Prop where
  posts : Posts c'
  hands : Hands c c'
  unended : .shutdownWrite ∈ c'.log → .shutdownWrite ∈ c.log

theorem hands_enter (m : Message) (admits : c.admitting = true)
    (same : c'.handover = { c.handover with called := c.called ++ [m], flight := c'.inFlight })
    (enters : ∀ m', c'.inFlight m' = c.inFlight m' + [m].count m') : Hands c c' := by
  rw [Hands, same]
  exact .enter m _ admits enters

variable (posts : Posts c)
include posts

theorem keeps_begun (idle : c.todo = []) (tasks : List ConnTask) (one two three : Bool)
    (input : Bytes) (opening : ∀ t ∈ tasks, t ∈ openings) :
    Keeps c (c.begun tasks one two three input) := by
  refine ⟨⟨posts.proper, fun admits => ?_, posts.fallen⟩, hands_same (handover_begun idle tasks _ _ _ _
    fun t inside => (light_openings t (opening t inside)).1), id⟩
  have unstored := posts.unstored admits
  refine ⟨.inr fun inside => ?_, unstored.later, unstored.calls⟩
  exact (light_openings _ (opening _ inside)).2 rfl

theorem keeps_establish (between : c.Between) (fresh : c.state = .connecting) :
    Keeps c ((c.setState .connected).enableRead.notify [.resetIdleTimer, .armMaxAgeTimer]) := by
  have admits : c.admitting = true := by simp [admitting, fresh]
  have unstored := posts.unstored admits
  refine ⟨⟨posts.proper, fun _ => ⟨.inr not_mem_nil, ?_, unstored.calls⟩, ?_⟩, hands_same ?_,
    by simp [notify, invoke, note, enableRead, setState]⟩
  · intro inside
    simp only [notify, invoke, note, enableRead, setState, flatten_cons, cons_append,
      nil_append, mem_cons, reduceCtorEq, false_or] at inside
    exact unstored.later inside
  · intro closed
    cases closed
  -- the connection admitted messages before: `kConnecting` counts as admitting
  · have moved := handover_retask c [.resetIdleTimer, .armMaxAgeTimer] c.stack c.batch c.pendingTasks
      (by rw [waiting, between.1]; rfl) (by rw [waiting, between.1]; rfl)
    rw [notify, handover_invoke_plain _ _ _ (by simp [Plain, enableRead, setState])]
    show { ({ c with
      todo := [.resetIdleTimer, .armMaxAgeTimer]
      stack := c.stack
      batch := c.batch
      pendingTasks := c.pendingTasks } : TcpConnection).handover with admitting := true } = _
    rw [moved, ← admits]
    rfl

theorem keeps_returns (rest : List ConnTask) (stack : List (List ConnTask)) (idle : c.todo = [])
    (framed : c.stack = rest :: stack) : Keeps c { c with todo := rest, stack } := by
  have tasks : rest ++ (stack.flatten ++ (c.batch ++ c.pendingTasks)) = c.waiting := by
    simp [waiting, idle, framed]
  refine ⟨⟨posts.proper, fun admits => ?_, posts.fallen⟩,
    hands_same (handover_retask c rest stack c.batch c.pendingTasks (by rw [tasks]) (by rw [tasks])), id⟩
  have unstored := posts.unstored admits
  have later := unstored.later
  rw [framed, flatten_cons, append_assoc] at later
  exact ⟨.inr fun inside => later (mem_append_left _ inside),
    fun inside => later (mem_append_right _ inside), unstored.calls⟩

theorem keeps_doPendingTasks (between : c.Between) :
    Keeps c { c with batch := c.pendingTasks, pendingTasks := [] } := by
  obtain ⟨idle, empty, taken⟩ := between
  have tasks : c.todo ++ (c.stack.flatten ++ (c.pendingTasks ++ [])) = c.waiting := by
    simp [waiting, taken]
  refine ⟨⟨posts.proper, fun admits => ?_, posts.fallen⟩,
    hands_same (handover_retask c c.todo c.stack c.pendingTasks [] (by rw [tasks]) (by rw [tasks])), id⟩
  have unstored := posts.unstored admits
  refine ⟨unstored.todo, ?_, unstored.calls⟩
  have later := unstored.later
  rw [taken, nil_append] at later
  rw [append_nil]
  exact later

theorem keeps_nextPendingTask (t : ConnTask) (batch : List ConnTask) (idle : c.todo = [])
    (empty : c.stack = []) (first : c.batch = t :: batch) :
    Keeps c { c with todo := [t], batch } := by
  have tasks : [t] ++ (c.stack.flatten ++ (batch ++ c.pendingTasks)) = c.waiting := by
    simp [waiting, idle, empty, first]
  refine ⟨⟨posts.proper, fun admits => ?_, posts.fallen⟩,
    hands_same (handover_retask c [t] c.stack batch c.pendingTasks (by rw [tasks]) (by rw [tasks])), id⟩
  have unstored := posts.unstored admits
  have later := unstored.later
  rw [empty, first, flatten_nil, nil_append, cons_append, mem_cons, not_or] at later
  refine ⟨.inr fun inside => later.1 (mem_singleton.mp inside), ?_, unstored.calls⟩
  rw [empty]
  exact later.2

theorem keeps_send (data : Bytes) (idle : c.todo = []) (up : c.state = .connected) :
    Keeps c ((c.calls ⟨none, data⟩).next [.sendInLoop ⟨none, data⟩]) := by
  have admits : c.admitting = true := by simp [admitting, up]
  have unstored := posts.unstored admits
  refine ⟨⟨posts.proper, fun _ => ⟨.inr (by simp [next]), unstored.later, unstored.calls⟩,
    posts.fallen⟩, hands_enter ⟨none, data⟩ admits ?_ fun m' => ?_, id⟩
  · have held : c.waiting.filterMap holds =
        ((c.calls ⟨none, data⟩).next [.sendInLoop ⟨none, data⟩]).waiting.filterMap holds := by
      rw [waiting, idle]
      rfl
    unfold handover
    rw [held]
    rfl
  · have carried : c.waiting.filterMap carries =
        (c.stack.flatten ++ (c.batch ++ c.pendingTasks)).filterMap carries := by
      rw [waiting, idle]
      rfl
    show (⟨none, data⟩ :: (c.stack.flatten ++ (c.batch ++ c.pendingTasks)).filterMap carries).count m' +
      (calling c.inCall m'.origin).count m' = _
    rw [inFlight, carried, ← singleton_append, count_append]
    omega

variable (t : ThreadId)

section Enter

variable (phase : Option CallPhase) (proper : ∀ p ∈ phase, Proper t p)
include proper

theorem proper_update (u : ThreadId) (p : CallPhase)
    (entered : Function.update c.inCall t phase u = some p) : Proper u p := by
  by_cases here : u = t
  · subst here
    rw [Function.update_self] at entered
    exact proper p entered
  · rw [Function.update_of_ne here] at entered
    exact posts.proper u p entered

theorem Posts.enter (later : phase ≠ some (.queueing .shutdownInLoop)) :
    Posts (c.enter t phase) := by
  refine ⟨proper_update posts t phase proper, fun admits => ?_, posts.fallen⟩
  have unstored := posts.unstored admits
  refine ⟨unstored.todo, unstored.later, fun u => ?_⟩
  show Function.update c.inCall t phase u ≠ _
  by_cases here : u = t
  · subst here
    rw [Function.update_self]
    exact later
  · rw [Function.update_of_ne here]
    exact unstored.calls u

end Enter

theorem keeps_enter (phase : Option CallPhase) (before : calling c.inCall (some t) = [])
    (after : calling (fun _ => phase) (some t) = []) (proper : ∀ p ∈ phase, Proper t p)
    (later : phase ≠ some (.queueing .shutdownInLoop)) : Keeps c (c.enter t phase) :=
  ⟨posts.enter t phase proper later, hands_same (handover_enter c t phase before after), id⟩

theorem keeps_callSend (data : Bytes) (idle : c.inCall t = none) (up : c.state = .connected) :
    Keeps c ((c.calls ⟨some t, data⟩).enter t (some (.queueing (.sendInLoop ⟨some t, data⟩)))) := by
  have admits : c.admitting = true := by simp [admitting, up]
  have called : Posts (c.calls ⟨some t, data⟩) :=
    ⟨posts.proper, fun admits => ⟨(posts.unstored admits).todo, (posts.unstored admits).later,
      (posts.unstored admits).calls⟩, posts.fallen⟩
  refine ⟨called.enter t _ ?_ (by simp), hands_enter ⟨some t, data⟩ admits rfl fun m' => ?_, id⟩
  · rintro p same
    cases same
    refine ⟨rfl, fun m carried => ?_⟩
    cases carried
    rfl
  · show (c.waiting.filterMap carries).count m' +
      (calling (Function.update c.inCall t _) m'.origin).count m' = _
    rw [calling_update, inFlight, Nat.add_assoc]
    congr 1
    split
    next here =>
      have none : calling c.inCall m'.origin = [] := by simp [here, calling, idle]
      rw [none, here]
      simp [calling, carries]
    -- a message of another thread
    next other =>
      have apart : [(⟨some t, data⟩ : Message)].count m' = 0 :=
        count_eq_zero.mpr fun inside => other (by rw [mem_singleton.mp inside])
      rw [apart]
      rfl

theorem keeps_startCall (call : Call) (idle : c.inCall t = none) :
    Keeps c (c.startCall t call) := by
  have before : calling c.inCall (some t) = [] := by simp [calling, idle]
  have still : Keeps c c := ⟨posts, .rest, id⟩
  cases call with
  | send data =>
    unfold startCall
    dsimp only
    split
    next up => exact keeps_callSend posts t data idle up
    · exact still
  | shutdown =>
    unfold startCall
    dsimp only
    split
    · exact keeps_enter posts t _ before rfl (by simp [Proper]) (by simp)
    · exact still
  | forceClose =>
    unfold startCall
    dsimp only
    split
    · exact keeps_enter posts t _ before rfl (by simp [Proper]) (by simp)
    · exact keeps_enter posts t _ before rfl (by simp [Proper]) (by simp)
  | stopRead | startRead =>
    exact keeps_enter posts t _ before rfl (by simp [Proper, carries, holds]) (by simp)

theorem keeps_queue (task : ConnTask) (inCall : c.inCall t = some (.queueing task)) :
    Keeps c ({ c with pendingTasks := c.pendingTasks ++ [task] }.enter t none) := by
  obtain ⟨unheld, own⟩ := posts.proper t _ inCall
  have queued : Posts { c with pendingTasks := c.pendingTasks ++ [task] } := by
    refine ⟨posts.proper, fun admits => ?_, posts.fallen⟩
    have unstored := posts.unstored admits
    -- a call that half-closes has stored `kDisconnecting` before it queues
    have light : task ≠ .shutdownInLoop := fun same => unstored.calls t (by rw [inCall, same])
    refine ⟨unstored.todo, fun inside => ?_, unstored.calls⟩
    simp only [← append_assoc, mem_append (t := [task]), mem_singleton] at inside
    rcases inside with inside | same
    · exact unstored.later (by simpa only [append_assoc] using inside)
    · exact light same.symm
  refine ⟨queued.enter t none (by simp) (by simp), hands_same ?_, id⟩
  have held : (({ c with pendingTasks := c.pendingTasks ++ [task] }.enter t none).waiting.filterMap
      holds) = c.waiting.filterMap holds := by
    simp [waiting, enter, unheld]
  have flight : ({ c with pendingTasks := c.pendingTasks ++ [task] }.enter t none).inFlight =
      c.inFlight := by
    funext m
    show ((c.todo ++ (c.stack.flatten ++ (c.batch ++ (c.pendingTasks ++ [task])))).filterMap
      carries).count m + (calling (Function.update c.inCall t none) m.origin).count m = _
    -- the message leaves the call and enters the queue
    have moved : (calling c.inCall m.origin).count m = ([task].filterMap carries).count m +
        (calling (Function.update c.inCall t none) m.origin).count m := by
      rw [calling_update]
      split
      next here =>
        have own : calling c.inCall (some t) = (carries task).toList := by simp only [calling, inCall]
        rw [here, own, filterMap_cons, filterMap_nil]
        cases carries task with
        | none => rfl
        | some m' => rfl
      next other =>
        have apart : ([task].filterMap carries).count m = 0 := by
          refine count_eq_zero.mpr fun inside => ?_
          obtain ⟨u, here, carried⟩ := mem_filterMap.mp inside
          rw [mem_singleton.mp here] at carried
          exact other (own m carried)
        rw [apart, Nat.zero_add]
    rw [inFlight, moved, waiting]
    simp only [filterMap_append, count_append]
    omega
  unfold handover
  rw [held, flight]
  rfl

theorem keeps_continueCall (phase : CallPhase) (inCall : c.inCall t = some phase) :
    Keeps c (c.continueCall t phase) := by
  cases phase with
  | forceCloseDisconnecting =>
    have before : calling c.inCall (some t) = [] := by simp [calling, inCall]
    unfold continueCall
    dsimp only
    split
    · exact keeps_enter posts t _ before rfl (by simp [Proper]) (by simp)
    · exact keeps_enter posts t _ before rfl (by simp) (by simp)
  | storing task =>
    -- the store shuts the door; the task that is queued next carries nothing
    have allowed : task = .shutdownInLoop ∨ task = .forceCloseInLoop := posts.proper t _ inCall
    have empty : carries task = none ∧ holds task = none := by
      rcases allowed with rfl | rfl
      · exact ⟨rfl, rfl⟩
      · exact ⟨rfl, rfl⟩
    have entered := handover_enter c t (some (.queueing task)) (by simp [calling, inCall])
      (by simp [calling, empty.1])
    have proper : ∀ p ∈ some (CallPhase.queueing task), Proper t p := by
      rintro p same
      cases same
      exact ⟨empty.2, by simp [empty.1]⟩
    refine ⟨⟨proper_update posts t _ proper, fun admits => ?_, fun closed => ?_⟩, ?_, id⟩
    · cases admits
    · cases closed
    · show Handover.Step _ _ { (c.enter t (some (.queueing task))).handover with admitting := false }
      rw [entered]
      exact .shut
  | queueing task => exact keeps_queue posts t task inCall

theorem keeps_moves (e : Event) (other : ∀ read wrote, e ≠ .task read wrote) (moves : Moves c e c') :
    Keeps c c' := by
  cases moves with
  | task read wrote => exact absurd rfl (other read wrote)
  | begins begins idle tasks _ _ _ _ starts behind =>
    exact keeps_begun posts idle tasks _ _ _ _ (begun_mem tasks starts behind begins)
  | establish between fresh => exact keeps_establish posts between fresh
  | returns rest stack idle framed => exact keeps_returns posts rest stack idle framed
  | send data idle up => exact keeps_send posts data idle up
  | refuses => exact ⟨posts, .rest, id⟩
  | doPendingTasks between => exact keeps_doPendingTasks posts between
  | nextPendingTask t batch idle empty first =>
    exact keeps_nextPendingTask posts t batch idle empty first
  | call t call idle _ _ same => exact same ▸ keeps_startCall posts t call idle
  | proceed t phase inside _ _ _ same => exact same ▸ keeps_continueCall posts t phase inside

end Event

end Cox.Net.TcpConnection

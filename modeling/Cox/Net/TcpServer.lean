import Cox.Lib.Bytes
import Cox.Lib.Machine
import Cox.Lib.SortedMap

/-!
# The server and its drain

`TcpServer` of net/tcp_server.cc on its base loop: the table of connections with its cap,
and the graceful shutdown that refuses new connections, asks the open ones to finish,
closes the rest at a deadline and reports when the last one is gone.

Application code runs in the middle of nearly everything: drain callbacks, the callbacks of
a connection that is established, closed or destroyed on the base loop, the overload callback
and the completion itself. Whatever leads out of the server suspends the rest of what it
was doing on `stack`; until it returns, connections may be removed and `shutdown` called, as
often as anybody likes. A connection on another loop is reached by a queued task; to the base
loop that is a call which returns at once.
-/
namespace Cox.Net

open Cox.Lib List

/-- What a function of the server has still to do. -/
inductive ServerTask where
  | connectEstablished (conn : Bytes)
  | connectDestroyed (conn : Bytes)
  /-- `drain_callback_`, if there is one. -/
  | drainCallback (conn : Bytes)
  /-- `shutdown` of the connection, which calls nobody back. -/
  | halfClose (conn : Bytes)
  | forceClose (conn : Bytes)
  /-- The end of `shutdownInLoop`, behind the loop over the connections. -/
  | endShutdown (deadlineSeconds : Nat)
  | maybeFinishDrain
  deriving DecidableEq

/-- A completion callback has run: the one of which call of `shutdown`, and how many
connections there were. -/
structure Completion where
  call : Nat
  left : Nat
  deriving DecidableEq

structure TcpServer where
  name : Bytes
  ipPort : Bytes
  maxConnections : Nat
  draining : Bool := false
  /-- `drain_complete_callback_`, by the number of the call that it came with. -/
  drainCompleteCallback : Option Nat := none
  connections : SortedMap Bytes Nat := .empty
  nextConnId : Nat := 1
  listening : Bool := true
  /-- The timers that will force the connections to close. -/
  deadlines : Nat := 0
  todo : List ServerTask := []
  /-- What waits for calls out of the server to return, innermost first. -/
  stack : List (List ServerTask) := []
  -- what has happened
  /-- For each call of `shutdown`, whether it came with a completion callback. -/
  asked : List Bool := []
  completed : List Completion := []

namespace TcpServer

def size (s : TcpServer) : Nat := s.connections.entries.length

def next (s : TcpServer) (tasks : List ServerTask) : TcpServer := { s with todo := tasks }

def invoke (s : TcpServer) (rest : List ServerTask) : TcpServer :=
  { s with todo := [], stack := rest :: s.stack }

/-- `name-ip:port#id`. -/
def connName (name ipPort : Bytes) (id : Nat) : Bytes :=
  name ++ text "-" ++ ipPort ++ text "#" ++ numeral 10 id

/-- `limited` is the refusal of the accept limiter. -/
def newConnection (s : TcpServer) (limited : Bool) : TcpServer :=
  if s.draining then s
  -- both refusals end with the overload callback
  else if limited then s.invoke []
  else if 0 < s.maxConnections ∧ s.maxConnections ≤ s.size then s.invoke []
  else
    let conn := connName s.name s.ipPort s.nextConnId
    { s with
      nextConnId := s.nextConnId + 1
      connections := s.connections.insert conn s.nextConnId
      todo := [.connectEstablished conn] }

/-- The connection may be in the table or not. Whether the server is draining is asked
again after the connection is destroyed. -/
def removeConnectionInLoop (s : TcpServer) (conn : Bytes) : TcpServer :=
  { s with
    connections := s.connections.erase conn
    todo := [.connectDestroyed conn, .maybeFinishDrain] }

/-- The connections are copied before any of them is called. -/
def shutdownInLoop (s : TcpServer) (deadlineSeconds : Nat) : TcpServer :=
  { s with
    listening := false
    todo := (s.connections.entries.flatMap fun e => [.drainCallback e.1, .halfClose e.1]) ++
      [.endShutdown deadlineSeconds] }

/-- On the base loop; `onComplete` says whether there is a completion callback. -/
def shutdown (s : TcpServer) (deadlineSeconds : Nat) (onComplete : Bool) : TcpServer :=
  let call := s.asked.length
  let s := { s with asked := s.asked ++ [onComplete] }
  if s.draining then s
  else
    { s with
      draining := true
      drainCompleteCallback := if onComplete then some call else none }.shutdownInLoop
        deadlineSeconds

def forceCloseAllInLoop (s : TcpServer) : TcpServer :=
  s.next (s.connections.entries.map fun e => .forceClose e.1)

/-- The callback is taken out before it is called. -/
def maybeFinishDrain (s : TcpServer) (rest : List ServerTask) : TcpServer :=
  match s.drainCompleteCallback with
  | some call =>
    if s.draining ∧ s.size = 0 then
      invoke { s with
        drainCompleteCallback := none
        completed := s.completed ++ [⟨call, s.size⟩] } rest
    else s.next rest
  | none => s.next rest

def endShutdown (s : TcpServer) (deadlineSeconds : Nat) (rest : List ServerTask) : TcpServer :=
  if s.size = 0 then s.next (.maybeFinishDrain :: rest)
  else if 0 < deadlineSeconds then { s with deadlines := s.deadlines + 1, todo := rest }
  else s.next rest

def exec (s : TcpServer) (rest : List ServerTask) : ServerTask → TcpServer
  | .connectEstablished _ | .connectDestroyed _ | .drainCallback _ | .forceClose _ => s.invoke rest
  | .halfClose _ => s.next rest
  | .endShutdown deadlineSeconds => s.endShutdown deadlineSeconds rest
  | .maybeFinishDrain => s.maybeFinishDrain rest

inductive Event where
  | newConnection (limited : Bool)
  /-- From the close callback of a connection, at once or by way of the base loop. -/
  | removeConnection (conn : Bytes)
  | shutdown (deadlineSeconds : Nat) (onComplete : Bool)
  /-- A deadline is over. -/
  | deadline
  | task
  /-- The innermost call out of the server returns. -/
  | returns
  deriving DecidableEq

def Between (s : TcpServer) : Prop := s.todo = [] ∧ s.stack = []

instance (s : TcpServer) : Decidable s.Between := inferInstanceAs (Decidable (_ ∧ _))

def step (s : TcpServer) : Event → Option TcpServer
  | .newConnection limited => if s.Between then some (s.newConnection limited) else none
  | .removeConnection conn => if s.todo = [] then some (s.removeConnectionInLoop conn) else none
  | .shutdown deadlineSeconds onComplete =>
    if s.todo = [] then some (s.shutdown deadlineSeconds onComplete) else none
  | .deadline =>
    if s.Between ∧ 0 < s.deadlines then
      some ({ s with deadlines := s.deadlines - 1 }.forceCloseAllInLoop)
    else none
  | .task =>
    match s.todo with
    | t :: rest => some (s.exec rest t)
    | [] => none
  | .returns =>
    match s.todo, s.stack with
    | [], rest :: stack => some { s with todo := rest, stack }
    | _, _ => none

def initial (name ipPort : Bytes) (maxConnections : Nat) : TcpServer :=
  { name, ipPort, maxConnections }

/-! ### The table of connections -/

/-- The table only loses entries, and what decides about new ones stays. -/
structure Shrinks (s s' : TcpServer) : Prop where
  draining : s.draining = true → s'.draining = true
  maxConnections : s'.maxConnections = s.maxConnections
  entries : s'.connections.entries.Sublist s.connections.entries

section Table

variable {s s' : TcpServer}

theorem Shrinks.same (draining : s'.draining = s.draining)
    (maxConnections : s'.maxConnections = s.maxConnections)
    (connections : s'.connections = s.connections) : Shrinks s s' where
  draining := fun before => draining.trans before
  maxConnections := maxConnections
  entries := connections ▸ List.Sublist.refl _

theorem shrinks_exec (s : TcpServer) (rest : List ServerTask) (t : ServerTask) :
    Shrinks s (s.exec rest t) := by
  cases t with
  | connectEstablished | connectDestroyed | drainCallback | forceClose | halfClose =>
    exact Shrinks.same rfl rfl rfl
  | endShutdown deadlineSeconds =>
    simp only [exec, endShutdown]
    split
    · exact Shrinks.same rfl rfl rfl
    · split <;> exact Shrinks.same rfl rfl rfl
  | maybeFinishDrain =>
    simp only [exec, maybeFinishDrain]
    split
    · split <;> exact Shrinks.same rfl rfl rfl
    · exact Shrinks.same rfl rfl rfl

theorem shrinks_shutdown (s : TcpServer) (deadlineSeconds : Nat) (onComplete : Bool) :
    Shrinks s (s.shutdown deadlineSeconds onComplete) := by
  simp only [shutdown]
  split
  · exact Shrinks.same rfl rfl rfl
  · exact ⟨fun _ => rfl, rfl, List.Sublist.refl _⟩

theorem shrinks_step (event : Event) (other : ∀ limited, event ≠ .newConnection limited)
    (stepped : s.step event = some s') : Shrinks s s' := by
  cases event with
  | newConnection limited => exact absurd rfl (other limited)
  | removeConnection conn =>
    simp only [step] at stepped
    split at stepped <;> cases stepped
    exact ⟨id, rfl, filter_sublist⟩
  | shutdown deadlineSeconds onComplete =>
    simp only [step] at stepped
    split at stepped <;> cases stepped
    exact shrinks_shutdown s deadlineSeconds onComplete
  | deadline =>
    simp only [step] at stepped
    split at stepped <;> cases stepped
    exact Shrinks.same rfl rfl rfl
  | task =>
    simp only [step] at stepped
    split at stepped <;> cases stepped
    next t rest _ => exact shrinks_exec s rest t
  | returns =>
    simp only [step] at stepped
    split at stepped <;> cases stepped
    exact Shrinks.same rfl rfl rfl

theorem shrinks_of_draining (draining : s.draining = true) (event : Event)
    (stepped : s.step event = some s') : Shrinks s s' := by
  cases event with
  | newConnection limited =>
    simp only [step, newConnection, draining, if_true] at stepped
    split at stepped <;> cases stepped
    exact Shrinks.same rfl rfl rfl
  | _ => exact shrinks_step _ (fun _ => Event.noConfusion) stepped

/-- The cap is kept: a new connection is let in only below it. -/
def WithinCap (s : TcpServer) : Prop := 0 < s.maxConnections → s.size ≤ s.maxConnections

theorem WithinCap.shrinks (within : WithinCap s) (shrinks : Shrinks s s') : WithinCap s' := by
  intro positive
  rw [shrinks.maxConnections] at positive ⊢
  exact Nat.le_trans shrinks.entries.length_le (within positive)

theorem WithinCap.newConnection (within : WithinCap s) (limited : Bool) :
    WithinCap (s.newConnection limited) := by
  unfold TcpServer.newConnection
  split
  · exact within
  · split
    · exact within
    · split
      · exact within
      next room =>
        intro positive
        have grown := SortedMap.length_insert_le s.connections
          (connName s.name s.ipPort s.nextConnId) s.nextConnId
        have below : s.size < s.maxConnections := by
          by_contra full
          exact room ⟨positive, Nat.le_of_not_lt full⟩
        exact Nat.le_trans grown below

theorem WithinCap.step (within : WithinCap s) (event : Event)
    (stepped : s.step event = some s') : WithinCap s' := by
  cases event with
  | newConnection limited =>
    simp only [TcpServer.step] at stepped
    split at stepped <;> cases stepped
    exact within.newConnection limited
  | _ => exact within.shrinks (shrinks_step _ (fun _ => Event.noConfusion) stepped)

end Table

/-- Whatever happens, the table has only entries that it has now. -/
def NeverGains (s : TcpServer) : Prop :=
  ∀ later, Machine.Always step
    (fun t => ∀ entry ∈ t.connections.entries, entry ∈ s.connections.entries) s later

theorem neverGains_of_draining (s : TcpServer) (draining : s.draining = true) : NeverGains s := by
  intro later
  have kept : Machine.Always step (fun t => t.draining = true ∧
      t.connections.entries.Sublist s.connections.entries) s later := by
    apply Machine.always_of_keeps
    · intro t event t' inv stepped
      have shrinks := shrinks_of_draining inv.1 event stepped
      exact ⟨shrinks.draining inv.1, shrinks.entries.trans inv.2⟩
    · exact ⟨draining, List.Sublist.refl _⟩
  apply Machine.Always.mono _ _ later kept
  intro t inv entry member
  exact inv.2.subset member

/-! ### The completion -/

def pending (s : TcpServer) : List ServerTask := s.todo ++ s.stack.flatten

/-- The tasks that look whether the drain is complete. -/
def Looks : ServerTask → Prop
  | .maybeFinishDrain | .endShutdown _ => True
  | _ => False

/-- Where the completion callback of the first call is. -/
inductive Progress (s : TcpServer) : Prop where
  | serving (draining : s.draining = false) (asked : s.asked = [])
      (callback : s.drainCompleteCallback = none) (completed : s.completed = [])
  | waiting (draining : s.draining = true) (asked : s.asked.head? = some true)
      (callback : s.drainCompleteCallback = some 0) (completed : s.completed = [])
      (looks : s.size = 0 → ∃ t ∈ s.pending, Looks t)
  | complete (draining : s.draining = true) (asked : s.asked.head? = some true)
      (callback : s.drainCompleteCallback = none) (completed : s.completed = [⟨0, 0⟩])
  | unasked (draining : s.draining = true) (asked : s.asked.head? = some false)
      (callback : s.drainCompleteCallback = none) (completed : s.completed = [])

section Completion

variable {s s' : TcpServer}

theorem Progress.carried (progress : Progress s) (draining : s'.draining = s.draining)
    (asked : s'.asked.head? = s.asked.head? ∧ (s.asked = [] → s'.asked = []))
    (callback : s'.drainCompleteCallback = s.drainCompleteCallback)
    (completed : s'.completed = s.completed)
    (looks : s.draining = true → s'.size = 0 →
      (s.size = 0 → ∃ t ∈ s.pending, Looks t) → ∃ t ∈ s'.pending, Looks t) : Progress s' := by
  cases progress with
  | serving drains none idle silent =>
    exact .serving (draining.trans drains) (asked.2 none) (callback.trans idle)
      (completed.trans silent)
  | waiting drains first waits silent ahead =>
    exact .waiting (draining.trans drains) (asked.1.trans first) (callback.trans waits)
      (completed.trans silent) fun empty => looks drains empty ahead
  | complete drains first idle done =>
    exact .complete (draining.trans drains) (asked.1.trans first) (callback.trans idle)
      (completed.trans done)
  | unasked drains first idle silent =>
    exact .unasked (draining.trans drains) (asked.1.trans first) (callback.trans idle)
      (completed.trans silent)

theorem Progress.same (progress : Progress s) (draining : s'.draining = s.draining)
    (asked : s'.asked = s.asked) (callback : s'.drainCompleteCallback = s.drainCompleteCallback)
    (completed : s'.completed = s.completed)
    (looks : s'.size = 0 → (s.size = 0 → ∃ t ∈ s.pending, Looks t) →
      ∃ t ∈ s'.pending, Looks t) : Progress s' :=
  progress.carried draining ⟨by rw [asked], fun none => asked.trans none⟩ callback completed
    fun _ => looks

theorem looks_rest (t : ServerTask) (rest : List ServerTask) (head : s.todo = t :: rest)
    (other : ¬Looks t) (pending : s'.pending = rest ++ s.stack.flatten)
    (ahead : ∃ u ∈ s.pending, Looks u) : ∃ u ∈ s'.pending, Looks u := by
  obtain ⟨u, member, looks⟩ := ahead
  refine ⟨u, ?_, looks⟩
  rw [TcpServer.pending, head, cons_append] at member
  rw [pending]
  rcases mem_cons.mp member with rfl | later
  · exact absurd looks other
  · exact later

variable (progress : Progress s)
include progress

theorem Progress.passes (t : ServerTask) (rest : List ServerTask) (head : s.todo = t :: rest)
    (other : ¬Looks t) (draining : s'.draining = s.draining) (asked : s'.asked = s.asked)
    (callback : s'.drainCompleteCallback = s.drainCompleteCallback)
    (completed : s'.completed = s.completed) (connections : s'.connections = s.connections)
    (pending : s'.pending = rest ++ s.stack.flatten) : Progress s' := by
  apply progress.same draining asked callback completed
  intro empty ahead
  have before : s.size = 0 := by rwa [size, connections] at empty
  exact looks_rest t rest head other pending (ahead before)

theorem Progress.endShutdown (deadlineSeconds : Nat) (rest : List ServerTask) :
    Progress (s.endShutdown deadlineSeconds rest) := by
  unfold TcpServer.endShutdown
  split
  next =>
    refine progress.same rfl rfl rfl rfl fun _ _ => ?_
    exact ⟨.maybeFinishDrain, mem_cons_self .., trivial⟩
  next nonempty =>
    split
    · exact progress.same rfl rfl rfl rfl fun empty => absurd empty nonempty
    · exact progress.same rfl rfl rfl rfl fun empty => absurd empty nonempty

theorem Progress.maybeFinishDrain (rest : List ServerTask) :
    Progress (s.maybeFinishDrain rest) := by
  unfold TcpServer.maybeFinishDrain
  cases progress with
  | serving drains none idle silent =>
    rw [idle]
    exact .serving drains none idle silent
  | waiting drains first waits silent ahead =>
    simp only [waits, drains, true_and]
    split
    next empty =>
      -- the callback runs now, with no connection left
      refine .complete rfl first rfl ?_
      simp only [invoke, silent, empty, nil_append]
    next nonempty =>
      exact .waiting drains first waits silent fun empty => absurd empty nonempty
  | complete drains first idle done =>
    rw [idle]
    exact .complete drains first idle done
  | unasked drains first idle silent =>
    rw [idle]
    exact .unasked drains first idle silent

theorem Progress.exec (t : ServerTask) (rest : List ServerTask) (head : s.todo = t :: rest) :
    Progress (s.exec rest t) := by
  cases t with
  | connectEstablished | connectDestroyed | drainCallback | forceClose =>
    exact progress.passes _ rest head id rfl rfl rfl rfl rfl rfl
  | halfClose => exact progress.passes _ rest head id rfl rfl rfl rfl rfl rfl
  | endShutdown deadlineSeconds => exact progress.endShutdown deadlineSeconds rest
  | maybeFinishDrain => exact progress.maybeFinishDrain rest

theorem Progress.shutdown (deadlineSeconds : Nat) (onComplete : Bool) :
    Progress (s.shutdown deadlineSeconds onComplete) := by
  unfold TcpServer.shutdown
  dsimp only
  split
  next drains =>
    cases progress with
    | serving idle =>
      rw [drains] at idle
      cases idle
    | waiting _ first waits silent ahead =>
      exact .waiting drains (by simp [List.head?_append, first]) waits silent ahead
    | complete _ first idle done =>
      exact .complete drains (by simp [List.head?_append, first]) idle done
    | unasked _ first idle silent =>
      exact .unasked drains (by simp [List.head?_append, first]) idle silent
  next idle =>
    cases progress with
    | waiting drains | complete drains | unasked drains => exact absurd drains idle
    | serving _ none _ silent =>
      cases onComplete with
      | true =>
        refine .waiting rfl ?_ ?_ silent fun _ => ?_
        · simp [shutdownInLoop, none]
        · simp [shutdownInLoop, none]
        · -- the end of `shutdownInLoop` looks
          refine ⟨.endShutdown deadlineSeconds, ?_, trivial⟩
          simp [shutdownInLoop, pending]
      | false => exact .unasked rfl (by simp [shutdownInLoop, none]) rfl silent

theorem Progress.newConnection (limited : Bool) : Progress (s.newConnection limited) := by
  unfold TcpServer.newConnection
  split
  next => exact progress
  next serves =>
    -- it is not draining yet
    cases progress with
    | waiting drains | complete drains | unasked drains => exact absurd drains serves
    | serving drains none idle silent =>
      split
      · exact .serving drains none idle silent
      · split <;> exact .serving drains none idle silent

theorem Progress.step (event : Event) (stepped : s.step event = some s') : Progress s' := by
  cases event with
  | newConnection limited =>
    simp only [TcpServer.step] at stepped
    split at stepped <;> cases stepped
    exact progress.newConnection limited
  | removeConnection conn =>
    simp only [TcpServer.step] at stepped
    split at stepped <;> cases stepped
    refine progress.same rfl rfl rfl rfl fun _ _ => ?_
    -- it looks after the connection is destroyed
    exact ⟨.maybeFinishDrain, mem_cons_of_mem _ (mem_cons_self ..), trivial⟩
  | shutdown deadlineSeconds onComplete =>
    simp only [TcpServer.step] at stepped
    split at stepped <;> cases stepped
    exact progress.shutdown deadlineSeconds onComplete
  | deadline =>
    simp only [TcpServer.step] at stepped
    split at stepped <;> cases stepped
    next due =>
      refine progress.same rfl rfl rfl rfl fun empty ahead => ?_
      obtain ⟨t, member, _⟩ := ahead empty
      simp [pending, due.1.1, due.1.2] at member
  | task =>
    simp only [TcpServer.step] at stepped
    split at stepped <;> cases stepped
    next t rest head => exact progress.exec t rest head
  | returns =>
    simp only [TcpServer.step] at stepped
    split at stepped <;> cases stepped
    next rest stack idle framed =>
      refine progress.same rfl rfl rfl rfl fun empty ahead => ?_
      simpa [pending, idle, framed] using ahead empty

end Completion

/-! ### Whole runs -/

/-- Once it drains the table gains nothing; only the completion callback of the first call
runs, at most once and with no connection left, and it has run whenever the loop is done with
a drained server; the cap is kept. -/
structure DrainsOnce (s : TcpServer) : Prop where
  closed : s.draining = true → s.NeverGains
  once : s.completed = [] ∨ s.completed = [⟨0, 0⟩]
  done : s.Between → s.draining = true → s.size = 0 → s.asked.head? = some true →
    s.completed = [⟨0, 0⟩]
  capped : 0 < s.maxConnections → s.size ≤ s.maxConnections

theorem Progress.drainsOnce {s : TcpServer} (progress : Progress s) (within : WithinCap s) :
    DrainsOnce s where
  closed := neverGains_of_draining s
  once := by
    cases progress with
    | serving _ _ _ silent => exact .inl silent
    | waiting _ _ _ silent => exact .inl silent
    | complete _ _ _ done => exact .inr done
    | unasked _ _ _ silent => exact .inl silent
  done := by
    intro between draining empty asked
    cases progress with
    | serving idle =>
      rw [draining] at idle
      cases idle
    | waiting _ _ _ _ ahead =>
      obtain ⟨t, member, _⟩ := ahead empty
      simp [pending, between.1, between.2] at member
    | complete _ _ _ done => exact done
    | unasked _ first =>
      rw [asked] at first
      cases first
  capped := within

/-- In every run of every server. -/
theorem drainsOnce_always (name ipPort : Bytes) (maxConnections : Nat) (events : List Event) :
    Machine.Always step DrainsOnce (initial name ipPort maxConnections) events := by
  have kept : Machine.Always step (fun s => Progress s ∧ WithinCap s)
      (initial name ipPort maxConnections) events := by
    apply Machine.always_of_keeps
    · intro s event s' inv stepped
      exact ⟨inv.1.step event stepped, inv.2.step event stepped⟩
    · exact ⟨.serving rfl rfl rfl rfl, fun _ => Nat.zero_le _⟩
  apply Machine.Always.mono _ _ events kept
  intro s inv
  exact inv.1.drainsOnce inv.2

end TcpServer

end Cox.Net

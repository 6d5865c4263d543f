import Mathlib.Logic.Function.Basic
import Cox.Lib.Bytes
import Cox.Lib.Machine

/-!
# A TCP connection on its event loop

`TcpConnection` of net/tcp_connection.cc with its `Channel` (reactor/io_channel.cc) and its
part of the loop's task queue.

The loop thread works through `todo`, one task at a time; a task makes at most one load or
store of `state_`, so the steps of other threads fall between any two of them. A callback
suspends the tasks that follow it on `stack` until it returns, and may call the
connection's methods in the meantime. What `read` and `write` return comes with the events.
A callback that is not set is one that does nothing.
-/
namespace Cox.Net

open Cox.Lib

abbrev ThreadId := Nat

/-- `TcpConnection::State`. -/
inductive TcpState where
  | connecting
  | connected
  | disconnecting
  | disconnected
  deriving DecidableEq, Repr

/-- A message handed to `send`, by the loop thread or by another one. -/
structure Message where
  origin : Option ThreadId
  data : Bytes
  deriving DecidableEq

/-- The pieces of work of the loop thread. -/
inductive ConnTask where
  | handleError
  | handleRead
  | handleWrite
  | handleClose
  /-- The rest of `handleRead` after the message callback: the cap of the input buffer. -/
  | capInput
  /-- The rest of `handleWrite` after the write-complete callback. -/
  | finishShutdown
  /-- The rest of `handleClose` after the connection callback. -/
  | closeCallback
  | sendInLoop (message : Message)
  /-- The end of `sendInLoop`: buffer what could not be written. -/
  | queueOutput (rest : Bytes)
  | shutdown
  | shutdownInLoop
  | forceClose
  /-- `forceClose` has found the connection not connected and looks again. -/
  | forceCloseDisconnecting
  | setDisconnecting
  | forceCloseInLoop
  | stopReadInLoop
  | startReadInLoop
  | resetIdleTimer
  | armWriteTimer
  | armMaxAgeTimer
  /-- The part of `connectDestroyed` for a connection that is still up. -/
  | disconnect
  | removeChannel
  deriving DecidableEq

/-- What can be seen from outside: callbacks, and calls of `write` and `shutdown`. -/
inductive ConnNote where
  | connection (connected : Bool)
  | message
  | writeComplete
  | highWaterMark (queued : Nat)
  | closed
  | write
  | shutdownWrite
  deriving DecidableEq

/-- Where a call from another thread stands. -/
inductive CallPhase where
  | forceCloseDisconnecting
  /-- About to store `kDisconnecting`, then to queue the task. -/
  | storing (task : ConnTask)
  | queueing (task : ConnTask)

structure TcpConnection where
  -- configuration; 0 switches a limit off
  idleSeconds : Nat := 0
  writeSeconds : Nat := 0
  maxAgeSeconds : Nat := 0
  maxInputBufferSize : Nat := 0
  /-- The mark, if a callback is set for it. -/
  highWaterMark : Option Nat := none
  state : TcpState := .connecting
  -- the channel: its interests, and whether the poller knows it
  isReading : Bool := false
  isWriting : Bool := false
  registered : Bool := false
  reading : Bool := true
  inputBuffer : Bytes := []
  outputBuffer : Bytes := []
  bytesRead : UInt64 := 0
  bytesWritten : UInt64 := 0
  idleTimerArmed : Bool := false
  writeTimerArmed : Bool := false
  maxAgeTimerArmed : Bool := false
  -- the loop: the running handler, the callbacks that are running, innermost first, with
  -- what follows each, the tasks that `doPendingTasks` has taken, and those still queued
  todo : List ConnTask := []
  stack : List (List ConnTask) := []
  batch : List ConnTask := []
  pendingTasks : List ConnTask := []
  inCall : ThreadId → Option CallPhase := fun _ => none
  -- the history: calls of `send` that saw `kConnected`, runs of `sendInLoop`, those of them
  -- that did not find the connection closed, and the bytes that the kernel has accepted
  called : List Message := []
  executed : List Message := []
  sent : List Message := []
  accepted : Bytes := []
  log : List ConnNote := []

namespace TcpConnection

def note (c : TcpConnection) (n : ConnNote) : TcpConnection := { c with log := c.log ++ [n] }

def setState (c : TcpConnection) (state : TcpState) : TcpConnection := { c with state }

def next (c : TcpConnection) (tasks : List ConnTask) : TcpConnection := { c with todo := tasks }

def invoke (c : TcpConnection) (n : ConnNote) (rest : List ConnTask) : TcpConnection :=
  { c.note n with todo := [], stack := rest :: c.stack }

/-! ### The channel and the timers -/

def enableRead (c : TcpConnection) : TcpConnection :=
  { c with isReading := true, registered := true }

def disableRead (c : TcpConnection) : TcpConnection :=
  { c with isReading := false, registered := true }

def enableWrite (c : TcpConnection) : TcpConnection :=
  { c with isWriting := true, registered := true }

def disableWrite (c : TcpConnection) : TcpConnection :=
  { c with isWriting := false, registered := true }

def disableAll (c : TcpConnection) : TcpConnection :=
  { c with isReading := false, isWriting := false, registered := true }

def remove (c : TcpConnection) : TcpConnection := { c with registered := false }

def resetIdleTimer (c : TcpConnection) : TcpConnection :=
  if c.idleSeconds = 0 ∨ c.state ≠ .connected then c else { c with idleTimerArmed := true }

def armWriteTimer (c : TcpConnection) : TcpConnection :=
  if c.writeSeconds = 0 ∨ c.writeTimerArmed ∨ c.state ≠ .connected then c
  else { c with writeTimerArmed := true }

def armMaxAgeTimer (c : TcpConnection) : TcpConnection :=
  if c.maxAgeSeconds = 0 ∨ c.maxAgeTimerArmed then c else { c with maxAgeTimerArmed := true }

def cancelWriteTimer (c : TcpConnection) : TcpConnection := { c with writeTimerArmed := false }

def cancelTimers (c : TcpConnection) : TcpConnection :=
  { c with idleTimerArmed := false, writeTimerArmed := false, maxAgeTimerArmed := false }

/-! ### The handlers -/

def reach (c : TcpConnection) (message : Message) : TcpConnection :=
  { c with executed := c.executed ++ [message] }

/-- The message goes out, at once or through the buffer. -/
def record (c : TcpConnection) (message : Message) : TcpConnection :=
  { c with sent := c.sent ++ [message] }

/-- The kernel accepts the first `n` bytes of the data. -/
def accept (c : TcpConnection) (data : Bytes) (n : Nat) : TcpConnection :=
  { c with
    bytesWritten := c.bytesWritten + UInt64.ofNat n
    accepted := c.accepted ++ data.take n }

def append (c : TcpConnection) (data : Bytes) : TcpConnection :=
  { c with outputBuffer := c.outputBuffer ++ data }

def retrieve (c : TcpConnection) (n : Nat) : TcpConnection :=
  { c with outputBuffer := c.outputBuffer.drop n }

def receive (c : TcpConnection) (data : Bytes) : TcpConnection :=
  { c with
    bytesRead := c.bytesRead + UInt64.ofNat data.length
    inputBuffer := c.inputBuffer ++ data }

def queueOutput (c : TcpConnection) (data : Bytes) (rest : List ConnTask) : TcpConnection :=
  (if c.isWriting then c.append data else (c.append data).enableWrite).next (.armWriteTimer :: rest)

/-- What `sendInLoop` does with the bytes that were not written. The callback for the
high-water mark runs before they are in the buffer. -/
def queueRest (c : TcpConnection) (data : Bytes) (rest : List ConnTask) : TcpConnection :=
  if data = [] then c.next rest
  else
    let oldLen := c.outputBuffer.length
    match c.highWaterMark with
    | some mark =>
      if oldLen < mark ∧ mark ≤ oldLen + data.length then
        c.invoke (.highWaterMark (oldLen + data.length)) (.queueOutput data :: rest)
      else c.queueOutput data rest
    | none => c.queueOutput data rest

/-- The direct write of `sendInLoop`; `wrote` is what `write` returns, the number of bytes
or an error. -/
def writeDirectly (c : TcpConnection) (data : Bytes) (wrote : Option Nat) (rest : List ConnTask) :
    Option TcpConnection :=
  match wrote with
  | some n =>
    if data.length < n then none
    else if n = data.length then some ((c.accept data n).invoke .writeComplete rest)
    else some ((c.accept data n).queueRest (data.drop n) rest)
  | none => some (c.queueRest data rest)

def sendInLoop (c : TcpConnection) (message : Message) (wrote : Option Nat)
    (rest : List ConnTask) : Option TcpConnection :=
  if c.state = .disconnected then some ((c.reach message).next rest)
  else if !c.isWriting ∧ c.outputBuffer = [] then
    (((c.reach message).record message).note .write).writeDirectly message.data wrote rest
  else some (((c.reach message).record message).queueRest message.data rest)

/-- The kernel has taken `n` bytes out of the buffer, at least one. -/
def written (c : TcpConnection) (n : Nat) (rest : List ConnTask) : TcpConnection :=
  if c.outputBuffer.drop n = [] then
    ((c.accept c.outputBuffer n).retrieve n).disableWrite.cancelWriteTimer.invoke .writeComplete
      (.finishShutdown :: rest)
  else ((c.accept c.outputBuffer n).retrieve n).next rest

def handleWrite (c : TcpConnection) (wrote : Option Nat) (rest : List ConnTask) :
    Option TcpConnection :=
  if !c.isWriting then some (c.next rest)
  else match wrote with
    | some n =>
      if c.outputBuffer.length < n then none
      else if n = 0 then some ((c.note .write).next rest)
      else some ((c.note .write).written n rest)
    | none => some ((c.note .write).next rest)

/-- `read` is what `readFd` returns: bytes, none of them at the end of the stream, or an
error. -/
def handleRead (c : TcpConnection) (read : Option Bytes) (rest : List ConnTask) : TcpConnection :=
  match read with
  | some [] => c.next (.handleClose :: rest)
  | some data => (c.receive data).resetIdleTimer.invoke .message (.capInput :: rest)
  | none => c.next (.handleError :: rest)

/-- Invoke the connection callback, which finds the connection up or not. -/
def notify (c : TcpConnection) (rest : List ConnTask) : TcpConnection :=
  c.invoke (.connection (c.state == .connected)) rest

def handleClose (c : TcpConnection) (rest : List ConnTask) : TcpConnection :=
  (c.setState .disconnected).cancelTimers.disableAll.notify (.closeCallback :: rest)

def exec (c : TcpConnection) (read : Option Bytes) (wrote : Option Nat) (rest : List ConnTask) :
    ConnTask → Option TcpConnection
  | .handleError => some (c.next (.handleClose :: rest))
  | .handleRead => some (c.handleRead read rest)
  | .handleWrite => c.handleWrite wrote rest
  | .handleClose => some (c.handleClose rest)
  | .capInput =>
    if 0 < c.maxInputBufferSize ∧ c.maxInputBufferSize < c.inputBuffer.length then
      some (c.next (.forceClose :: rest))
    else some (c.next rest)
  | .finishShutdown =>
    if c.state = .disconnecting then some (c.next (.shutdownInLoop :: rest))
    else some (c.next rest)
  | .closeCallback => some (c.invoke .closed rest)
  | .sendInLoop message => c.sendInLoop message wrote rest
  | .queueOutput data => some (c.queueOutput data rest)
  | .shutdown =>
    if c.state = .connected then some (c.next (.setDisconnecting :: .shutdownInLoop :: rest))
    else some (c.next rest)
  | .shutdownInLoop =>
    if c.isWriting then some (c.next rest) else some ((c.note .shutdownWrite).next rest)
  | .forceClose =>
    if c.state = .connected then some (c.next (.setDisconnecting :: .forceCloseInLoop :: rest))
    else some (c.next (.forceCloseDisconnecting :: rest))
  | .forceCloseDisconnecting =>
    if c.state = .disconnecting then
      some (c.next (.setDisconnecting :: .forceCloseInLoop :: rest))
    else some (c.next rest)
  | .setDisconnecting => some ((c.setState .disconnecting).next rest)
  | .forceCloseInLoop =>
    if c.state = .disconnected then some (c.next rest) else some (c.next (.handleClose :: rest))
  | .stopReadInLoop =>
    if c.reading ∧ c.isReading then some ({ c.disableRead with reading := false }.next rest)
    else some (c.next rest)
  | .startReadInLoop =>
    if !c.reading ∧ c.state = .connected then some ({ c.enableRead with reading := true }.next rest)
    else some (c.next rest)
  | .resetIdleTimer => some (c.resetIdleTimer.next rest)
  | .armWriteTimer => some (c.armWriteTimer.next rest)
  | .armMaxAgeTimer => some (c.armMaxAgeTimer.next rest)
  | .disconnect => some ((c.setState .disconnected).disableAll.notify rest)
  | .removeChannel => some (c.remove.next rest)

/-! ### Runs -/

/-- Calls that another thread may make. -/
inductive Call where
  | send (data : Bytes)
  | shutdown
  | forceClose
  | stopRead
  | startRead

inductive Event where
  /-- `connectEstablished`, by the owner of a new connection. -/
  | establish
  /-- `connectDestroyed`, by the owner; often from the close callback. -/
  | destroy
  /-- `handleEventsGuarded` for the value of `revents_`. -/
  | dispatch (error read write : Bool)
  /-- The next task of the running handler. -/
  | task (read : Option Bytes) (wrote : Option Nat)
  /-- The innermost callback returns. -/
  | returns
  -- calls on the loop thread, from a callback or from elsewhere
  | send (data : Bytes)
  | shutdown
  | forceClose
  | stopRead
  | startRead
  /-- The application takes bytes out of the input buffer. -/
  | retrieve (n : Nat)
  | idleTimeout
  | writeTimeout
  | maxAge
  | doPendingTasks
  | nextPendingTask
  /-- A thread other than the loop's makes a call, up to its first load of `state_`. -/
  | call (t : ThreadId) (call : Call)
  /-- Its call goes on. -/
  | proceed (t : ThreadId)

/-- The loop is between two handlers. -/
def Between (c : TcpConnection) : Prop := c.todo = [] ∧ c.stack = [] ∧ c.batch = []

instance (c : TcpConnection) : Decidable c.Between := inferInstanceAs (Decidable (_ ∧ _ ∧ _))

/-- The handlers for a value of `revents_`, in the order of `handleEventsGuarded`. -/
def handlers (error read write : Bool) : List ConnTask :=
  (if error then [.handleError] else []) ++ (if read then [.handleRead] else []) ++
    if write then [.handleWrite] else []

/-- `send` has seen `kConnected`. -/
def calls (c : TcpConnection) (message : Message) : TcpConnection :=
  { c with called := c.called ++ [message] }

def enter (c : TcpConnection) (t : ThreadId) (phase : Option CallPhase) : TcpConnection :=
  { c with inCall := Function.update c.inCall t phase }

def startCall (c : TcpConnection) (t : ThreadId) : Call → TcpConnection
  | .send data =>
    if c.state = .connected then
      (c.calls ⟨some t, data⟩).enter t (some (.queueing (.sendInLoop ⟨some t, data⟩)))
    else c
  | .shutdown =>
    if c.state = .connected then c.enter t (some (.storing .shutdownInLoop)) else c
  | .forceClose =>
    if c.state = .connected then c.enter t (some (.storing .forceCloseInLoop))
    else c.enter t (some .forceCloseDisconnecting)
  | .stopRead => c.enter t (some (.queueing .stopReadInLoop))
  | .startRead => c.enter t (some (.queueing .startReadInLoop))

def continueCall (c : TcpConnection) (t : ThreadId) : CallPhase → TcpConnection
  | .forceCloseDisconnecting =>
    if c.state = .disconnecting then c.enter t (some (.storing .forceCloseInLoop))
    else c.enter t none
  | .storing task => (c.setState .disconnecting).enter t (some (.queueing task))
  | .queueing task => { c with pendingTasks := c.pendingTasks ++ [task] }.enter t none

def step (c : TcpConnection) : Event → Option TcpConnection
  | .establish =>
    if c.Between ∧ c.state = .connecting then
      some ((c.setState .connected).enableRead.notify [.resetIdleTimer, .armMaxAgeTimer])
    else none
  | .destroy =>
    if c.todo = [] then
      some (c.cancelTimers.next
        ((if c.state = .connected then [.disconnect] else []) ++ [.removeChannel]))
    else none
  | .dispatch error read write =>
    if c.Between ∧ c.state ≠ .connecting then some (c.next (handlers error read write)) else none
  | .task read wrote =>
    match c.todo with
    | t :: rest => c.exec read wrote rest t
    | [] => none
  | .returns =>
    match c.todo, c.stack with
    | [], rest :: stack => some { c with todo := rest, stack }
    | _, _ => none
  | .send data =>
    if c.todo ≠ [] then none
    else if c.state = .connected then some ((c.calls ⟨none, data⟩).next [.sendInLoop ⟨none, data⟩])
    else some c
  | .shutdown => if c.todo = [] then some (c.next [.shutdown]) else none
  | .forceClose => if c.todo = [] then some (c.next [.forceClose]) else none
  | .stopRead => if c.todo = [] then some (c.next [.stopReadInLoop]) else none
  | .startRead => if c.todo = [] then some (c.next [.startReadInLoop]) else none
  | .retrieve n =>
    if c.todo = [] then some { c with inputBuffer := c.inputBuffer.drop n } else none
  | .idleTimeout =>
    if c.Between ∧ c.idleTimerArmed then some (c.next [.forceClose]) else none
  | .writeTimeout =>
    if c.Between ∧ c.writeTimerArmed then
      some (if c.outputBuffer = [] then c.cancelWriteTimer
        else c.cancelWriteTimer.next [.forceClose])
    else none
  | .maxAge =>
    if c.Between ∧ c.maxAgeTimerArmed then
      some ({ c with maxAgeTimerArmed := false }.next [.forceClose])
    else none
  | .doPendingTasks =>
    if c.Between then some { c with batch := c.pendingTasks, pendingTasks := [] } else none
  | .nextPendingTask =>
    match c.todo, c.stack, c.batch with
    | [], [], t :: batch => some { c with todo := [t], batch }
    | _, _, _ => none
  | .call t call =>
    match c.inCall t with
    | none => some (c.startCall t call)
    | some _ => none
  | .proceed t =>
    match c.inCall t with
    | some phase => some (c.continueCall t phase)
    | none => none

/-- What the owner sets before the connection is established; 0 stands for no limit. -/
structure Settings where
  idleSeconds : Nat := 0
  writeSeconds : Nat := 0
  maxAgeSeconds : Nat := 0
  maxInputBufferSize : Nat := 0
  highWaterMark : Option Nat := none

def initial (settings : Settings) : TcpConnection :=
  { idleSeconds := settings.idleSeconds
    writeSeconds := settings.writeSeconds
    maxAgeSeconds := settings.maxAgeSeconds
    maxInputBufferSize := settings.maxInputBufferSize
    highWaterMark := settings.highWaterMark }

end TcpConnection

end Cox.Net

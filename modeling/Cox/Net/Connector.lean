import Cox.Flowcontrol.Backoff
import Cox.Lib.Machine
import Cox.Lib.Tokens

/-!
# The connector

`Connector` of net/connector.h as a machine on its loop thread, with what it uses of the
loop: the poller, the queue of pending tasks and the timers. Every call of the source that
returns to the loop is one event. The events carry what the outside answers: the `errno` of
`connect`, `SO_ERROR`, and whether the socket is connected to itself.

Sockets are numbered in the order in which they are created, and a channel is known by its
socket. An event may be that of a channel which has been removed since it was reported. A
timer that is cancelled does not have its turn, even if it has expired by then. A call
through a null `channel_` ends the run.

The callback for new connections is the last thing that `handleWrite` does, so that the
calls it makes are events of their own.
-/
namespace Cox.Net

open Cox.Lib Cox.Flowcontrol

inductive ConnectorState where
  | disconnected
  | connecting
  | connected
  deriving DecidableEq

/-- The `errno` of `connect`, by the labels of the switch; the others have a number. -/
inductive Errno where
  | zero | inProgress | intr | isConn
  | again | addrInUse | addrNotAvail | connRefused | netUnreach | afNoSupport | noEnt | connReset
  | other (code : Nat)
  deriving DecidableEq

/-- The branches of the switch in `connect`. -/
inductive Verdict where
  | connecting
  | retry
  | unexpected
  deriving DecidableEq

def Errno.verdict : Errno → Verdict
  | .zero | .inProgress | .intr | .isConn => .connecting
  | .again | .addrInUse | .addrNotAvail | .connRefused | .netUnreach | .afNoSupport | .noEnt
  | .connReset => .retry
  | .other _ => .unexpected

namespace Connector

/-- The tasks that the connector queues. -/
inductive Task where
  | resetChannel
  /-- The next candidate, if `connect_` still holds. -/
  | connect
  deriving DecidableEq

inductive TimerTask where
  | connectTimeout
  | retry
  deriving DecidableEq

/-- What happened to the attempts. -/
inductive Note where
  | attempt (candidate : Nat)
  | failed (candidate : Nat)
  | backoff (delay : Duration)
  | connected
  deriving DecidableEq

end Connector

structure Connector (InetAddress : Type) where
  candidates : List InetAddress
  backoffKey : Bytes
  /-- A callback for new connections is set. -/
  newConnectionCallback : Bool
  current : Nat
  inRange : current < candidates.length
  backoff : Backoff
  /-- `connect_`: the application wants a connection. -/
  wanted : Bool := false
  state : ConnectorState := .disconnected
  /-- `channel_`, by its socket. -/
  channel : Option Nat := none
  -- the timers by their numbers, and whether they are armed
  retryTimer : Nat := 0
  retryTimerArmed : Bool := false
  connectTimer : Nat := 0
  connectTimerArmed : Bool := false
  /-- The channels that are registered with the poller, for writing. -/
  registered : List Nat := []
  pendingTasks : List Connector.Task := []
  timers : List (Nat × Connector.TimerTask) := []
  /-- The timers that have expired and wait for their turn. -/
  expired : List (Nat × Connector.TimerTask) := []
  timersCreated : Nat := 0
  /-- The clock of the back-off. -/
  now : Int := 0
  /-- A socket is spent when it is closed or handed over. -/
  sockets : Tokens := {}
  handedOver : List Nat := []
  log : List Connector.Note := []

namespace Connector

variable {InetAddress : Type}

def kInitRetryDelayMs : Duration := 500

def kMaxRetryDelayMs : Duration := 30 * 1000

/-- The constructor, for a list of candidates that is not empty, and
`setNewConnectionCallback`. -/
def new (first : InetAddress) (others : List InetAddress) (backoffKey : Bytes)
    (newConnectionCallback : Bool) : Connector InetAddress where
  candidates := first :: others
  backoffKey := backoffKey
  newConnectionCallback := newConnectionCallback
  current := 0
  inRange := Nat.succ_pos _
  backoff := .new kInitRetryDelayMs kMaxRetryDelayMs

/-! ### What it uses of the loop -/

def note (c : Connector InetAddress) (note : Note) : Connector InetAddress :=
  { c with log := c.log ++ [note] }

def queueInLoop (c : Connector InetAddress) (task : Task) : Connector InetAddress :=
  { c with pendingTasks := c.pendingTasks ++ [task] }

/-- `runAfter`; the number of the timer is that of the timers created before it. -/
def runAfter (c : Connector InetAddress) (task : TimerTask) : Connector InetAddress :=
  { c with
    timers := c.timers ++ [(c.timersCreated, task)]
    timersCreated := c.timersCreated + 1 }

/-- A timer of the current batch is skipped. -/
def cancel (c : Connector InetAddress) (timer : Nat) : Connector InetAddress :=
  { c with
    timers := c.timers.filter fun t => t.1 ≠ timer
    expired := c.expired.filter fun t => t.1 ≠ timer }

def closeSocket (c : Connector InetAddress) (sockfd : Nat) : Connector InetAddress :=
  { c with sockets := c.sockets.spend sockfd }

/-- The callback for new connections takes the socket. -/
def handOver (c : Connector InetAddress) (sockfd : Nat) : Connector InetAddress :=
  { c with sockets := c.sockets.spend sockfd, handedOver := c.handedOver ++ [sockfd] }

/-! ### The attempts -/

def armConnectTimeout (c : Connector InetAddress) : Connector InetAddress :=
  { c.runAfter .connectTimeout with connectTimer := c.timersCreated, connectTimerArmed := true }

def cancelConnectTimeout (c : Connector InetAddress) : Connector InetAddress :=
  if c.connectTimerArmed then { c.cancel c.connectTimer with connectTimerArmed := false } else c

/-- The channel leaves the poller, and its destruction is put off. -/
def removeAndResetChannel (c : Connector InetAddress) : Option (Nat × Connector InetAddress) :=
  c.channel.map fun sockfd =>
    (sockfd, { c with registered := c.registered.erase sockfd }.queueInLoop .resetChannel)

def resetChannel (c : Connector InetAddress) : Connector InetAddress := { c with channel := none }

def connecting (c : Connector InetAddress) (sockfd : Nat) : Connector InetAddress :=
  { c with
    state := .connecting
    channel := some sockfd
    registered := sockfd :: c.registered }.armConnectTimeout

/-- The end of a failed attempt: the next candidate at once, or all of them after a delay. -/
def retry (c : Connector InetAddress) (sockfd : Nat) : Connector InetAddress :=
  let c := { (c.closeSocket sockfd).note (.failed c.current) with state := .disconnected }
  if c.wanted then
    if more : c.current + 1 < c.candidates.length then
      { c with current := c.current + 1, inRange := more }.queueInLoop .connect
    else
      -- the last candidate: all of them again, after the back-off
      let (delay, backoff) := c.backoff.nextDelay c.backoffKey c.now
      { (c.note (.backoff delay)).runAfter .retry with
        current := 0
        inRange := Nat.zero_lt_of_lt c.inRange
        backoff := backoff
        retryTimer := c.timersCreated
        retryTimerArmed := true }
  else c

def connect (c : Connector InetAddress) (errno : Errno) : Connector InetAddress :=
  -- whatever the state is
  let sockfd := c.sockets.made
  let c := { c.note (.attempt c.current) with sockets := c.sockets.make }
  match errno.verdict with
  | .connecting => c.connecting sockfd
  | .retry => c.retry sockfd
  -- logged, and nothing follows
  | .unexpected => (c.closeSocket sockfd).note (.failed c.current)

/-! ### The calls of the application -/

def startInLoop (c : Connector InetAddress) (errno : Errno) : Connector InetAddress :=
  if c.wanted then c.connect errno else c

/-- On the loop thread, where `runInLoop` runs the task in place. -/
def start (c : Connector InetAddress) (errno : Errno) : Connector InetAddress :=
  { c with wanted := true }.startInLoop errno

def cancelRetry (c : Connector InetAddress) : Connector InetAddress :=
  if c.retryTimerArmed then { c.cancel c.retryTimer with retryTimerArmed := false } else c

def stopInLoop (c : Connector InetAddress) : Option (Connector InetAddress) :=
  let c := c.cancelConnectTimeout.cancelRetry
  if c.state = .connecting then
    c.removeAndResetChannel.map fun (sockfd, c) =>
      { c.closeSocket sockfd with state := .disconnected }
  else some c

def stop (c : Connector InetAddress) : Option (Connector InetAddress) :=
  { c with wanted := false }.stopInLoop

def restart (c : Connector InetAddress) (errno : Errno) : Connector InetAddress :=
  -- an attempt in progress is forgotten, not given up
  { c with
    state := .disconnected
    backoff := c.backoff.reset c.backoffKey
    current := 0
    inRange := Nat.zero_lt_of_lt c.inRange
    wanted := true }.startInLoop errno

/-! ### The handlers -/

def established (c : Connector InetAddress) (sockfd : Nat) : Connector InetAddress :=
  let c := { c.note .connected with state := .connected }
  if c.wanted ∧ c.newConnectionCallback then c.handOver sockfd else c.closeSocket sockfd

def handleWrite (c : Connector InetAddress) (soError : Nat) (selfConnect : Bool) :
    Option (Connector InetAddress) :=
  if c.state ≠ .connecting then some c
  else
    c.cancelConnectTimeout.removeAndResetChannel.map fun (sockfd, c) =>
      if soError ≠ 0 then c.retry sockfd
      else if selfConnect then c.retry sockfd
      else c.established sockfd

def handleError (c : Connector InetAddress) : Option (Connector InetAddress) :=
  if c.state = .connecting then
    c.cancelConnectTimeout.removeAndResetChannel.map fun (sockfd, c) => c.retry sockfd
  else some c

def onConnectTimeout (c : Connector InetAddress) : Option (Connector InetAddress) :=
  if c.state ≠ .connecting then some c
  else c.removeAndResetChannel.map fun (sockfd, c) => c.retry sockfd

def runTask (c : Connector InetAddress) (errno : Errno) : Task → Connector InetAddress
  -- the channel that is there by then
  | .resetChannel => c.resetChannel
  | .connect => if c.wanted then c.connect errno else c

def runTimer (c : Connector InetAddress) (errno : Errno) :
    TimerTask → Option (Connector InetAddress)
  | .connectTimeout => { c with connectTimerArmed := false }.onConnectTimeout
  | .retry =>
    let c := { c with retryTimerArmed := false }
    some (if c.wanted then c.connect errno else c)

/-! ### The machine -/

/-- What the loop thread does by itself. -/
inductive LoopEvent where
  | handleWrite (soError : Nat) (selfConnect : Bool)
  | handleError
  | task (errno : Errno)
  | expire (due : List Nat)
  /-- The turn of the next expired timer. -/
  | turn (errno : Errno)
  | tick (elapsed : Nat)
  deriving DecidableEq

inductive Event where
  | start (errno : Errno)
  | stop
  | restart (errno : Errno)
  | loop (event : LoopEvent)
  deriving DecidableEq

def loopStep (c : Connector InetAddress) : LoopEvent → Option (Connector InetAddress)
  | .handleWrite soError selfConnect => c.handleWrite soError selfConnect
  | .handleError => c.handleError
  | .task errno =>
    match c.pendingTasks with
    | [] => none
    | task :: rest => some ({ c with pendingTasks := rest }.runTask errno task)
  | .expire due =>
    if c.expired = [] then
      some { c with
        timers := c.timers.filter fun t => t.1 ∉ due
        expired := c.timers.filter fun t => t.1 ∈ due }
    else none
  | .turn errno =>
    match c.expired with
    | [] => none
    | timer :: rest => { c with expired := rest }.runTimer errno timer.2
  | .tick elapsed => some { c with now := c.now + elapsed }

def step (c : Connector InetAddress) : Event → Option (Connector InetAddress)
  | .start errno => some (c.start errno)
  | .stop => c.stop
  | .restart errno => some (c.restart errno)
  | .loop event => c.loopStep event

end Connector

end Cox.Net

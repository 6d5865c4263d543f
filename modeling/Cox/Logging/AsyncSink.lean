import Mathlib.Data.List.DropRight
import Mathlib.Logic.Function.Basic
import Cox.Lib.CondVar
import Cox.Lib.Machine

/-!
# The asynchronous log sink

`AsyncSink` of logging/async_sink.h: any number of threads that call `append` and `flush`,
the writer thread, and the call of `stop` that ends it. A critical section is one step, and
so is each call of the downstream sink, which is made without the lock.

The writer waits with a timeout, so that it may wake at any time and the notifications of
`not_empty_` leave no trace here. A call of `flush` waits on `drained_` until it is notified
or wakes by itself. The counters do not wrap around.
-/
namespace Cox.Logging

open Cox.Lib

/-- What the downstream sink is told. -/
inductive Output (Line : Type) where
  | line (line : Line)
  /-- The line `AsyncSink: dropped N log line(s) -- buffer full`. -/
  | dropped (count : Nat)
  | flush
  deriving DecidableEq

namespace Output

variable {Line : Type}

def line? : Output Line → Option Line
  | .line text => some text
  | .dropped _ | .flush => none

def dropped? : Output Line → Option Nat
  | .dropped count => some count
  | .line _ | .flush => none

def isFlush : Output Line → Bool
  | .flush => true
  | .line _ | .dropped _ => false

end Output

def lines {Line : Type} (output : List (Output Line)) : List Line := output.filterMap Output.line?

def summaries {Line : Type} (output : List (Output Line)) : List Nat :=
  output.filterMap Output.dropped?

def flushed {Line : Type} (output : List (Output Line)) : List Line :=
  lines (output.rdropWhile fun out => !out.isFlush)

namespace AsyncSink

/-- The writer thread, by what it does next. -/
inductive Writer (Line : Type) where
  /-- The lock, and a look at the buffer. -/
  | enter
  /-- In `wait_for`. -/
  | wait
  /-- The rest of the batch, and then the summary. -/
  | write (batch rest : List Line) (drops : Nat)
  | flush (batch : List Line)
  /-- The lock again, for those who wait in `flush`. -/
  | announce
  | returned
  deriving DecidableEq

/-- The call of `stop` that finds the sink running, by what it does next. -/
inductive Stopper (Line : Type) where
  /-- There is no such call yet. -/
  | none
  | notify
  | join
  | leftover
  | drain (rest : List Line)
  | returned
  deriving DecidableEq

inductive Stage where
  /-- Before the lock. -/
  | called
  /-- In `wait`. -/
  | waiting
  /-- The downstream flush is next. -/
  | flushing
  deriving DecidableEq

/-- A call of `flush`, with the number of lines that were accepted before it. -/
structure FlushCall where
  mark : Nat
  stage : Stage
  deriving DecidableEq

/-- A call of `flush` that has returned, with what had been output by then. -/
structure Returned (Line : Type) where
  mark : Nat
  output : List (Output Line)

end AsyncSink

structure AsyncSink (Line : Type) where
  maxLines : Nat
  running : Bool := true
  current : List Line := []
  writing : List Line := []
  dropped : Nat := 0
  reportedDrops : Nat := 0
  drained : CondVar Nat := {}
  writer : AsyncSink.Writer Line := .enter
  stopper : AsyncSink.Stopper Line := .none
  /-- The calls of `flush`, by their threads. -/
  flushes : Nat → Option AsyncSink.FlushCall := fun _ => none
  -- what has happened
  output : List (Output Line) := []
  /-- The calls of `append` that found the sink running. -/
  entered : Nat := 0
  accepted : List Line := []
  /-- The calls of `flush` that have returned while the sink was running. -/
  returned : List (AsyncSink.Returned Line) := []

namespace AsyncSink

variable {Line : Type}

def new (maxBufferedLines : Nat) : AsyncSink Line where
  maxLines := if maxBufferedLines = 0 then 1 else maxBufferedLines

def put (s : AsyncSink Line) (output : Output Line) : AsyncSink Line :=
  { s with output := s.output ++ [output] }

def append (s : AsyncSink Line) (line : Line) : AsyncSink Line :=
  if s.running = false then s
  else
    let s := { s with entered := s.entered + 1 }
    if s.current.length + s.writing.length ≥ s.maxLines then { s with dropped := s.dropped + 1 }
    else { s with current := s.current ++ [line], accepted := s.accepted ++ [line] }

/-! ### Flush -/

def setFlush (s : AsyncSink Line) (thread : Nat) (call : Option FlushCall) : AsyncSink Line :=
  { s with flushes := Function.update s.flushes thread call }

def Drained (s : AsyncSink Line) : Prop :=
  (s.current.isEmpty ∧ s.writing.isEmpty) ∨ s.running = false

instance (s : AsyncSink Line) : Decidable s.Drained := inferInstanceAs (Decidable (_ ∨ _))

def checkDrained (s : AsyncSink Line) (thread mark : Nat) : AsyncSink Line :=
  if s.Drained then s.setFlush thread (some ⟨mark, .flushing⟩)
  else { s.setFlush thread (some ⟨mark, .waiting⟩) with drained := s.drained.wait thread }

def enterFlush (s : AsyncSink Line) (thread mark : Nat) : AsyncSink Line :=
  if s.running = false then s.setFlush thread (some ⟨mark, .flushing⟩)
  else s.checkDrained thread mark

/-- The downstream flush, with which the call returns. -/
def leaveFlush (s : AsyncSink Line) (thread mark : Nat) : AsyncSink Line :=
  let s := (s.put .flush).setFlush thread none
  if s.running then { s with returned := s.returned ++ [⟨mark, s.output⟩] } else s

/-! ### The writer -/

/-- After the wait, with the lock: the thread returns, or takes the buffer. -/
def takeBatch (s : AsyncSink Line) : AsyncSink Line :=
  if s.running = false ∧ s.current.isEmpty then
    { s with drained := s.drained.notifyAll, writer := .returned }
  else
    -- the two swaps leave what was in `writing_` with the producers
    { s with
      current := s.writing
      writing := []
      writer := .write s.current s.current
        (if s.dropped > s.reportedDrops then s.dropped - s.reportedDrops else 0)
      reportedDrops := if s.dropped > s.reportedDrops then s.dropped else s.reportedDrops }

def writerStep (s : AsyncSink Line) (timedOut : Bool) : Option (AsyncSink Line) :=
  match s.writer with
  | .enter =>
    some (if s.current.isEmpty ∧ s.running then { s with writer := .wait } else s.takeBatch)
  | .wait =>
    -- without a reason to wake it goes on waiting
    some (if ¬s.current.isEmpty ∨ s.running = false ∨ timedOut then s.takeBatch else s)
  | .write batch (line :: rest) drops =>
    some { s.put (.line line) with writer := .write batch rest drops }
  | .write batch [] drops =>
    some { (if drops > 0 then s.put (.dropped drops) else s) with writer := .flush batch }
  | .flush batch =>
    some { (if batch.isEmpty then s else s.put .flush) with writer := .announce }
  | .announce =>
    some { s with
      writer := .enter
      drained := if s.current.isEmpty ∧ s.writing.isEmpty then s.drained.notifyAll else s.drained }
  | .returned => none

/-! ### Stop -/

def stop (s : AsyncSink Line) : AsyncSink Line :=
  if s.running = false then s else { s with running := false, stopper := .notify }

def stopperStep (s : AsyncSink Line) : Option (AsyncSink Line) :=
  match s.stopper with
  | .none => none
  | .notify => some { s with drained := s.drained.notifyAll, stopper := .join }
  | .join =>
    match s.writer with
    | .returned => some { s with stopper := .leftover }
    | .enter | .wait | .write .. | .flush _ | .announce => none
  | .leftover =>
    some { s with writing := [], current := [], stopper := .drain (s.writing ++ s.current) }
  | .drain (line :: rest) => some { s.put (.line line) with stopper := .drain rest }
  | .drain [] => some { s.put .flush with stopper := .returned }
  | .returned => none

/-! ### The machine -/

inductive Event (Line : Type) where
  | append (line : Line)
  | flush (thread : Nat)
  /-- The next action of its call. -/
  | flusher (thread : Nat)
  /-- A thread that waits in `flush` wakes by itself. -/
  | wake (thread : Nat)
  | writer (timedOut : Bool)
  | stop
  | stopper
  deriving DecidableEq

def step (s : AsyncSink Line) : Event Line → Option (AsyncSink Line)
  | .append line => some (s.append line)
  | .flush thread =>
    match s.flushes thread with
    | none => some (s.setFlush thread (some ⟨s.accepted.length, .called⟩))
    | some _ => none
  | .flusher thread =>
    match s.flushes thread with
    | none => none
    | some ⟨mark, .called⟩ => some (s.enterFlush thread mark)
    | some ⟨mark, .waiting⟩ =>
      if thread ∈ s.drained.waiting then none else some (s.checkDrained thread mark)
    | some ⟨mark, .flushing⟩ => some (s.leaveFlush thread mark)
  | .wake thread => some { s with drained := s.drained.wake [thread] }
  | .writer timedOut => s.writerStep timedOut
  | .stop => some s.stop
  | .stopper => s.stopperStep

end AsyncSink

end Cox.Logging

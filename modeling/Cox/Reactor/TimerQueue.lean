import Mathlib.Algebra.GroupWithZero.Nat
import Mathlib.Data.Finset.Insert
import Mathlib.Data.Fintype.Basic
import Mathlib.Data.Prod.Lex
import Mathlib.Logic.Function.Basic
import Mathlib.Order.Fin.Basic
import Cox.Lib.Machine
import Cox.Lib.Schedule
import Cox.Lib.SortedSet

/-!
# The timer queue

`TimerQueue` of reactor/timer_queue.cc with the `Timer` objects of reactor/timer.h, which
live on a heap: `new` puts a timer at any address that is free, and `delete` frees the
address for another one. What a read of freed memory returns comes with the event.

`handleRead` takes the expired timers out of the set, runs their callbacks and then puts
the repeating ones back. The callbacks are arbitrary code that adds and cancels timers, so
it is cut into steps: the start, one step for the turn of each expired timer, and the end.
Sequence numbers come from a counter that all queues share; it does not wrap around.
-/
namespace Cox.Reactor

open Cox.Lib Cox.Lib.Schedule

instance neZero_pow64 : NeZero (2 ^ 64) := ⟨by decide⟩

/-- `logging::Timestamp`: microseconds since the epoch, compared as unsigned numbers. -/
abbrev Timestamp := Fin (2 ^ 64)

abbrev Milliseconds := Fin (2 ^ 64)

/-- A pointer to a timer; 0 is the null pointer. -/
abbrev Address := Fin (2 ^ 64)

/-- The sum is taken modulo 2^64. -/
def addMilliseconds (t : Timestamp) (milliseconds : Milliseconds) : Timestamp :=
  t + milliseconds * 1000

structure Timer where
  expiration : Timestamp
  intervalMs : Milliseconds
  sequence : Nat
  deriving DecidableEq

namespace Timer

def repeats (t : Timer) : Bool := 0 < t.intervalMs

def restart (t : Timer) (now : Timestamp) : Timer :=
  { t with expiration := if t.repeats then addMilliseconds now t.intervalMs else 0 }

end Timer

/-- A handle with which a timer is cancelled; the default one has no timer. -/
structure TimerId where
  timer : Option Address := none
  sequence : Nat := 0
  deriving DecidableEq

/-- What the set of timers holds, ordered by time and then by address. -/
abbrev Entry := Timestamp ×ₗ Address

def entry (time : Timestamp) (address : Address) : Entry := toLex (time, address)

def Entry.time (e : Entry) : Timestamp := (ofLex e).1

def Entry.address (e : Entry) : Address := (ofLex e).2

/-- The entry for `now` that no entry of a timer exceeds. -/
def sentinel (now : Timestamp) : Entry := entry now (Fin.last _)

structure Batch where
  now : Timestamp
  expired : List Entry
  /-- Those whose turn is still to come. -/
  turns : List Entry
  /-- A callback is running. -/
  running : Bool := false
  -- the history: the schedule at the start, what has happened since, and what ran
  before : List Timer
  deeds : List (Deed Timer Nat) := []
  ran : List Timer := []

structure TimerQueue where
  heap : Address → Option Timer := fun _ => none
  /-- `Timer::s_num_created_`. -/
  numCreated : Nat := 0
  timers : SortedSet Entry := .empty
  activeSequences : Finset Nat := ∅
  cancelling : Finset Nat := ∅
  callingExpiredCallbacks : Bool := false
  /-- The time for which the timerfd is set, if it is. -/
  timerfd : Option Int := none
  batch : Option Batch := none
  -- the history: the handles that were given out, the timers that ran, and the addresses
  -- that were read after they were freed
  issued : List TimerId := []
  ran : List Timer := []
  freedReads : List Address := []

namespace TimerQueue

def timersOf (heap : Address → Option Timer) (entries : List Entry) : List Timer :=
  entries.filterMap fun e => heap e.address

def scheduled (q : TimerQueue) : List Timer := timersOf q.heap q.timers.elements

def note (q : TimerQueue) (deed : Deed Timer Nat) : TimerQueue :=
  { q with batch := q.batch.map fun b => { b with deeds := b.deeds ++ [deed] } }

/-! ### The timerfd -/

def toInt64 (t : Timestamp) : Int := (t.val : Int).bmod (2 ^ 64)

/-- At least one microsecond, because zero would disarm the timerfd. -/
def howMuchTimeFromNow (when clock : Timestamp) : Int := max 1 (toInt64 when - toInt64 clock)

def resetTimerfd (q : TimerQueue) (expiration clock : Timestamp) : TimerQueue :=
  { q with timerfd := some (toInt64 clock + howMuchTimeFromNow expiration clock) }

/-- A timerfd that has expired is no longer set once it has been read. -/
def readTimerfd (q : TimerQueue) (now : Timestamp) : TimerQueue :=
  { q with timerfd := q.timerfd.filter fun time => toInt64 now < time }

/-! ### Adding and cancelling -/

/-- Whether a timer with this expiration would be the earliest one. -/
def earliestChanged (q : TimerQueue) (expiration : Timestamp) : Bool :=
  match q.timers.first? with
  | none => true
  | some first => expiration < first.time

/-- `insert`, where `earliestChanged` is what it returns. -/
def insert (q : TimerQueue) (address : Address) (t : Timer) : TimerQueue :=
  { q with timers := q.timers.insert (entry t.expiration address) }

/-- `new Timer`, when other queues have created some timers since the last one. -/
def create (q : TimerQueue) (address : Address) (t : Timer) : TimerQueue :=
  { q with
    heap := Function.update q.heap address (some t)
    numCreated := t.sequence
    issued := q.issued ++ [⟨some address, t.sequence⟩] }

def activate (q : TimerQueue) (sequence : Nat) : TimerQueue :=
  { q with activeSequences := Insert.insert sequence q.activeSequences }

def newTimer (q : TimerQueue) (elsewhere : Nat) (when : Timestamp) (intervalMs : Milliseconds) :
    Timer :=
  ⟨when, intervalMs, q.numCreated + elsewhere + 1⟩

def addTimer (q : TimerQueue) (address : Address) (t : Timer) (clock : Timestamp) : TimerQueue :=
  let added := (((q.create address t).insert address t).activate t.sequence).note (.add t)
  if q.earliestChanged t.expiration then added.resetTimerfd t.expiration clock else added

def reads (q : TimerQueue) (address : Address) : TimerQueue :=
  if q.heap address = none then { q with freedReads := q.freedReads ++ [address] } else q

/-- The expiration that is found at an address; `stale` is what freed memory holds. -/
def expirationAt (q : TimerQueue) (address : Address) (stale : Timestamp) : Timestamp :=
  match q.heap address with
  | some t => t.expiration
  | none => stale

/-- Erase the sequence number of a timer, and delete the timer. -/
def free (q : TimerQueue) (address : Address) (t : Timer) : TimerQueue :=
  { q with
    activeSequences := q.activeSequences.erase t.sequence
    heap := Function.update q.heap address none }

def remove (q : TimerQueue) (e : Entry) : TimerQueue :=
  match q.heap e.address with
  | some t => { q.free e.address t with timers := q.timers.erase e }
  | none => { q.reads e.address with timers := q.timers.erase e }

def cancel (q : TimerQueue) (id : TimerId) (stale : Timestamp) : TimerQueue :=
  match id.timer with
  | none => q
  | some address =>
    let e := entry (q.expirationAt address stale) address
    let q := (q.reads address).note (.cancel id.sequence)
    if e ∈ q.timers then q.remove e
    -- the timer is being processed: `reset` must not re-arm it
    else if q.callingExpiredCallbacks then
      { q with cancelling := Insert.insert id.sequence q.cancelling }
    else q

/-! ### Handling the expired timers -/

/-- `handleRead`, up to the first callback; `getExpired` cuts the set at the sentinel. -/
def handleRead (q : TimerQueue) (now : Timestamp) : TimerQueue :=
  { q.readTimerfd now with
    timers := q.timers.above (sentinel now)
    callingExpiredCallbacks := true
    cancelling := ∅
    batch := some
      { now
        expired := q.timers.upTo (sentinel now)
        turns := q.timers.upTo (sentinel now)
        before := q.scheduled } }

/-- The turn of a timer: it runs unless it was cancelled during this batch. -/
def takeTurn (q : TimerQueue) (b : Batch) (t : Timer) (rest : List Entry) : TimerQueue :=
  if t.sequence ∈ q.cancelling then
    { q with batch := some { b with turns := rest, running := false } }.note (.turn t)
  else
    { q with
      batch := some { b with turns := rest, running := true, ran := b.ran ++ [t] }
      ran := q.ran ++ [t] }.note (.turn t)

def turn (q : TimerQueue) (b : Batch) (e : Entry) (rest : List Entry) : TimerQueue :=
  match q.heap e.address with
  | some t => q.takeTurn b t rest
  | none => { q.reads e.address with batch := some { b with turns := rest, running := false } }

/-- What `reset` does with one of the expired timers. -/
def resetTimer (now : Timestamp) (q : TimerQueue) (e : Entry) : TimerQueue :=
  match q.heap e.address with
  | some t =>
    if t.repeats ∧ t.sequence ∉ q.cancelling then
      { q with heap := Function.update q.heap e.address (some (t.restart now)) }.insert e.address
        (t.restart now)
    else q.free e.address t
  | none => q.reads e.address

/-- The end of `reset`: the timerfd is set for the earliest timer. -/
def rearm (q : TimerQueue) (clock : Timestamp) : TimerQueue :=
  match q.timers.first? with
  | some first => q.resetTimerfd first.time clock
  | none => q

def reset (q : TimerQueue) (b : Batch) (clock : Timestamp) : TimerQueue :=
  { (b.expired.foldl (resetTimer b.now) { q with callingExpiredCallbacks := false }).rearm clock with
    batch := none }

/-! ### Runs -/

inductive Event where
  /-- The address comes from the allocator, the clock is read when the timerfd is set, and
  `elsewhere` counts the timers of other queues. -/
  | addTimer (address : Address) (elsewhere : Nat) (when : Timestamp) (intervalMs : Milliseconds)
      (clock : Timestamp)
  | cancel (id : TimerId) (stale : Timestamp)
  | handleRead (now : Timestamp)
  | turn
  | reset (clock : Timestamp)

/-- The code that runs is a callback, or outside `handleRead`. -/
def MayCall (q : TimerQueue) : Prop := ∀ b ∈ q.batch, b.running = true

instance (q : TimerQueue) : Decidable q.MayCall := inferInstanceAs (Decidable (∀ b ∈ _, _))

def step (q : TimerQueue) : Event → Option TimerQueue
  | .addTimer address elsewhere when intervalMs clock =>
    if q.MayCall ∧ address ≠ 0 ∧ q.heap address = none then
      some (q.addTimer address (q.newTimer elsewhere when intervalMs) clock)
    else none
  | .cancel id stale =>
    -- handles are opaque: they are default ones, or were returned by `addTimer`
    if q.MayCall ∧ (id.timer = none ∨ id ∈ q.issued) then some (q.cancel id stale) else none
  | .handleRead now =>
    match q.batch with
    | none => some (q.handleRead now)
    | some _ => none
  | .turn =>
    match q.batch with
    | some b =>
      match b.turns with
      | e :: rest => some (q.turn b e rest)
      | [] => none
    | none => none
  | .reset clock =>
    match q.batch with
    | some b => if b.turns = [] then some (q.reset b clock) else none
    | none => none

end TimerQueue

end Cox.Reactor

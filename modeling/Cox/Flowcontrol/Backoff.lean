import Mathlib.Logic.Function.Basic
import Cox.Lib.Bytes

/-!
# Exponential back-off

`Backoff` of flowcontrol/backoff.h: for each key a base delay that doubles with every
failure, up to a cap. The delay that is handed out is the base delay times a random factor.
The operations on the base delays are those of `Backoff`, which the connector uses as they are;
`JitteredBackoff` adds the generator. Durations are in milliseconds.
-/
namespace Cox.Flowcontrol

open Cox.Lib

abbrev Duration := Int

structure Entry where
  duration : Duration
  lastUpdate : Int

structure Backoff where
  initial : Duration
  max : Duration
  entries : Bytes → Option Entry := fun _ => none

namespace Backoff

/-- The constructor. The cap is compared with the argument, not with the corrected value. -/
def new (initial max : Duration) : Backoff where
  initial := if initial > 0 then initial else 1
  max := if max ≥ initial then max else initial

/-- Advance the back-off of the key; the new base delay, and the back-off after it. -/
def nextDelay (b : Backoff) (key : Bytes) (now : Int) : Duration × Backoff :=
  let base := match b.entries key with
    | none => b.initial
    | some entry => min (entry.duration * 2) b.max
  (base, { b with entries := Function.update b.entries key (some ⟨base, now⟩) })

def reset (b : Backoff) (key : Bytes) : Backoff :=
  { b with entries := Function.update b.entries key none }

/-- `next` is written out on its own: a new entry, or the old one changed in place. -/
def next (b : Backoff) (key : Bytes) (now : Int) : Backoff :=
  match b.entries key with
  | none => { b with entries := Function.update b.entries key (some ⟨b.initial, now⟩) }
  | some entry =>
    let doubled := entry.duration * 2
    { b with
      entries := Function.update b.entries key
        (some { entry with duration := min doubled b.max, lastUpdate := now }) }

/-- Remove the entries that are older than `maxAge`; the clock counts nanoseconds. -/
def gc (b : Backoff) (maxAge : Duration) (now : Int) : Backoff :=
  { b with
    entries := fun key =>
      match b.entries key with
      | none => none
      | some entry => if now - entry.lastUpdate > maxAge * 1000000 then none else some entry }

def baseDelay (b : Backoff) (key : Bytes) : Duration :=
  match b.entries key with
  | none => b.initial
  | some entry => entry.duration

end Backoff

/-! ### Jitter -/

/-- What `jitter_` does: whether it is at most zero, and otherwise the delay for a state of the
generator and a base delay, a product of `double`s that is cast back. -/
structure Jitter where
  off : Bool
  scale : UInt64 → Duration → Duration

structure JitteredBackoff extends Backoff where
  jitter : Jitter
  rngState : UInt64

namespace JitteredBackoff

def new (initial max : Duration) (jitter : Jitter) (seed : UInt64) : JitteredBackoff where
  toBackoff := Backoff.new initial max
  jitter := jitter
  rngState := seed

def xorshift (x : UInt64) : UInt64 :=
  let x := x ^^^ (x <<< 13)
  let x := x ^^^ (x >>> 7)
  x ^^^ (x <<< 17)

def applyJitter (b : JitteredBackoff) (d : Duration) : Duration × JitteredBackoff :=
  if b.jitter.off then (d, b)
  else
    let rngState := xorshift b.rngState
    (b.jitter.scale rngState d, { b with rngState })

def next (b : JitteredBackoff) (key : Bytes) (now : Int) : JitteredBackoff :=
  { b with toBackoff := b.toBackoff.next key now }

def get (b : JitteredBackoff) (key : Bytes) : Duration × JitteredBackoff :=
  b.applyJitter (match b.entries key with
    | none => b.initial
    | some entry => entry.duration)

def nextDelay (b : JitteredBackoff) (key : Bytes) (now : Int) : Duration × JitteredBackoff :=
  let advanced := b.toBackoff.nextDelay key now
  { b with toBackoff := advanced.2 }.applyJitter advanced.1

def reset (b : JitteredBackoff) (key : Bytes) : JitteredBackoff :=
  { b with toBackoff := b.toBackoff.reset key }

def gc (b : JitteredBackoff) (maxAge : Duration) (now : Int) : JitteredBackoff :=
  { b with toBackoff := b.toBackoff.gc maxAge now }

end JitteredBackoff

end Cox.Flowcontrol

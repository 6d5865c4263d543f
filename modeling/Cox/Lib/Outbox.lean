import Mathlib.Data.List.Basic

/-!
# A buffered output stream

A sink takes any part of what it is offered. Messages go to it directly while nothing is
waiting, and through a buffer otherwise; as long as the outbox is open, it asks to be told
when the sink is ready exactly while the buffer holds something. Whatever the sink takes,
what it has taken and what is in the buffer are together the messages sent so far.
-/
namespace Cox.Lib

open List

structure Outbox (α : Type) where
  /-- The outbox is open. -/
  live : Bool
  /-- It waits for the sink to be ready. -/
  interest : Bool
  buffer : List α
  accepted : List α
  /-- The number of items taken, modulo 2^64. -/
  count : UInt64
  messages : List (List α)

namespace Outbox

variable {α : Type}

structure Lossless (o : Outbox α) : Prop where
  stream : o.accepted ++ o.buffer = o.messages.flatten
  counted : o.count = UInt64.ofNat o.accepted.length
  waits : o.live = true → (o.interest = true ↔ o.buffer ≠ [])

def accept (o : Outbox α) (items : List α) (n : Nat) : Outbox α :=
  { o with count := o.count + UInt64.ofNat n, accepted := o.accepted ++ items.take n }

def offer (o : Outbox α) (message : List α) (n : Nat) : Outbox α :=
  { o.accept message n with
    buffer := message.drop n
    interest := !(message.drop n).isEmpty
    messages := o.messages ++ [message] }

def store (o : Outbox α) (message : List α) : Outbox α :=
  { o with
    buffer := o.buffer ++ message
    interest := o.interest || !message.isEmpty
    messages := o.messages ++ [message] }

def flush (o : Outbox α) (n : Nat) : Outbox α :=
  { o.accept o.buffer n with
    buffer := o.buffer.drop n
    interest := !(o.buffer.drop n).isEmpty }

def close (o : Outbox α) : Outbox α := { o with live := false, interest := false }

inductive Step (o : Outbox α) : Outbox α → Prop where
  | rest : Step o o
  | offer (message : List α) (n : Nat) (within : n ≤ message.length) (empty : o.buffer = []) :
      Step o (o.offer message n)
  | store (message : List α) (live : o.live = true) : Step o (o.store message)
  | flush (n : Nat) (within : n ≤ o.buffer.length) : Step o (o.flush n)
  | close : Step o o.close

theorem Step.live {o o' : Outbox α} (step : Step o o') (live : o'.live = true) : o.live = true := by
  cases step with
  | rest | offer | store | flush => exact live
  | close => cases live

theorem counted_accept (o : Outbox α) (lossless : Lossless o) (items : List α) (n : Nat)
    (within : n ≤ items.length) :
    (o.accept items n).count = UInt64.ofNat (o.accept items n).accepted.length := by
  have taken : (items.take n).length = n := length_take_of_le within
  simp only [accept, length_append, taken, UInt64.ofNat_add, lossless.counted]

theorem Lossless.step {o o' : Outbox α} (lossless : Lossless o) (step : Step o o') :
    Lossless o' := by
  cases step with
  | rest => exact lossless
  | offer message n within empty =>
    refine ⟨?_, counted_accept o lossless message n within, fun _ => ?_⟩
    -- nothing is stored, so the message follows directly what was accepted
    · have before := lossless.stream
      rw [empty, append_nil] at before
      simp only [offer, accept, append_assoc, take_append_drop, before,
        flatten_append, flatten_singleton]
    · simp [offer]
  | store message live =>
    refine ⟨?_, lossless.counted, fun _ => ?_⟩
    · simp only [store, ← append_assoc, lossless.stream, flatten_append,
        flatten_singleton]
    · have before := lossless.waits live
      simp only [store, Bool.or_eq_true, Bool.not_eq_true', isEmpty_eq_false_iff,
        before, ne_eq, append_eq_nil_iff, not_and_or]
  | flush n within =>
    refine ⟨?_, counted_accept o lossless o.buffer n within, fun _ => ?_⟩
    -- the cut between accepted and stored moves, the stream does not
    · simp only [flush, accept, append_assoc, take_append_drop]
      exact lossless.stream
    · simp [flush]
  | close => exact ⟨lossless.stream, lossless.counted, fun live => by cases live⟩

end Outbox

end Cox.Lib

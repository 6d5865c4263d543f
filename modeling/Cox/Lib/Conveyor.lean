import Mathlib.Data.List.Basic
import Mathlib.Data.List.Perm.Basic

/-!
# A queue that is emptied in batches

Items enter a queue. Whoever has nothing in hand takes some of them, from the front, and
then deals with one after the other. Nothing is lost on the way and nothing is done twice.
-/
namespace Cox.Lib

open List

structure Conveyor (α : Type) where
  accepted : List α
  queue : List α
  /-- The items that have left the queue, in this order. -/
  taken : List α
  /-- What each of those who work has in hand. -/
  hands : List (List α)
  done : List α

namespace Conveyor

variable {α : Type}

inductive Step (c : Conveyor α) : Conveyor α → Prop where
  | rest : Step c c
  | enter (a : α) : Step c { c with accepted := c.accepted ++ [a], queue := c.queue ++ [a] }
  | take (w n : Nat) (free : c.hands[w]? = some []) :
      Step c { c with
        queue := c.queue.drop n
        taken := c.taken ++ c.queue.take n
        hands := c.hands.set w (c.queue.take n) }
  /-- With nothing queued, an item is dealt with at once. -/
  | pass (a : α) (empty : c.queue = []) :
      Step c { c with
        accepted := c.accepted ++ [a]
        taken := c.taken ++ [a]
        done := c.done ++ [a] }
  | finish (w : Nat) (a : α) (others : List α) (first : c.hands[w]? = some (a :: others)) :
      Step c { c with hands := c.hands.set w others, done := c.done ++ [a] }

/-- Items leave the queue in the order in which they came, and are then done or in hand. -/
structure Lossless (c : Conveyor α) : Prop where
  fifo : c.accepted = c.taken ++ c.queue
  partition : c.taken.Perm (c.done ++ c.hands.flatten)

variable {c c' : Conveyor α}

theorem flatten_perm (hands : List (List α)) (w : Nat) (hand : List α)
    (here : hands[w]? = some hand) : hands.flatten.Perm (hand ++ (hands.eraseIdx w).flatten) := by
  obtain ⟨within, rfl⟩ := List.getElem?_eq_some_iff.mp here
  exact (getElem_cons_eraseIdx_perm within).symm.flatten

theorem flatten_set_perm (hands : List (List α)) (w : Nat) (hand hand' : List α)
    (here : hands[w]? = some hand) :
    (hands.set w hand').flatten.Perm (hand' ++ (hands.eraseIdx w).flatten) := by
  obtain ⟨within, _⟩ := List.getElem?_eq_some_iff.mp here
  have set := flatten_perm (hands.set w hand') w hand' (List.getElem?_set_self within)
  rwa [eraseIdx_set_eq] at set

theorem Lossless.step (lossless : Lossless c) (step : Step c c') : Lossless c' := by
  obtain ⟨fifo, partition⟩ := lossless
  cases step with
  | rest => exact ⟨fifo, partition⟩
  | enter a =>
    refine ⟨?_, partition⟩
    rw [fifo, append_assoc]
  | take w n free =>
    -- the hand was empty, so that it holds the batch and nothing else
    refine ⟨?_, ?_⟩
    · rw [fifo, append_assoc, take_append_drop]
    · have before := flatten_perm c.hands w [] free
      have after := flatten_set_perm c.hands w [] (c.queue.take n) free
      calc (c.taken ++ c.queue.take n).Perm ((c.done ++ c.hands.flatten) ++ c.queue.take n) :=
            partition.append_right _
        _ = c.done ++ (c.hands.flatten ++ c.queue.take n) := append_assoc ..
        _ |>.Perm (c.done ++ (c.queue.take n ++ (c.hands.eraseIdx w).flatten)) :=
            List.Perm.append_left _ ((before.append_right _).trans perm_append_comm)
        _ |>.Perm (c.done ++ (c.hands.set w (c.queue.take n)).flatten) :=
            after.symm.append_left _
  | pass a empty =>
    refine ⟨?_, ?_⟩
    · rw [fifo, empty, append_nil, append_nil]
    · calc (c.taken ++ [a]).Perm ((c.done ++ c.hands.flatten) ++ [a]) := partition.append_right _
        _ = c.done ++ (c.hands.flatten ++ [a]) := append_assoc ..
        _ |>.Perm (c.done ++ ([a] ++ c.hands.flatten)) := perm_append_comm.append_left _
        _ = (c.done ++ [a]) ++ c.hands.flatten := (append_assoc ..).symm
  | finish w a others first =>
    -- the item leaves the hand and is done
    refine ⟨fifo, partition.trans ?_⟩
    have before := flatten_perm c.hands w _ first
    have after := flatten_set_perm c.hands w _ others first
    have moved : (c.done ++ [a]) ++ (c.hands.set w others).flatten =
        c.done ++ ([a] ++ (c.hands.set w others).flatten) := append_assoc ..
    rw [moved]
    exact List.Perm.append_left _ (before.trans (after.symm.append_left [a]))

end Conveyor

end Cox.Lib

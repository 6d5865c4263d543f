import Mathlib.Data.List.Basic

/-!
# Condition variables

A condition variable is given by the threads that wait on it and have not been notified. A
thread that has been notified, or wakes by itself, leaves it and looks at its condition
again.
-/
namespace Cox.Lib

structure CondVar (Thread : Type) where
  waiting : List Thread := []
  deriving DecidableEq

namespace CondVar

variable {Thread : Type} [DecidableEq Thread]

omit [DecidableEq Thread] in
def wait (cv : CondVar Thread) (thread : Thread) : CondVar Thread := ⟨thread :: cv.waiting⟩

def wake (cv : CondVar Thread) (woken : List Thread) : CondVar Thread :=
  ⟨cv.waiting.filter fun thread => thread ∉ woken⟩

/-- At least one of the threads that wait is woken, if there is one. -/
def notifyOne (cv : CondVar Thread) (woken : List Thread) : Option (CondVar Thread) :=
  if cv.waiting = [] ∨ ∃ thread ∈ cv.waiting, thread ∈ woken then some (cv.wake woken) else none

omit [DecidableEq Thread] in
def notifyAll (_ : CondVar Thread) : CondVar Thread := ⟨[]⟩

theorem mem_wake {cv : CondVar Thread} {woken : List Thread} {thread : Thread} :
    thread ∈ (cv.wake woken).waiting ↔ thread ∈ cv.waiting ∧ thread ∉ woken := by
  simp [wake]

theorem notifyOne_spec {cv cv' : CondVar Thread} {woken : List Thread}
    (notified : cv.notifyOne woken = some cv') :
    (∀ thread ∈ cv'.waiting, thread ∈ cv.waiting) ∧
      (cv.waiting = [] ∨ ∃ thread ∈ cv.waiting, thread ∉ cv'.waiting) := by
  unfold notifyOne at notified
  split at notified
  next wakes =>
    cases notified
    refine ⟨fun thread member => (mem_wake.mp member).1, wakes.imp id ?_⟩
    rintro ⟨thread, waits, woken⟩
    exact ⟨thread, waits, fun still => (mem_wake.mp still).2 woken⟩
  next => cases notified

end CondVar

end Cox.Lib

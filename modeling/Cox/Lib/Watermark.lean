import Mathlib.Data.List.Basic

/-!
# A queue with a high-water mark

Messages are written to a sink that takes any part of them, and the rest is queued. When the
rest takes the queue from below a mark to at least the mark, that is announced first, and the
rest is deferred until whoever was told is done. As long as nothing else is written or queued
in between, the order of the messages is kept, and there is one announcement for each time the
queue grows over the mark.
-/
namespace Cox.Lib

open List

/-- A length grows from below the mark to at least the mark. -/
def Crosses (mark : Option Nat) (before after : Nat) : Prop :=
  match mark with
  | some limit => before < limit ∧ limit ≤ after
  | none => False

instance (mark : Option Nat) (before after : Nat) : Decidable (Crosses mark before after) :=
  match mark with
  | some _ => inferInstanceAs (Decidable (_ ∧ _))
  | none => inferInstanceAs (Decidable False)

theorem not_crosses_of_le (mark : Option Nat) (before after : Nat) (le : after ≤ before) :
    ¬Crosses mark before after := by
  intro crosses
  cases mark with
  | none => exact crosses
  | some limit =>
    obtain ⟨below, above⟩ := crosses
    omega

structure Watermark (α : Type) where
  /-- The mark, if someone wants to be told. -/
  mark : Option Nat
  written : List α
  queue : List α
  /-- What has been announced and is not in the queue yet. -/
  deferred : List (List α)
  sent : List α
  /-- The number of announcements. -/
  fired : Nat
  /-- How often the queue has grown over the mark. -/
  crossings : Nat

namespace Watermark

variable {α : Type}

/-- What can happen while nothing is written or queued between an announcement and what it
is about. -/
inductive Step (w : Watermark α) : Watermark α → Prop where
  | rest : Step w w
  /-- The first `n` items of a message are written, the others are queued. -/
  | put (items : List α) (n : Nat) (free : w.deferred = [])
      (direct : items.take n = [] ∨ w.queue = [])
      (quiet : ¬Crosses w.mark w.queue.length (w.queue.length + (items.drop n).length)) :
      Step w { w with
        written := w.written ++ items.take n
        queue := w.queue ++ items.drop n
        sent := w.sent ++ items }
  /-- The others are announced, and wait. -/
  | announce (items : List α) (n : Nat) (free : w.deferred = [])
      (direct : items.take n = [] ∨ w.queue = [])
      (crosses : Crosses w.mark w.queue.length (w.queue.length + (items.drop n).length)) :
      Step w { w with
        written := w.written ++ items.take n
        deferred := [items.drop n]
        sent := w.sent ++ items
        fired := w.fired + 1 }
  /-- What was announced is queued. -/
  | commit (items : List α) (crossings : Nat) (only : w.deferred = [items])
      (counted : Crosses w.mark w.queue.length (w.queue ++ items).length →
        crossings = w.crossings + 1) :
      Step w { w with queue := w.queue ++ items, deferred := [], crossings }
  | drain (n : Nat) (free : w.deferred = []) :
      Step w { w with written := w.written ++ w.queue.take n, queue := w.queue.drop n }

structure Sound (w : Watermark α) : Prop where
  whole : w.written ++ w.queue ++ w.deferred.flatten = w.sent
  due : ∀ items ∈ w.deferred, Crosses w.mark w.queue.length (w.queue.length + items.length)
  matched : w.fired = w.crossings + w.deferred.length

/-- A message that is written in part comes after what was written and queued before. -/
theorem append_written (written queue items : List α) (n : Nat)
    (direct : items.take n = [] ∨ queue = []) :
    written ++ items.take n ++ (queue ++ items.drop n) = written ++ queue ++ items := by
  rcases direct with nothing | empty
  · have all : items.drop n = items := by
      have both := take_append_drop n items
      rwa [nothing, nil_append] at both
    rw [nothing, all, append_nil, append_assoc]
  · rw [empty, nil_append, append_nil, append_assoc, take_append_drop]

theorem Sound.follows {w : Watermark α} (sound : Sound w) (items : List α) (n : Nat)
    (free : w.deferred = []) (direct : items.take n = [] ∨ w.queue = []) :
    w.written ++ items.take n ++ (w.queue ++ items.drop n) = w.sent ++ items := by
  have whole := sound.whole
  rw [free, flatten_nil, append_nil] at whole
  rw [append_written _ _ _ _ direct, whole]

theorem Sound.step {w w' : Watermark α} (sound : Sound w) (step : Step w w') : Sound w' := by
  cases step with
  | rest => exact sound
  | put items n free direct quiet =>
    refine ⟨?_, ?_, ?_⟩
    · have follows := sound.follows items n free direct
      simp only [free, flatten_nil, append_nil]
      exact follows
    · simp [free]
    · exact sound.matched
  | announce items n free direct crosses =>
    refine ⟨?_, ?_, ?_⟩
    · have follows := sound.follows items n free direct
      rw [flatten_singleton, append_assoc]
      exact follows
    · simpa using crosses
    · have matched := sound.matched
      simp only [free, length_nil] at matched
      simp only [matched, length_singleton, Nat.add_zero]
  | commit items crossings only counted =>
    refine ⟨?_, by simp, ?_⟩
    · have whole := sound.whole
      rw [only, flatten_singleton] at whole
      simp only [flatten_nil, append_nil]
      rwa [← append_assoc]
    -- the announcement is matched by this growth of the queue
    · have matched := sound.matched
      have due := sound.due items (by simp [only])
      have grown := counted (by simpa using due)
      simp only [only, length_singleton] at matched
      simp only [length_nil]
      omega
  | drain n free =>
    refine ⟨?_, by simp [free], sound.matched⟩
    have whole := sound.whole
    simp only [free, flatten_nil, append_nil] at whole ⊢
    rw [append_assoc, take_append_drop]
    exact whole

end Watermark

end Cox.Lib

import Mathlib.Algebra.Order.Monoid.Defs
import Cox.Lib.Machine

/-!
# Costs along a run

Each step of a machine has a cost. If every step pays for its cost out of a potential that
never goes below zero, the costs of a whole run come to at most the potential at its start.
-/
namespace Cox.Lib.Machine

variable {S E K : Type} [AddCommMonoid K]

def total (step : S → E → Option S) (cost : S → E → K) : S → List E → K
  | _, [] => 0
  | s, e :: events =>
    match step s e with
    | some s' => cost s e + total step cost s' events
    | none => 0

variable {step : S → E → Option S} [PartialOrder K] [IsOrderedAddMonoid K]

theorem total_le {Inv : S → Prop} {cost : S → E → K} {potential : S → K}
    (keeps : ∀ s e s', Inv s → step s e = some s' → Inv s')
    (pays : ∀ s e s', Inv s → step s e = some s' → cost s e + potential s' ≤ potential s)
    (solvent : ∀ s, Inv s → 0 ≤ potential s) (s : S) (events : List E) (initial : Inv s) :
    total step cost s events ≤ potential s := by
  induction events generalizing s with
  | nil => exact solvent s initial
  | cons e events ih =>
    rw [total]
    cases stepped : step s e with
    | none => exact solvent s initial
    | some s' =>
      calc cost s e + total step cost s' events
          ≤ cost s e + potential s' := by
            apply add_le_add_right
            exact ih s' (keeps s e s' initial stepped)
        _ ≤ potential s := pays s e s' initial stepped

end Cox.Lib.Machine

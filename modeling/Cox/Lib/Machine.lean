import Mathlib.Tactic.ByContra

/-!
# Machines and their runs

A machine steps on events; an event that is not possible in a state ends the run. A
safety property holds in every state of a run, and a condition on the steps is met by
every step of it. The rules below turn facts about one step into facts about whole runs.
-/
namespace Cox.Lib.Machine

variable {S E : Type} (step : S → E → Option S)

/-- The state after all the events, if each of them was possible. -/
def run : S → List E → Option S
  | s, [] => some s
  | s, e :: events =>
    match step s e with
    | some s' => run s' events
    | none => none

/-- `P` holds in every state the run passes through, the first one included. -/
def Always (P : S → Prop) : S → List E → Prop
  | s, [] => P s
  | s, e :: events => P s ∧
    match step s e with
    | some s' => Always P s' events
    | none => True

/-- Every step of the run meets the condition `C` on the state and the event. -/
def Meets (C : S → E → Prop) : S → List E → Prop
  | _, [] => True
  | s, e :: events =>
    match step s e with
    | some s' => C s e ∧ Meets C s' events
    | none => True

instance Always.decidable (P : S → Prop) [DecidablePred P] :
    (s : S) → (events : List E) → Decidable (Always step P s events)
  | s, [] => inferInstanceAs (Decidable (P s))
  | s, e :: events =>
    have : Decidable (match step s e with
        | some s' => Always step P s' events
        | none => True) :=
      match step s e with
      | some s' => Always.decidable P s' events
      | none => inferInstanceAs (Decidable True)
    inferInstanceAs (Decidable (P s ∧ _))

instance Meets.decidable (C : S → E → Prop) [∀ s e, Decidable (C s e)] :
    (s : S) → (events : List E) → Decidable (Meets step C s events)
  | _, [] => inferInstanceAs (Decidable True)
  | s, e :: events =>
    show Decidable (match step s e with
        | some s' => C s e ∧ Meets step C s' events
        | none => True) from
      match step s e with
      | some s' =>
        have := Meets.decidable C s' events
        inferInstanceAs (Decidable (C s e ∧ _))
      | none => inferInstanceAs (Decidable True)

section Rules

variable {step}

theorem Always.head {P : S → Prop} (s : S) (events : List E) (always : Always step P s events) :
    P s := by
  cases events with
  | nil => exact always
  | cons e events => exact always.1

theorem Always.last {P : S → Prop} (s s' : S) (events : List E) (always : Always step P s events)
    (ran : run step s events = some s') : P s' := by
  induction events generalizing s with
  | nil =>
    cases ran
    exact always
  | cons e events ih =>
    have rest := always.2
    unfold run at ran
    cases stepped : step s e with
    | none => simp [stepped] at ran
    | some t =>
      rw [stepped] at ran rest
      exact ih t rest ran

theorem Always.mono {P Q : S → Prop} (le : ∀ s, P s → Q s) (s : S) (events : List E)
    (always : Always step P s events) : Always step Q s events := by
  induction events generalizing s with
  | nil => exact le s always
  | cons e events ih =>
    refine ⟨le s always.1, ?_⟩
    have rest := always.2
    cases stepped : step s e with
    | none => trivial
    | some s' =>
      rw [stepped] at rest
      exact ih s' rest

/-- Along a run on which `P` holds, `Q` holds as well if `P` carries it over every step. -/
theorem Always.carries {Inv P Q : S → Prop}
    (keeps : ∀ s e s', Inv s → step s e = some s' → Inv s')
    (carried : ∀ s e s', Inv s → Q s → step s e = some s' → P s' → Q s')
    (s : S) (events : List E) (initial : Inv s) (first : Q s) (always : Always step P s events) :
    Always step Q s events := by
  induction events generalizing s with
  | nil => exact first
  | cons e events ih =>
    refine ⟨first, ?_⟩
    have rest := always.2
    cases stepped : step s e with
    | none => trivial
    | some s' =>
      rw [stepped] at rest
      have next := carried s e s' initial first stepped (Always.head s' events rest)
      exact ih s' (keeps s e s' initial stepped) next rest

/-- An invariant that every step meeting the condition preserves holds along every run
whose steps meet the condition. -/
theorem always_of_meets {Inv : S → Prop} {C : S → E → Prop}
    (keeps : ∀ s e s', Inv s → C s e → step s e = some s' → Inv s')
    (s : S) (events : List E) (initial : Inv s) (meets : Meets step C s events) :
    Always step Inv s events := by
  induction events generalizing s with
  | nil => exact initial
  | cons e events ih =>
    refine ⟨initial, ?_⟩
    unfold Meets at meets
    cases stepped : step s e with
    | none => trivial
    | some s' =>
      rw [stepped] at meets
      exact ih s' (keeps s e s' initial meets.1 stepped) meets.2

theorem meets_of_forall {C : E → Prop} (s : S) (events : List E) (all : ∀ e ∈ events, C e) :
    Meets step (fun _ e => C e) s events := by
  induction events generalizing s with
  | nil => trivial
  | cons e events ih =>
    unfold Meets
    cases step s e with
    | none => trivial
    | some s' =>
      exact ⟨all e (List.mem_cons_self ..), ih s' (fun e h => all e (List.mem_cons_of_mem _ h))⟩

/-- Along a run on which `P` holds, one condition implies another if it does so for every
step from a state with `P`. -/
theorem Meets.imp {P : S → Prop} {C D : S → E → Prop}
    (implies : ∀ s e s', P s → step s e = some s' → C s e → D s e) (s : S) (events : List E)
    (always : Always step P s events) (meets : Meets step C s events) : Meets step D s events := by
  induction events generalizing s with
  | nil => trivial
  | cons e events ih =>
    have rest := always.2
    unfold Meets at meets ⊢
    cases stepped : step s e with
    | none => trivial
    | some s' =>
      rw [stepped] at rest meets
      exact ⟨implies s e s' always.1 stepped meets.1, ih s' rest meets.2⟩

theorem meets_congr {P : S → Prop} {C D : S → E → Prop}
    (same : ∀ s e s', P s → step s e = some s' → (C s e ↔ D s e)) (s : S) (events : List E)
    (always : Always step P s events) : Meets step C s events ↔ Meets step D s events := by
  constructor
  · exact Meets.imp (fun s e s' holds stepped => (same s e s' holds stepped).mp) s events always
  · exact Meets.imp (fun s e s' holds stepped => (same s e s' holds stepped).mpr) s events always

theorem Meets.and {C D : S → E → Prop} (s : S) (events : List E) (left : Meets step C s events)
    (right : Meets step D s events) : Meets step (fun s e => C s e ∧ D s e) s events := by
  induction events generalizing s with
  | nil => trivial
  | cons e events ih =>
    unfold Meets at left right ⊢
    cases stepped : step s e with
    | none => trivial
    | some s' =>
      rw [stepped] at left right
      exact ⟨⟨left.1, right.1⟩, ih s' left.2 right.2⟩

theorem always_of_keeps {Inv : S → Prop}
    (keeps : ∀ s e s', Inv s → step s e = some s' → Inv s')
    (s : S) (events : List E) (initial : Inv s) : Always step Inv s events := by
  induction events generalizing s with
  | nil => exact initial
  | cons e events ih =>
    refine ⟨initial, ?_⟩
    cases stepped : step s e with
    | none => trivial
    | some s' => exact ih s' (keeps s e s' initial stepped)

/-- **Exact condition**: if the condition preserves an invariant that implies `P`, and a
step that does not meet it breaks `P` at once, then `P` holds along a run exactly when
every step meets the condition. -/
theorem always_iff_meets {Inv P : S → Prop} {C : S → E → Prop}
    (good : ∀ s, Inv s → P s)
    (keeps : ∀ s e s', Inv s → C s e → step s e = some s' → Inv s')
    (breaks : ∀ s e s', Inv s → ¬C s e → step s e = some s' → ¬P s')
    (s : S) (events : List E) (initial : Inv s) :
    Always step P s events ↔ Meets step C s events := by
  constructor
  · intro always
    induction events generalizing s with
    | nil => trivial
    | cons e events ih =>
      have rest := always.2
      unfold Meets
      cases stepped : step s e with
      | none => trivial
      | some s' =>
        rw [stepped] at rest
        have met : C s e := by
          by_contra unmet
          exact breaks s e s' initial unmet stepped (Always.head s' events rest)
        exact ⟨met, ih s' (keeps s e s' initial met stepped) rest⟩
  · intro meets
    exact Always.mono good s events (always_of_meets keeps s events initial meets)

end Rules

section Memory

variable {H : Type}

/-- The machine with a memory, in which each step notes something. -/
def remembering (note : S → E → H → H) (x : S × H) (e : E) : Option (S × H) :=
  (step x.1 e).map fun s' => (s', note x.1 e x.2)

variable {step}

/-- A condition on the steps of a machine gives one on the steps with a memory, if the first
keeps an invariant that implies the second. -/
theorem meets_remembering {note : S → E → H → H} {Inv : S × H → Prop} {C : S → E → Prop}
    {D : S × H → E → Prop}
    (keeps : ∀ s h e s', Inv (s, h) → C s e → step s e = some s' → Inv (s', note s e h))
    (holds : ∀ s h e s', Inv (s, h) → C s e → step s e = some s' → D (s, h) e)
    (s : S) (h : H) (events : List E) (initial : Inv (s, h)) (meets : Meets step C s events) :
    Meets (remembering step note) D (s, h) events := by
  induction events generalizing s h with
  | nil => trivial
  | cons e events ih =>
    unfold Meets at meets ⊢
    cases stepped : step s e with
    | none => simp only [remembering, stepped, Option.map_none]
    | some s' =>
      rw [stepped] at meets
      simp only [remembering, stepped, Option.map_some]
      exact ⟨holds s h e s' initial meets.1 stepped,
        ih s' _ (keeps s h e s' initial meets.1 stepped) meets.2⟩

/-- A condition on the steps is the same as one that looks at the memory, if they agree where an
invariant holds. -/
theorem meets_remembering_iff {note : S → E → H → H} {Inv : S × H → Prop} {C : S → E → Prop}
    {D : S × H → E → Prop}
    (keeps : ∀ s h e s', Inv (s, h) → step s e = some s' → Inv (s', note s e h))
    (same : ∀ s h e s', Inv (s, h) → step s e = some s' → (C s e ↔ D (s, h) e))
    (s : S) (h : H) (events : List E) (initial : Inv (s, h)) :
    Meets step C s events ↔ Meets (remembering step note) D (s, h) events := by
  induction events generalizing s h with
  | nil => exact Iff.rfl
  | cons e events ih =>
    unfold Meets
    cases stepped : step s e with
    | none => simp only [remembering, stepped, Option.map_none]
    | some s' =>
      simp only [remembering, stepped, Option.map_some]
      exact and_congr (same s h e s' initial stepped) (ih s' _ (keeps s h e s' initial stepped))

/-- An invariant of the machine with a memory, along runs whose steps meet a condition. -/
theorem always_of_meets_remembering {note : S → E → H → H} {Inv : S × H → Prop}
    {C : S × H → E → Prop}
    (keeps : ∀ s h e s', Inv (s, h) → C (s, h) e → step s e = some s' → Inv (s', note s e h))
    (s : S) (h : H) (events : List E) (initial : Inv (s, h))
    (meets : Meets (remembering step note) C (s, h) events) :
    Always (remembering step note) Inv (s, h) events := by
  refine always_of_meets (fun x e x' inv met noted => ?_) (s, h) events initial meets
  obtain ⟨s', stepped, rfl⟩ := Option.map_eq_some_iff.mp noted
  exact keeps x.1 x.2 e s' inv met stepped

/-- The same where the condition does not look at the memory. -/
theorem always_remembering {note : S → E → H → H} {Inv : S × H → Prop} {C : S → E → Prop}
    (keeps : ∀ s h e s', Inv (s, h) → C s e → step s e = some s' → Inv (s', note s e h))
    (s : S) (h : H) (events : List E) (initial : Inv (s, h)) (meets : Meets step C s events) :
    Always (remembering step note) Inv (s, h) events := by
  have noted : Meets (remembering step note) (fun x e => C x.1 e) (s, h) events :=
    meets_remembering keeps (fun _ _ _ _ _ met _ => met) s h events initial meets
  exact always_of_meets_remembering keeps s h events initial noted

/-- What holds along a run with a memory, and does not look at it, holds along the run. -/
theorem Always.forget {note : S → E → H → H} {P : S → Prop} (s : S) (h : H) (events : List E)
    (always : Always (remembering step note) (fun x => P x.1) (s, h) events) :
    Always step P s events := by
  induction events generalizing s h with
  | nil => exact always
  | cons e events ih =>
    refine ⟨always.1, ?_⟩
    have rest := always.2
    cases stepped : step s e with
    | none => trivial
    | some s' =>
      simp only [remembering, stepped, Option.map_some] at rest
      exact ih s' _ rest

end Memory

end Cox.Lib.Machine

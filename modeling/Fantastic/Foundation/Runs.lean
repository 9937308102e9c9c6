import Mathlib.Logic.Basic

/-!
# Runs of a machine

A machine takes one move after the other. What every allowed move preserves holds after every
run of allowed moves.
-/

namespace Fantastic.Runs

variable {State Move : Type*} {step : State → Move → State} {allowed : State → Move → Prop}

/-- Every move of the run is allowed where it is made. -/
def Along (step : State → Move → State) (allowed : State → Move → Prop) :
    State → List Move → Prop
  | _, [] => True
  | state, move :: rest => allowed state move ∧ Along step allowed (step state move) rest

def decideAlong (step : State → Move → State) (allowed : State → Move → Prop)
    [∀ state move, Decidable (allowed state move)] :
    (state : State) → (moves : List Move) → Decidable (Along step allowed state moves)
  | _, [] => .isTrue True.intro
  | state, move :: rest =>
    have := decideAlong step allowed (step state move) rest
    inferInstanceAs (Decidable (allowed state move ∧ Along step allowed (step state move) rest))

instance [∀ state move, Decidable (allowed state move)] (state : State) (moves : List Move) :
    Decidable (Along step allowed state moves) :=
  decideAlong step allowed state moves

theorem along_append (earlier later : List Move) : ∀ state : State,
    Along step allowed state (earlier ++ later) ↔
      Along step allowed state earlier ∧ Along step allowed (earlier.foldl step state) later := by
  induction earlier with
  | nil =>
    intro state
    simp [Along]
  | cons move moves ih =>
    intro state
    simp only [List.cons_append, Along, List.foldl_cons, ih, and_assoc]

/-- What allowed moves preserve. -/
theorem Along.invariant {holds : State → Prop}
    (preserved : ∀ state move, holds state → allowed state move → holds (step state move))
    (moves : List Move) : ∀ {state : State}, holds state → Along step allowed state moves →
      holds (moves.foldl step state) := by
  induction moves with
  | nil =>
    intro state here _
    exact here
  | cons move moves ih =>
    intro state here along
    exact ih (preserved state move here along.1) along.2

/-- What every move preserves. -/
theorem invariant {holds : State → Prop}
    (preserved : ∀ state move, holds state → holds (step state move)) (moves : List Move) :
    ∀ {state : State}, holds state → holds (moves.foldl step state) := by
  induction moves with
  | nil =>
    intro state here
    exact here
  | cons move moves ih =>
    intro state here
    exact ih (preserved state move here)

/-- Moves that are left out of a run leave no trace where they keep the two machines related. -/
theorem Along.erased {related : State → State → Prop} {kept : Move → Bool}
    (both : ∀ state other move, related state other → allowed state move → kept move = true →
      related (step state move) (step other move))
    (one : ∀ state other move, related state other → allowed state move → kept move = false →
      related (step state move) other)
    (moves : List Move) : ∀ {state other : State}, related state other →
      Along step allowed state moves →
        related (moves.foldl step state) ((moves.filter kept).foldl step other) := by
  induction moves with
  | nil =>
    intro state other here _
    exact here
  | cons move moves ih =>
    intro state other here along
    cases keep : kept move with
    | true =>
      rw [List.filter_cons_of_pos keep]
      exact ih (both state other move here along.1 keep) along.2
    | false =>
      rw [List.filter_cons_of_neg (by simp [keep])]
      exact ih (one state other move here along.1 keep) along.2

end Fantastic.Runs

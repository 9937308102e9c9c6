import Mathlib.Logic.Relation

/-!
# Relations without cycles

What keeps a relation free of cycles when it loses or gains an edge, and how a relation
with places inherits it from a relation between the places.
-/

namespace Fantastic

open Relation

variable {Node Place : Type} {relation other : Node → Node → Prop}

/-- No path leads back to where it began. -/
def Loopless (relation : Node → Node → Prop) : Prop :=
  ∀ node, ¬ TransGen relation node node

theorem Loopless.mono (loopless : Loopless relation)
    (fewer : ∀ low high, other low high → relation low high) : Loopless other := by
  intro node cycle
  exact loopless node (TransGen.mono fewer _ _ cycle)

/-- A path with one more edge allowed either does without it or can be cut at it. -/
theorem transGen_with_edge {source target low high : Node}
    (path : TransGen (fun low high => relation low high ∨ low = source ∧ high = target) low high) :
    TransGen relation low high ∨
      ReflTransGen relation low source ∧ ReflTransGen relation target high := by
  induction path with
  | single edge =>
    rcases edge with old | ⟨rfl, rfl⟩
    · exact .inl (.single old)
    · exact .inr ⟨.refl, .refl⟩
  | tail _ edge hypothesis =>
    rcases edge with old | ⟨rfl, rfl⟩
    · rcases hypothesis with path | ⟨before, after⟩
      · exact .inl (path.tail old)
      · exact .inr ⟨before, after.tail old⟩
    · rcases hypothesis with path | ⟨before, _⟩
      · exact .inr ⟨path.to_reflTransGen, .refl⟩
      · exact .inr ⟨before, .refl⟩

/-- An edge may be added where no path leads back. -/
theorem Loopless.add_edge (loopless : Loopless relation) {source target : Node}
    (apart : ¬ ReflTransGen relation target source)
    (edges : ∀ low high, other low high → relation low high ∨ low = source ∧ high = target) :
    Loopless other := by
  intro node cycle
  rcases transGen_with_edge (TransGen.mono edges _ _ cycle) with old | ⟨before, after⟩
  · exact loopless node old
  · exact apart (after.trans before)

/-- Every edge goes to another place along `roads`, or stays and goes from idle to busy. -/
theorem Loopless.of_places {roads : Place → Place → Prop} (loopless : Loopless roads)
    (place : Node → Place) (busy : Node → Prop)
    (edges : ∀ low high, relation low high →
      roads (place low) (place high) ∨ place low = place high ∧ ¬ busy low ∧ busy high) :
    Loopless relation := by
  have path : ∀ low high, TransGen relation low high →
      TransGen roads (place low) (place high) ∨
        place low = place high ∧ ¬ busy low ∧ busy high := by
    intro low high path
    induction path with
    | single edge => exact (edges _ _ edge).imp_left .single
    | tail _ edge hypothesis =>
      rcases edges _ _ edge with road | ⟨same, idle, _⟩
      · rcases hypothesis with roads | ⟨here, _⟩
        · exact .inl (roads.tail road)
        · rw [here]
          exact .inl (.single road)
      · rcases hypothesis with roads | ⟨_, _, occupied⟩
        · rw [← same]
          exact .inl roads
        · exact absurd occupied idle
  intro node cycle
  rcases path node node cycle with roads | ⟨_, idle, occupied⟩
  · exact loopless (place node) roads
  · exact idle occupied

end Fantastic

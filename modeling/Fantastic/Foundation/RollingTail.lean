import Fantastic.Foundation.TurnWindow
import Mathlib.Data.List.Infix

/-!
# The tail of a log under a cap

A store keeps the newest items of a log, with a counter of their size, and gives up the oldest
ones while the counter is above a cap.
-/

namespace Fantastic.RollingTail

open TurnWindow (weight weight_cons weight_append)

variable {Item : Type*} (size : Item → Nat) (cap : Nat)

structure Tail (Item : Type*) where
  total : Nat
  items : List Item

def Tail.empty : Tail Item where
  total := 0
  items := []

/-- Pops the oldest item while the counter is above the cap and there is one. -/
def evict (total : Nat) : List Item → Tail Item
  | [] => ⟨total, []⟩
  | item :: rest => if cap < total then evict (total - size item) rest else ⟨total, item :: rest⟩

def push (tail : Tail Item) (item : Item) : Tail Item :=
  evict size cap (tail.total + size item) (tail.items ++ [item])

/-- The counter is right and within the cap, and the items end the log. -/
structure Ends (log : List Item) (tail : Tail Item) : Prop where
  counted : tail.total = weight size tail.items
  capped : tail.total ≤ cap
  suffix : tail.items <:+ log

theorem ends_empty : Ends size cap [] (Tail.empty : Tail Item) where
  counted := rfl
  capped := Nat.zero_le cap
  suffix := List.suffix_refl []

theorem evict_ends (items : List Item) :
    ∀ total, total = weight size items → Ends size cap items (evict size cap total items) := by
  induction items with
  | nil =>
    rintro total rfl
    exact ends_empty size cap
  | cons item rest ih =>
    intro total counted
    rw [evict]
    split
    case isTrue =>
      have next := ih (total - size item) (by rw [counted, weight_cons]; omega)
      exact ⟨next.counted, next.capped, next.suffix.trans (List.suffix_cons item rest)⟩
    case isFalse fits => exact ⟨counted, Nat.le_of_not_lt fits, List.suffix_refl _⟩

theorem Ends.push {log : List Item} {tail : Tail Item} (ends : Ends size cap log tail)
    (item : Item) : Ends size cap (log ++ [item]) (push size cap tail item) := by
  have next := evict_ends size cap (tail.items ++ [item]) (tail.total + size item)
    (by rw [weight_append, ends.counted]; rfl)
  refine ⟨next.counted, next.capped, next.suffix.trans ?_⟩
  obtain ⟨older, same⟩ := ends.suffix
  exact ⟨older, by rw [← List.append_assoc, same]⟩

end Fantastic.RollingTail

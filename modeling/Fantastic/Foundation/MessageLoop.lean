import Mathlib.Logic.Basic

/-!
# Loops over messages

A loop takes one message after the other and may end on one of them for good. Where each
message either keeps it alive or ends it, whatever the state, a sequence without a harmful
message leaves it alive and a sequence with one leaves it ended.
-/

namespace Fantastic.MessageLoop

variable {State Message : Type*} {step : State → Message → State} {alive ended : State → Prop}
  {harmless : Message → Prop}

theorem foldl_alive
    (stays : ∀ state message, alive state → harmless message → alive (step state message))
    (messages : List Message) : ∀ state, alive state → (∀ message ∈ messages, harmless message) →
      alive (messages.foldl step state) := by
  induction messages with
  | nil =>
    intro state living _
    exact living
  | cons message messages ih =>
    intro state living fine
    apply ih
    · exact stays state message living (fine message List.mem_cons_self)
    · intro other later
      exact fine other (List.mem_cons_of_mem _ later)

theorem foldl_ended (final : ∀ state message, ended state → ended (step state message))
    (messages : List Message) : ∀ state, ended state → ended (messages.foldl step state) := by
  induction messages with
  | nil =>
    intro state done
    exact done
  | cons message messages ih =>
    intro state done
    exact ih _ (final state message done)

/-- After a harmful message the loop has ended. -/
theorem foldl_ended_of_harmful
    (stays : ∀ state message, alive state → harmless message → alive (step state message))
    (ends : ∀ state message, alive state → ¬ harmless message → ended (step state message))
    (final : ∀ state message, ended state → ended (step state message))
    (messages : List Message) : ∀ state, alive state →
      ¬ (∀ message ∈ messages, harmless message) → ended (messages.foldl step state) := by
  induction messages with
  | nil =>
    intro state _ harmful
    exact absurd (fun _ impossible => absurd impossible List.not_mem_nil) harmful
  | cons head messages ih =>
    intro state living harmful
    by_cases fine : harmless head
    · apply ih _ (stays state head living fine)
      intro rest
      apply harmful
      intro message listed
      cases listed with
      | head => exact fine
      | tail _ listed => exact rest message listed
    · exact foldl_ended final messages _ (ends state head living fine)

/-- What a living loop shows and an ended one does not is seen after a sequence exactly when
no message of it is harmful. -/
theorem shows_iff
    (stays : ∀ state message, alive state → harmless message → alive (step state message))
    (ends : ∀ state message, alive state → ¬ harmless message → ended (step state message))
    (final : ∀ state message, ended state → ended (step state message))
    {shows : State → Prop} (living : ∀ state, alive state → shows state)
    (done : ∀ state, ended state → ¬ shows state) (messages : List Message) (state : State)
    (start : alive state) :
    shows (messages.foldl step state) ↔ ∀ message ∈ messages, harmless message := by
  constructor
  · intro shown
    apply Classical.byContradiction
    intro harmful
    exact done _ (foldl_ended_of_harmful stays ends final messages state start harmful) shown
  · intro fine
    exact living _ (foldl_alive stays messages state start fine)

end Fantastic.MessageLoop

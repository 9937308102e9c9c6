import Fantastic.Ai.Status

/-!
# The status of a Swift backend

`safeClient`, `statusVerb` and `redactEntry` of `AIBackend.swift`, with the entries that
`sendVerb` queues. Strings and characters are Swift's: equal when they are canonically
equivalent, with their own trimming, their own cut into characters and their own letters.
-/

namespace Fantastic.Swift.Ai

open Fantastic.Ai

/-- What `safeClient` asks of `String` and `Character`. -/
structure Strings (Text Character : Type) where
  literal : String → Text
  character : Char → Character
  trimmed : Text → Text
  isEmpty : Text → Bool
  characters : Text → List Character
  joined : List Character → Text
  isLetter : Character → Bool
  isNumber : Character → Bool

variable {Text Character : Type} [DecidableEq Text] [DecidableEq Character]

def safeClient (strings : Strings Text Character) (clientId : Text) : Text :=
  let trimmed := strings.trimmed clientId
  let raw := if strings.isEmpty trimmed then strings.literal "cli" else trimmed
  let mapped := (strings.characters raw).map fun character =>
    if strings.isLetter character ∨ strings.isNumber character ∨
        character = strings.character '.' ∨ character = strings.character '_' ∨
        character = strings.character '-' then character
    else strings.character '_'
  let out := strings.joined (mapped.take 64)
  if strings.isEmpty out then strings.literal "cli" else out

/-- The client that `sendVerb` queues for what its payload says. -/
def sentBy (strings : Strings Text Character) (client : Option Text) : Text :=
  client.getD (strings.literal "cli")

def redactEntry (current : Current Text Text) (requesting : Option Text) (elapsed : Value) :
    CurrentView Text Text :=
  let isMine := (requesting.map fun client => decide (client = current.client)).getD false
  { client := some current.client
    sendId := current.sendId
    queuedAt := none
    startedAt := current.startedAt
    phase := current.phase
    elapsed := elapsed
    isMine := isMine
    text := if isMine then some current.text else none
    textSoFar := if isMine then some current.textSoFar else none
    lastTool := if isMine then current.lastTool else none }

/-- One turn of the loop over the queue. -/
def sortEntry (requesting : Option Text) (sorted : List (PendingSend Text) × Nat)
    (entry : QueueEntry Text Text) : List (PendingSend Text) × Nat :=
  match requesting with
  | some client =>
    if entry.client = client then (sorted.1 ++ [entry.pending], sorted.2)
    else (sorted.1, sorted.2 + 1)
  | none => (sorted.1, sorted.2 + 1)

def statusVerb (strings : Strings Text Character) (agentId : String)
    (queue : List (QueueEntry Text Text)) (current : Option (Current Text Text)) (elapsed : Value)
    (client : Option Text) : Snapshot Text Text :=
  let requesting := client.map (safeClient strings)
  let sorted := queue.foldl (sortEntry requesting) ([], 0)
  { source := agentId
    client := requesting
    generating := current.isSome
    current := current.map (redactEntry · requesting elapsed)
    minePending := sorted.1
    othersPending := sorted.2 }

/-- The loop splits the queue. -/
theorem foldl_sortEntry (requesting : Option Text) (queue : List (QueueEntry Text Text)) :
    ∀ sorted : List (PendingSend Text) × Nat, queue.foldl (sortEntry requesting) sorted =
      (sorted.1 ++ (queue.filter fun entry => decide (requesting = some entry.client)).map
          QueueEntry.pending,
        sorted.2 + (queue.filter fun entry => !decide (requesting = some entry.client)).length) := by
  induction queue with
  | nil =>
    intro sorted
    simp
  | cons entry queue ih =>
    intro sorted
    rw [List.foldl_cons, ih]
    cases requesting with
    | none =>
      simp only [sortEntry, List.filter_cons]
      simp
      omega
    | some client =>
      by_cases same : entry.client = client
      · simp [sortEntry, same]
      · have other : ¬ client = entry.client := fun equal => same equal.symm
        simp [sortEntry, same, other]
        omega

end Fantastic.Swift.Ai

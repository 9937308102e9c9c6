import Fantastic.Foundation.Value
import Mathlib.Data.List.Nodup

/-!
# Who sees what of a backend's sends

The queue of a backend and the send in flight, as the `status` verb reports them. A send
belongs to the chat thread that its client id names. The reply tells a client its own sends
and of the others only how many there are.
-/

namespace Fantastic.Ai

variable {Client Thread Text : Type}

structure QueueEntry (Client Text : Type) where
  client : Client
  text : Text
  sendId : String
  queuedAt : Value

/-- The send in flight. -/
structure Current (Client Text : Type) extends QueueEntry Client Text where
  startedAt : Value
  phase : String
  textSoFar : String
  lastTool : Option Value

/-- One of `mine_pending`. -/
structure PendingSend (Text : Type) where
  sendId : String
  text : Text
  queuedAt : Value

/-- `current` of a reply. What a field lacks is left out of the object. -/
structure CurrentView (Client Text : Type) where
  client : Option Client
  sendId : String
  queuedAt : Option Value
  startedAt : Value
  phase : String
  elapsed : Value
  isMine : Bool
  text : Option Text
  textSoFar : Option String
  lastTool : Option Value

structure Snapshot (Client Text : Type) where
  source : String
  client : Option Client
  generating : Bool
  current : Option (CurrentView Client Text)
  minePending : List (PendingSend Text)
  othersPending : Nat

def QueueEntry.withClient {Other : Type} (entry : QueueEntry Client Text) (client : Other) :
    QueueEntry Other Text where
  client := client
  text := entry.text
  sendId := entry.sendId
  queuedAt := entry.queuedAt

def Current.withClient {Other : Type} (current : Current Client Text) (client : Other) :
    Current Other Text where
  toQueueEntry := current.toQueueEntry.withClient client
  startedAt := current.startedAt
  phase := current.phase
  textSoFar := current.textSoFar
  lastTool := current.lastTool

def QueueEntry.pending (entry : QueueEntry Client Text) : PendingSend Text where
  sendId := entry.sendId
  text := entry.text
  queuedAt := entry.queuedAt

/-- The sends of a backend under the client ids they came with. Every send has an id of its
own. -/
structure Sends (Client Text : Type) where
  queue : List (QueueEntry Client Text)
  current : Option (Current Client Text)
  distinct : (queue.map QueueEntry.sendId).Nodup

/-- The clients of all sends. -/
def Sends.clients (sends : Sends Client Text) : List Client :=
  sends.queue.map QueueEntry.client ++ sends.current.toList.map fun current => current.client

/-- What a view says of the send's content. -/
def CurrentView.content (view : CurrentView Client Text) :
    Option Text × Option String × Option Value :=
  (view.text, view.textSoFar, view.lastTool)

/-- The reply lists the sends that are `mine` in queue order, counts the others, and has the
content of the send in flight if that is `mine`. -/
structure Private {Other : Type} (sends : Sends Client Text) (mine : Client → Bool)
    (reply : Snapshot Other Text) : Prop where
  pending : reply.minePending =
    (sends.queue.filter fun entry => mine entry.client).map QueueEntry.pending
  others : reply.othersPending = (sends.queue.filter fun entry => !mine entry.client).length
  current : reply.current.map CurrentView.content = sends.current.map fun current =>
    if mine current.client then (some current.text, some current.textSoFar, current.lastTool)
    else (none, none, none)

/-- Sends that are listed alike are the same sends. -/
theorem same_of_listed {queue : List (QueueEntry Client Text)}
    (distinct : (queue.map QueueEntry.sendId).Nodup) {shown mine : Client → Bool}
    (listed : (queue.filter fun entry => shown entry.client).map QueueEntry.pending =
      (queue.filter fun entry => mine entry.client).map QueueEntry.pending)
    {entry : QueueEntry Client Text} (member : entry ∈ queue) (seen : shown entry.client = true) :
    mine entry.client = true := by
  have here : entry.pending ∈
      (queue.filter fun entry => shown entry.client).map QueueEntry.pending :=
    List.mem_map_of_mem (List.mem_filter.mpr ⟨member, seen⟩)
  rw [listed] at here
  obtain ⟨other, among, same⟩ := List.mem_map.mp here
  obtain ⟨inside, owned⟩ := List.mem_filter.mp among
  have ids : other.sendId = entry.sendId := congrArg PendingSend.sendId same
  rw [← List.inj_on_of_nodup_map distinct inside member ids]
  exact owned

/-- A reply that follows one rule follows another exactly where the two agree on the clients. -/
theorem Private.iff_agree {Other : Type} {sends : Sends Client Text}
    {shown mine : Client → Bool} {reply : Snapshot Other Text}
    (told : Private sends shown reply) :
    Private sends mine reply ↔ ∀ client ∈ sends.clients, shown client = mine client := by
  constructor
  · intro right client member
    cases List.mem_append.mp member with
    | inl queued =>
      obtain ⟨entry, inside, rfl⟩ := List.mem_map.mp queued
      have listed := told.pending.symm.trans right.pending
      rw [Bool.eq_iff_iff]
      constructor
      · exact same_of_listed sends.distinct listed inside
      · exact same_of_listed sends.distinct listed.symm inside
    | inr flying =>
      obtain ⟨current, inside, rfl⟩ := List.mem_map.mp flying
      have content := told.current.symm.trans right.current
      rw [Option.mem_toList.mp inside, Option.map_some, Option.map_some,
        Option.some.injEq] at content
      cases one : shown current.client <;> cases two : mine current.client
      · rfl
      · simp [one, two] at content
      · simp [one, two] at content
      · rfl
  · intro same
    have queued : ∀ entry ∈ sends.queue, shown entry.client = mine entry.client := by
      intro entry member
      exact same _ (List.mem_append_left _ (List.mem_map_of_mem member))
    refine ⟨?_, ?_, ?_⟩
    · rw [told.pending, List.filter_congr queued]
    · rw [told.others, List.filter_congr fun entry member => by rw [queued entry member]]
    · rw [told.current]
      cases flying : sends.current with
      | none => rfl
      | some current =>
        have here : current.client ∈ sends.clients := by
          unfold Sends.clients
          simp [flying]
        rw [Option.map_some, Option.map_some, same _ here]

end Fantastic.Ai

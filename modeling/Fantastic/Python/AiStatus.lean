import Fantastic.Ai.Status

/-!
# The status of a Python backend

`_safe_client` and `_status_snapshot` of `ai_core/core.py`, with the entries that `_send`
queues. What counts as a letter, a digit or white space is Python's own matter.
-/

namespace Fantastic.Python.Ai

open Fantastic.Ai

/-- `str.isalnum` and the white space that `str.strip` takes off, by character. -/
structure CharTable where
  isAlnum : Char → Bool
  isSpace : Char → Bool

def defaultClientId : String := "cli"

/-- `text or default`. -/
def orElse (text default : String) : String :=
  if text = "" then default else text

/-- `str.strip`. -/
def CharTable.strip (table : CharTable) (text : String) : String :=
  String.ofList (((text.toList.dropWhile table.isSpace).reverse.dropWhile table.isSpace).reverse)

/-- `_safe_client`. -/
def safeClient (table : CharTable) (client : String) : String :=
  let trimmed := orElse (table.strip (orElse client defaultClientId)) defaultClientId
  String.ofList
    ((trimmed.toList.map fun char =>
      if table.isAlnum char ∨ char ∈ [ '.', '_', '-'] then char else '_').take 64)

theorem safeClient_ne_empty (table : CharTable) (client : String) : safeClient table client ≠ "" := by
  unfold safeClient
  intro empty
  rw [← String.toList_inj] at empty
  simp only [String.toList_ofList, String.toList_empty, List.take_eq_nil_iff,
    List.map_eq_nil_iff, String.toList_eq_nil_iff] at empty
  have nonempty (text default : String) (given : default ≠ "") :
      orElse text default ≠ "" := by
    unfold orElse
    split_ifs with none
    · exact given
    · exact none
  cases empty with
  | inl size => omega
  | inr trimmed => exact nonempty _ _ (by decide) trimmed

/-- The client that `_send` queues for what its payload says. -/
def sentBy (table : CharTable) (client : Option String) : String :=
  safeClient table (orElse (client.getD "") defaultClientId)

/-- `_redact_text`, with the members that `_status_snapshot` adds. -/
def redacted (current : Current String Value) (elapsed : Value) : CurrentView String Value where
  client := some current.client
  sendId := current.sendId
  queuedAt := some current.queuedAt
  startedAt := current.startedAt
  phase := current.phase
  elapsed := elapsed
  isMine := false
  text := none
  textSoFar := none
  lastTool := none

/-- The view for a client that names itself. -/
def viewFor (requesting : String) (current : Current String Value) (elapsed : Value) :
    CurrentView String Value :=
  let isMine := decide (current.client = requesting)
  { client := none
    sendId := current.sendId
    queuedAt := none
    startedAt := current.startedAt
    phase := current.phase
    elapsed := elapsed
    isMine := isMine
    text := if isMine then some current.text else none
    textSoFar := if isMine then some current.textSoFar else none
    lastTool := if isMine then current.lastTool else none }

/-- `_status_snapshot`; an empty client id is none. -/
def statusSnapshot (source : String) (queue : List (QueueEntry String Value))
    (current : Option (Current String Value)) (elapsed : Value) (requesting : Option String) :
    Snapshot String Value :=
  let head : Option (CurrentView String Value) → List (PendingSend Value) → Nat →
      Snapshot String Value := fun view minePending othersPending =>
    { source := source
      client := requesting
      generating := current.isSome
      current := view
      minePending := minePending
      othersPending := othersPending }
  match requesting with
  | none => head (current.map (redacted · elapsed)) [] queue.length
  | some id =>
    if id = "" then head (current.map (redacted · elapsed)) [] queue.length
    else
      head (current.map (viewFor id · elapsed))
        ((queue.filter fun entry => decide (entry.client = id)).map QueueEntry.pending)
        (queue.filter fun entry => decide (entry.client ≠ id)).length

/-- `_status`. -/
def status (table : CharTable) (source : String) (queue : List (QueueEntry String Value))
    (current : Option (Current String Value)) (elapsed : Value) (client : Option String) :
    Snapshot String Value :=
  statusSnapshot source queue current elapsed
    (client.map fun id => if id = "" then id else safeClient table id)

end Fantastic.Python.Ai

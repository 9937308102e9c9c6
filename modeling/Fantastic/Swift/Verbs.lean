import Fantastic.Foundation.NodeTables
import Fantastic.Swift.RecordCodable
import Mathlib.Data.List.Sort
import Mathlib.Logic.Function.Basic

/-!
# The tree verbs of the Swift kernel

What `create_agent`, `update_agent` and `delete_agent` of `SystemVerbs.swift` make of a payload,
and a kernel as one tree. A payload is an object; the verbs answer any other with an error.
-/

namespace Fantastic.Swift

open NodeTables

namespace Agent

/-- `updateMeta`, but for the record it returns. -/
def updateMeta (agent : Agent) (patch : Dict) : Agent :=
  { agent with metadata := agent.metadata.update patch }

def isDeleteLocked (agent : Agent) : Bool :=
  match agent.metaValue "delete_lock" with
  | some (.bool locked) => locked
  | _ => false

def childrenDir (agent : Agent) : FileUrl :=
  agent.rootPath.appendingPathComponent "agents"

/-- `childIds`, sorted. -/
def childIds (agent : Agent) : List String :=
  agent.children.keys.mergeSort fun left right => decide (left ≤ right)

def removeChild (agent : Agent) (id : String) : Agent :=
  { agent with children := agent.children.erase id }

end Agent

/-- A text member of a payload. -/
def textOf (payload : Dict) (name : String) : Option String :=
  (payload.get? name).bind asText

/-- `mintId`; the token is its six hexadecimal digits. -/
def mintId (handlerModule token : String) : String :=
  handlerModule.replace ".tools" "" ++ "_" ++ token

def chooseId (payload : Dict) (handlerModule token : String) : String :=
  match textOf payload "id" with
  | some supplied => if supplied = "" then mintId handlerModule token else supplied
  | none => mintId handlerModule token

/-- The record `createFromPayload` makes. -/
def newRecord (payload : Dict) (parentId handlerModule token : String) : AgentRecord where
  id := chooseId payload handlerModule token
  handlerModule := some handlerModule
  parentId := some parentId
  metadata := payload.filterKeys fun key =>
    key ∉ ["type", "id", "handler_module", "parent_id"]

/-- What `update_agent` merges: every field but `type` and `id`. -/
def patchOf (payload : Dict) : Dict :=
  payload.filterKeys fun key => key ∉ ["type", "id"]

namespace Kernel

/-- `newAgent`, below the directory of its parent. -/
def newAgent (kernel : Kernel) (parent : Nat) (payload : Dict) (handlerModule token : String) :
    Agent :=
  .new (newRecord payload (kernel.heap parent).id handlerModule token)
    ((kernel.heap parent).childrenDir.appendingPathComponent
      (chooseId payload handlerModule token))

/-- One message, with the digits `mintId` would draw. -/
structure Request where
  target : String
  payload : Dict
  token : String

/-- The target of `send`: `kernel` names the root. -/
def resolve (kernel : Kernel) (target : String) : Option Nat :=
  if target = "kernel" then kernel.root else kernel.agents.get? target

/-- A kernel with one agent, its root. -/
def oneRoot (workdir : Option String) (inboxBound : Nat) (record : AgentRecord)
    (rootPath : FileUrl) : Kernel :=
  { ((fresh workdir inboxBound).allocate (.new record rootPath)).register 0 with root := some 0 }

/-! ### The kernel's tables -/

/-- The part of an agent that no verb but `update_agent` changes. -/
structure AgentData where
  handlerModule : Option String
  rootPath : FileUrl
  ephemeral : Bool
  metadata : Dict

def node (agent : Agent) : Node String AgentData where
  key := agent.id
  parent := agent.parentId
  children := agent.children
  data := {
    handlerModule := agent.handlerModule
    rootPath := agent.rootPath
    ephemeral := agent.ephemeral
    metadata := agent.metadata }

def tables (kernel : Kernel) : Tables String AgentData where
  heap := fun ref => node (kernel.heap ref)
  allocated := kernel.allocated
  registry := kernel.agents
  root := kernel.root

@[simp] theorem tables_heap (kernel : Kernel) (ref : Nat) :
    kernel.tables.heap ref = node (kernel.heap ref) := rfl

@[simp] theorem tables_allocated (kernel : Kernel) :
    kernel.tables.allocated = kernel.allocated := rfl

@[simp] theorem tables_registry (kernel : Kernel) : kernel.tables.registry = kernel.agents := rfl

section OneRoot

variable {workdir : Option String} {inboxBound : Nat} {record : AgentRecord} {rootPath : FileUrl}

theorem oneRoot_heap : (oneRoot workdir inboxBound record rootPath).heap 0 =
    Agent.new record rootPath := by
  unfold oneRoot register ensureInbox
  split <;> rfl

theorem oneRoot_only {id : String} {ref : Nat}
    (found : (oneRoot workdir inboxBound record rootPath).agents.get? id = some ref) :
    id = record.id ∧ ref = 0 := by
  have registry : (oneRoot workdir inboxBound record rootPath).agents =
      OrderedDict.empty.insert record.id 0 := by
    unfold oneRoot register ensureInbox
    split <;> rfl
  rw [registry, OrderedDict.get?_insert] at found
  split at found
  case isTrue same =>
    cases found
    exact ⟨same, rfl⟩
  case isFalse => exact absurd found (by simp)

theorem oneRoot_tree (workdir : Option String) (inboxBound : Nat) (rootPath : FileUrl)
    (bare : record.parentId = none) :
    (oneRoot workdir inboxBound record rootPath).tables.Tree := by
  have allocated : (oneRoot workdir inboxBound record rootPath).allocated = 1 := by
    unfold oneRoot register ensureInbox
    split <;> rfl
  have found : (oneRoot workdir inboxBound record rootPath).agents.get? record.id = some 0 := by
    unfold oneRoot register ensureInbox
    split <;> exact OrderedDict.get?_insert_self ..
  refine ⟨⟨0, rfl, ?_, ?_⟩, ?_, ?_, ?_⟩
  · rw [tables_registry, tables_heap, oneRoot_heap]
    exact found
  · rw [tables_heap, oneRoot_heap]
    exact bare
  · intro id ref entry
    obtain ⟨rfl, rfl⟩ := oneRoot_only entry
    rw [tables_heap, oneRoot_heap, tables_allocated, allocated]
    exact ⟨rfl, Nat.one_pos⟩
  · intro id ref entry inner
    obtain ⟨_, rfl⟩ := oneRoot_only entry
    exact absurd rfl inner
  · intro upper above id ref entry child
    obtain ⟨_, rfl⟩ := oneRoot_only entry
    rw [tables_heap, oneRoot_heap] at child
    exact absurd child (by simp [node, Agent.new])

end OneRoot

end Kernel

end Fantastic.Swift

import Fantastic.Foundation.Value
import Mathlib.Logic.Function.Basic

/-!
# The Swift kernel: agents, registry, inboxes and watchers

`FantasticKernel`: `Agent.swift`, `AgentRecord.swift` and the registry half of
`Kernel.swift`. An `Agent` is an object, so it is a number into a heap of agents. A file
URL is its base followed by the components appended to it. An inbox is what lies in it,
the newest `inboxBound` values; state subscribers are left out. Texts are compared as
they are, without the canonical equivalence of Swift.
-/

namespace Fantastic.Swift

abbrev FileUrl := List String

def FileUrl.appendingPathComponent (url : FileUrl) (component : String) : FileUrl :=
  url ++ [component]

structure AgentRecord where
  id : String
  handlerModule : Option String
  parentId : Option String
  metadata : Dict

structure Agent where
  id : String
  handlerModule : Option String
  parentId : Option String
  rootPath : FileUrl
  ephemeral : Bool
  metadata : Dict
  watcherIds : List String
  children : OrderedDict String Nat

namespace Agent

/-- `Agent(id:handlerModule:parentId:meta:rootPath:)`. -/
def new (record : AgentRecord) (rootPath : FileUrl) : Agent where
  id := record.id
  handlerModule := record.handlerModule
  parentId := record.parentId
  rootPath := rootPath
  ephemeral := false
  metadata := record.metadata
  watcherIds := []
  children := .empty

def record (agent : Agent) : AgentRecord where
  id := agent.id
  handlerModule := agent.handlerModule
  parentId := agent.parentId
  metadata := agent.metadata

def metaValue (agent : Agent) (key : String) : Option Value :=
  agent.metadata.get? key

def addWatcher (agent : Agent) (id : String) : Agent :=
  { agent with watcherIds := if id ∈ agent.watcherIds then agent.watcherIds
    else id :: agent.watcherIds }

def removeWatcher (agent : Agent) (id : String) : Agent :=
  { agent with watcherIds := agent.watcherIds.filter (· ≠ id) }

def insertChild (agent : Agent) (id : String) (child : Nat) : Agent :=
  { agent with children := agent.children.insert id child }

@[simp] theorem new_id (record : AgentRecord) (rootPath : FileUrl) :
    (new record rootPath).id = record.id := rfl

@[simp] theorem new_record (record : AgentRecord) (rootPath : FileUrl) :
    (new record rootPath).record = record := rfl

@[simp] theorem insertChild_id (agent : Agent) (id : String) (child : Nat) :
    (agent.insertChild id child).id = agent.id := rfl

@[simp] theorem insertChild_record (agent : Agent) (id : String) (child : Nat) :
    (agent.insertChild id child).record = agent.record := rfl

instance : Inhabited Agent where
  default := new { id := "", handlerModule := none, parentId := none, metadata := .empty } []

end Agent

/-- `Kernel`. `workdir` is that of its storage mode, `none` in memory. -/
structure Kernel where
  workdir : Option String
  inboxBound : Nat
  heap : Nat → Agent
  allocated : Nat
  agents : OrderedDict String Nat
  inboxes : OrderedDict String (List Value)
  root : Option Nat

namespace Kernel

/-- `Kernel.init`. -/
def fresh (workdir : Option String) (inboxBound : Nat) : Kernel where
  workdir := workdir
  inboxBound := inboxBound
  heap := fun _ => default
  allocated := 0
  agents := .empty
  inboxes := .empty
  root := none

def modify (kernel : Kernel) (ref : Nat) (change : Agent → Agent) : Kernel :=
  { kernel with heap := Function.update kernel.heap ref (change (kernel.heap ref)) }

def allocate (kernel : Kernel) (agent : Agent) : Kernel :=
  { kernel with
    heap := Function.update kernel.heap kernel.allocated agent
    allocated := kernel.allocated + 1 }

def ensureInbox (kernel : Kernel) (id : String) : Kernel :=
  if kernel.inboxes.contains id then kernel
  else { kernel with inboxes := kernel.inboxes.insert id [] }

def register (kernel : Kernel) (ref : Nat) : Kernel :=
  ({ kernel with agents := kernel.agents.insert (kernel.heap ref).id ref } : Kernel).ensureInbox
    (kernel.heap ref).id

def unregister (kernel : Kernel) (id : String) : Kernel :=
  { kernel with
    agents := kernel.agents.erase id
    inboxes := kernel.inboxes.erase id }

/-- `allAgents`, as their ids. -/
def allAgents (kernel : Kernel) : List String :=
  kernel.agents.items.map fun ref => (kernel.heap ref).id

def agent (kernel : Kernel) (id : String) : Option Agent :=
  (kernel.agents.get? id).map kernel.heap

/-- `watch(src:watcher:)`. -/
def watch (kernel : Kernel) (src watcher : String) : Kernel :=
  match kernel.agents.get? src with
  | none => kernel.ensureInbox watcher
  | some ref => (kernel.modify ref fun agent => agent.addWatcher watcher).ensureInbox watcher

def unwatch (kernel : Kernel) (src watcher : String) : Kernel :=
  match kernel.agents.get? src with
  | none => kernel
  | some ref => kernel.modify ref fun agent => agent.removeWatcher watcher

/-- `deliverToInbox`: a synthetic id gets its inbox here. -/
def deliverToInbox (kernel : Kernel) (id : String) (payload : Value) : Kernel :=
  let ensured := kernel.ensureInbox id
  let held := (ensured.inboxes.get? id).getD [] ++ [payload]
  { ensured with inboxes := ensured.inboxes.insert id (held.drop (held.length - kernel.inboxBound)) }

def fanoutToWatchers (kernel : Kernel) (target : Agent) (payload : Value) : Kernel :=
  target.watcherIds.foldl (fun kernel watcher => kernel.deliverToInbox watcher payload) kernel

/-- `emit`, but for the state event. -/
def emit (kernel : Kernel) (target : String) (payload : Value) : Kernel :=
  let delivered := kernel.deliverToInbox target payload
  match delivered.agent target with
  | none => delivered
  | some agent => delivered.fanoutToWatchers agent payload

@[simp] theorem ensureInbox_agents (kernel : Kernel) (id : String) :
    (kernel.ensureInbox id).agents = kernel.agents := by
  unfold ensureInbox
  split <;> rfl

@[simp] theorem ensureInbox_heap (kernel : Kernel) (id : String) :
    (kernel.ensureInbox id).heap = kernel.heap := by
  unfold ensureInbox
  split <;> rfl

@[simp] theorem ensureInbox_allocated (kernel : Kernel) (id : String) :
    (kernel.ensureInbox id).allocated = kernel.allocated := by
  unfold ensureInbox
  split <;> rfl

end Kernel

end Fantastic.Swift

import Fantastic.Foundation.PurePath
import Fantastic.Rust.Codec
import Mathlib.Logic.Function.Basic
import Mathlib.Data.List.Sort

/-!
# The Rust kernel: agents, registry and the tree verbs

`fantastic-kernel`: `agent.rs`, the registry half of `kernel.rs`, `lifecycle.rs` and the
verbs of `send.rs` that change the tree. An `Arc<Agent>` is a number into a heap of
agents, so that an agent the registry has dropped is still there for whoever holds it,
as the root cell does. An inbox is the number of its channel; what lies in it, the
watchers and the state events are left out, since no function here reads them. So are
the bundles' own handlers: what they do to the tree they do by sending these verbs.
-/

namespace Fantastic.Rust

/-- What the kernel takes from its build: the linked bundles, and `{:?}` of a text. -/
structure Host where
  installed : String → Bool
  debug : String → String

structure Agent where
  id : String
  handlerModule : Option String
  parentId : Option String
  metadata : Dict
  children : OrderedDict String Nat
  rootPath : PurePath
  ephemeral : Bool

/-- `AgentRecord`. -/
structure AgentRecord where
  id : String
  handlerModule : Option String
  parentId : Option String
  metadata : Dict

namespace Agent

/-- `Agent::new`. -/
def new (record : AgentRecord) (rootPath : PurePath) (ephemeral : Bool) : Agent where
  id := record.id
  handlerModule := record.handlerModule
  parentId := record.parentId
  metadata := record.metadata
  children := .empty
  rootPath := rootPath
  ephemeral := ephemeral

def record (agent : Agent) : AgentRecord where
  id := agent.id
  handlerModule := agent.handlerModule
  parentId := agent.parentId
  metadata := agent.metadata

/-- `update_meta`, but for the record it returns. -/
def updateMeta (agent : Agent) (patch : Dict) : Agent :=
  { agent with metadata := agent.metadata.update patch }

def isDeleteLocked (agent : Agent) : Bool :=
  match agent.metadata.get? "delete_lock" with
  | some (.bool locked) => locked
  | _ => false

def childrenDir (agent : Agent) : PurePath :=
  agent.rootPath.join "agents"

/-- `child_ids`, sorted. -/
def childIds (agent : Agent) : List String :=
  agent.children.keys.mergeSort fun left right => decide (left ≤ right)

instance : Inhabited Agent where
  default := new { id := "", handlerModule := none, parentId := none, metadata := .empty }
    { root := "", parts := [] } false

end Agent

/-- The named fields of a record, as serde writes them: the absent ones are skipped. -/
def AgentRecord.fields (record : AgentRecord) : List (String × Value) :=
  [("id", .str record.id)] ++
    (record.handlerModule.map fun name => ("handler_module", Value.str name)).toList ++
    (record.parentId.map fun name => ("parent_id", Value.str name)).toList

/-- `serde_json::to_value(record)`: the flattened meta comes last and wins. -/
def AgentRecord.toValue (record : AgentRecord) : Value :=
  .dict ((record.fields.foldl (fun dict entry => dict.insert entry.1 entry.2)
    (OrderedDict.empty : Dict)).update record.metadata).entries

structure Kernel where
  heap : Nat → Agent
  allocated : Nat
  agents : OrderedDict String Nat
  inboxes : OrderedDict String Nat
  channels : Nat
  root : Option Nat

namespace Kernel

/-- `Kernel::new`. -/
def fresh : Kernel where
  heap := fun _ => default
  allocated := 0
  agents := .empty
  inboxes := .empty
  channels := 0
  root := none

def modify (kernel : Kernel) (ref : Nat) (change : Agent → Agent) : Kernel :=
  { kernel with heap := Function.update kernel.heap ref (change (kernel.heap ref)) }

/-- `Arc::new`: the next number. -/
def allocate (kernel : Kernel) (agent : Agent) : Kernel :=
  { kernel with
    heap := Function.update kernel.heap kernel.allocated agent
    allocated := kernel.allocated + 1 }

/-- `Kernel::register`. -/
def register (kernel : Kernel) (ref : Nat) : Kernel :=
  { kernel with
    agents := kernel.agents.insert (kernel.heap ref).id ref
    inboxes := kernel.inboxes.insert (kernel.heap ref).id kernel.channels
    channels := kernel.channels + 1 }

/-- `Kernel::unregister`. -/
def unregister (kernel : Kernel) (id : String) : Kernel :=
  { kernel with
    agents := kernel.agents.erase id
    inboxes := kernel.inboxes.erase id }

/-- What `emit` does to the kernel: an inbox that is missing is made. -/
def vivify (kernel : Kernel) (id : String) : Kernel :=
  if kernel.inboxes.contains id then kernel
  else
    { kernel with
      inboxes := kernel.inboxes.insert id kernel.channels
      channels := kernel.channels + 1 }

/-- A new agent, registered and wired into its parent's children. -/
def adopt (kernel : Kernel) (parent : Nat) (agent : Agent) : Kernel :=
  ((kernel.allocate agent).register kernel.allocated).modify parent fun above =>
    { above with children := above.children.insert agent.id kernel.allocated }

/-! ### `create_agent` -/

def errorReply (text : String) : Value :=
  .dict [("error", .str text)]

/-- `mint_id`; the token is its six hexadecimal digits. -/
def mintId (handlerModule token : String) : String :=
  let bundle :=
    if ".tools".toList <:+ handlerModule.toList then
      String.ofList (handlerModule.toList.take (handlerModule.length - 6))
    else handlerModule
  bundle ++ "_" ++ token

/-- A text member of a payload. -/
def textOf (payload : Dict) (name : String) : Option String :=
  asStr (payload.get? name)

def chooseId (payload : Dict) (handlerModule token : String) : String :=
  match textOf payload "id" with
  | some id => if id = "" then mintId handlerModule token else id
  | none => mintId handlerModule token

/-- The record `create_from_payload` makes. -/
def newRecord (payload : Dict) (parentId handlerModule token : String) : AgentRecord where
  id := chooseId payload handlerModule token
  handlerModule := some handlerModule
  parentId := some parentId
  metadata := payload.filterKeys fun key =>
    key ∉ ["type", "id", "handler_module", "parent_id"]

/-- `create_from_payload`. `unsaved` is what `persistence::persist` failed with: by then
the agent is registered. -/
def createFromPayload (host : Host) (kernel : Kernel) (parent : Nat) (payload : Dict)
    (token : String) (unsaved : Option String) : Kernel × Value :=
  match textOf payload "handler_module" with
  | none => (kernel, errorReply "create_agent requires handler_module")
  | some handlerModule =>
    let record := newRecord payload (kernel.heap parent).id handlerModule token
    if kernel.agents.contains record.id then
      (kernel, errorReply ("agent " ++ host.debug record.id ++ " already exists"))
    else
      let made := kernel.adopt parent
        (.new record ((kernel.heap parent).childrenDir.join record.id) false)
      match unsaved with
      | some failure => (made, errorReply ("persist: " ++ failure))
      | none => (made.vivify (kernel.heap parent).id, record.toValue)

/-! ### `update_agent` -/

/-- `update_from_payload`. -/
def updateFromPayload (kernel : Kernel) (caller : Nat) (payload : Dict) : Kernel × Value :=
  match textOf payload "id" with
  | none => (kernel, errorReply "update_agent requires id")
  | some id =>
    match kernel.agents.get? id with
    | none => (kernel, errorReply ("no agent " ++ id))
    | some target =>
      let patch := payload.filterKeys fun key => key ∉ ["type", "id"]
      let patched := kernel.modify target fun agent => agent.updateMeta patch
      (patched.vivify (kernel.heap caller).id, (patched.heap target).record.toValue)

/-! ### `delete_agent` -/

/-- `find_locked_descendant`: the first locked agent of a subtree. The fuel bounds the
depth of the walk. -/
def findLockedDescendant (kernel : Kernel) : Nat → Nat → Option String
  | 0, _ => none
  | fuel + 1, target =>
    let agent := kernel.heap target
    if agent.isDeleteLocked then some agent.id
    else
      agent.childIds.findSome? fun childId =>
        (kernel.agents.get? childId).bind (kernel.findLockedDescendant fuel)

/-- The end of `cascade_delete`: out of the parent's children, out of the registry. -/
def detach (kernel : Kernel) (target : Nat) : Kernel :=
  let agent := kernel.heap target
  let cut :=
    match agent.parentId.bind kernel.agents.get? with
    | none => kernel
    | some above => kernel.modify above fun upper =>
      { upper with children := upper.children.erase agent.id }
  cut.unregister agent.id

/-- `cascade_delete`: the children first, as they were listed at the start. -/
def cascadeDelete : Nat → Kernel → Nat → Kernel
  | 0, kernel, _ => kernel
  | fuel + 1, kernel, target =>
    let emptied := (kernel.heap target).childIds.foldl
      (fun current childId =>
        match current.agents.get? childId with
        | none => current
        | some child => cascadeDelete fuel current child)
      kernel
    emptied.detach target

/-- `delete_from_payload`. -/
def deleteFromPayload (host : Host) (kernel : Kernel) (caller : Nat) (payload : Dict) :
    Kernel × Value :=
  match textOf payload "id" with
  | none => (kernel, errorReply "delete_agent requires id")
  | some id =>
    match kernel.agents.get? id with
    | none => (kernel, errorReply ("no agent " ++ host.debug id))
    | some target =>
      match kernel.findLockedDescendant kernel.allocated target with
      | some blocker =>
        (kernel, .dict [("error", .str ("delete_agent: " ++ id ++
          " blocked by delete_lock on descendant " ++ blocker)),
          ("locked", .bool true), ("id", .str id), ("blocked_by", .str blocker)])
      | none =>
        ((cascadeDelete kernel.allocated kernel target).vivify (kernel.heap caller).id,
          .dict [("deleted", .bool true), ("id", .str id)])

/-! ### `send` -/

/-- One message to the kernel, with what the outside decides while it is handled. -/
structure Request where
  target : String
  payload : Dict
  token : String
  unsaved : Option String

/-- The target of `Kernel::send`: `kernel` names the root. -/
def resolve (kernel : Kernel) (target : String) : Option Nat :=
  if target = "kernel" then kernel.root else kernel.agents.get? target

/-- `Kernel::send`, for the verbs that change the tree. -/
def send (host : Host) (kernel : Kernel) (request : Request) : Kernel × Value :=
  match kernel.resolve request.target with
  | none => (kernel, errorReply ("no agent " ++ request.target))
  | some target =>
    match textOf request.payload "type" with
    | some "create_agent" =>
      createFromPayload host kernel target request.payload request.token request.unsaved
    | some "update_agent" => kernel.updateFromPayload target request.payload
    | some "delete_agent" => deleteFromPayload host kernel target request.payload
    | _ => (kernel, .null)

def step (host : Host) (kernel : Kernel) (request : Request) : Kernel :=
  (send host kernel request).1

def run (host : Host) (kernel : Kernel) (requests : List Request) : Kernel :=
  requests.foldl (step host) kernel

end Kernel

end Fantastic.Rust

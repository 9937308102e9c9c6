import Fantastic.Foundation.PurePath
import Fantastic.Python.Runtime
import Mathlib.Logic.Function.Basic

/-!
# The Python kernel: agents, registry and the tree verbs

A transcription of `kernel/_agent.py` and the registry half of `kernel/_kernel.py`.
Agents are mutable objects that point at each other, so the state is a heap of
them: `parent` and `_children` hold references (numbers, in order of creation),
`ctx.agents` and `ctx.root` do too, and an object that left the registry is still
there for whoever points at it.

The bundles' own code (the handlers of `boot`, the `on_delete` hooks) is not part
of the kernel. What such code does to the tree it does by sending these same verbs.
Inboxes and the traffic events of `_fanout` are left out: no function here reads
them. `published` is the lifecycle half of the state stream, in order.
-/

namespace Fantastic.Python

/-- `_root_path`: a path in every tree the kernel lays out itself, but
`create_agent` hands a `root_path` of its payload through unchecked. -/
inductive Address where
  | path (value : PurePath)
  | raw (value : Value)
  deriving DecidableEq

/-- The `/` operator: only a path joined with a text is a path again. -/
def Address.join : Address → Value → Except PyError Address
  | .path base, .str text => .ok (.path (base.join text))
  | _, _ => .error .typeError

structure Agent where
  id : Value
  handlerModule : Value
  parent : Option Nat
  address : Address
  children : OrderedDict DictKey Nat
  metadata : Dict
  ephemeral : Bool

instance : Inhabited Agent where
  default :=
    { id := .null
      handlerModule := .null
      parent := none
      address := .raw .null
      children := .empty
      metadata := .empty
      ephemeral := false }

inductive StateEvent where
  | added (agentId name parentId : Value)
  | updated (agentId : Value) (changed : List String)
  | removed (agentId name : Value)
  deriving DecidableEq

structure Kernel where
  heap : Nat → Agent
  allocated : Nat
  agents : OrderedDict DictKey Nat
  wellKnown : OrderedDict String Value
  childrenDir : String
  root : Option Nat
  published : List StateEvent

namespace Kernel

/-- `Kernel()`: a fresh context without a root. -/
def fresh : Kernel where
  heap := fun _ => default
  allocated := 0
  agents := .empty
  wellKnown := .empty
  childrenDir := "agents"
  root := none
  published := []

def modify (kernel : Kernel) (ref : Nat) (change : Agent → Agent) : Kernel :=
  { kernel with heap := Function.update kernel.heap ref (change (kernel.heap ref)) }

def publishState (kernel : Kernel) (event : StateEvent) : Kernel :=
  { kernel with published := kernel.published ++ [event] }

/-- `self.display_name or self.id`. -/
def displayName (agent : Agent) : Value :=
  match agent.metadata.get? "display_name" with
  | some (.str text) => if text = "" then agent.id else .str text
  | _ => agent.id

/-- The part of `Agent.record` that comes before the meta. -/
def recordFields (kernel : Kernel) (ref : Nat) : Dict :=
  let agent := kernel.heap ref
  let named : Dict := OrderedDict.empty.insert "id" agent.id
  let handled :=
    if agent.handlerModule = .null then named
    else named.insert "handler_module" agent.handlerModule
  match agent.parent with
  | none => handled
  | some above => handled.insert "parent_id" (kernel.heap above).id

/-- `Agent.record`: the flat overlay, `_meta` last. -/
def record (kernel : Kernel) (ref : Nat) : Dict :=
  (kernel.recordFields ref).update (kernel.heap ref).metadata

/-- `Kernel.register`, the `alias` wiring included. -/
def register (kernel : Kernel) (key : DictKey) (ref : Nat) : Kernel :=
  let agent := kernel.heap ref
  { kernel with
    agents := kernel.agents.insert key ref
    wellKnown :=
      match agent.metadata.get? "alias" with
      | some (.str name) =>
        if name = "" then kernel.wellKnown else kernel.wellKnown.insert name agent.id
      | _ => kernel.wellKnown }

/-- `Kernel.unregister`. -/
def unregister (kernel : Kernel) (id : Value) : Kernel :=
  match hashKey id with
  | .error _ => kernel
  | .ok key =>
    { kernel with
      agents := kernel.agents.erase key
      wellKnown := kernel.wellKnown.filterKeys fun name =>
        match kernel.wellKnown.get? name with
        | some target => !decide (hashKey target = .ok key)
        | none => true }

/-- Where `Agent.__init__` puts a new agent when no `root_path` is given. -/
def defaultAddress (kernel : Kernel) (parent : Option Nat) (id : Value) :
    Except PyError Address :=
  match parent with
  | none => .ok (.path (.ofString ".fantastic"))
  | some above => do
      let childrenDir ← (kernel.heap above).address.join (.str kernel.childrenDir)
      childrenDir.join id

/-- `Agent.__init__` past its address: allocate, register, hang under the parent
(or become the root) and publish `added`. -/
def place (kernel : Kernel) (key : DictKey) (agent : Agent) : Kernel :=
  let ref := kernel.allocated
  let built : Kernel :=
    { kernel with
      heap := Function.update kernel.heap ref agent
      allocated := ref + 1 }
  let registered := built.register key ref
  match agent.parent with
  | none => { registered with root := kernel.root.or (some ref) }
  | some above =>
    let hung := registered.modify above fun upper =>
      { upper with children := upper.children.insert key ref }
    hung.publishState (.added agent.id (displayName agent) (hung.heap above).id)

/-- `rootPath = none` is the default argument. -/
def chooseAddress (kernel : Kernel) (rootPath : Option Address) (parent : Option Nat)
    (id : Value) : Except PyError Address :=
  match rootPath with
  | some address => .ok address
  | none => kernel.defaultAddress parent id

/-- `Agent.__init__`. -/
def construct (kernel : Kernel) (id : Value) (rootPath : Option Address)
    (parent : Option Nat) (handlerModule : Value) (metadata : Dict) : Except PyError Kernel := do
  let address ← kernel.chooseAddress rootPath parent id
  let key ← hashKey id
  return kernel.place key
    { id := id
      handlerModule := handlerModule
      parent := parent
      address := address
      children := .empty
      metadata := metadata
      ephemeral := false }

/-- The parameters of `Agent.__init__`: a keyword argument of one of these names
that a call already gives is a `TypeError`. -/
def initParameters : List String :=
  ["self", "id", "root_path", "ctx", "parent", "handler_module"]

def clashes (names : List String) (keywords : Dict) : Bool :=
  names.any keywords.contains

/-- The bundle part of a minted id: `handler_module.split(".")[-2]`, or the whole. -/
def bundleName (runtime : Runtime) : Value → Except PyError String
  | .str text =>
    if '.' ∈ text.toList then
      .ok (String.ofList ((text.toList.splitOn '.').dropLast.getLast?.getD []))
    else .ok text
  | .list items =>
    if Value.str "." ∈ items then .error .attributeError else .ok (runtime.str (.list items))
  | .dict members =>
    if "." ∈ members.map Prod.fst then .error .attributeError
    else .ok (runtime.str (.dict members))
  | _ => .error .typeError

def errorReply (text : String) : Dict :=
  OrderedDict.empty.insert "error" (.str text)

/-- The id of a new agent: as given, or minted. `token` stands for
`secrets.token_hex(3)`. -/
def chooseId (runtime : Runtime) (token : String) (handlerModule : Value) :
    Value → Except PyError Value
  | .null => do
      let bundle ← bundleName runtime handlerModule
      return .str (bundle ++ "_" ++ token)
  | given => .ok given

/-- A `root_path` among the keyword arguments is the parameter of that name. -/
def rootPathArgument (metadata : Dict) : Option Address :=
  match getD metadata "root_path" with
  | .null => none
  | given => some (.raw given)

/-- `Agent.create`, down to `Agent(id=…, ctx=…, parent=self, handler_module=…, **meta)`. -/
def create (runtime : Runtime) (kernel : Kernel) (self : Nat) (token : String)
    (handlerModule id : Value) (metadata : Dict) : Except PyError (Kernel × Dict) :=
  if clashes ["self"] metadata then .error .typeError
  else do
    let id ← chooseId runtime token handlerModule id
    let key ← hashKey id
    if kernel.agents.contains key then
      return (kernel, errorReply ("agent " ++ runtime.repr id ++ " exists"))
    else if clashes ["self", "id", "ctx", "parent", "handler_module"] metadata then
      .error .typeError
    else do
      let next ← kernel.construct id (rootPathArgument metadata) (some self) handlerModule
        (metadata.erase "root_path")
      return (next, next.record kernel.allocated)

/-- `_verb_create_agent`. The `boot` message and the `agent_created` emit that
follow a success leave the tree alone. -/
def verbCreateAgent (runtime : Runtime) (kernel : Kernel) (self : Nat) (token : String)
    (payload : Dict) : Except PyError (Kernel × Dict) :=
  let handlerModule := getD payload "handler_module"
  if !truthy handlerModule then
    .ok (kernel, errorReply "create_agent: handler_module required")
  else
    kernel.create runtime self token handlerModule (getD payload "id")
      (payload.filterKeys fun key => key ∉ ["type", "handler_module", "id"])

/-- `Agent.update`. -/
def update (kernel : Kernel) (id : Value) (metadata : Dict) :
    Except PyError (Kernel × Option Nat) :=
  if clashes ["self", "agent_id"] metadata then .error .typeError
  else do
    let key ← hashKey id
    match kernel.agents.get? key with
    | none => return (kernel, none)
    | some target =>
      let patched := kernel.modify target fun agent =>
        { agent with metadata := agent.metadata.update metadata }
      return (patched.publishState (.updated id metadata.keys), some target)

/-- `_verb_update_agent`. -/
def verbUpdateAgent (runtime : Runtime) (kernel : Kernel) (payload : Dict) :
    Except PyError (Kernel × Dict) :=
  let id := getD payload "id"
  if !truthy id then .ok (kernel, errorReply "update_agent: id required")
  else do
    let (next, target) ← kernel.update id (payload.filterKeys fun key => key ∉ ["type", "id"])
    match target with
    | none => return (next, errorReply ("no agent " ++ runtime.repr id))
    | some ref =>
      return (next, ((OrderedDict.empty.insert "updated" (Value.bool true)).insert "id" id).insert
        "agent" (.dict (next.record ref).entries))

/-- `_find_locked_descendant`. References grow from parent to child, so the
number of objects is fuel enough. -/
def findLockedDescendant (kernel : Kernel) : Nat → Nat → Option Value
  | 0, _ => none
  | fuel + 1, ref =>
    let agent := kernel.heap ref
    if truthy (getD agent.metadata "delete_lock") then some agent.id
    else agent.children.items.findSome? (kernel.findLockedDescendant fuel)

/-- The tail of `_cascade_delete`, once the children are gone: unregister, leave
the parent's `_children`, publish `removed`. -/
def removeOne (kernel : Kernel) (ref : Nat) : Kernel :=
  let agent := kernel.heap ref
  let unregistered := kernel.unregister agent.id
  let detached :=
    match agent.parent, hashKey agent.id with
    | some above, .ok key =>
      unregistered.modify above fun upper => { upper with children := upper.children.erase key }
    | _, _ => unregistered
  detached.publishState (.removed agent.id (displayName agent))

/-- `_cascade_delete`, children first. Nothing runs between two children, so
`self._children[cid]` is still the reference the key snapshot saw. -/
def cascadeDelete : Nat → Kernel → Nat → Kernel
  | 0, kernel, _ => kernel
  | fuel + 1, kernel, ref =>
    ((kernel.heap ref).children.items.foldl (cascadeDelete fuel) kernel).removeOne ref

/-- `Agent.delete`. -/
def delete (runtime : Runtime) (kernel : Kernel) (id : Value) :
    Except PyError (Kernel × Dict) := do
  let key ← hashKey id
  match kernel.agents.get? key with
  | none =>
    return (kernel, (errorReply ("no agent " ++ runtime.repr id)).insert "deleted" (Value.bool false))
  | some target =>
    match kernel.findLockedDescendant kernel.allocated target with
    | some blockedBy =>
      return (kernel,
        (((OrderedDict.empty.insert "locked" (Value.bool true)).insert "blocked_by" blockedBy).insert
          "error" (.str ("delete_agent: " ++ runtime.repr id ++ " blocked by delete_lock on " ++
            runtime.repr blockedBy ++ "; clear it via update_agent before deleting"))).insert
          "id" id)
    | none =>
      return (cascadeDelete kernel.allocated kernel target,
        (OrderedDict.empty.insert "deleted" (Value.bool true)).insert "id" id)

/-- `_verb_delete_agent`. -/
def verbDeleteAgent (runtime : Runtime) (kernel : Kernel) (payload : Dict) :
    Except PyError (Kernel × Dict) :=
  let id := getD payload "id"
  if !truthy id then .ok (kernel, errorReply "delete_agent: id required")
  else kernel.delete runtime id

inductive SystemVerb where
  | createAgent
  | updateAgent
  | deleteAgent
  deriving DecidableEq

/-- `_handle_system_verb` for the three verbs that change the tree. -/
def handleSystemVerb (runtime : Runtime) (kernel : Kernel) (self : Nat) (token : String)
    (verb : SystemVerb) (payload : Dict) : Except PyError (Kernel × Dict) :=
  match verb with
  | .createAgent => kernel.verbCreateAgent runtime self token payload
  | .updateAgent => kernel.verbUpdateAgent runtime payload
  | .deleteAgent => kernel.verbDeleteAgent runtime payload

/-- `ctx.well_known.get(target_id, target_id)`. -/
def wellKnownId (kernel : Kernel) : Value → Value
  | .str text => (kernel.wellKnown.get? text).getD (.str text)
  | other => other

/-- How `send` finds its target: `kernel` is the root object whatever became of
it, any other text may be an alias, and the rest is looked up as it stands. -/
def resolveTarget (kernel : Kernel) (target : Value) : Except PyError (Option Nat) :=
  if target = .str "kernel" then .ok kernel.root
  else do
    let key ← hashKey (kernel.wellKnownId target)
    return kernel.agents.get? key

structure Request where
  target : Value
  verb : SystemVerb
  payload : Dict
  token : String

/-- `Kernel.send`, through the root's `Agent.send`. -/
def send (runtime : Runtime) (kernel : Kernel) (request : Request) :
    Except PyError (Kernel × Dict) :=
  match kernel.root with
  | none => .ok (kernel, errorReply "kernel: no root agent registered")
  | some _ => do
      match ← kernel.resolveTarget request.target with
      | none => return (kernel, errorReply ("no agent " ++ runtime.repr request.target))
      | some self =>
        kernel.handleSystemVerb runtime self request.token request.verb request.payload

/-- One request to the kernel. Every exception is raised before the first write,
so a request that raises leaves the kernel as it was. -/
def step (runtime : Runtime) (kernel : Kernel) (request : Request) : Kernel :=
  match kernel.send runtime request with
  | .ok (next, _) => next
  | .error _ => kernel

end Kernel

end Fantastic.Python

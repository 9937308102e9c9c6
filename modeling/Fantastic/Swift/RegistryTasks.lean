import Fantastic.Foundation.Runs
import Fantastic.Swift.Verbs

/-!
# The Swift registry under concurrent requests

`create_agent`, `update_agent` and `delete_agent` in the steps that the locks of `Kernel` and
`Agent` make atomic. A request is a list of jobs of which the first is next, and requests go on
in any order. What lies between the steps and leaves the registry, the root and the child maps
alone (the store, the hooks of bundles, events) is left out; what a hook sends is a request of
its own.
-/

namespace Fantastic.Swift.Registry

/-- What a request still has to do. -/
inductive Job where
  | lookup (parent : Nat) (agent : Agent)
  | register (parent : Nat) (agent : Agent)
  | insert (parent ref : Nat)
  | answer (ref : Nat)
  | find (id : String) (patch : Dict)
  | patch (target : Nat) (patch : Dict)
  | delete (id : String)
  | checkLock (ref : Nat)
  | checkChildren (ref : Nat)
  | checkChild (id : String)
  | cascade (ref : Nat)
  | visit (id : String)
  | detach (ref : Nat)
  | unhook (above ref : Nat)
  | unregister (ref : Nat)

/-- The kernel and its requests. Three more fields remember what happened: how often an id was
unregistered, in which of these lives of its id a create registered an agent, and which agents
were answered with a record. -/
structure World where
  kernel : Kernel
  tasks : Nat → List Job
  lives : String → Nat
  born : Nat → Option Nat
  answered : List Nat

inductive Move where
  | begin (index : Nat) (request : Kernel.Request)
  | go (index : Nat)

/-- `send` up to the first lock of the verb. -/
def opening (kernel : Kernel) (request : Kernel.Request) : List Job :=
  match kernel.resolve request.target with
  | none => []
  | some target =>
    match textOf request.payload "type" with
    | some "create_agent" =>
      match textOf request.payload "handler_module" with
      | none => []
      | some handlerModule =>
        [.lookup target (kernel.newAgent target request.payload handlerModule request.token)]
    | some "update_agent" =>
      match textOf request.payload "id" with
      | none => []
      | some id => [.find id (patchOf request.payload)]
    | some "delete_agent" =>
      match textOf request.payload "id" with
      | none => []
      | some id => [.delete id]
    | _ => []

namespace World

variable (world : World)

def assign (index : Nat) (jobs : List Job) : World :=
  { world with tasks := Function.update world.tasks index jobs }

/-- `register(newAgent)`. -/
def register (agent : Agent) : World :=
  { world with
    kernel := (world.kernel.allocate agent).register world.kernel.allocated
    born := Function.update world.born world.kernel.allocated (some (world.lives agent.id)) }

/-- `parent.insertChild(newAgent)`. -/
def insertChild (parent ref : Nat) : World :=
  { world with kernel := world.kernel.modify parent fun above =>
      above.insertChild (world.kernel.heap ref).id ref }

/-- `target.updateMeta(patch)`. -/
def updateMeta (target : Nat) (patch : Dict) : World :=
  { world with kernel := world.kernel.modify target fun agent => agent.updateMeta patch }

/-- `parent.removeChild(target.id)`. -/
def removeChild (above ref : Nat) : World :=
  { world with kernel := world.kernel.modify above fun upper =>
      upper.removeChild (world.kernel.heap ref).id }

/-- `unregister(target.id)`. -/
def unregister (ref : Nat) : World :=
  let id := (world.kernel.heap ref).id
  { world with
    kernel := world.kernel.unregister id
    lives := Function.update world.lives id (world.lives id + 1) }

/-- One step of a request whose next job this is, and what is left of the request. -/
def advance : Job → List Job → World × List Job
  | .lookup parent agent, rest =>
    if world.kernel.agents.contains agent.id then (world, rest)
    else (world, .register parent agent :: rest)
  | .register parent agent, rest =>
    (world.register agent, .insert parent world.kernel.allocated :: rest)
  | .insert parent ref, rest => (world.insertChild parent ref, .answer ref :: rest)
  | .answer ref, rest => ({ world with answered := ref :: world.answered }, rest)
  | .find id patch, rest =>
    match world.kernel.agents.get? id with
    | none => (world, rest)
    | some target => (world, .patch target patch :: rest)
  | .patch target patch, rest => (world.updateMeta target patch, rest)
  | .delete id, rest =>
    match world.kernel.agents.get? id with
    | none => (world, rest)
    | some target => (world, .checkLock target :: .cascade target :: rest)
  | .checkLock ref, rest =>
    if (world.kernel.heap ref).isDeleteLocked then (world, [])
    else (world, .checkChildren ref :: rest)
  | .checkChildren ref, rest =>
    (world, (world.kernel.heap ref).childIds.map .checkChild ++ rest)
  | .checkChild id, rest =>
    match world.kernel.agents.get? id with
    | none => (world, rest)
    | some child => (world, .checkLock child :: rest)
  | .cascade ref, rest =>
    (world, (world.kernel.heap ref).childIds.map .visit ++ .detach ref :: rest)
  | .visit id, rest =>
    match world.kernel.agents.get? id with
    | none => (world, rest)
    | some child => (world, .cascade child :: rest)
  | .detach ref, rest =>
    match (world.kernel.heap ref).parentId.bind world.kernel.agents.get? with
    | none => (world, .unregister ref :: rest)
    | some above => (world, .unhook above ref :: rest)
  | .unhook above ref, rest => (world.removeChild above ref, .unregister ref :: rest)
  | .unregister ref, rest => (world.unregister ref, rest)

/-- An index whose request is not done cannot begin another one. -/
def step : Move → World
  | .begin index request =>
    if (world.tasks index) = [] then world.assign index (opening world.kernel request)
    else world
  | .go index =>
    match world.tasks index with
    | [] => world
    | job :: rest =>
      let (after, jobs) := world.advance job rest
      after.assign index jobs

/-- No request is in progress. -/
def Quiet : Prop :=
  ∀ index, world.tasks index = []

end World

def start (kernel : Kernel) : World where
  kernel := kernel
  tasks := fun _ => []
  lives := fun _ => 0
  born := fun _ => none
  answered := []

/-! ### What the registry is to be -/

/-- The root is registered, every other registered agent is in the child map of its registered
parent, and what a registered agent lists is registered under that id. -/
structure Sound (kernel : Kernel) : Prop where
  rooted : ∃ root, kernel.root = some root ∧
    kernel.agents.get? (kernel.heap root).id = some root
  hung : ∀ id ref, kernel.agents.get? id = some ref → kernel.root ≠ some ref →
    ∃ upper above, (kernel.heap ref).parentId = some upper ∧
      kernel.agents.get? upper = some above ∧ (kernel.heap above).children.get? id = some ref
  listed : ∀ upper above, kernel.agents.get? upper = some above → ∀ id ref,
    (kernel.heap above).children.get? id = some ref → kernel.agents.get? id = some ref

/-- Of the creates that registered an agent under an id in one of its lives, one at most is
answered with a record. -/
def Once (world : World) : Prop :=
  ∀ first ∈ world.answered, ∀ second ∈ world.answered,
    (world.kernel.heap first).id = (world.kernel.heap second).id →
      world.born first = world.born second → first = second

/-! ### The condition -/

/-- Where the steps of two requests must not cross: an id is registered while it is free and its
parent is registered; a child is listed while it is registered; and what is taken out of a child
map and out of the registry is the agent that is being deleted, which is not the root and has
nothing below it any more. -/
def Careful (world : World) : Move → Prop
  | .begin _ _ => True
  | .go index =>
    let kernel := world.kernel
    match world.tasks index with
    | .register parent agent :: _ =>
      kernel.agents.get? agent.id = none ∧
        kernel.agents.get? (kernel.heap parent).id = some parent
    | .insert _ ref :: _ => kernel.agents.get? (kernel.heap ref).id = some ref
    | .unhook above ref :: _ =>
      ∀ other, (kernel.heap above).children.get? (kernel.heap ref).id = some other → other = ref
    | .unregister ref :: _ =>
      ∀ other, kernel.agents.get? (kernel.heap ref).id = some other →
        other = ref ∧ kernel.root ≠ some ref ∧ ∀ id child, kernel.agents.get? id = some child →
          (kernel.heap child).parentId ≠ some (kernel.heap ref).id ∧
            (kernel.heap child).children.get? (kernel.heap ref).id = none
    | _ => True

end Fantastic.Swift.Registry

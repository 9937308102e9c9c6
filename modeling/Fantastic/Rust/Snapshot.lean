import Fantastic.Foundation.ParentForest
import Fantastic.Rust.KernelTree

/-!
# Snapshots of the Rust kernel

`Kernel::save` and `Kernel::load`. `load` validates the flat list, drops the old tree and
then goes over the records in passes: a record is built once its parent is, skipped when
its bundle is not linked in or its parent was skipped, and otherwise put off to the next
pass. The passes end when one of them puts everything off.
-/

namespace Fantastic.Rust

structure KernelState where
  version : UInt32
  agents : List AgentRecord

def currentVersion : UInt32 := 1

namespace Kernel

/-- `Kernel::save`. -/
def save (kernel : Kernel) : KernelState where
  version := currentVersion
  agents := ((kernel.agents.items.filter fun ref => !(kernel.heap ref).ephemeral).map
    fun ref => (kernel.heap ref).record).mergeSort fun left right => decide (left.id ≤ right.id)

/-! ### Validation -/

/-- The first loop: the ids seen so far and the number of roots. -/
def scan (host : Host) :
    List String → Nat → List AgentRecord → Except String (List String × Nat)
  | seen, roots, [] => .ok (seen, roots)
  | seen, roots, record :: records =>
    if record.id ∈ seen then
      .error ("duplicate agent id " ++ host.debug record.id ++ " in snapshot")
    else
      scan host (record.id :: seen) (if record.parentId = none then roots + 1 else roots) records

/-- The second loop: a named parent is among the ids. -/
def checkParents (host : Host) (seen : List String) : List AgentRecord → Except String Unit
  | [] => .ok ()
  | record :: records =>
    match record.parentId with
    | none => checkParents host seen records
    | some parentId =>
      if parentId ∈ seen then checkParents host seen records
      else .error ("agent " ++ host.debug record.id ++ " parent " ++ host.debug parentId ++
        " not in snapshot")

def validate (host : Host) (state : KernelState) : Except String Unit := do
  if state.version > currentVersion then
    throw ("snapshot version " ++ toString state.version.toNat ++
      " exceeds this kernel's max (" ++ toString currentVersion.toNat ++ ")")
  let (seen, roots) ← scan host [] 0 state.agents
  if roots = 0 then throw "snapshot has no root (no record with parent_id == null)"
  if roots > 1 then
    throw ("snapshot has " ++ toString roots ++ " roots; expected exactly one")
  checkParents host seen state.agents

/-! ### Rebuilding -/

/-- What the passes of `load` work on: the kernel, `by_id` and `skip_ids`. -/
structure Loading where
  kernel : Kernel
  byId : OrderedDict String Nat
  skipIds : List String

namespace Loading

def skip (loading : Loading) (record : AgentRecord) : Loading :=
  { loading with skipIds := record.id :: loading.skipIds }

/-- A record becomes an agent: registered, and wired to its parent or as the root. -/
def build (loading : Loading) (record : AgentRecord) (rootPath : PurePath) : Loading :=
  let ref := loading.kernel.allocated
  let agent := Agent.new record rootPath false
  { loading with
    kernel :=
      match record.parentId.bind loading.byId.get? with
      | some above => loading.kernel.adopt above agent
      | none => { (loading.kernel.allocate agent).register ref with root := some ref }
    byId := loading.byId.insert record.id ref }

/-- The on-disk place of a rebuilt agent; in memory it is empty and never read. -/
def rootPathOf (loading : Loading) (workdir : Option PurePath) (record : AgentRecord) : PurePath :=
  match workdir, record.parentId with
  | none, _ => { root := "", parts := [] }
  | some dir, none => dir.join ".fantastic"
  | some _, some parentId =>
    (loading.kernel.heap ((loading.byId.get? parentId).getD 0)).childrenDir.join record.id

/-- A record whose bundle is linked in, or that needs none. -/
def installed (host : Host) (record : AgentRecord) : Bool :=
  match record.handlerModule with
  | none => true
  | some handlerModule => host.installed handlerModule

def loadHere (host : Host) (workdir : Option PurePath) (loading : Loading)
    (record : AgentRecord) : Loading :=
  if installed host record then loading.build record (loading.rootPathOf workdir record)
  else loading.skip record

/-- One record of one pass; `none` puts it off. -/
def loadOne (host : Host) (workdir : Option PurePath) (loading : Loading)
    (record : AgentRecord) : Option Loading :=
  match record.parentId with
  | none => some (loading.loadHere host workdir record)
  | some parentId =>
    if parentId ∈ loading.skipIds then some (loading.skip record)
    else if loading.byId.contains parentId then some (loading.loadHere host workdir record)
    else none

/-- One pass: what it leaves pending, and whether it made progress. -/
def loadPass (host : Host) (workdir : Option PurePath) :
    Loading → List AgentRecord → Loading × List AgentRecord × Bool
  | loading, [] => (loading, [], false)
  | loading, record :: rest =>
    match loadOne host workdir loading record with
    | none =>
      let (after, next, progress) := loadPass host workdir loading rest
      (after, record :: next, progress)
    | some placed =>
      let (after, next, _) := loadPass host workdir placed rest
      (after, next, true)

/-- The passes. Each that makes progress shortens the list, so its length is fuel. -/
def loadLoop (host : Host) (workdir : Option PurePath) :
    Nat → Loading → List AgentRecord → Loading × List AgentRecord
  | 0, loading, pending => (loading, pending)
  | fuel + 1, loading, pending =>
    if pending.isEmpty then (loading, pending)
    else
      let (after, next, progress) := loadPass host workdir loading pending
      if progress then loadLoop host workdir fuel after next else (after, next)

end Loading

/-- The old tree is dropped. -/
def cleared (kernel : Kernel) : Kernel :=
  { kernel with
    agents := .empty
    inboxes := .empty
    root := none }

/-- `Kernel::load`: the kernel it leaves, and the error it returned. -/
def load (host : Host) (workdir : Option PurePath) (kernel : Kernel) (state : KernelState) :
    Kernel × Option String :=
  match validate host state with
  | .error failure => (kernel, some failure)
  | .ok () =>
    let (after, pending) := Loading.loadLoop host workdir state.agents.length
      { kernel := kernel.cleared, byId := .empty, skipIds := [] } state.agents
    if pending.isEmpty then (after.kernel, none)
    else
      (after.kernel, some ("could not resolve " ++ toString pending.length ++
        " agents during load (cycle?)"))

end Kernel

end Fantastic.Rust

import Fantastic.Foundation.ParentForest
import Fantastic.Swift.Kernel

/-!
# Loading a snapshot into the Swift kernel

`Kernel.load` of `KernelState.swift`. The checks come first, and what passes them wipes
the registry. The agents are then built downwards from the first record without a parent,
and the child maps are filled in a last pass over all records. The recursion of
`construct` has no bound in the source; here it has fuel, and `none` is a recursion that
did not end within it.
-/

namespace Fantastic.Swift

open ParentForest (childrenOf)

structure KernelState where
  version : UInt32
  agents : List AgentRecord

def currentVersion : UInt32 := 1

inductive KernelError where
  | invalidSnapshot (text : String)
  deriving DecidableEq

namespace Kernel

/-- The duplicate check: the ids, or the first that comes again. -/
def checkDuplicates : List String → List AgentRecord → Except KernelError (List String)
  | seen, [] => .ok seen
  | seen, record :: records =>
    if record.id ∈ seen then .error (.invalidSnapshot ("duplicate id " ++ record.id))
    else checkDuplicates (record.id :: seen) records

/-- The loop that counts roots and looks every other parent up. -/
def countRoots (seen : List String) : Nat → List AgentRecord → Except KernelError Nat
  | roots, [] => .ok roots
  | roots, record :: records =>
    match record.parentId with
    | none => countRoots seen (roots + 1) records
    | some parentId =>
      if parentId ∈ seen then countRoots seen roots records
      else .error (.invalidSnapshot
        ("dangling parent_id " ++ parentId ++ " on agent " ++ record.id))

/-- Everything `load` checks. -/
def validate (state : KernelState) : Except KernelError Unit := do
  if state.version > currentVersion then
    throw (.invalidSnapshot ("version " ++ toString state.version.toNat ++ " > supported " ++
      toString currentVersion.toNat))
  let seen ← checkDuplicates [] state.agents
  let roots ← countRoots seen 0 state.agents
  if roots = 0 then throw (.invalidSnapshot "no root agent (parent_id=null)")

def wipe (kernel : Kernel) : Kernel :=
  kernel.allAgents.foldl unregister kernel

/-- What `construct` works on: the kernel and the local `registry`. -/
structure Loading where
  kernel : Kernel
  registry : OrderedDict String Nat

namespace Loading

/-- One record becomes an agent in both registries. -/
def place (loading : Loading) (record : AgentRecord) (rootPath : FileUrl) : Loading where
  kernel := (loading.kernel.allocate (Agent.new record rootPath)).register loading.kernel.allocated
  registry := loading.registry.insert record.id loading.kernel.allocated

/-- Below the parent's `agents`, or the base for the root. -/
def rootPathOf (baseRoot : FileUrl) (record : AgentRecord) : Option FileUrl → FileUrl
  | some above => (above.appendingPathComponent "agents").appendingPathComponent record.id
  | none => baseRoot

/-- `construct`. -/
def construct (records : List AgentRecord) (baseRoot : FileUrl) :
    Nat → AgentRecord → Option FileUrl → Loading → Option Loading
  | 0, _, _, _ => none
  | fuel + 1, record, parentRootPath, loading =>
    let rootPath := rootPathOf baseRoot record parentRootPath
    (childrenOf records AgentRecord.parentId record.id).foldlM
      (fun loading child => construct records baseRoot fuel child (some rootPath) loading)
      (loading.place record rootPath)

/-- The last pass for one record. -/
def wire (loading : Loading) (record : AgentRecord) : Loading :=
  match record.parentId.bind loading.registry.get?, loading.registry.get? record.id with
  | some parent, some child =>
    { loading with kernel := loading.kernel.modify parent fun agent =>
        agent.insertChild (loading.kernel.heap child).id child }
  | _, _ => loading

def setRoot (loading : Loading) (record : AgentRecord) : Loading :=
  match loading.registry.get? record.id with
  | none => loading
  | some ref => { loading with kernel := { loading.kernel with root := some ref } }

end Loading

def baseRoot (kernel : Kernel) : FileUrl :=
  match kernel.workdir with
  | some workdir => FileUrl.appendingPathComponent [workdir] ".fantastic"
  | none => [""]

/-- `load`: the kernel it leaves and what it threw; `none` if it does not return. -/
def load (kernel : Kernel) (state : KernelState) : Option (Kernel × Option KernelError) :=
  match validate state with
  | .error failure => some (kernel, some failure)
  | .ok () =>
    let wiped : Loading := { kernel := kernel.wipe, registry := .empty }
    match state.agents.find? fun record => record.parentId.isNone with
    | none => some (wiped.kernel, none)
    | some root => do
        let built ← Loading.construct state.agents kernel.baseRoot state.agents.length root none
          wiped
        return ((state.agents.foldl Loading.wire (built.setRoot root)).kernel, none)

end Kernel

end Fantastic.Swift

import Fantastic.Rust.KernelTree

/-!
# Boot from disk

`bootstrap.rs` and `persistence::load_children`. A `.fantastic` directory is a tree of
folders; what matters of a folder is its name, what its `agent.json` parsed to, and its
`agents` directory. A directory is listed as the loader goes through it, sorted by name.
Failures of the file system other than a plain file in the place of `agents` are left
out.
-/

namespace Fantastic.Rust

open PurePath (Segment)

/-- `agent.json` of one folder: not there, a text serde refuses and why, or the record it
holds. -/
inductive AgentFile where
  | missing
  | broken (reason : String)
  | record (record : AgentRecord)

/-- A folder. `blocked` says that `agents` is there and is no directory. -/
inductive Folder where
  | mk (name : Segment) (file : AgentFile) (blocked : Bool) (folders : List Folder)

namespace Folder

def name : Folder → Segment
  | .mk name _ _ _ => name

mutual

/-- The names in one directory are different. -/
def WellNamed : Folder → Prop
  | .mk _ _ _ folders => (namesOf folders).Nodup ∧ AllWellNamed folders

def AllWellNamed : List Folder → Prop
  | [] => True
  | folder :: folders => WellNamed folder ∧ AllWellNamed folders

def namesOf : List Folder → List Segment
  | [] => []
  | folder :: folders => name folder :: namesOf folders

end

end Folder

/-- The `.fantastic` directory. -/
structure Store where
  file : AgentFile
  blocked : Bool
  folders : List Folder
  distinct : (Folder.namesOf folders).Nodup
  wellNamed : Folder.AllWellNamed folders

namespace Kernel

/-- A record whose bundle is not linked in is skipped. -/
def loads (host : Host) (record : AgentRecord) : Bool :=
  match record.handlerModule with
  | none => true
  | some handlerModule => host.installed handlerModule

/-- `KernelError::Persistence` of a directory that cannot be listed. -/
def unlistable (path : PurePath) : String :=
  "persistence at " ++ path.text ++ ": Not a directory (os error 20)"

mutual

/-- `load_children` of a parent whose `agents` directory can be listed: the kernel and
the ids that were loaded. -/
def loadChildren (host : Host) (kernel : Kernel) (parent : Nat) :
    List Folder → Except String (Kernel × List String)
  | [] => .ok (kernel, [])
  | folder :: folders => do
      let (kernel, loaded) ← loadEntry host kernel parent folder
      let (kernel, more) ← loadChildren host kernel parent folders
      return (kernel, loaded ++ more)

/-- One entry of the loop of `load_children`. -/
def loadEntry (host : Host) (kernel : Kernel) (parent : Nat) :
    Folder → Except String (Kernel × List String)
  | .mk name file blocked folders =>
    match file with
    | .missing | .broken _ => .ok (kernel, [])
    | .record record =>
      if loads host record then
        let path := (kernel.heap parent).childrenDir.join name.val
        let made := kernel.adopt parent (.new record path false)
        if blocked then .error (unlistable (path.join "agents"))
        else do
          let (kernel, below) ← loadChildren host made kernel.allocated folders
          return (kernel, record.id :: below)
      else .ok (kernel, [])

end

/-- The record of the root. `boot_disk` gives up on one that does not parse; a virgin
directory gets a fresh one, and no root has a parent. -/
def rootRecord (rootId : String) (path : PurePath) : AgentFile → Except String AgentRecord
  | .missing =>
    .ok { id := rootId, handlerModule := none, parentId := none, metadata := .empty }
  | .broken reason =>
    .error ("corrupt agent.json at " ++ (path.join "agent.json").text ++ ": " ++ reason)
  | .record record => .ok { record with parentId := none }

/-- A root registered in an empty kernel. -/
def rootOnly (record : AgentRecord) (path : PurePath) : Kernel :=
  { (fresh.allocate (.new record path false)).register 0 with root := some 0 }

/-- `boot_disk`, past the lock. -/
def bootDisk (host : Host) (rootId : String) (workdir : PurePath) (store : Store) :
    Except String Kernel := do
  let path := workdir.join ".fantastic"
  let record ← rootRecord rootId path store.file
  if store.blocked then throw (unlistable (path.join "agents"))
  let (kernel, _) ← loadChildren host (rootOnly record path) 0 store.folders
  return kernel

/-- `boot_in_memory`. -/
def bootInMemory (rootId : String) : Kernel :=
  rootOnly { id := rootId, handlerModule := none, parentId := none, metadata := .empty }
    { root := "", parts := [] }

end Kernel

/-! ### The directories a boot goes through -/

/-- One directory on the way: its place below the root's directory, its record, and the
agent of the directory around it. -/
structure Visit where
  trail : List Segment
  record : AgentRecord
  above : Option Nat

namespace Folder

mutual

/-- The directories that are reached through records that load, in order. `next` is the
reference of the first of them, `above` that of the enclosing directory's agent. -/
def visits (host : Host) (next above : Nat) (trail : List Segment) : List Folder → List Visit
  | [] => []
  | folder :: folders =>
    let here := entryVisits host next above trail folder
    here ++ visits host (next + here.length) above trail folders

def entryVisits (host : Host) (next above : Nat) (trail : List Segment) : Folder → List Visit
  | .mk name file _ folders =>
    match file with
    | .missing | .broken _ => []
    | .record record =>
      if Kernel.loads host record then
        { trail := trail ++ [name], record := record, above := some above } ::
          visits host (next + 1) next (trail ++ [name]) folders
      else []

end

mutual

/-- No reached directory has a plain file in the place of `agents`. -/
def unblocked (host : Host) : List Folder → Bool
  | [] => true
  | folder :: folders => entryUnblocked host folder && unblocked host folders

def entryUnblocked (host : Host) : Folder → Bool
  | .mk _ file blocked folders =>
    match file with
    | .missing | .broken _ => true
    | .record record =>
      if Kernel.loads host record then !blocked && unblocked host folders else true

end

end Folder

/-- Every directory of a store that a boot reaches, the root's first. None is reached when
the root's record does not parse. -/
def Store.directories (host : Host) (rootId : String) (store : Store) : List Visit :=
  match Kernel.rootRecord rootId { root := "", parts := [] } store.file with
  | .error _ => []
  | .ok record =>
    { trail := [], record := record, above := none } :: Folder.visits host 1 0 [] store.folders

/-- The path of a directory. -/
def folderPath (base : PurePath) (trail : List Segment) : PurePath :=
  trail.foldl (fun path name => (path.join "agents").join name.val) base

namespace Kernel

/-- The agent registered under a key is that of a directory. -/
def Owns (kernel : Kernel) (base : PurePath) (key : String) (visit : Visit) : Prop :=
  ∃ ref, kernel.agents.get? key = some ref ∧
    (kernel.heap ref).rootPath = folderPath base visit.trail

/-- The registry mirrors the directories: each has exactly one agent, whose parent is the
agent of the enclosing directory, and no agent stands for two. -/
structure Mirrors (kernel : Kernel) (base : PurePath) (directories : List Visit) : Prop where
  each : ∀ visit ∈ directories, ∃ key, kernel.Owns base key visit ∧
    ∀ other, kernel.Owns base other visit → other = key
  parent : ∀ visit ∈ directories, ∀ above, visit.above = some above →
    ∀ upper, directories[above]? = some upper → ∀ key ref, kernel.agents.get? key = some ref →
      kernel.Owns base key visit →
      ∃ upperKey upperRef, kernel.agents.get? upperKey = some upperRef ∧
        kernel.Owns base upperKey upper ∧ (kernel.heap ref).parentId = some upperKey ∧
        (kernel.heap upperRef).children.get? key = some ref
  apart : ∀ first ∈ directories, ∀ second ∈ directories, ∀ key, kernel.Owns base key first →
    kernel.Owns base key second → first.trail = second.trail
  only : ∀ key ref, kernel.agents.get? key = some ref →
    ∃ visit ∈ directories, kernel.Owns base key visit

end Kernel

end Fantastic.Rust

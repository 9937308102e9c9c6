import Fantastic.Foundation.ParentForest
import Fantastic.Python.Kernel
import Mathlib.Data.List.Sort

/-!
# Snapshots of the tree

`Kernel.save`, `Kernel.load` and `validate_records`. A snapshot is flat: `parent_id`
is all the structure it has, and `load` splits each record back into the fields of
an agent by key name. `load` recurses over the tree, so its fuel is the number of
records; the interpreter's recursion limit is not part of the model.
-/

namespace Fantastic.Python

open Fantastic.ParentForest (childrenOf)

structure KernelState where
  version : Int
  records : List Dict

def currentVersion : Int := 1

namespace Kernel

/-- Whether `left < right` is defined between two ids of a sort. -/
def comparable : Value → Value → Bool
  | .str _, .str _ => true
  | .bytes _, .bytes _ => true
  | .bool _, .bool _ | .bool _, .int _ | .bool _, .float _ => true
  | .int _, .bool _ | .int _, .int _ | .int _, .float _ => true
  | .float _, .bool _ | .float _, .int _ | .float _, .float _ => true
  | _, _ => false

/-- The order of ids where it is defined; numbers compare by value. -/
def idLe (left right : Value) : Bool :=
  match hashKey left, hashKey right with
  | .ok (.str first), .ok (.str second) => decide (first ≤ second)
  | .ok (.bytes first), .ok (.bytes second) => decide (first ≤ second)
  | .ok (.num first), .ok (.num second) => decide (first ≤ second)
  | _, _ => true

def recordLe (left right : Dict) : Prop :=
  idLe (getD left "id") (getD right "id") = true

instance : DecidableRel recordLe := fun left right =>
  inferInstanceAs (Decidable (idLe (getD left "id") (getD right "id") = true))

/-- The records of `save` before the sort. -/
def savedRecords (kernel : Kernel) : List Dict :=
  (kernel.agents.items.filter fun ref => !(kernel.heap ref).ephemeral).map kernel.record

/-- `Kernel.save`. -/
def save (kernel : Kernel) : Except PyError KernelState :=
  let records := kernel.savedRecords
  if records.Pairwise fun left right => comparable (getD left "id") (getD right "id") = true then
    .ok { version := currentVersion, records := records.insertionSort recordLe }
  else .error .typeError

end Kernel

/-- The first loop of `validate_records`: the ids seen and the roots found so far. -/
def scanRecord (runtime : Runtime) (seen : List DictKey × List Value) (record : Dict) :
    Except PyError (List DictKey × List Value) := do
  let id := getD record "id"
  if !truthy id then throw (.snapshotError "snapshot record missing id")
  let key ← hashKey id
  if key ∈ seen.1 then
    throw (.snapshotError ("duplicate agent id " ++ runtime.repr id ++ " in snapshot"))
  return (seen.1 ++ [key],
    if getD record "parent_id" = .null then seen.2 ++ [id] else seen.2)

/-- The second loop: a named parent has to be among the ids. -/
def checkParent (runtime : Runtime) (ids : List DictKey) (record : Dict) : Except PyError Unit :=
  match getD record "parent_id" with
  | .null => .ok ()
  | parentId => do
      let key ← hashKey parentId
      if key ∈ ids then return ()
      throw (.snapshotError ("agent " ++ runtime.repr (getD record "id") ++ " parent " ++
        runtime.repr parentId ++ " not in snapshot"))

/-- `validate_records`: the id of the single root. -/
def validateRecords (runtime : Runtime) (records : List Dict) (version : Int) :
    Except PyError Value := do
  if version > currentVersion then
    throw (.snapshotError ("snapshot version " ++ toString version ++
      " exceeds this kernel's max (" ++ toString currentVersion ++ ")"))
  let (ids, roots) ← records.foldlM (scanRecord runtime) ([], [])
  match roots with
  | [] => throw (.snapshotError "snapshot has no root (no record with parent_id == null)")
  | [rootId] =>
    records.forM (checkParent runtime ids)
    return rootId
  | _ =>
    throw (.snapshotError ("snapshot has " ++ toString roots.length ++
      " roots; expected exactly one"))

/-- The key a record is filed under, and the one its `children` list is filed under. -/
def recordKey (record : Dict) : Except PyError DictKey :=
  hashKey (getD record "id")

def recordParent (record : Dict) : Option (Except PyError DictKey) :=
  match getD record "parent_id" with
  | .null => none
  | parentId => some (hashKey parentId)

/-- The meta part of a record, as `load` splits it. -/
def recordMeta (record : Dict) : Dict :=
  record.filterKeys fun key => key ∉ ["id", "handler_module", "parent_id"]

namespace Kernel

/-- The inner `build` of `load`: one agent, then its children. A record whose module
does not import is skipped with its subtree. -/
def build (runtime : Runtime) (records : List Dict) (rootPath : Option Address) :
    Nat → Option Nat → Kernel → Dict → Except PyError Kernel
  | 0, _, kernel, _ => .ok kernel
  | fuel + 1, parent, kernel, record =>
    let handlerModule := getD record "handler_module"
    if truthy handlerModule && !runtime.importable handlerModule then .ok kernel
    else do
      if clashes initParameters (recordMeta record) then throw .typeError
      let placed ← kernel.construct (getD record "id") (if parent.isNone then rootPath else none)
        parent handlerModule (recordMeta record)
      (childrenOf records recordParent (recordKey record)).foldlM
        (build runtime records rootPath fuel (some kernel.allocated)) placed

/-- `cd if isinstance(cd, str) and cd else "agents"`. -/
def childrenDirOf (record : Dict) : String :=
  match getD record "children_dir" with
  | .str name => if name = "" then "agents" else name
  | _ => "agents"

/-- The tree is dropped before the rebuild; `well_known` is not. -/
def cleared (kernel : Kernel) (childrenDir : String) : Kernel :=
  { kernel with
    childrenDir := childrenDir
    agents := .empty
    root := none }

/-- `Kernel.load`. -/
def load (runtime : Runtime) (kernel : Kernel) (snapshot : KernelState)
    (rootPath : Option PurePath) : Except PyError Kernel := do
  let records := snapshot.records
  let _ ← validateRecords runtime records snapshot.version
  match records.reverse.find? fun record => decide (getD record "parent_id" = .null) with
  | none => return kernel.cleared kernel.childrenDir
  | some rootRecord =>
    build runtime records (rootPath.map .path) records.length none
      (kernel.cleared (childrenDirOf rootRecord)) rootRecord

/-- What a round trip has to preserve of one agent: its id, its parent's id, its
handler module and its meta. -/
structure AgentView where
  id : Value
  parentId : Option Value
  handlerModule : Value
  metadata : Dict

def view (kernel : Kernel) (ref : Nat) : AgentView where
  id := (kernel.heap ref).id
  parentId := (kernel.heap ref).parent.map fun above => (kernel.heap above).id
  handlerModule := (kernel.heap ref).handlerModule
  metadata := (kernel.heap ref).metadata

/-- The registered agent of a key, seen from outside. -/
def viewOf (kernel : Kernel) (key : DictKey) : Option AgentView :=
  (kernel.agents.get? key).map kernel.view

def SameTree (left right : Kernel) : Prop :=
  ∀ key, left.viewOf key = right.viewOf key

/-- Saving succeeds, the snapshot validates, and loading it into any kernel at any
place rebuilds the same tree. -/
def RoundTrips (runtime : Runtime) (kernel : Kernel) : Prop :=
  ∃ snapshot, kernel.save = .ok snapshot ∧
    (∃ rootId, validateRecords runtime snapshot.records snapshot.version = .ok rootId) ∧
    ∀ (host : Kernel) (rootPath : Option PurePath),
      ∃ rebuilt, host.load runtime snapshot rootPath = .ok rebuilt ∧ SameTree kernel rebuilt

end Kernel

end Fantastic.Python

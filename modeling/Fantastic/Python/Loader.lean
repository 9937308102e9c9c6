import Fantastic.Python.FileBridge
import Fantastic.Python.Kernel

/-!
# Where a loader keeps things

The path half of `kernel_state/tools.py`: the directory a loader owns, the directory of
one record under it, and the file bridge it discovers to write through. `self` is the
loader's own agent in the host kernel.
-/

namespace Fantastic.Python.Loader

/-- `agent.ctx.get(id)`. -/
def hostRecord (kernel : Kernel) (key : DictKey) : Option Dict :=
  (kernel.agents.get? key).map kernel.record

/-- `_root`: a `root` meta that is a non-empty text overrides the agent's own path. -/
def rootAddress (kernel : Kernel) (self : Nat) : Address :=
  match getD (kernel.record self) "root" with
  | .str text => if text = "" then (kernel.heap self).address else .path (.ofString text)
  | _ => (kernel.heap self).address

/-- `_children_name`. -/
def childrenName (record : Dict) : String :=
  match getD record "children_dir" with
  | .str text => if text = "" then "agents" else text
  | _ => "agents"

/-- The `while` loop of `_resolve_path`: the ids above a record, nearest first. An id
that the host kernel does not hold ends the walk. -/
def parentChain (kernel : Kernel) (self : Nat) :
    Nat → List DictKey → Value → Except PyError (List Value)
  | 0, _, _ => .ok []
  | fuel + 1, seen, parentId =>
    if !truthy parentId then .ok []
    else do
      let key ← hashKey parentId
      if hashKey (kernel.heap self).id = .ok key || decide (key ∈ seen) then return []
      else do
        let above :=
          match hostRecord kernel key with
          | some record => getD record "parent_id"
          | none => .null
        let rest ← parentChain kernel self fuel (key :: seen) above
        return parentId :: rest

/-- `_resolve_path`. Every id of the walk but the last is registered and none comes
twice, so one more than the registered agents is fuel enough. -/
def resolvePath (kernel : Kernel) (self : Nat) (id parentId : Value) : Except PyError Address := do
  let chain ← parentChain kernel self (kernel.agents.keys.length + 2) [] parentId
  let childrenDir := childrenName (kernel.record self)
  (id :: chain).reverse.foldlM
    (fun path part => do (← path.join (.str childrenDir)).join part)
    (rootAddress kernel self)

/-- `Path(value)`. -/
def Address.toPath : Address → Except PyError PurePath
  | .path value => .ok value
  | .raw (.str text) => .ok (.ofString text)
  | .raw _ => .error .typeError

/-- The loop of `_find_store` over the loader's children, giving the record of the
first `file_bridge` whose root is the loader's. -/
def findStoreAmong (process : Process) (kernel : Kernel) (want : String × Place) :
    List DictKey → Except PyError (Option Dict)
  | [] => .ok none
  | child :: children =>
    let record := (hostRecord kernel child).getD .empty
    if getD record "handler_module" ≠ .str "file_bridge.tools" then
      findStoreAmong process kernel want children
    else
      let root := getD record "root"
      match if truthy root then root else .str "" with
      | .str text =>
        if Fs.resolvePath process.cwd (.ofString text) = want then .ok (some record)
        else findStoreAmong process kernel want children
      | _ => .error .typeError

/-- `_find_store`. -/
def findStore (process : Process) (kernel : Kernel) (self : Nat) :
    Except PyError (Option Dict) :=
  match rootAddress kernel self with
  | .raw _ => .error .attributeError
  | .path root =>
    findStoreAmong process kernel (Fs.resolvePath process.cwd root)
      (kernel.heap self).children.keys

/-- `_store_reldir`. -/
def storeReldir (kernel : Kernel) (self : Nat) (address : Address) : Except PyError String := do
  let path ← Address.toPath address
  let root ← Address.toPath (rootAddress kernel self)
  let relative := ((path.relativeTo? root).getD path).text
  return if relative = "." then "" else relative

end Fantastic.Python.Loader

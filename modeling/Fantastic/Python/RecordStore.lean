import Fantastic.Python.Loader
import Mathlib.Data.List.Perm.Basic

/-!
# Records on disk

`read_tree` and `write_record` of `kernel_state/tools.py`, with the verbs over them. A
file is kept as what its reader gets out of it: the JSON object whose text it holds, or
some other text. `json.loads` gives back what `json.dumps` wrote, and `json.dumps` raises
on a value that holds raw bytes.

`packageReadme` is the `readme.md` an installed package ships, if it does.
-/

namespace Fantastic.Python

open PurePath (Segment)

inductive Document where
  | json (members : Dict)
  | text (content : String)

abbrev RecordDisk := Disk Segment Document

def agentJson : Segment := ⟨"agent.json", by decide⟩
def agentJsonTmp : Segment := ⟨"agent.json.tmp", by decide⟩
def readmeMd : Segment := ⟨"readme.md", by decide⟩
def readmeMdTmp : Segment := ⟨"readme.md.tmp", by decide⟩

mutual

/-- Whether `json.dumps` takes the value. -/
def jsonable : Value → Bool
  | .bytes _ => false
  | .list items => jsonableItems items
  | .dict members => jsonableMembers members
  | _ => true

def jsonableItems : List Value → Bool
  | [] => true
  | item :: items => jsonable item && jsonableItems items

def jsonableMembers : List (String × Value) → Bool
  | [] => true
  | (_, item) :: members => jsonable item && jsonableMembers members

end

namespace Loader

/-! ### Reading -/

/-- `sorted(target.iterdir())`. -/
def sortedNames (disk : RecordDisk) (place : Place) : List Segment :=
  (disk.names place).mergeSort fun left right => decide (left.val ≤ right.val)

/-- `text.lstrip("/")`. -/
def stripSlashes (text : String) : String :=
  String.ofList (text.toList.dropWhile fun char => char = '/')

/-- The record in an agent's directory. What does not parse is skipped. -/
def recordAt (disk : RecordDisk) (place : Place) : Option Dict :=
  match disk.at? place with
  | some (.file (.json record)) => some record
  | _ => none

/-- The loop of `_walk` over the entries of one directory; `descend` is the recursive
call. -/
def walkEntries (process : Process) (disk : RecordDisk) (root : PurePath) (childrenDir : String)
    (descend : String → Value → Except PyError (List Dict)) (relDir : String) (parentId : Value) :
    List Segment → Except PyError (List Dict)
  | [] => .ok []
  | name :: names => do
      let rel := stripSlashes (relDir ++ "/" ++ name.val)
      let file ← Fs.resolve process.runtime process.cwd root (rel ++ "/" ++ "agent.json")
      match recordAt disk file with
      | none => walkEntries process disk root childrenDir descend relDir parentId names
      | some record => do
          let below ← descend (rel ++ "/" ++ childrenDir) (getD record "id")
          let rest ← walkEntries process disk root childrenDir descend relDir parentId names
          return record.insert "parent_id" parentId :: below ++ rest

/-- `_walk`. Every level goes deeper, so the longest path is fuel enough. -/
def walk (process : Process) (disk : RecordDisk) (root : PurePath) (childrenDir : String) :
    Nat → String → Value → Except PyError (List Dict)
  | 0, _, _ => .ok []
  | fuel + 1, relDir, parentId => do
      let place ← Fs.resolve process.runtime process.cwd root relDir
      if disk.isDir place then
        walkEntries process disk root childrenDir
          (walk process disk root childrenDir fuel) relDir parentId (sortedNames disk place)
      else return []

/-- The length of the longest path. -/
def depth (disk : RecordDisk) : Nat :=
  disk.entries.keys.foldr (fun path deepest => max path.length deepest) 0

/-- `read_tree`. -/
def readTree (process : Process) (disk : RecordDisk) (root : PurePath) :
    Except PyError (List Dict) := do
  let file ← Fs.resolve process.runtime process.cwd root "agent.json"
  match recordAt disk file with
  | none => return []
  | some rootRecord => do
      let childrenDir := childrenName rootRecord
      let rest ← walk process disk root childrenDir (depth disk + 1) childrenDir
        (getD rootRecord "id")
      return rootRecord :: rest

/-! ### Writing -/

/-- `write_bytes(…, atomic=True)`: a temporary file beside the target, renamed over it.
A rename that fails leaves the temporary file, which nothing reads. -/
def writeAtomic (runtime : Runtime) (disk : RecordDisk) (target : Place) (temporary : Segment)
    (content : Document) : Except PyError RecordDisk := do
  let made ← Fs.makeParents runtime disk target
  let beside ← Fs.putFile runtime made (target.dropLast ++ [temporary]) content
  let replaced ← Fs.putFile runtime beside target content
  return replaced.removeTree (target.dropLast ++ [temporary])

/-- `handler_module.split(".")[0]`. -/
def modulePackage : Value → Except PyError String
  | .str text => .ok (String.ofList ((text.toList.splitOn '.').headD []))
  | .bytes _ => .error .typeError
  | _ => .error .attributeError

/-- `importlib.resources.files(package) / "readme.md"`, failures caught. -/
def shippedReadme (packageReadme : String → Option String) (package : String) : Option String :=
  if package = "" then none else packageReadme package

/-- `_seed_readme`: the disk afterwards, and what was raised. -/
def seedReadme (process : Process) (packageReadme : String → Option String) (root : PurePath)
    (handlerModule : Value) (disk : RecordDisk) : RecordDisk × Option PyError :=
  if !truthy handlerModule then (disk, none)
  else
    match Fs.resolve process.runtime process.cwd root "readme.md", modulePackage handlerModule with
    | .error failure, _ => (disk, some failure)
    | .ok file, package =>
      if disk.exists? file then (disk, none)
      else
        match package.map (shippedReadme packageReadme) with
        | .error failure => (disk, some failure)
        | .ok none => (disk, none)
        | .ok (some text) =>
          match writeAtomic process.runtime disk file readmeMdTmp (.text text) with
          | .error _ => (disk, none)
          | .ok written => (written, none)

/-- `write_record`: merge over what is there, then seed the readme. -/
def writeRecord (process : Process) (packageReadme : String → Option String) (root : PurePath)
    (record : Dict) (disk : RecordDisk) : RecordDisk × Option PyError :=
  match Fs.resolve process.runtime process.cwd root "agent.json" with
  | .error failure => (disk, some failure)
  | .ok file =>
    let merged := ((recordAt disk file).getD .empty).update record
    if !jsonableMembers merged.entries then (disk, some .typeError)
    else
      match writeAtomic process.runtime disk file agentJsonTmp (.json merged) with
      | .error failure => (disk, some failure)
      | .ok written => seedReadme process packageReadme root (getD record "handler_module") written

/-! ### Verbs -/

/-- `str(path)` read back as a path. -/
def addressPath (runtime : Runtime) : Address → PurePath
  | .path value => value
  | .raw (.str text) => .ofString text
  | .raw other => .ofString (runtime.str other)

/-- The seeding half of `_boot`: a loader with a root of its own lays the anchor
record there. -/
def seedAnchor (process : Process) (packageReadme : String → Option String) (kernel : Kernel)
    (self : Nat) (disk : RecordDisk) : RecordDisk × Option PyError :=
  match rootAddress kernel self with
  | .raw _ => (disk, some .attributeError)
  | .path root =>
    if Address.path root ≠ (kernel.heap self).address &&
        !disk.exists? ((Fs.resolvePath process.cwd root).2 ++ [agentJson]) then
      writeRecord process packageReadme root (kernel.record self) disk
    else (disk, none)

/-- Where `_persist_record` writes. -/
def recordAddress (kernel : Kernel) (self : Nat) (record : Dict) : Except PyError Address := do
  let key ← hashKey (getD record "id")
  match kernel.agents.get? key with
  | some agent => return (kernel.heap agent).address
  | none => resolvePath kernel self (getD record "id") (getD record "parent_id")

/-- `_persist_record`; `record` is the argument of that name if it is a dict. -/
def persistRecord (process : Process) (packageReadme : String → Option String) (kernel : Kernel)
    (self : Nat) (record : Option Dict) (disk : RecordDisk) : RecordDisk × Except PyError Dict :=
  match record with
  | none => (disk, .ok (Kernel.errorReply "persist_record: record (dict with id) required"))
  | some record =>
    if !truthy (getD record "id") then
      (disk, .ok (Kernel.errorReply "persist_record: record (dict with id) required"))
    else
      match recordAddress kernel self record with
      | .error failure => (disk, .error failure)
      | .ok address =>
        match writeRecord process packageReadme (addressPath process.runtime address) record
          disk with
        | (written, some failure) => (written, .error failure)
        | (written, none) => (written, .ok (OrderedDict.empty.insert "ok" (.bool true)))

/-- The records `_load_tree` answers with. -/
def loadTree (process : Process) (kernel : Kernel) (self : Nat) (disk : RecordDisk) :
    Except PyError (List Dict) :=
  readTree process disk (addressPath process.runtime (rootAddress kernel self))

end Loader

end Fantastic.Python

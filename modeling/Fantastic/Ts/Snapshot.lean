import Fantastic.Foundation.ParentForest
import Fantastic.Ts.Kernel

/-!
# Snapshots of the frontend kernel

`validateRecords` of `ts/src/kernel/state.ts` and `Kernel.load`. A record is a flat object
in which `parent_id` is all the structure there is; `load` takes the three fields of an
agent out and leaves the rest as its meta. The recursion of `load` has the number of records
as its fuel. The events that `load` publishes are those of its `register` calls and are left
out, as is the call stack's depth.
-/

namespace Fantastic.Ts

open ParentForest (childrenOf)

def currentVersion : Int := 1

inductive SnapshotError where
  | unsupportedVersion (version : Int)
  | missingId
  | duplicateId (id : String)
  | multipleRoots (first second : String)
  | empty
  | noRoot
  | missingParent (id : String) (parentId : Value)

/-- The message of a `SnapshotError`; `text` is what a template makes of a value. -/
def SnapshotError.message (text : Value → String) : SnapshotError → String
  | .unsupportedVersion version =>
    "unsupported snapshot version " ++ toString version ++ " (expected " ++
      toString currentVersion ++ ")"
  | .missingId => "record missing a string id"
  | .duplicateId id => "duplicate agent id '" ++ id ++ "'"
  | .multipleRoots first second => "multiple roots: '" ++ first ++ "' and '" ++ second ++ "'"
  | .empty => "empty snapshot: no root record"
  | .noRoot => "no root record (every record has a parent_id)"
  | .missingParent id parentId =>
    "agent '" ++ id ++ "' references missing parent '" ++ text parentId ++ "'"

/-- `r.id`, for a record that has a text there. -/
def recordId (record : Dict) : String :=
  match record.get? "id" with
  | some (.str id) => id
  | _ => ""

/-- `r.parent_id ?? null`. -/
def parentValue (record : Dict) : Value :=
  (record.get? "parent_id").getD .null

/-- `parent_id`, where it is a text. -/
def recordParent (record : Dict) : Option String :=
  match parentValue record with
  | .str parentId => some parentId
  | _ => none

def isTop (record : Dict) : Bool :=
  match parentValue record with
  | .null => true
  | _ => false

/-- The first loop of `validateRecords`: the ids and the root so far. -/
def scanRecord (seen : List String × Option String) (record : Dict) :
    Except SnapshotError (List String × Option String) :=
  match record.get? "id" with
  | some (.str id) =>
    if id = "" then .error .missingId
    else if id ∈ seen.1 then .error (.duplicateId id)
    else if isTop record then
      match seen.2 with
      | some rootId => .error (.multipleRoots rootId id)
      | none => .ok (seen.1 ++ [id], some id)
    else .ok (seen.1 ++ [id], seen.2)
  | _ => .error .missingId

/-- The second loop. -/
def checkParent (ids : List String) (record : Dict) : Except SnapshotError Unit :=
  match parentValue record with
  | .null => .ok ()
  | .str parentId =>
    if parentId ∈ ids then .ok ()
    else .error (.missingParent (recordId record) (.str parentId))
  | parentId => .error (.missingParent (recordId record) parentId)

def validateRecords (records : List Dict) (version : Int) : Except SnapshotError String :=
  if version ≠ currentVersion then .error (.unsupportedVersion version)
  else
    (records.foldlM scanRecord ([], none)).bind fun seen =>
      match seen.2 with
      | none => .error (if records = [] then .empty else .noRoot)
      | some rootId => (records.forM (checkParent seen.1)).bind fun _ => .ok rootId

/-- What is left of a record for the meta. -/
def recordMeta (record : Dict) : Dict :=
  record.filterKeys fun key => decide (key ∉ ["id", "handler_module", "parent_id"])

/-- `rec.handler_module ?? null`, if it is a text. -/
def recordModule (record : Dict) : Option String :=
  match record.get? "handler_module" with
  | some (.str handlerModule) => some handlerModule
  | _ => none

/-- The bundle of the record is registered, or it names none. -/
def installed (bundles : List String) (record : Dict) : Bool :=
  match (record.get? "handler_module").getD .null with
  | .null => true
  | .str handlerModule => decide (handlerModule ∈ bundles)
  | _ => false

def recordAgent (record : Dict) (parentId : Option String) : AgentInit where
  id := recordId record
  handlerModule := recordModule record
  parentId := parentId
  metadata := recordMeta record

namespace Kernel

/-- The inner `build` of `load`: a record whose bundle is not registered is skipped with
all that is below it. -/
def build (bundles : List String) (records : List Dict) :
    Nat → Option String → Kernel → Dict → Kernel
  | 0, _, kernel, _ => kernel
  | fuel + 1, parentId, kernel, record =>
    if installed bundles record then
      let registered := (kernel.register (recordAgent record parentId)).1
      let rooted : Kernel :=
        if parentId = none then { registered with rootId := some (recordId record) }
        else registered
      (childrenOf records recordParent (recordId record)).foldl
        (build bundles records fuel (some (recordId record))) rooted
    else kernel

/-- The tree is dropped, then built again from the record without a parent. -/
def load (bundles : List String) (records : List Dict) (version : Int) :
    Except SnapshotError Kernel :=
  (validateRecords records version).bind fun _ =>
    let cleared : Kernel := { agents := .empty, rootId := none }
    match records.reverse.find? isTop with
    | none => .ok cleared
    | some rootRecord => .ok (build bundles records records.length none cleared rootRecord)

end Kernel

end Fantastic.Ts

import Fantastic.Bridge.IngressRules
import Fantastic.Python.FileSystem

/-!
# The file bridge

The stream verbs of `file_bridge/tools.py` and the gate in front of them. A call from
inside the kernel carries no frame token. `offset` and `length` of a read are the
decoded arguments; a call that leaves them out reads `defaultLength` bytes from the
start.
-/

namespace Fantastic.Python

open PurePath (Segment)
open Bridge (Environment Action)
open Bridge.Python (Decision resolveIngress authorize)

/-- What the process around an agent decides: the interpreter, the environment and the
running directory. -/
structure Process where
  runtime : Runtime
  env : Environment
  cwd : Place

/-- A process in `/work` with nothing in its environment. -/
theorem plain_work : PurePath.PlainSegment "work" := by decide

theorem plain_fantastic : PurePath.PlainSegment ".fantastic" := by decide

theorem plain_agents : PurePath.PlainSegment "agents" := by decide

def workDir : Process where
  runtime :=
    { importable := fun _ => true
      repr := fun _ => ""
      str := fun _ => "" }
  env := fun _ => none
  cwd := [⟨"work", plain_work⟩]

abbrev ByteDisk := Disk Segment (List UInt8)

namespace FileBridge

/-- `_root_str`, as `fs` reads it: `str(root or "")`. -/
def rootText (runtime : Runtime) (record : Dict) : String :=
  match getD record "root" with
  | .str text => text
  | other => if truthy other then runtime.str other else ""

/-- `_readonly_or_none`. -/
def readonlyOrNone (record : Dict) : Option Dict :=
  if truthy (getD record "readonly") then
    some (OrderedDict.empty.insert "error" (.str "agent is readonly"))
  else none

/-- `gate_inbound(resolve_ingress(rec), "call", …)`. -/
def gate (process : Process) (record : Dict) (verb : String) (payload : Dict) :
    Except PyError Decision := do
  let rule ← resolveIngress process.runtime record
  let target :=
    match getD record "id" with
    | .str text => text
    | _ => ""
  authorize process.env rule
    { kind := .call
      target := target
      verb := verb
      payload := payload
      token := none }

/-- The reply to a denied call. -/
def denial (decision : Decision) : Dict :=
  let refused := (OrderedDict.empty.insert "error" (Value.str decision.reason)).insert "reason"
    (.str "unauthorized")
  let hinted :=
    if decision.hint = "" then refused else refused.insert "hint" (.str decision.hint)
  if decision.see = "" then hinted else hinted.insert "see" (.str decision.see)

def defaultLength : Nat := 65536

/-- `except (ValueError, OSError) as e: return {"error": str(e)}`. -/
def failureReply {State : Type} (state : State) : PyError → Except PyError (State × Dict)
  | .valueError text => .ok (state, OrderedDict.empty.insert "error" (.str text))
  | .osError text => .ok (state, OrderedDict.empty.insert "error" (.str text))
  | other => .error other

/-- One chunk as `read_stream` answers it. -/
def chunkReply (path : String) (offset : Nat) (chunk : List UInt8) (size : Nat) : Dict :=
  (((((OrderedDict.empty.insert "path" (Value.str path)).insert
    "offset" (.int offset)).insert
    "bytes" (.bytes chunk)).insert
    "next_offset" (.int (offset + chunk.length))).insert
    "eof" (.bool (decide (size ≤ offset + chunk.length)))).insert
    "size" (.int size)

/-- `_read_stream`. -/
def readStream (process : Process) (record : Dict) (path : String) (offset length : Nat)
    (disk : ByteDisk) : Except PyError (ByteDisk × Dict) :=
  let root := PurePath.ofString (rootText process.runtime record)
  match Fs.resolve process.runtime process.cwd root path with
  | .error failure => failureReply disk failure
  | .ok target =>
    match disk.at? target with
    | some (.file content) =>
      let read := Fs.readChunk content offset length
      .ok (disk, chunkReply path offset read.1 read.2)
    | _ =>
      .ok (disk, OrderedDict.empty.insert "error"
        (.str ("file " ++ process.runtime.repr (.str path) ++ " not found")))

/-- A finished write as `write_stream` answers it. -/
def writtenReply (path : String) (written start size : Nat) : Dict :=
  (((OrderedDict.empty.insert "path" (Value.str path)).insert
    "written" (.int written)).insert
    "offset" (.int start)).insert
    "size" (.int size)

/-- `_write_stream` of raw bytes. -/
def writeStream (process : Process) (record : Dict) (path : String) (data : List UInt8)
    (offset : Option Nat) (truncate : Bool) (disk : ByteDisk) :
    Except PyError (ByteDisk × Dict) :=
  match readonlyOrNone record with
  | some refused => .ok (disk, refused)
  | none =>
    let root := PurePath.ofString (rootText process.runtime record)
    match Fs.writeChunk process.runtime process.cwd root path data offset truncate disk with
    | .error failure => failureReply disk failure
    | .ok (written, start, size) =>
      .ok (written, writtenReply path data.length start size)

/-- `handler` for the two stream verbs: the gate, then the verb. -/
def gated (process : Process) (record : Dict) (verb : String) (payload : Dict) (disk : ByteDisk)
    (run : ByteDisk → Except PyError (ByteDisk × Dict)) : Except PyError (ByteDisk × Dict) := do
  let decision ← gate process record verb payload
  if decision.allowed then run disk else return (disk, denial decision)

/-- Without a token the rules look at nothing a verb or a payload could change. -/
theorem gate_same_for_all_calls (process : Process) (record : Dict)
    (verb other : String) (payload different : Dict) :
    gate process record verb payload = gate process record other different := by
  unfold gate
  cases resolveIngress process.runtime record with
  | error failure => rfl
  | ok rule => cases rule <;> rfl

/-- A refusal names its reason. -/
theorem gate_refusal {process : Process} {record payload : Dict} {verb : String}
    {decision : Decision} (decided : gate process record verb payload = .ok decision)
    (refused : decision.allowed = false) : decision.reason ≠ "" := by
  unfold gate at decided
  cases resolved : resolveIngress process.runtime record with
  | error failure =>
    rw [resolved] at decided
    cases decided
  | ok rule =>
    rw [resolved] at decided
    simp only [bind, Except.bind] at decided
    cases rule with
    | allowAll =>
      cases decided
      simp [Decision.allow] at refused
    | denyInbound =>
      cases decided
      simp [Bridge.Python.authorizeDenyInbound]
    | password tokenEnv =>
      simp only [authorize, Bridge.Python.authorizePassword] at decided
      split at decided
      · cases decided
        simp [Decision.refuse, ← String.toList_inj]
      · cases decided
        simp [Decision.refuse]

theorem denial_error (decision : Decision) :
    (denial decision).get? "error" = some (.str decision.reason) := by
  unfold denial
  split_ifs <;> simp [OrderedDict.get?_insert]

/-- A read of a file that is there answers one chunk of it. -/
theorem readStream_chunk {process : Process} {record : Dict} {path : String} {place : Place}
    {content : List UInt8} {disk : ByteDisk} (offset length : Nat)
    (resolved : Fs.resolve process.runtime process.cwd
      (.ofString (rootText process.runtime record)) path = .ok place)
    (held : disk.at? place = some (.file content)) :
    readStream process record path offset length disk =
      .ok (disk, chunkReply path offset ((content.drop offset).take length) content.length) := by
  unfold readStream
  simp only [resolved, held, Fs.readChunk]

/-- A truncating write that answers without an error has put its data in place. -/
theorem writeStream_taken {process : Process} {record : Dict} {path : String} {data : List UInt8}
    {disk written : ByteDisk} {reply : Dict}
    (done : writeStream process record path data none true disk = .ok (written, reply))
    (noError : truthy (getD reply "error") = false) :
    ∃ place, Fs.resolve process.runtime process.cwd
        (.ofString (rootText process.runtime record)) path = .ok place ∧
      written.at? place = some (.file data) := by
  unfold writeStream at done
  split at done
  case h_1 refused readonly =>
    cases done
    unfold readonlyOrNone at readonly
    split at readonly <;> cases readonly
    simp [getD, truthy] at noError
  case h_2 =>
    simp only at done
    split at done
    case h_1 failure failed =>
      have worded := Fs.writeChunk_failure failed
      cases failure with
      | valueError text =>
        cases done
        simp [getD, truthy] at noError
        exact absurd noError worded
      | osError text =>
        cases done
        simp [getD, truthy] at noError
        exact absurd noError worded
      | typeError => cases done
      | attributeError => cases done
      | snapshotError text => cases done
    case h_2 final start size wrote =>
      cases done
      obtain ⟨place, resolved, held, -⟩ := Fs.writeChunk_truncate wrote
      exact ⟨place, resolved, held⟩

end FileBridge

end Fantastic.Python

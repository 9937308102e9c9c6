import Fantastic.Swift.RecordCodable
import Fantastic.Swift.SnapshotLoad

/-!
# The agents directory of the Swift kernel

`Persistence.readAllAgentRecords`, and the snapshot that `Startup.swift` makes of what it
reads. A directory is the entries `contentsOfDirectory` would list with nothing left out; an
`agent.json` that is missing or cannot be read has no bytes, and an `agents` that is missing
or no directory has no entries.
-/

namespace Fantastic.Swift

/-- An entry of a directory of agents. -/
inductive AgentEntry where
  | file (name : String)
  | folder (name : String) (agentFile : Option (List UInt8)) (agents : List AgentEntry)

/-- What `.skipsHiddenFiles` leaves out. -/
def isHidden (name : String) : Bool :=
  decide (name.toList.head? = some '.')

namespace Persistence

/-- `decoder.decode(AgentRecord.self, from: data)`, over what parses the bytes. -/
def decodeFile (parse : List UInt8 → Option Value) (double : Int → Option Dyadic)
    (data : List UInt8) : Option AgentRecord :=
  (parse data).bind (AgentRecord.decode double)

section Walking

variable (decode : List UInt8 → Option AgentRecord)

/-- The record of one folder: a malformed file is skipped. -/
def ownRecord (agentFile : Option (List UInt8)) : List AgentRecord :=
  (agentFile.bind decode).toList

mutual

/-- `readAllAgentRecords`: the folder's own record, then what lies below it. -/
def readAllAgentRecords : List AgentEntry → List AgentRecord
  | [] => []
  | entry :: entries => readEntry entry ++ readAllAgentRecords entries

def readEntry : AgentEntry → List AgentRecord
  | .file _ => []
  | .folder name agentFile agents =>
    if isHidden name then [] else ownRecord decode agentFile ++ readAllAgentRecords agents

end

mutual

/-- The records in and below the folders that the walk does not enter. -/
def hiddenRecords : List AgentEntry → List AgentRecord
  | [] => []
  | entry :: entries => hiddenBelow entry ++ hiddenRecords entries

def hiddenBelow : AgentEntry → List AgentRecord
  | .file _ => []
  | .folder name agentFile agents =>
    if isHidden name then
      ownRecord decode agentFile ++ readAllAgentRecords decode agents ++ hiddenRecords agents
    else hiddenRecords agents

end

/-- No other file of the directory has the record's id, and the root does not. -/
def UniquelyNamed (root : AgentRecord) (entries : List AgentEntry) (record : AgentRecord) : Prop :=
  ((root :: (readAllAgentRecords decode entries ++ hiddenRecords decode entries)).map
    AgentRecord.id).count record.id = 1

/-- A record and that of the directory around it, where its own file and those of the
directories on the way decode and are good. The trail names these directories. -/
inductive Sound (good : AgentRecord → Prop) : AgentRecord → List AgentEntry → List String →
    AgentRecord → AgentRecord → Prop where
  | here {around : AgentRecord} {entries agents : List AgentEntry} {name : String}
      {data : List UInt8} {record : AgentRecord}
      (listed : AgentEntry.folder name (some data) agents ∈ entries)
      (decodes : decode data = some record) (fine : good record) :
      Sound good around entries [name] around record
  | nested {around : AgentRecord} {entries agents : List AgentEntry} {name : String}
      {data : List UInt8} {record encloser inner : AgentRecord} {trail : List String}
      (listed : AgentEntry.folder name (some data) agents ∈ entries)
      (decodes : decode data = some record) (fine : good record)
      (deeper : Sound good record agents trail encloser inner) :
      Sound good around entries (name :: trail) encloser inner

end Walking

end Persistence

/-- The snapshot a boot loads. -/
def bootState (root : AgentRecord) (records : List AgentRecord) : KernelState where
  version := currentVersion
  agents := root :: records

namespace Kernel

/-- The record is registered, under the agent of the directory around its own. -/
def RegisteredUnder (kernel : Kernel) (encloser record : AgentRecord) : Prop :=
  ∃ ref above, kernel.agents.get? record.id = some ref ∧
    (kernel.heap ref).record = { record with parentId := some encloser.id } ∧
    kernel.agents.get? encloser.id = some above ∧ (kernel.heap above).id = encloser.id ∧
    (kernel.heap above).children.get? record.id = some ref

end Kernel

end Fantastic.Swift

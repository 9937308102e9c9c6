import Fantastic.Python.SnapshotLoad
import Fantastic.Rust.SnapshotLoad

/-!
# One snapshot, two loaders

The Python and the Rust kernel load the same flat list of records. They make the same
checks on it, but for three things: an empty id is no id in Python, a meta key that names
a parameter of `Agent` is an error in Python, and a record that does not hang below the
root is an error in Rust. And they skip the same subtrees, but for one: an empty
`handler_module` is no module in Python and a missing bundle in Rust.
-/

namespace Fantastic.Parity

open Fantastic.ParentForest
open Python (getD recordKey recordParent recordMeta)

/-- An optional text, as a member of a record. -/
def optionalText : Option String → Value
  | none => .null
  | some text => .str text

/-- A record both kernels can read: a text id, and optional texts for the module and the
parent. An absent member and `null` are the same. -/
structure WireRecord where
  dict : Dict
  id : String
  handlerModule : Option String
  parentId : Option String
  idText : getD dict "id" = .str id
  moduleText : getD dict "handler_module" = optionalText handlerModule
  parentText : getD dict "parent_id" = optionalText parentId

/-- What `serde` makes of it: the members without a field of their own are the meta. -/
def WireRecord.toRust (record : WireRecord) : Rust.AgentRecord where
  id := record.id
  handlerModule := record.handlerModule
  parentId := record.parentId
  metadata := recordMeta record.dict

/-- The same bundles are there for both. -/
structure Installed where
  runtime : Python.Runtime
  host : Rust.Host
  same : ∀ name, runtime.importable (.str name) = host.installed name

structure WireSnapshot where
  version : UInt32
  records : List WireRecord

def WireSnapshot.toPython (snapshot : WireSnapshot) : Python.KernelState where
  version := snapshot.version.toNat
  records := snapshot.records.map WireRecord.dict

def WireSnapshot.toRust (snapshot : WireSnapshot) : Rust.KernelState where
  version := snapshot.version
  agents := snapshot.records.map WireRecord.toRust

/-- The same ids, under the same parents, with the same root. -/
structure SameRegistry (python : Python.Kernel) (rust : Rust.Kernel) : Prop where
  agents : ∀ id, (python.agents.get? (.str id)).map (fun ref =>
      (python.heap ref).parent.map fun above => (python.heap above).id) =
    (rust.agents.get? id).map fun ref => (rust.heap ref).parentId.map .str
  texts : ∀ key ∈ python.agents.keys, ∃ id, key = .str id
  root : python.root.map (fun ref => (python.heap ref).id) =
    rust.root.map fun ref => .str (rust.heap ref).id

/-- Both refuse the snapshot, or both take it and build the same registry. -/
def Agree (installed : Installed) (python : Python.Kernel) (rootPath : Option PurePath)
    (rust : Rust.Kernel) (workdir : Option PurePath) (snapshot : WireSnapshot) : Prop :=
  match python.load installed.runtime snapshot.toPython rootPath,
    rust.load installed.host workdir snapshot.toRust with
  | .error _, (_, failure) => failure ≠ none
  | .ok rebuilt, (after, failure) => failure = none ∧ SameRegistry rebuilt after

/-! ### One reading of the list -/

variable {installed : Installed} {snapshot : WireSnapshot}

abbrev Below (keep : WireRecord → Prop) (records : List WireRecord) (record : WireRecord) : Prop :=
  Reached records WireRecord.id WireRecord.parentId keep record

/-- The record hangs below the root. -/
abbrev Attached (snapshot : WireSnapshot) (record : WireRecord) : Prop :=
  Below (fun _ => True) snapshot.records record

/-- Python does not skip it. -/
abbrev PythonKeeps (installed : Installed) (snapshot : WireSnapshot) (record : WireRecord) : Prop :=
  Below (fun other => Python.Kernel.keeps installed.runtime other.dict = true) snapshot.records
    record

/-- Rust does not skip it. -/
abbrev RustKeeps (installed : Installed) (snapshot : WireSnapshot) (record : WireRecord) : Prop :=
  Below (fun other => Rust.Kernel.Loading.installed installed.host other.toRust = true)
    snapshot.records record

/-- The checks both loaders make. -/
structure Common (snapshot : WireSnapshot) : Prop where
  known : snapshot.version ≤ 1
  distinct : (snapshot.records.map WireRecord.id).Nodup
  rooted : ∃ root ∈ snapshot.records, root.parentId = none ∧
    ∀ other ∈ snapshot.records, other.parentId = none → other = root
  closed : ∀ record ∈ snapshot.records, ∀ parentId, record.parentId = some parentId →
    ∃ above ∈ snapshot.records, above.id = parentId

theorem WireRecord.key (record : WireRecord) : recordKey record.dict = .ok (.str record.id) := by
  rw [recordKey, record.idText]
  rfl

theorem WireRecord.parent (record : WireRecord) :
    recordParent record.dict = record.parentId.map fun text => .ok (.str text) := by
  rw [recordParent, record.parentText]
  cases record.parentId <;> rfl

theorem hashed_injective :
    Function.Injective fun text => (Except.ok (.str text) : Except Python.PyError Python.DictKey) := by
  intro first second same
  exact Python.DictKey.str.inj (Except.ok.inj same)

theorem same_of_id (distinct : (snapshot.records.map WireRecord.id).Nodup)
    {first second : WireRecord} (left : first ∈ snapshot.records)
    (right : second ∈ snapshot.records) (same : first.id = second.id) : first = second :=
  List.inj_on_of_nodup_map distinct left right same

theorem python_keys : snapshot.toPython.records.map recordKey =
    (snapshot.records.map WireRecord.id).map fun text => .ok (.str text) := by
  rw [WireSnapshot.toPython, List.map_map, List.map_map]
  apply List.map_congr_left
  intro record _
  exact record.key

theorem rust_ids : snapshot.toRust.agents.map Rust.AgentRecord.id =
    snapshot.records.map WireRecord.id := by
  rw [WireSnapshot.toRust, List.map_map]
  rfl

theorem valid_iff : Rust.Kernel.Valid snapshot.toRust ↔ Common snapshot := by
  constructor
  · intro valid
    have distinct : (snapshot.records.map WireRecord.id).Nodup := by
      rw [← rust_ids]
      exact valid.distinct
    refine ⟨valid.known, distinct, ?_, ?_⟩
    · obtain ⟨root, listed, bare, alone⟩ := valid.rooted
      obtain ⟨record, recordListed, rfl⟩ := List.mem_map.mp listed
      refine ⟨record, recordListed, bare, ?_⟩
      intro other otherListed otherBare
      have same := alone other.toRust (List.mem_map_of_mem otherListed) otherBare
      exact same_of_id distinct otherListed recordListed (congrArg Rust.AgentRecord.id same)
    · intro record listed parentId named
      obtain ⟨above, aboveListed, sameId⟩ :=
        valid.closed record.toRust (List.mem_map_of_mem listed) parentId named
      obtain ⟨upper, upperListed, rfl⟩ := List.mem_map.mp aboveListed
      exact ⟨upper, upperListed, sameId⟩
  · intro common
    refine ⟨common.known, ?_, ?_, ?_⟩
    · rw [rust_ids]
      exact common.distinct
    · obtain ⟨root, listed, bare, alone⟩ := common.rooted
      refine ⟨root.toRust, List.mem_map_of_mem listed, bare, ?_⟩
      intro other otherListed otherBare
      obtain ⟨record, recordListed, rfl⟩ := List.mem_map.mp otherListed
      rw [alone record recordListed otherBare]
    · intro other otherListed parentId named
      obtain ⟨record, recordListed, rfl⟩ := List.mem_map.mp otherListed
      obtain ⟨above, aboveListed, sameId⟩ := common.closed record recordListed parentId named
      exact ⟨above.toRust, List.mem_map_of_mem aboveListed, sameId⟩

/-- An empty text is no id in Python. -/
def HasEmptyId (snapshot : WireSnapshot) : Prop :=
  ∃ record ∈ snapshot.records, record.id = ""

theorem truthy_id_iff (record : WireRecord) :
    Python.truthy (getD record.dict "id") = true ↔ record.id ≠ "" := by
  rw [record.idText]
  simp [Python.truthy]

theorem known_iff : (snapshot.version.toNat : Int) ≤ Python.currentVersion ↔
    snapshot.version ≤ 1 := by
  rw [UInt32.le_iff_toNat_le, Python.currentVersion]
  exact Int.ofNat_le

theorem python_checks_iff :
    (snapshot.toPython.version ≤ Python.currentVersion ∧
      Python.LocalChecks snapshot.toPython.records) ↔ Common snapshot ∧ ¬ HasEmptyId snapshot := by
  constructor
  · rintro ⟨known, checks⟩
    have distinct : (snapshot.records.map WireRecord.id).Nodup := by
      have nodup := checks.distinct
      rw [python_keys] at nodup
      exact nodup.of_map
    refine ⟨⟨known_iff.mp known, distinct, ?_, ?_⟩, ?_⟩
    · obtain ⟨root, listed, bare, alone⟩ := checks.rooted
      obtain ⟨record, recordListed, rfl⟩ := List.mem_map.mp listed
      rw [record.parent, Option.map_eq_none_iff] at bare
      refine ⟨record, recordListed, bare, ?_⟩
      intro other otherListed otherBare
      have same := alone other.dict (List.mem_map_of_mem otherListed) (by
        rw [other.parent, otherBare]
        rfl)
      apply same_of_id distinct otherListed recordListed
      have texts := other.idText
      rw [same, record.idText] at texts
      exact (Value.str.inj texts).symm
    · intro record listed parentId named
      obtain ⟨above, aboveListed, sameKey⟩ := checks.closed record.dict (List.mem_map_of_mem listed)
        (.ok (.str parentId)) (by rw [record.parent, named]; rfl)
      obtain ⟨upper, upperListed, rfl⟩ := List.mem_map.mp aboveListed
      rw [upper.key] at sameKey
      exact ⟨upper, upperListed, hashed_injective sameKey⟩
    · rintro ⟨record, listed, empty⟩
      exact (truthy_id_iff record).mp (checks.named record.dict (List.mem_map_of_mem listed)) empty
  · rintro ⟨common, named⟩
    refine ⟨known_iff.mpr common.known, ?_, ?_, ?_, ?_, ?_⟩
    · intro dict listed
      obtain ⟨record, recordListed, rfl⟩ := List.mem_map.mp listed
      rw [truthy_id_iff]
      intro empty
      exact named ⟨record, recordListed, empty⟩
    · intro dict listed
      obtain ⟨record, _, rfl⟩ := List.mem_map.mp listed
      exact ⟨_, record.key⟩
    · rw [python_keys]
      exact common.distinct.map hashed_injective
    · obtain ⟨root, listed, bare, alone⟩ := common.rooted
      refine ⟨root.dict, List.mem_map_of_mem listed, by rw [root.parent, bare]; rfl, ?_⟩
      intro dict dictListed dictBare
      obtain ⟨record, recordListed, rfl⟩ := List.mem_map.mp dictListed
      rw [record.parent, Option.map_eq_none_iff] at dictBare
      rw [alone record recordListed dictBare]
    · intro dict dictListed key parent
      obtain ⟨record, recordListed, rfl⟩ := List.mem_map.mp dictListed
      rw [record.parent, Option.map_eq_some_iff] at parent
      obtain ⟨parentId, parentNamed, rfl⟩ := parent
      obtain ⟨above, aboveListed, rfl⟩ := common.closed record recordListed parentId parentNamed
      exact ⟨above.dict, List.mem_map_of_mem aboveListed, above.key⟩

/-- What Python keeps of the dictionaries is what it keeps of the records. -/
theorem python_kept_iff {dict : Dict} :
    Python.Kernel.Kept installed.runtime snapshot.toPython.records dict ↔
      ∃ record, record.dict = dict ∧ PythonKeeps installed snapshot record :=
  reached_map hashed_injective WireRecord.key WireRecord.parent

theorem rust_reached_iff {keep : Rust.AgentRecord → Prop} {record : Rust.AgentRecord} :
    Reached snapshot.toRust.agents Rust.AgentRecord.id Rust.AgentRecord.parentId keep record ↔
      ∃ wire, wire.toRust = record ∧ Below (fun wire => keep wire.toRust) snapshot.records wire := by
  have keys : ∀ wire : WireRecord, wire.toRust.id = id wire.id := fun _ => rfl
  have parents : ∀ wire : WireRecord, wire.toRust.parentId = wire.parentId.map id :=
    fun wire => (congrFun Option.map_id wire.parentId).symm
  exact reached_map Function.injective_id keys parents

/-! ### What each loader does -/

/-- A record that does not hang below the root, which stops Rust. -/
def HasDetached (snapshot : WireSnapshot) : Prop :=
  ∃ record ∈ snapshot.records, ¬ Attached snapshot record

/-- A kept record with a meta key that names a parameter of `Agent`, which stops Python. -/
def HasReservedKey (installed : Installed) (snapshot : WireSnapshot) : Prop :=
  ∃ record, PythonKeeps installed snapshot record ∧
    ∃ name ∈ ["self", "root_path", "ctx", "parent"], name ∈ record.dict.keys

theorem clashes_iff_reserved (dict : Dict) :
    Python.Kernel.clashes Python.Kernel.initParameters (recordMeta dict) = true ↔
      ∃ name ∈ ["self", "root_path", "ctx", "parent"], name ∈ dict.keys := by
  rw [Python.Kernel.clashes_iff]
  have keys : ∀ name, name ∈ (recordMeta dict).keys ↔
      name ∉ ["id", "handler_module", "parent_id"] ∧ name ∈ dict.keys := by
    intro name
    rw [OrderedDict.mem_keys_iff, recordMeta, OrderedDict.get?_filterKeys, OrderedDict.mem_keys_iff]
    by_cases kept : name ∈ ["id", "handler_module", "parent_id"]
    · simp [kept]
    · simp [kept]
  simp only [keys]
  constructor
  · rintro ⟨name, parameter, unreserved, present⟩
    refine ⟨name, ?_, present⟩
    simp only [Python.Kernel.initParameters, List.mem_cons, List.not_mem_nil, or_false,
      not_or] at parameter unreserved ⊢
    tauto
  · rintro ⟨name, parameter, present⟩
    refine ⟨name, ?_, ?_, present⟩
    · simp only [Python.Kernel.initParameters, List.mem_cons, List.not_mem_nil, or_false]
        at parameter ⊢
      tauto
    · simp only [List.mem_cons, List.not_mem_nil, or_false] at parameter
      rcases parameter with rfl | rfl | rfl | rfl <;> decide

theorem python_refuses {python : Python.Kernel} {rootPath : Option PurePath}
    (bad : ¬ (Common snapshot ∧ ¬ HasEmptyId snapshot ∧ ¬ HasReservedKey installed snapshot)) :
    ∃ failure, python.load installed.runtime snapshot.toPython rootPath = .error failure := by
  cases loaded : python.load installed.runtime snapshot.toPython rootPath with
  | error failure => exact ⟨failure, rfl⟩
  | ok rebuilt =>
    exfalso
    have validated : ∃ rootId, Python.validateRecords installed.runtime
        snapshot.toPython.records snapshot.toPython.version = .ok rootId := by
      simp only [Python.Kernel.load, Python.bind_eq_ok_iff] at loaded
      obtain ⟨rootId, checked, _⟩ := loaded
      exact ⟨rootId, checked⟩
    have checks := Python.validate_ok_iff.mp validated
    obtain ⟨common, named⟩ := python_checks_iff.mp checks
    apply bad
    refine ⟨common, named, ?_⟩
    rintro ⟨record, kept, reserved⟩
    have clash := (clashes_iff_reserved record.dict).mpr reserved
    rw [(Python.Kernel.load_loaded checks.2 loaded).unclashed
      (python_kept_iff.mpr ⟨record, rfl, kept⟩)] at clash
    cases clash

theorem rust_accepts_iff {rust : Rust.Kernel} {workdir : Option PurePath} :
    (rust.load installed.host workdir snapshot.toRust).2 = none ↔
      Common snapshot ∧ ¬ HasDetached snapshot := by
  by_cases common : Common snapshot
  · have accepted := (@Rust.Kernel.load_valid installed.host workdir rust _
      (valid_iff.mpr common)).2
    rw [accepted]
    constructor
    · intro all
      refine ⟨common, ?_⟩
      rintro ⟨record, listed, detached⟩
      obtain ⟨other, same, attached⟩ :=
        rust_reached_iff.mp (all record.toRust (List.mem_map_of_mem listed))
      have sameRecord := same_of_id common.distinct attached.listed listed
        (congrArg Rust.AgentRecord.id same)
      rw [sameRecord] at attached
      exact detached attached
    · rintro ⟨_, attached⟩ record listed
      obtain ⟨wire, wireListed, rfl⟩ := List.mem_map.mp listed
      apply rust_reached_iff.mpr
      refine ⟨wire, rfl, ?_⟩
      by_contra loose
      exact attached ⟨wire, wireListed, loose⟩
  · constructor
    · intro accepted
      have refused := (@Rust.Kernel.load_invalid installed.host workdir rust _
        fun valid => common (valid_iff.mp valid)).2
      exact absurd accepted refused
    · intro both
      exact absurd both.1 common

theorem python_accepts {python : Python.Kernel} {rootPath : Option PurePath}
    (common : Common snapshot) (named : ¬ HasEmptyId snapshot)
    (free : ¬ HasReservedKey installed snapshot) :
    ∃ rebuilt, python.load installed.runtime snapshot.toPython rootPath = .ok rebuilt ∧
      Python.Kernel.Loaded installed.runtime snapshot.toPython.records rebuilt := by
  obtain ⟨known, checks⟩ := python_checks_iff.mpr ⟨common, named⟩
  have text : ∀ dict ∈ snapshot.toPython.records, Python.Kernel.TextRecord dict := by
    intro dict listed
    obtain ⟨record, recordListed, rfl⟩ := List.mem_map.mp listed
    constructor
    · exact ⟨record.id, fun empty => named ⟨record, recordListed, empty⟩, record.idText⟩
    · rw [record.parentText]
      cases record.parentId with
      | none => exact .inl rfl
      | some parentId => exact .inr ⟨parentId, rfl⟩
  have unclashed : ∀ dict, Python.Kernel.Kept installed.runtime snapshot.toPython.records dict →
      Python.Kernel.clashes Python.Kernel.initParameters (recordMeta dict) = false := by
    intro dict kept
    obtain ⟨record, rfl, keeps⟩ := python_kept_iff.mp kept
    rw [Bool.eq_false_iff]
    intro clash
    exact free ⟨record, keeps, (clashes_iff_reserved record.dict).mp clash⟩
  obtain ⟨rebuilt, loaded⟩ := Python.Kernel.load_succeeds known checks
    (fun record kept => text record kept.listed) unclashed python rootPath
  exact ⟨rebuilt, loaded, Python.Kernel.load_loaded checks loaded⟩

/-! ### The two registries -/

/-- A record Python keeps and Rust skips: its module is the empty text. -/
def HasBlankModule (installed : Installed) (snapshot : WireSnapshot) : Prop :=
  ∃ record, PythonKeeps installed snapshot record ∧ record.handlerModule = some "" ∧
    installed.host.installed "" = false

theorem keeps_iff_installed (record : WireRecord)
    (covered : record.handlerModule = some "" → installed.host.installed "" = true) :
    Python.Kernel.keeps installed.runtime record.dict = true ↔
      Rust.Kernel.Loading.installed installed.host record.toRust = true := by
  rw [Python.Kernel.keeps_iff, record.moduleText]
  unfold Rust.Kernel.Loading.installed WireRecord.toRust
  cases module : record.handlerModule with
  | none => simp [optionalText, Python.truthy]
  | some name =>
    by_cases blank : name = ""
    · subst blank
      simp [optionalText, Python.truthy, covered module]
    · simp [optionalText, Python.truthy, blank, installed.same]

theorem rust_keeps_python {record : WireRecord} (kept : RustKeeps installed snapshot record) :
    PythonKeeps installed snapshot record := by
  apply kept.mono
  intro other linked
  apply (keeps_iff_installed other _).mpr linked
  intro blank
  simpa [Rust.Kernel.Loading.installed, WireRecord.toRust, blank] using linked

theorem python_keeps_rust (covered : ¬ HasBlankModule installed snapshot) {record : WireRecord}
    (kept : PythonKeeps installed snapshot record) : RustKeeps installed snapshot record := by
  have linked : ∀ {other}, PythonKeeps installed snapshot other →
      Rust.Kernel.Loading.installed installed.host other.toRust = true := by
    intro other otherKept
    apply (keeps_iff_installed other _).mp otherKept.kept
    intro blank
    by_contra missing
    exact covered ⟨other, otherKept, blank, Bool.eq_false_iff.mpr missing⟩
  induction kept with
  | top listed bare keeps => exact .top listed bare (linked (.top listed bare keeps))
  | under link upper keeps ih => exact .under link ih (linked (.under link upper keeps))

section Registries

variable {rebuilt : Python.Kernel} {before after : Rust.Kernel}

/-- The agent Python makes of a kept record. -/
theorem python_agent
    (loaded : Python.Kernel.Loaded installed.runtime snapshot.toPython.records rebuilt)
    {record : WireRecord} (kept : PythonKeeps installed snapshot record) :
    ∃ ref, rebuilt.agents.get? (.str record.id) = some ref ∧
      (rebuilt.heap ref).id = .str record.id ∧
      (rebuilt.heap ref).parent.map (fun above => (rebuilt.heap above).id) =
        record.parentId.map .str := by
  have find : ∀ {other : WireRecord}, PythonKeeps installed snapshot other →
      ∃ ref, rebuilt.agents.get? (.str other.id) = some ref ∧ rebuilt.ReadsAs ref other.dict := by
    intro other otherKept
    obtain ⟨key, ref, hashed, found, reads⟩ := loaded.agents (python_kept_iff.mpr ⟨other, rfl, otherKept⟩)
    rw [other.key] at hashed
    rw [← Except.ok.inj hashed] at found
    exact ⟨ref, found, reads⟩
  obtain ⟨ref, found, reads⟩ := find kept
  refine ⟨ref, found, reads.id.trans record.idText, ?_⟩
  cases named : record.parentId with
  | none =>
    rw [reads.top (by rw [record.parent, named]; rfl)]
    rfl
  | some parentId =>
    obtain ⟨upper, above, hashed, aboveFound, hung⟩ :=
      reads.hung (.ok (.str parentId)) (by rw [record.parent, named]; rfl)
    rw [← Except.ok.inj hashed] at aboveFound
    obtain ⟨dict, dictKept, sameKey⟩ := loaded.added aboveFound
    obtain ⟨parent, rfl, parentKept⟩ := python_kept_iff.mp dictKept
    rw [parent.key] at sameKey
    obtain ⟨other, otherFound, otherReads⟩ := find parentKept
    rw [hashed_injective sameKey, aboveFound] at otherFound
    rw [hung, Option.map_some, Option.some.inj otherFound, otherReads.id, parent.idText,
      hashed_injective sameKey]
    rfl

/-- The agent Rust makes of one. -/
theorem rust_agent
    (loaded : Rust.Kernel.Loaded installed.host snapshot.toRust.agents before after)
    {record : WireRecord} (kept : RustKeeps installed snapshot record) :
    ∃ ref, after.agents.get? record.id = some ref ∧ (after.heap ref).id = record.id ∧
      (after.heap ref).parentId = record.parentId := by
  obtain ⟨ref, found, same⟩ := loaded.complete (rust_reached_iff.mpr ⟨record, rfl, kept⟩)
  exact ⟨ref, found, congrArg Rust.AgentRecord.id same, congrArg Rust.AgentRecord.parentId same⟩

theorem python_registered
    (loaded : Python.Kernel.Loaded installed.runtime snapshot.toPython.records rebuilt)
    {key : Python.DictKey} {ref : Nat} (found : rebuilt.agents.get? key = some ref) :
    ∃ record, PythonKeeps installed snapshot record ∧ key = .str record.id := by
  obtain ⟨dict, kept, hashed⟩ := loaded.added found
  obtain ⟨record, rfl, keeps⟩ := python_kept_iff.mp kept
  rw [record.key] at hashed
  exact ⟨record, keeps, (Except.ok.inj hashed).symm⟩

theorem rust_registered
    (loaded : Rust.Kernel.Loaded installed.host snapshot.toRust.agents before after)
    {id : String} {ref : Nat} (found : after.agents.get? id = some ref) :
    ∃ record, RustKeeps installed snapshot record ∧ record.id = id := by
  obtain ⟨kept, sameId, _⟩ := loaded.registered found
  obtain ⟨record, same, keeps⟩ := rust_reached_iff.mp kept
  exact ⟨record, keeps, (congrArg Rust.AgentRecord.id same).trans sameId⟩

theorem sameRegistry_of_kept (common : Common snapshot)
    (python : Python.Kernel.Loaded installed.runtime snapshot.toPython.records rebuilt)
    (rust : Rust.Kernel.Loaded installed.host snapshot.toRust.agents before after)
    (covered : ¬ HasBlankModule installed snapshot) : SameRegistry rebuilt after := by
  constructor
  · intro id
    cases found : rebuilt.agents.get? (.str id) with
    | some ref =>
      obtain ⟨record, kept, same⟩ := python_registered python found
      rw [Python.DictKey.str.inj same] at found ⊢
      obtain ⟨pythonRef, pythonFound, _, pythonParent⟩ := python_agent python kept
      obtain ⟨rustRef, rustFound, _, rustParent⟩ := rust_agent rust (python_keeps_rust covered kept)
      rw [pythonFound] at found
      rw [rustFound, Option.map_some, Option.map_some, rustParent, ← Option.some.inj found,
        pythonParent]
    | none =>
      cases other : after.agents.get? id with
      | none => rfl
      | some ref =>
        obtain ⟨record, kept, rfl⟩ := rust_registered rust other
        obtain ⟨_, pythonFound, _⟩ := python_agent python (rust_keeps_python kept)
        rw [found] at pythonFound
        cases pythonFound
  · intro key member
    obtain ⟨ref, found⟩ := OrderedDict.mem_keys_iff.mp member
    obtain ⟨record, _, same⟩ := python_registered python found
    exact ⟨record.id, same⟩
  · obtain ⟨root, listed, bare, _⟩ := common.rooted
    have pythonBare : recordParent root.dict = none := by rw [root.parent, bare]; rfl
    rw [python.root (List.mem_map_of_mem listed) pythonBare root.key,
      rust.root root.toRust (List.mem_map_of_mem listed) bare]
    cases found : rebuilt.agents.get? (.str root.id) with
    | some ref =>
      obtain ⟨record, kept, same⟩ := python_registered python found
      obtain ⟨pythonRef, pythonFound, pythonId, _⟩ := python_agent python kept
      obtain ⟨rustRef, rustFound, rustId, _⟩ := rust_agent rust (python_keeps_rust covered kept)
      have sameId := Python.DictKey.str.inj same
      rw [sameId, pythonFound] at found
      have rustSame : after.agents.get? root.toRust.id = some rustRef := by
        rw [← rustFound]
        exact congrArg _ sameId
      rw [rustSame, Option.map_some, Option.map_some, rustId, ← Option.some.inj found, pythonId]
    | none =>
      have absent : after.agents.get? root.toRust.id = none := by
        cases other : after.agents.get? root.toRust.id with
        | none => rfl
        | some ref =>
          obtain ⟨record, kept, same⟩ := rust_registered rust other
          obtain ⟨_, pythonFound, _⟩ := python_agent python (rust_keeps_python kept)
          rw [same] at pythonFound
          rw [show root.toRust.id = root.id from rfl, found] at pythonFound
          cases pythonFound
      rw [absent]
      rfl

/-- A blank module shows in the registry. -/
theorem HasBlankModule.differ (blank : HasBlankModule installed snapshot)
    (distinct : (snapshot.records.map WireRecord.id).Nodup)
    (python : Python.Kernel.Loaded installed.runtime snapshot.toPython.records rebuilt)
    (rust : Rust.Kernel.Loaded installed.host snapshot.toRust.agents before after) :
    ¬ SameRegistry rebuilt after := by
  intro same
  obtain ⟨record, kept, isBlank, missing⟩ := blank
  obtain ⟨ref, found, _⟩ := python_agent python kept
  have both := same.agents record.id
  rw [found, Option.map_some] at both
  cases other : after.agents.get? record.id with
  | none =>
    rw [other] at both
    cases both
  | some otherRef =>
    obtain ⟨wire, wireKept, sameId⟩ := rust_registered rust other
    rw [same_of_id distinct wireKept.listed kept.listed sameId] at wireKept
    have linked := wireKept.kept
    simp only [Rust.Kernel.Loading.installed, WireRecord.toRust, isBlank, missing] at linked
    cases linked

end Registries

/-- The two loaders agree on a snapshot that fails the common checks. On any other they
agree when what stops Python is there just when what stops Rust is, and when no module of a
kept record is the empty text. -/
theorem agree_iff (installed : Installed) (python : Python.Kernel) (rootPath : Option PurePath)
    (rust : Rust.Kernel) (workdir : Option PurePath) (snapshot : WireSnapshot) :
    Agree installed python rootPath rust workdir snapshot ↔
      (Common snapshot →
        ((HasEmptyId snapshot ∨ HasReservedKey installed snapshot) ↔ HasDetached snapshot) ∧
          (HasBlankModule installed snapshot → HasDetached snapshot)) := by
  have accepts := @rust_accepts_iff installed snapshot rust workdir
  unfold Agree
  by_cases stopped : Common snapshot ∧ ¬ HasEmptyId snapshot ∧ ¬ HasReservedKey installed snapshot
  · obtain ⟨common, named, free⟩ := stopped
    obtain ⟨rebuilt, loaded, pythonLoaded⟩ :=
      @python_accepts installed snapshot python rootPath common named free
    have rustLoaded := (@Rust.Kernel.load_valid installed.host workdir rust _
      (valid_iff.mpr common)).1
    rw [loaded]
    change (rust.load installed.host workdir snapshot.toRust).2 = none ∧
      SameRegistry rebuilt (rust.load installed.host workdir snapshot.toRust).1 ↔ _
    constructor
    · intro ⟨accepted, same⟩ _
      have attached := (accepts.mp accepted).2
      refine ⟨⟨?_, fun detached => absurd detached attached⟩, ?_⟩
      · rintro (empty | reserved)
        · exact absurd empty named
        · exact absurd reserved free
      · intro blank
        exact absurd same (blank.differ common.distinct pythonLoaded rustLoaded)
    · intro condition
      obtain ⟨both, covered⟩ := condition common
      have attached : ¬ HasDetached snapshot := by
        intro detached
        rcases both.mpr detached with empty | reserved
        · exact named empty
        · exact free reserved
      exact ⟨accepts.mpr ⟨common, attached⟩, sameRegistry_of_kept common pythonLoaded rustLoaded
        fun blank => attached (covered blank)⟩
  · obtain ⟨failure, refused⟩ := @python_refuses installed snapshot python rootPath stopped
    rw [refused]
    change (rust.load installed.host workdir snapshot.toRust).2 ≠ none ↔ _
    rw [ne_eq, accepts]
    constructor
    · intro rejected common
      have detached : HasDetached snapshot := by
        by_contra attached
        exact rejected ⟨common, attached⟩
      refine ⟨⟨fun _ => detached, fun _ => ?_⟩, fun _ => detached⟩
      by_contra neither
      rw [not_or] at neither
      exact stopped ⟨common, neither⟩
    · rintro condition ⟨common, attached⟩
      apply stopped
      refine ⟨common, ?_, ?_⟩
      · intro empty
        exact attached ((condition common).1.mp (.inl empty))
      · intro reserved
        exact attached ((condition common).1.mp (.inr reserved))

/-- A record without a module: the root, or a child of a named parent. -/
def wireRecord (id : String) (parentId : Option String) : WireRecord where
  dict := (OrderedDict.empty.insert "id" (.str id)).insert "parent_id" (optionalText parentId)
  id := id
  handlerModule := none
  parentId := parentId
  idText := by
    rw [getD, OrderedDict.get?_insert_of_ne _ _ (by decide), OrderedDict.get?_insert_self]
    rfl
  moduleText := by
    rw [getD, OrderedDict.get?_insert_of_ne _ _ (by decide),
      OrderedDict.get?_insert_of_ne _ _ (by decide)]
    rfl
  parentText := by
    rw [getD, OrderedDict.get?_insert_self]
    rfl

def everyModule : Installed where
  runtime := Python.Kernel.permissive
  host := Rust.everyBundle
  same := fun _ => rfl

/-- A root, and two records that name each other. -/
def pairedSnapshot : WireSnapshot where
  version := 1
  records := [wireRecord "core" none, wireRecord "left" (some "right"),
    wireRecord "right" (some "left")]

/-- Python takes the root and drops the pair; Rust refuses the whole. -/
theorem paired_snapshot_splits_the_loaders :
    ¬ Agree everyModule Python.Kernel.soleRoot none (Rust.Kernel.bootInMemory "core") none
      pairedSnapshot := by
  unfold Agree
  have taken : (Python.Kernel.soleRoot.load everyModule.runtime pairedSnapshot.toPython
      none).isOk = true :=
    rfl
  have refused : ((Rust.Kernel.bootInMemory "core").load everyModule.host none
      pairedSnapshot.toRust).2.isSome = true :=
    rfl
  cases loaded : Python.Kernel.soleRoot.load everyModule.runtime pairedSnapshot.toPython none with
  | error failure =>
    rw [loaded] at taken
    cases taken
  | ok rebuilt =>
    change ¬ (((Rust.Kernel.bootInMemory "core").load everyModule.host none
      pairedSnapshot.toRust).2 = none ∧ _)
    intro both
    rw [both.1] at refused
    cases refused

end Fantastic.Parity

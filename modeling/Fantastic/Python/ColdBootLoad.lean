import Fantastic.Python.ColdBoot
import Fantastic.Python.SnapshotLoad

/-!
# Booting from a tree with bad files

What a cold boot does with a tree whose root record is well formed: `read_tree`, then
`Kernel.load` of the list. A file that does not parse is skipped, but a value that is no
object raises in the walk, and a record without a usable id of its own, or with a field named
like a parameter of `Agent`, makes `load` refuse the whole list. The boot succeeds exactly
when none of these is reached.
-/

namespace Fantastic.Python.ColdBoot

open PurePath (Segment)
open JsonGrammar (mapOf)
open Loader (childrenName recordIn Finding Stored)
open Kernel (TextRecord keeps Kept clashes initParameters)

/-- A tree whose root `agent.json` holds a well-formed record. -/
structure Anchored (loads : List UInt8 → Option Value) (process : Process) (disk : FileDisk)
    (root : PurePath) where
  base : Place
  childrenDir : Segment
  record : Dict
  rooted : Fs.resolveRoot process.runtime process.cwd root = .ok base
  recorded : recordIn (parsed loads disk) base = some record
  children : childrenName record = childrenDir.val
  named : ∃ text, text ≠ "" ∧ getD record "id" = .str text
  top : getD record "parent_id" = .null
  unclashed : clashes initParameters (recordMeta record) = false

/-- The record is an agent of the kernel, under its parent. -/
def Registered (kernel : Kernel) (record : Dict) : Prop :=
  ∃ key ref, recordKey record = .ok key ∧ kernel.agents.get? key = some ref ∧
    kernel.ReadsAs ref record

namespace Anchored

variable {loads : List UInt8 → Option Value} {process : Process} {disk : FileDisk}
  {root : PurePath} (tree : Anchored loads process disk root)

/-- The records the walk comes to. -/
def Below (finding : Finding) : Prop :=
  Stored (parsed loads disk) tree.childrenDir (tree.base ++ [tree.childrenDir])
    (getD tree.record "id") finding

/-- The modules of the root, of the record and of all records between them import. -/
inductive Through (runtime : Runtime) : Finding → Prop where
  | direct {finding : Finding} (below : tree.Below finding)
      (hung : ∃ name, finding.place = tree.base ++ [tree.childrenDir] ++ [name])
      (rootKept : keeps runtime tree.record = true) (kept : keeps runtime finding.record = true) :
      Through runtime finding
  | under {finding above : Finding} (below : tree.Below finding)
      (through : Through runtime above)
      (hung : ∃ name, finding.place = above.place ++ [tree.childrenDir, name])
      (kept : keeps runtime finding.record = true) : Through runtime finding

/-- `read_tree` returns, `load` accepts what it returns into any kernel, and every record all
of whose ancestors import is an agent then. -/
def Boots (runtime : Runtime) : Prop :=
  ∃ records, readTree loads process disk root = .ok records ∧
    ∀ (host : Kernel) (rootPath : Option PurePath), ∃ rebuilt,
      host.load runtime { version := currentVersion, records := records } rootPath = .ok rebuilt ∧
        (keeps runtime tree.record = true → Registered rebuilt tree.record) ∧
        ∀ finding, tree.Through runtime finding → Registered rebuilt finding.positioned

/-- The ids that `validate_records` looks at: usable, and no two alike. -/
structure Identified : Prop where
  named : ∀ finding, tree.Below finding → truthy (getD finding.record "id") = true ∧
    ∃ key, recordKey finding.record = .ok key
  apart : ∀ finding, tree.Below finding → recordKey finding.record ≠ recordKey tree.record
  distinct : ∀ first second, tree.Below first → tree.Below second →
    recordKey first.record = recordKey second.record → first.place = second.place

/-- Every value the walk comes to is an object with a usable id of its own, and what `load`
builds has a text for an id and no field named like a parameter of `Agent`. -/
structure Clean (runtime : Runtime) : Prop where
  objects : ¬ Trips loads disk tree.childrenDir (tree.base ++ [tree.childrenDir])
  identified : tree.Identified
  buildable : ∀ finding, tree.Through runtime finding →
    (∃ text, getD finding.record "id" = .str text) ∧
      clashes initParameters (recordMeta finding.record) = false

end Anchored

/-! ### A record at its position -/

theorem getD_positioned {finding : Finding} {name : String} (other : name ≠ "parent_id") :
    getD finding.positioned name = getD finding.record name := by
  rw [getD, Finding.positioned, OrderedDict.get?_insert_of_ne _ _ other]
  rfl

theorem recordKey_positioned (finding : Finding) :
    recordKey finding.positioned = recordKey finding.record := by
  rw [recordKey, getD_positioned (by decide)]
  rfl

theorem parentId_positioned (finding : Finding) :
    getD finding.positioned "parent_id" = finding.parentId := by
  rw [getD, Finding.positioned, OrderedDict.get?_insert_self]
  rfl

theorem keeps_positioned (runtime : Runtime) (finding : Finding) :
    keeps runtime finding.positioned = keeps runtime finding.record := by
  rw [keeps, keeps, getD_positioned (by decide)]

theorem clashes_positioned (finding : Finding) :
    clashes initParameters (recordMeta finding.positioned) =
      clashes initParameters (recordMeta finding.record) := by
  have same : (recordMeta finding.positioned).contains = (recordMeta finding.record).contains := by
    funext key
    rw [Bool.eq_iff_iff, OrderedDict.contains_iff, OrderedDict.contains_iff,
      OrderedDict.mem_keys_iff, OrderedDict.mem_keys_iff, recordMeta, recordMeta,
      OrderedDict.get?_filterKeys, OrderedDict.get?_filterKeys]
    by_cases held : key = "parent_id"
    · simp [held]
    · rw [Finding.positioned, OrderedDict.get?_insert_of_ne _ _ held]
  rw [clashes, clashes, same]

/-- Who holds the directory a stored record lies in: the owner of the whole tree, or another
stored record, whose id is then its parent id. -/
theorem stored_above {disk : RecordDisk} {childrenDir : Segment} {dir : Place} {parentId : Value}
    {finding : Finding} (stored : Stored disk childrenDir dir parentId finding) :
    ((∃ name, finding.place = dir ++ [name]) ∧ finding.parentId = parentId) ∨
      ∃ above, Stored disk childrenDir dir parentId above ∧
        (∃ name, finding.place = above.place ++ [childrenDir, name]) ∧
        finding.parentId = getD above.record "id" := by
  induction stored with
  | @direct dir parentId name record found => exact .inl ⟨⟨name, rfl⟩, rfl⟩
  | @nested dir parentId name record finding found deeper ih =>
    cases ih with
    | inl beside =>
      obtain ⟨⟨last, place⟩, named⟩ := beside
      exact .inr ⟨_, .direct found, ⟨last, by simp [place]⟩, named⟩
    | inr under =>
      obtain ⟨above, stored, hung, named⟩ := under
      exact .inr ⟨above, .nested found stored, hung, named⟩

namespace Anchored

variable {loads : List UInt8 → Option Value} {process : Process} {disk : FileDisk}
  {root : PurePath} {tree : Anchored loads process disk root} {runtime : Runtime}

theorem Through.stored {finding : Finding} (through : tree.Through runtime finding) :
    tree.Below finding := by
  cases through with
  | direct below => exact below
  | under below => exact below

theorem recordParent_root (tree : Anchored loads process disk root) :
    recordParent tree.record = none :=
  recordParent_eq_none_iff.mpr tree.top

theorem truthy_root (tree : Anchored loads process disk root) :
    truthy (getD tree.record "id") = true := by
  obtain ⟨text, nonempty, same⟩ := tree.named
  simp [same, truthy, nonempty]

theorem hashable_root (tree : Anchored loads process disk root) :
    ∃ key, recordKey tree.record = .ok key := by
  obtain ⟨text, _, same⟩ := tree.named
  exact ⟨.str text, by rw [recordKey, same]; rfl⟩

/-- A stored record has its parent's id, which is no `None`. -/
theorem Identified.recordParent (identified : tree.Identified) {finding : Finding}
    (below : tree.Below finding) :
    recordParent finding.positioned = some (hashKey finding.parentId) := by
  have truthful : truthy finding.parentId = true := by
    obtain ⟨_, same⟩ | ⟨above, stored, _, same⟩ := stored_above below
    · rw [same]
      exact tree.truthy_root
    · rw [same]
      exact (identified.named above stored).1
  unfold Python.recordParent
  rw [parentId_positioned]
  cases named : finding.parentId with
  | null =>
    rw [named] at truthful
    cases truthful
  | _ => rfl

section Listed

variable {found : List Finding} (places : (found.map Finding.place).Nodup)
  (members : ∀ finding, finding ∈ found ↔ tree.Below finding)

include places members

/-- The checks of `validate_records` on what was read, seen on the disk. -/
theorem localChecks_iff :
    LocalChecks (tree.record :: found.map Finding.positioned) ↔ tree.Identified := by
  have listed : ∀ {finding}, tree.Below finding →
      finding.positioned ∈ tree.record :: found.map Finding.positioned := by
    intro finding below
    exact List.mem_cons_of_mem _ (List.mem_map_of_mem ((members finding).mpr below))
  have keys : (tree.record :: found.map Finding.positioned).map recordKey =
      recordKey tree.record :: found.map fun finding => recordKey finding.record := by
    simp [recordKey_positioned]
  constructor
  · intro checks
    have distinct := checks.distinct
    rw [keys, List.nodup_cons] at distinct
    constructor
    · intro finding below
      have named := checks.named _ (listed below)
      have hashable := checks.hashable _ (listed below)
      rw [getD_positioned (by decide)] at named
      rw [recordKey_positioned] at hashable
      exact ⟨named, hashable⟩
    · intro finding below same
      apply distinct.1
      rw [← same]
      exact List.mem_map.mpr ⟨finding, (members finding).mpr below, rfl⟩
    · intro first second firstBelow secondBelow same
      have equal := List.inj_on_of_nodup_map distinct.2 ((members first).mpr firstBelow)
        ((members second).mpr secondBelow) same
      rw [equal]
  · intro identified
    constructor
    · intro record member
      obtain top | later := List.mem_cons.mp member
      · rw [top]
        exact tree.truthy_root
      · obtain ⟨finding, inside, rfl⟩ := List.mem_map.mp later
        rw [getD_positioned (by decide)]
        exact (identified.named finding ((members finding).mp inside)).1
    · intro record member
      obtain top | later := List.mem_cons.mp member
      · rw [top]
        exact tree.hashable_root
      · obtain ⟨finding, inside, rfl⟩ := List.mem_map.mp later
        rw [recordKey_positioned]
        exact (identified.named finding ((members finding).mp inside)).2
    · rw [keys, List.nodup_cons]
      constructor
      · intro again
        obtain ⟨finding, inside, same⟩ := List.mem_map.mp again
        exact identified.apart finding ((members finding).mp inside) same
      · apply List.Nodup.map_on _ (List.Nodup.of_map _ places)
        intro first firstInside second secondInside same
        apply List.inj_on_of_nodup_map places firstInside secondInside
        exact identified.distinct first second ((members first).mp firstInside)
          ((members second).mp secondInside) same
    · refine ⟨tree.record, List.mem_cons_self, tree.recordParent_root, ?_⟩
      intro other member bare
      obtain top | later := List.mem_cons.mp member
      · exact top
      · obtain ⟨finding, inside, rfl⟩ := List.mem_map.mp later
        rw [identified.recordParent ((members finding).mp inside)] at bare
        cases bare
    · intro record member key named
      obtain top | later := List.mem_cons.mp member
      · rw [top, tree.recordParent_root] at named
        cases named
      · obtain ⟨finding, inside, rfl⟩ := List.mem_map.mp later
        have below := (members finding).mp inside
        rw [identified.recordParent below] at named
        cases named
        obtain ⟨_, same⟩ | ⟨above, stored, _, same⟩ := stored_above below
        · refine ⟨tree.record, List.mem_cons_self, ?_⟩
          rw [same]
          rfl
        · refine ⟨above.positioned, listed stored, ?_⟩
          rw [recordKey_positioned, same]
          rfl

end Listed

theorem Below.long {finding : Finding} (below : tree.Below finding) :
    tree.base.length + 2 ≤ finding.place.length := by
  obtain ⟨name, rest, place⟩ := Stored.place_below below
  rw [place]
  simp only [List.length_append, List.length_cons, List.length_nil]
  omega

theorem parentId_direct {finding : Finding} (below : tree.Below finding)
    (hung : ∃ name, finding.place = tree.base ++ [tree.childrenDir] ++ [name]) :
    finding.parentId = getD tree.record "id" := by
  obtain ⟨name, place⟩ := hung
  obtain ⟨_, same⟩ | ⟨above, stored, ⟨last, place'⟩, _⟩ := stored_above below
  · exact same
  · have lengths := congrArg List.length (place.symm.trans place')
    have bound := Below.long stored
    simp only [List.length_append, List.length_cons, List.length_nil] at lengths
    omega

theorem parentId_under {finding above : Finding} (below : tree.Below finding)
    (upper : tree.Below above)
    (hung : ∃ name, finding.place = above.place ++ [tree.childrenDir, name]) :
    finding.parentId = getD above.record "id" := by
  obtain ⟨name, place⟩ := hung
  obtain ⟨⟨last, place'⟩, _⟩ | ⟨other, stored, ⟨last, place'⟩, same⟩ := stored_above below
  · have lengths := congrArg List.length (place.symm.trans place')
    have bound := upper.long
    simp only [List.length_append, List.length_cons, List.length_nil] at lengths
    omega
  · -- one place holds one record
    have places : other.place = above.place :=
      (List.append_inj' (place'.symm.trans place) rfl).1
    have recorded := Stored.recorded stored
    rw [places, Stored.recorded upper] at recorded
    rw [same, Option.some.inj recorded]

section Kept

variable {found : List Finding} (members : ∀ finding, finding ∈ found ↔ tree.Below finding)

include members

theorem mem_records {finding : Finding} (below : tree.Below finding) :
    finding.positioned ∈ tree.record :: found.map Finding.positioned :=
  List.mem_cons_of_mem _ (List.mem_map_of_mem ((members finding).mpr below))

theorem kept_of_through (identified : tree.Identified) {finding : Finding}
    (through : tree.Through runtime finding) :
    Kept runtime (tree.record :: found.map Finding.positioned) finding.positioned := by
  induction through with
  | @direct finding below hung rootKept kept =>
    apply ParentForest.Reached.under _ (.top List.mem_cons_self tree.recordParent_root rootKept)
    · rw [keeps_positioned]
      exact kept
    · refine ⟨mem_records members below, List.mem_cons_self, ?_⟩
      rw [identified.recordParent below, parentId_direct below hung]
      rfl
  | @under finding above below upper hung kept ih =>
    apply ParentForest.Reached.under _ ih
    · rw [keeps_positioned]
      exact kept
    · refine ⟨mem_records members below, mem_records members upper.stored, ?_⟩
      rw [identified.recordParent below, parentId_under below upper.stored hung,
        recordKey_positioned]
      rfl

theorem through_of_kept (identified : tree.Identified)
    (distinct : ((tree.record :: found.map Finding.positioned).map recordKey).Nodup) {record : Dict}
    (kept : Kept runtime (tree.record :: found.map Finding.positioned) record) :
    ∀ {finding : Finding}, tree.Below finding → record = finding.positioned →
      tree.Through runtime finding := by
  induction kept with
  | top _ bare _ =>
    intro finding below same
    rw [same, identified.recordParent below] at bare
    cases bare
  | @under record above link upper kept ih =>
    intro finding below same
    rw [same, keeps_positioned] at kept
    obtain ⟨_, aboveListed, named⟩ := link
    rw [same, identified.recordParent below, Option.some.injEq] at named
    obtain ⟨hung, parent⟩ | ⟨other, stored, hung, parent⟩ := stored_above below
    · have owner : tree.record = above := by
        apply List.inj_on_of_nodup_map distinct List.mem_cons_self aboveListed
        rw [← named, parent]
        rfl
      have rootKept := upper.kept
      rw [← owner] at rootKept
      exact .direct below hung rootKept kept
    · have owner : other.positioned = above := by
        apply List.inj_on_of_nodup_map distinct (mem_records members stored) aboveListed
        rw [← named, parent, recordKey_positioned]
        rfl
      exact .under below (ih stored owner.symm) hung kept

end Kept

/-- The id of the record above one that `load` builds is a text. -/
theorem Clean.parent_text (clean : tree.Clean runtime) {finding : Finding}
    (through : tree.Through runtime finding) : ∃ text, finding.parentId = .str text := by
  cases through with
  | direct below hung =>
    obtain ⟨text, _, same⟩ := tree.named
    exact ⟨text, by rw [parentId_direct below hung, same]⟩
  | under below upper hung =>
    obtain ⟨text, same⟩ := (clean.buildable _ upper).1
    exact ⟨text, by rw [parentId_under below upper.stored hung, same]⟩

theorem root_textRecord (tree : Anchored loads process disk root) : TextRecord tree.record :=
  ⟨tree.named, .inl tree.top⟩

theorem Clean.textRecord (clean : tree.Clean runtime) {finding : Finding}
    (through : tree.Through runtime finding) : TextRecord finding.positioned := by
  constructor
  · obtain ⟨text, same⟩ := (clean.buildable finding through).1
    have named := (clean.identified.named finding through.stored).1
    rw [same] at named
    rw [getD_positioned (by decide)]
    exact ⟨text, by simpa [truthy] using named, same⟩
  · rw [parentId_positioned]
    exact .inr (clean.parent_text through)

theorem Clean.boots (clean : tree.Clean runtime) : tree.Boots runtime := by
  obtain ⟨found, read, places, members⟩ :=
    Loader.readTree_eq tree.rooted tree.recorded tree.children
  have returned := (readTree_ok_iff tree.rooted tree.recorded tree.children _).mpr
    ⟨clean.objects, read⟩
  have checks : LocalChecks (tree.record :: found.map Finding.positioned) :=
    (localChecks_iff places members).mpr clean.identified
  have sorted : ∀ {record}, Kept runtime (tree.record :: found.map Finding.positioned) record →
      record = tree.record ∨ ∃ finding, tree.Through runtime finding ∧
        record = finding.positioned := by
    intro record kept
    obtain top | later := List.mem_cons.mp kept.listed
    · exact .inl top
    · obtain ⟨finding, inside, same⟩ := List.mem_map.mp later
      exact .inr ⟨finding, through_of_kept members clean.identified checks.distinct kept
        ((members finding).mp inside) same.symm, same.symm⟩
  refine ⟨_, returned, ?_⟩
  intro host rootPath
  obtain ⟨rebuilt, loaded⟩ := @Kernel.load_succeeds runtime _ currentVersion (Int.le_refl _) checks
    (by
      intro record kept
      obtain top | ⟨finding, through, same⟩ := sorted kept
      · rw [top]
        exact tree.root_textRecord
      · rw [same]
        exact clean.textRecord through)
    (by
      intro record kept
      obtain top | ⟨finding, through, same⟩ := sorted kept
      · rw [top]
        exact tree.unclashed
      · rw [same, clashes_positioned]
        exact (clean.buildable finding through).2) host rootPath
  have registers := Kernel.load_loaded checks loaded
  refine ⟨rebuilt, loaded, ?_, ?_⟩
  · intro rootKept
    exact registers.agents (.top List.mem_cons_self tree.recordParent_root rootKept)
  · intro finding through
    exact registers.agents (kept_of_through members clean.identified through)

theorem Boots.clean (boots : tree.Boots runtime) (host : Kernel) : tree.Clean runtime := by
  obtain ⟨records, returned, loads'⟩ := boots
  obtain ⟨clear, same⟩ := (readTree_ok_iff tree.rooted tree.recorded tree.children _).mp returned
  obtain ⟨found, read, places, members⟩ :=
    Loader.readTree_eq tree.rooted tree.recorded tree.children
  rw [read] at same
  cases same
  obtain ⟨rebuilt, loaded, _⟩ := loads' host none
  have checks : LocalChecks (tree.record :: found.map Finding.positioned) := by
    have validated := loaded
    simp only [Kernel.load, bind_eq_ok_iff] at validated
    obtain ⟨rootId, valid, _⟩ := validated
    exact (validate_ok_iff.mp ⟨rootId, valid⟩).2
  have identified := (localChecks_iff places members).mp checks
  constructor
  · exact clear
  · exact identified
  · intro finding through
    have kept := kept_of_through members identified through
    constructor
    · have text := Kernel.load_text checks loaded kept
        (by simp [identified.recordParent through.stored])
      rwa [getD_positioned (by decide)] at text
    · rw [← clashes_positioned]
      exact (Kernel.load_loaded checks loaded).unclashed kept

/-- A cold boot succeeds exactly on the clean trees. -/
theorem boots_iff (tree : Anchored loads process disk root) (runtime : Runtime) :
    tree.Boots runtime ↔ tree.Clean runtime := by
  constructor
  · intro boots
    exact boots.clean .fresh
  · intro clean
    exact clean.boots

end Anchored

/-! ### A stray list -/

def coreText : List UInt8 :=
  utf8 "\x7b\"id\":\"core\"\x7d"

/-- A reader that agrees with `json.loads` on the two files at hand. -/
def strayLoads (bytes : List UInt8) : Option Value :=
  if bytes = coreText then some (.dict [("id", .str "core")])
  else if bytes = utf8 "[]" then some (.list [])
  else none

theorem plain_work : PurePath.PlainSegment "work" := by decide

theorem plain_fantastic : PurePath.PlainSegment ".fantastic" := by decide

theorem plain_agents : PurePath.PlainSegment "agents" := by decide

theorem plain_note : PurePath.PlainSegment "note" := by decide

def fantasticDir : Place :=
  [⟨"work", plain_work⟩, ⟨".fantastic", plain_fantastic⟩]

def agentsDir : Segment :=
  ⟨"agents", plain_agents⟩

def noteDir : Segment :=
  ⟨"note", plain_note⟩

/-- A root record, and below it an `agent.json` that holds an empty list. -/
def strayDisk : FileDisk :=
  ((Disk.bare.writeFile fantasticDir agentJson coreText).bind fun disk =>
    disk.writeFile (fantasticDir ++ [agentsDir, noteDir]) agentJson (utf8 "[]")).getD Disk.bare

def strayTree : Anchored strayLoads workDir strayDisk (.ofString ".fantastic") where
  base := fantasticDir
  childrenDir := agentsDir
  record := mapOf [("id", .str "core")]
  rooted := by rfl
  recorded := by rfl
  children := by rfl
  named := ⟨"core", by decide, by rfl⟩
  top := by rfl
  unclashed := by rfl

/-- One valid JSON file that is no object keeps the whole tree from booting. -/
theorem stray_list_stops_the_boot : ¬ strayTree.Boots workDir.runtime := by
  intro boots
  have clean := boots.clean .fresh
  apply clean.objects
  have found : valueAt strayLoads strayDisk
      (fantasticDir ++ [agentsDir] ++ [noteDir] ++ [agentJson]) = some (.list []) := by
    rfl
  exact .direct found trivial

end Fantastic.Python.ColdBoot

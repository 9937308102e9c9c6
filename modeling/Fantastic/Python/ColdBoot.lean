import Fantastic.Foundation.JsonGrammar
import Fantastic.Python.RecordTree

/-!
# Reading a record tree from bytes

`read_tree` and `_walk` once more, this time over files that hold any bytes. `loads` is
`json.loads(fs.read_text(…))`, with none for what the callers catch: text that is not UTF-8
or not JSON. Whatever else it returns is a value, and `rec["parent_id"] = parent_id` raises
on a value that is no object. A walk that meets no such value reads what it reads from the
records alone; one that meets it raises.
-/

namespace Fantastic.Python.ColdBoot

open PurePath (Segment)
open JsonGrammar (mapOf)
open Loader (childrenName stripSlashes recordIn recordAt resolve_join
  resolve_stripSlashes resolve_name)

abbrev FileDisk := Disk Segment (List UInt8)

section Reading

variable (loads : List UInt8 → Option Value)

/-- `json.loads(fs.read_text(root, path))`, if it returns. -/
def valueAt (disk : FileDisk) (place : Place) : Option Value :=
  match disk.at? place with
  | some (.file bytes) => loads bytes
  | _ => none

/-- `sorted(target.iterdir())`. -/
def listing (disk : FileDisk) (place : Place) : List Segment :=
  (disk.names place).mergeSort fun left right => decide (left.val ≤ right.val)

/-- The loop of `_walk` over the entries of one directory. -/
def walkEntries (process : Process) (disk : FileDisk) (root : PurePath) (childrenDir : String)
    (descend : String → Value → Except PyError (List Dict)) (relDir : String) (parentId : Value) :
    List Segment → Except PyError (List Dict)
  | [] => .ok []
  | name :: names => do
      let rel := stripSlashes (relDir ++ "/" ++ name.val)
      let file ← Fs.resolve process.runtime process.cwd root (rel ++ "/" ++ "agent.json")
      match valueAt loads disk file with
      | none => walkEntries process disk root childrenDir descend relDir parentId names
      | some (.dict members) => do
          let record := mapOf members
          let below ← descend (rel ++ "/" ++ childrenDir) (getD record "id")
          let rest ← walkEntries process disk root childrenDir descend relDir parentId names
          return record.insert "parent_id" parentId :: below ++ rest
      | some _ => .error .typeError

/-- `_walk`. -/
def walk (process : Process) (disk : FileDisk) (root : PurePath) (childrenDir : String) :
    Nat → String → Value → Except PyError (List Dict)
  | 0, _, _ => .ok []
  | fuel + 1, relDir, parentId => do
      let place ← Fs.resolve process.runtime process.cwd root relDir
      if disk.isDir place then
        walkEntries loads process disk root childrenDir
          (walk process disk root childrenDir fuel) relDir parentId (listing disk place)
      else return []

/-- The length of the longest path. -/
def depth (disk : FileDisk) : Nat :=
  disk.entries.keys.foldr (fun path deepest => max path.length deepest) 0

/-- `read_tree`. -/
def readTree (process : Process) (disk : FileDisk) (root : PurePath) :
    Except PyError (List Dict) := do
  let file ← Fs.resolve process.runtime process.cwd root "agent.json"
  match valueAt loads disk file with
  | none => return []
  | some (.dict members) => do
      let rootRecord := mapOf members
      let childrenDir := childrenName rootRecord
      let rest ← walk loads process disk root childrenDir (depth disk + 1) childrenDir
        (getD rootRecord "id")
      return rootRecord :: rest
  | some _ => .error .attributeError

/-- What a file is to a reader of records. -/
def document (bytes : List UInt8) : Document :=
  match loads bytes with
  | some (.dict members) => .json (mapOf members)
  | _ => .text ""

/-- The records on the disk, and other text. -/
def parsed (disk : FileDisk) : RecordDisk :=
  disk.mapFiles (document loads)

end Reading

variable {loads : List UInt8 → Option Value} {disk : FileDisk}

theorem recordAt_parsed (place : Place) :
    recordAt (parsed loads disk) place =
      match valueAt loads disk place with
      | some (.dict members) => some (mapOf members)
      | _ => none := by
  unfold recordAt valueAt parsed
  rw [Disk.at?_mapFiles]
  cases disk.at? place with
  | none => rfl
  | some entry =>
    cases entry with
    | directory => rfl
    | file bytes =>
      simp only [Option.map_some, Entry.map, document]
      cases loads bytes with
      | none => rfl
      | some value => cases value <;> rfl

theorem listing_eq (place : Place) :
    listing disk place = Loader.sortedNames (parsed loads disk) place := by
  unfold listing Loader.sortedNames parsed
  rw [Disk.names_mapFiles]

theorem depth_eq : depth disk = Loader.depth (parsed loads disk) := by
  unfold depth Loader.depth parsed Disk.mapFiles
  rw [OrderedDict.keys_mapItems]

/-- A value that is no object. -/
def Scalar : Value → Prop
  | .dict _ => False
  | _ => True

/-- Below this directory of agents lies an `agent.json` with a value that is no object. -/
inductive Trips (loads : List UInt8 → Option Value) (disk : FileDisk) (childrenDir : Segment) :
    Place → Prop where
  | direct {dir : Place} {name : Segment} {value : Value}
      (found : valueAt loads disk (dir ++ [name] ++ [agentJson]) = some value)
      (scalar : Scalar value) : Trips loads disk childrenDir dir
  | nested {dir : Place} {name : Segment} {record : Dict}
      (found : recordIn (parsed loads disk) (dir ++ [name]) = some record)
      (deeper : Trips loads disk childrenDir (dir ++ [name] ++ [childrenDir])) :
      Trips loads disk childrenDir dir

variable {process : Process} {root : PurePath} {childrenDir : Segment}

/-- A walk that meets no such value is the walk over the records. -/
theorem walk_of_clear (fuel : Nat) {rel : String} {dir : Place} (parentId : Value)
    (resolved : Fs.resolve process.runtime process.cwd root rel = .ok dir)
    (clear : ¬ Trips loads disk childrenDir dir) :
    walk loads process disk root childrenDir.val fuel rel parentId =
      Loader.walk process (parsed loads disk) root childrenDir.val fuel rel parentId := by
  induction fuel generalizing rel dir parentId with
  | zero => rfl
  | succ fuel ih =>
    have entries (names : List Segment) :
        walkEntries loads process disk root childrenDir.val
            (walk loads process disk root childrenDir.val fuel) rel parentId names =
          Loader.walkEntries process (parsed loads disk) root childrenDir.val
            (Loader.walk process (parsed loads disk) root childrenDir.val fuel) rel parentId
            names := by
      induction names with
      | nil => rfl
      | cons name names rest =>
        have entry := resolve_stripSlashes process root (resolve_join resolved name)
        have file := resolve_join entry agentJson
        have record := @recordAt_parsed loads disk (dir ++ [name] ++ [agentJson])
        rw [walkEntries, Loader.walkEntries, show "agent.json" = agentJson.val from rfl, file]
        simp only [bind, Except.bind, record]
        cases value : valueAt loads disk (dir ++ [name] ++ [agentJson]) with
        | none => exact rest
        | some value' =>
          cases value' with
          | dict members =>
            have found : recordIn (parsed loads disk) (dir ++ [name]) =
                some (mapOf members) := by
              rw [recordIn, record, value]
            have below := ih (getD (mapOf members) "id") (resolve_join entry childrenDir)
              (fun deeper => clear (.nested found deeper))
            simp only [below, rest]
          | _ => exact absurd (Trips.direct value trivial) clear
    rw [walk, Loader.walk, resolved]
    simp only [bind, Except.bind, entries, parsed, Disk.isDir_mapFiles]
    rw [listing_eq]
    rfl

/-- A loop that returns has skipped each of its entries or walked below it. -/
theorem walkEntries_ok {descend : String → Value → Except PyError (List Dict)} {rel : String}
    {dir : Place} {parentId : Value}
    (resolved : Fs.resolve process.runtime process.cwd root rel = .ok dir) :
    ∀ {names : List Segment} {records : List Dict},
      walkEntries loads process disk root childrenDir.val descend rel parentId names =
        .ok records → ∀ name ∈ names,
      valueAt loads disk (dir ++ [name] ++ [agentJson]) = none ∨
        ∃ members below, valueAt loads disk (dir ++ [name] ++ [agentJson]) = some (.dict members) ∧
          descend (stripSlashes (rel ++ "/" ++ name.val) ++ "/" ++ childrenDir.val)
            (getD (mapOf members) "id") = .ok below
  | [], _, _ => by simp
  | first :: names, records, ran => by
      have file := resolve_join (resolve_stripSlashes process root (resolve_join resolved first))
        agentJson
      rw [walkEntries, show "agent.json" = agentJson.val from rfl, file] at ran
      simp only [bind, Except.bind] at ran
      intro name listed
      cases value : valueAt loads disk (dir ++ [first] ++ [agentJson]) with
      | none =>
        rw [value] at ran
        obtain same | later := List.mem_cons.mp listed
        · rw [same]
          exact .inl value
        · exact walkEntries_ok resolved ran name later
      | some found =>
        cases found with
        | dict members =>
          simp only [value] at ran
          cases below : descend
              (stripSlashes (rel ++ "/" ++ first.val) ++ "/" ++ childrenDir.val)
              (getD (mapOf members) "id") with
          | error failure =>
            rw [below] at ran
            cases ran
          | ok records' =>
            rw [below] at ran
            simp only at ran
            obtain same | later := List.mem_cons.mp listed
            · rw [same]
              exact .inr ⟨members, records', value, below⟩
            · cases rest : walkEntries loads process disk root childrenDir.val descend rel
                  parentId names with
              | error failure =>
                rw [rest] at ran
                cases ran
              | ok others => exact walkEntries_ok resolved rest name later
        | _ =>
          simp only [value] at ran
          cases ran

theorem valueAt_there {place : Place} {value : Value}
    (found : valueAt loads disk place = some value) : disk.at? place ≠ none := by
  intro missing
  simp [valueAt, missing] at found

theorem length_le_depth {place : Place} (there : disk.at? place ≠ none) :
    place.length ≤ depth disk := by
  rw [@depth_eq (fun _ => none) disk]
  apply Loader.length_le_depth
  rw [parsed, Disk.at?_mapFiles]
  simpa using there

/-- One level of a walk that returns. -/
theorem walk_ok {fuel : Nat} {rel : String} {dir : Place} {parentId : Value} {records : List Dict}
    (resolved : Fs.resolve process.runtime process.cwd root rel = .ok dir)
    (ran : walk loads process disk root childrenDir.val (fuel + 1) rel parentId = .ok records)
    {name : Segment} {value : Value}
    (found : valueAt loads disk (dir ++ [name] ++ [agentJson]) = some value) :
    ∃ members below, value = .dict members ∧
      walk loads process disk root childrenDir.val fuel
        (stripSlashes (rel ++ "/" ++ name.val) ++ "/" ++ childrenDir.val)
        (getD (mapOf members) "id") = .ok below := by
  have entry : disk.at? (dir ++ [name]) ≠ none := by
    rw [Disk.parent_directory (valueAt_there found)]
    simp
  have directory : disk.isDir dir = true := Disk.isDir_iff.mpr (Disk.parent_directory entry)
  have listed : name ∈ listing disk dir := by
    rw [listing, (List.mergeSort_perm _ _).mem_iff]
    exact Disk.mem_names.mpr entry
  rw [walk, resolved] at ran
  simp only [bind, Except.bind, if_pos directory] at ran
  obtain missing | ⟨members, below, there, walked⟩ := walkEntries_ok resolved ran name listed
  · rw [found] at missing
    cases missing
  · rw [found] at there
    exact ⟨members, below, Option.some.inj there, walked⟩

/-- A walk that meets a value that is no object raises. -/
theorem walk_of_trips {dir : Place} (trips : Trips loads disk childrenDir dir) :
    ∀ {fuel : Nat} {rel : String} (parentId : Value),
      Fs.resolve process.runtime process.cwd root rel = .ok dir →
      depth disk < dir.length + fuel → ∀ records,
        walk loads process disk root childrenDir.val fuel rel parentId ≠ .ok records := by
  induction trips with
  | @direct dir name value found scalar =>
    intro fuel rel parentId resolved enough records ran
    have short := length_le_depth (valueAt_there found)
    simp only [List.length_append, List.length_singleton] at short
    obtain ⟨fuel, rfl⟩ : ∃ less, fuel = less + 1 := ⟨fuel - 1, by omega⟩
    obtain ⟨members, _, same, _⟩ := walk_ok resolved ran found
    rw [same] at scalar
    exact scalar
  | @nested dir name record found deeper ih =>
    intro fuel rel parentId resolved enough records ran
    rw [recordIn, recordAt_parsed] at found
    split at found
    case h_1 members value =>
      have short := length_le_depth (valueAt_there value)
      simp only [List.length_append, List.length_singleton] at short
      obtain ⟨fuel, rfl⟩ : ∃ less, fuel = less + 1 := ⟨fuel - 1, by omega⟩
      obtain ⟨_, below, _, walked⟩ := walk_ok resolved ran value
      apply ih _ _ _ _ walked
      · exact resolve_join (resolve_stripSlashes process root (resolve_join resolved name))
          childrenDir
      · simp only [List.length_append, List.length_singleton]
        omega
    · cases found

/-- `read_tree` returns exactly if it meets no value that is no object, and then it returns
what it reads from the records. -/
theorem readTree_ok_iff {base : Place} {rootRecord : Dict}
    (rooted : Fs.resolveRoot process.runtime process.cwd root = .ok base)
    (anchored : recordIn (parsed loads disk) base = some rootRecord)
    (children : childrenName rootRecord = childrenDir.val) (records : List Dict) :
    readTree loads process disk root = .ok records ↔
      ¬ Trips loads disk childrenDir (base ++ [childrenDir]) ∧
        Loader.readTree process (parsed loads disk) root = .ok records := by
  have file := resolve_name rooted agentJson
  have opened : recordAt (parsed loads disk) (base ++ [agentJson]) = some rootRecord := anchored
  have value := opened
  rw [recordAt_parsed] at value
  split at value
  case h_2 => cases value
  case h_1 members found =>
    cases value
    rw [readTree, Loader.readTree, show "agent.json" = agentJson.val from rfl, file]
    simp only [bind, Except.bind, found, opened, children]
    by_cases trips : Trips loads disk childrenDir (base ++ [childrenDir])
    · constructor
      · intro ran
        cases walked : walk loads process disk root childrenDir.val (depth disk + 1)
            childrenDir.val (getD (mapOf members) "id") with
        | error failure =>
          rw [walked] at ran
          cases ran
        | ok below =>
          exact absurd walked (walk_of_trips trips _ (resolve_name rooted childrenDir)
            (by simp only [List.length_append, List.length_singleton]; omega) below)
      · intro both
        exact absurd trips both.1
    · rw [walk_of_clear _ _ (resolve_name rooted childrenDir) trips, @depth_eq loads disk]
      simp [trips]

end Fantastic.Python.ColdBoot

import Fantastic.Python.RecordWrites

/-!
# Session loaders

A loader with a root of its own serves a sub-namespace for a federated kernel: that
kernel's records arrive one by one through `persist_record`, and `load_tree` hands them
back. The host kernel holds none of the foreign agents, so `_resolve_path` can follow a
parent chain for one step only, while `read_tree` follows it as deep as the directories go.

The results say when the two agree. The loader's children directory is a single name and
not that of a file the loader writes itself.
-/

namespace Fantastic.Python.Loader

open PurePath (Segment)

/-- A record as a federated kernel sends it. `parent` is none under the loader. -/
structure ForeignRecord (loaderId : String) where
  id : Segment
  parent : Option Segment
  record : Dict
  showsId : record.get? "id" = some (.str id.val)
  showsParent : record.get? "parent_id" = some (.str ((parent.map Subtype.val).getD loaderId))

/-- A finite rooted tree of foreign records. -/
structure ForeignTree (loaderId : String) where
  records : List (ForeignRecord loaderId)
  root : ForeignRecord loaderId
  rooted : root ∈ records
  rootParent : root.parent = none
  distinct : (records.map ForeignRecord.id).Nodup
  parents : ∀ record ∈ records, record = root ∨ ∃ above ∈ records, record.parent = some above.id
  rank : Segment → Nat
  ranked : ∀ record ∈ records, ∀ above, record.parent = some above → rank above < rank record.id

/-- A loader agent with a namespace of its own, and what the host holds. -/
structure Session (process : Process) (kernel : Kernel) (loader : Nat) where
  loaderId : String
  root : PurePath
  base : Place
  childrenDir : Segment
  named : (kernel.heap loader).id = .str loaderId
  registered : kernel.agents.get? (.str loaderId) = some loader
  recorded : (kernel.record loader).get? "id" = some (.str loaderId)
  rooted : rootAddress kernel loader = .path root
  apart : Address.path root ≠ (kernel.heap loader).address
  resolved : Fs.resolveRoot process.runtime process.cwd root = .ok base
  children : childrenName (kernel.record loader) = childrenDir.val
  usable : childrenDir ∉ ownFiles

/-- The host kernel holds none of the foreign ids. -/
def Foreign (kernel : Kernel) {loaderId : String} (tree : ForeignTree loaderId) : Prop :=
  ∀ record ∈ tree.records, kernel.agents.get? (.str record.id.val) = none

/-- Nothing lies below the namespace yet, and no file is in its way. -/
structure Vacant (disk : RecordDisk) (base : Place) : Prop where
  clear : ∀ front, front <+: base → ∀ content, disk.at? front ≠ some (.file content)
  empty : ∀ rest, rest ≠ [] → disk.at? (base ++ rest) = none

/-- `persist_record` for one record after another, whatever each answers. -/
def persistAll (process : Process) (packageReadme : String → Option String) (kernel : Kernel)
    (self : Nat) {loaderId : String} (disk : RecordDisk) (records : List (ForeignRecord loaderId)) :
    RecordDisk :=
  records.foldl
    (fun disk record => (persistRecord process packageReadme kernel self (some record.record) disk).1)
    disk

section Session

variable {process : Process} {packageReadme : String → Option String} {kernel : Kernel}
  {loader : Nat} (session : Session process kernel loader)

/-- The ids on the way to the directory `persist_record` uses: at most one above it. -/
def ForeignRecord.trail {loaderId : String} (record : ForeignRecord loaderId) : List Segment :=
  record.parent.toList ++ [record.id]

/-- The directory a foreign record is written to. -/
def Session.dirOf (record : ForeignRecord session.loaderId) : Place :=
  session.base ++ nodePath session.childrenDir record.trail

theorem Session.recordAddress_eq (record : ForeignRecord session.loaderId)
    (fresh : kernel.agents.get? (.str record.id.val) = none)
    (freshParent : ∀ above, record.parent = some above →
      kernel.agents.get? (.str above.val) = none) :
    recordAddress kernel loader record.record =
      .ok (.path (descend session.root (nodePath session.childrenDir record.trail))) := by
  have id : getD record.record "id" = .str record.id.val := by simp [getD, record.showsId]
  have parentId : getD record.record "parent_id" =
      .str ((record.parent.map Subtype.val).getD session.loaderId) := by
    simp [getD, record.showsParent]
  have chain : parentChain kernel loader (kernel.agents.keys.length + 2) []
      (.str ((record.parent.map Subtype.val).getD session.loaderId)) =
        .ok (record.parent.toList.map fun above => .str above.val) := by
    cases parent : record.parent with
    | none =>
      simp only [Option.map_none, Option.getD_none, Option.toList_none, List.map_nil]
      unfold parentChain
      split
      · rfl
      · simp [hashKey, session.named, bind, Except.bind]
        rfl
    | some above =>
      have unheld := freshParent above parent
      have other : session.loaderId ≠ above.val := by
        intro same
        have held := session.registered
        rw [same, unheld] at held
        cases held
      have truth : truthy (.str above.val) = true := by
        simp [truthy, above.property.1]
      simp only [Option.map_some, Option.getD_some, Option.toList_some, List.map_cons,
        List.map_nil]
      unfold parentChain
      simp only [truth, hashKey, session.named, bind, Except.bind, hostRecord, unheld]
      unfold parentChain
      simp [other, truthy, pure, Except.pure]
  have spelled : (Value.str record.id.val ::
      record.parent.toList.map fun above => Value.str above.val).reverse =
        record.trail.map fun id => Value.str id.val := by
    unfold ForeignRecord.trail
    cases record.parent <;> rfl
  have hashed : hashKey (getD record.record "id") = .ok (.str record.id.val) := by
    rw [id]
    rfl
  rw [recordAddress, hashed]
  simp only [bind, Except.bind, fresh, resolvePath, parentId, chain, id, session.children,
    session.rooted, spelled]
  exact join_ids session.childrenDir record.trail session.root

/-- The records the namespace holds: the anchor, and those of `done` that dump. -/
structure Session.Holds (disk : RecordDisk) (done : List (ForeignRecord session.loaderId)) :
    Prop where
  tidy : Tidy disk session.base session.childrenDir
  holds : ∀ rest found, recordIn disk (session.base ++ rest) = some found ↔
    (rest = [] ∧ found = kernel.record loader) ∨
      ∃ record ∈ done, jsonableMembers record.record.entries = true ∧
        rest = nodePath session.childrenDir record.trail ∧ found = record.record

theorem trail_last {loaderId : String} {first second : ForeignRecord loaderId}
    (same : first.trail = second.trail) : first.id = second.id := by
  have last := congrArg List.getLast? same
  simpa [ForeignRecord.trail] using last

/-- Seeding a vacant namespace leaves the anchor and nothing else. -/
theorem Session.seeded {disk : RecordDisk} (vacant : Vacant disk session.base)
    (dumps : jsonableMembers (kernel.record loader).entries = true) :
    session.Holds (seedAnchor process packageReadme kernel loader disk).1 [] := by
  have tidy : Tidy disk session.base session.childrenDir := by
    constructor
    · exact vacant.clear
    · intro rest content there
      by_cases top : rest = []
      · rw [top, List.append_nil] at there
        exact absurd there (vacant.clear _ List.prefix_rfl content)
      · rw [vacant.empty rest top] at there
        cases there
    · intro rest name _ _
      rw [List.append_assoc, vacant.empty _ (by simp)]
      simp
  have placed : (Fs.resolvePath process.cwd session.root).2 = session.base := by
    have resolved := session.resolved
    simp only [Fs.resolveRoot] at resolved
    split at resolved
    case isTrue => exact Except.ok.inj resolved
    case isFalse => cases resolved
  have nothing : disk.exists? ((Fs.resolvePath process.cwd session.root).2 ++ [agentJson]) =
      false := by
    rw [placed, Disk.exists?, vacant.empty _ (by simp)]
    rfl
  have rooted : Fs.resolveRoot process.runtime process.cwd session.root =
      .ok (session.base ++ nodePath session.childrenDir []) := by
    rw [session.resolved, nodePath, List.flatMap_nil, List.append_nil]
  have none (rest : Place) : recordIn disk (session.base ++ rest) = none := by
    rw [recordIn, recordAt, List.append_assoc, vacant.empty _ (by simp)]
  obtain ⟨tidied, records⟩ := writeRecord_effect process packageReadme tidy session.usable
    (kernel.record loader) rooted
  have seeding : seedAnchor process packageReadme kernel loader disk =
      writeRecord process packageReadme session.root (kernel.record loader) disk := by
    simp [seedAnchor, session.rooted, session.apart, nothing]
  rw [seeding]
  refine ⟨tidied, ?_⟩
  intro rest found
  rw [records, none, Option.getD_none, OrderedDict.empty_update]
  simp only [dumps, and_true, none, nodePath, List.flatMap_nil, List.append_nil,
    List.append_right_eq_self, List.not_mem_nil, false_and, exists_false, or_false]
  by_cases top : rest = []
  · simp [top, eq_comm]
  · simp [top]

/-- One more record, and what the namespace holds then. -/
theorem Session.persisted {disk : RecordDisk} {done : List (ForeignRecord session.loaderId)}
    (held : session.Holds disk done) (record : ForeignRecord session.loaderId)
    (fresh : kernel.agents.get? (.str record.id.val) = none)
    (freshParent : ∀ above, record.parent = some above →
      kernel.agents.get? (.str above.val) = none)
    (new : record.id ∉ done.map ForeignRecord.id) :
    session.Holds
      (persistRecord process packageReadme kernel loader (some record.record) disk).1
      (done ++ [record]) := by
  have truth : truthy (getD record.record "id") = true := by
    simp [getD, record.showsId, truthy, record.id.property.1]
  have writes : (persistRecord process packageReadme kernel loader (some record.record) disk).1 =
      (writeRecord process packageReadme
        (descend session.root (nodePath session.childrenDir record.trail)) record.record disk).1 := by
    simp only [persistRecord, truth, session.recordAddress_eq record fresh freshParent,
      addressPath, Bool.not_true, Bool.false_eq_true, if_false]
    split <;> simp_all
  have nothing : recordIn disk (session.base ++ nodePath session.childrenDir record.trail) =
      none := by
    rw [Option.eq_none_iff_forall_not_mem]
    intro found there
    cases (held.holds _ found).mp there with
    | inl top => simp [ForeignRecord.trail, nodePath] at top
    | inr earlier =>
      obtain ⟨other, member, -, path, -⟩ := earlier
      have sameId := trail_last (nodePath_injective session.childrenDir path)
      exact new (sameId ▸ List.mem_map_of_mem member)
  obtain ⟨tidied, records⟩ := writeRecord_effect process packageReadme held.tidy session.usable
    record.record (resolveRoot_descend session.resolved _)
  rw [writes]
  refine ⟨tidied, ?_⟩
  intro rest found
  rw [records, nothing, Option.getD_none, OrderedDict.empty_update]
  simp only [List.append_cancel_left_eq]
  by_cases here : rest = nodePath session.childrenDir record.trail ∧
      jsonableMembers record.record.entries = true
  · rw [if_pos here]
    obtain ⟨rfl, dumps⟩ := here
    constructor
    · intro same
      exact Or.inr ⟨record, by simp, dumps, rfl, (Option.some.inj same).symm⟩
    · rintro (⟨top, -⟩ | ⟨other, member, -, path, rfl⟩)
      · simp [ForeignRecord.trail, nodePath] at top
      · cases List.mem_append.mp member with
        | inl earlier =>
          have sameId := trail_last (nodePath_injective session.childrenDir path)
          exact absurd (sameId ▸ List.mem_map_of_mem earlier) new
        | inr this => rw [List.mem_singleton.mp this]
  · rw [if_neg here, held.holds]
    constructor
    · rintro (top | ⟨other, member, rest⟩)
      · exact Or.inl top
      · exact Or.inr ⟨other, List.mem_append_left _ member, rest⟩
    · rintro (top | ⟨other, member, dumps, path, same⟩)
      · exact Or.inl top
      · cases List.mem_append.mp member with
        | inl earlier => exact Or.inr ⟨other, earlier, dumps, path, same⟩
        | inr this =>
          rw [List.mem_singleton.mp this] at path dumps
          exact absurd ⟨path, dumps⟩ here

theorem Session.persistedAll {disk : RecordDisk} {done : List (ForeignRecord session.loaderId)}
    (held : session.Holds disk done) (records : List (ForeignRecord session.loaderId))
    (fresh : ∀ record ∈ records, kernel.agents.get? (.str record.id.val) = none)
    (freshParent : ∀ record ∈ records, ∀ above, record.parent = some above →
      kernel.agents.get? (.str above.val) = none)
    (distinct : ((done ++ records).map ForeignRecord.id).Nodup) :
    session.Holds (persistAll process packageReadme kernel loader disk records)
      (done ++ records) := by
  induction records generalizing disk done with
  | nil => simpa [persistAll] using held
  | cons record records ih =>
    have new : record.id ∉ done.map ForeignRecord.id := by
      rw [List.map_append, List.nodup_append] at distinct
      intro earlier
      exact distinct.2.2 _ earlier _ (by simp) rfl
    have next := @Session.persisted process packageReadme kernel loader session disk done held
      record (fresh record (by simp)) (freshParent record (by simp)) new
    rw [List.append_cons] at distinct ⊢
    exact ih next (fun other member => fresh other (by simp [member]))
      (fun other member => freshParent other (by simp [member])) distinct

theorem trail_eq_one {loaderId : String} {record : ForeignRecord loaderId} {name : Segment}
    (path : record.trail = [name]) : record.parent = none ∧ record.id = name := by
  unfold ForeignRecord.trail at path
  cases parent : record.parent <;> simp_all

theorem trail_eq_two {loaderId : String} {record : ForeignRecord loaderId} {first second : Segment}
    (path : record.trail = [first, second]) :
    record.parent = some first ∧ record.id = second := by
  unfold ForeignRecord.trail at path
  cases parent : record.parent <;> simp_all

theorem trail_length_le {loaderId : String} (record : ForeignRecord loaderId) :
    record.trail.length ≤ 2 := by
  unfold ForeignRecord.trail
  cases record.parent <;> simp

/-- A record `read_tree` gets to: its parent is the loader, or hangs there itself. -/
def Near {loaderId : String} (done : List (ForeignRecord loaderId))
    (record : ForeignRecord loaderId) : Prop :=
  record.parent = none ∨ ∃ above ∈ done, above.parent = none ∧
    jsonableMembers above.record.entries = true ∧ record.parent = some above.id

def Session.findingOf (record : ForeignRecord session.loaderId) : Finding where
  place := session.dirOf record
  parentId := .str ((record.parent.map Subtype.val).getD session.loaderId)
  record := record.record

/-- What `held` says about one directory of the layout. -/
theorem Session.Holds.at_node {disk : RecordDisk} {done : List (ForeignRecord session.loaderId)}
    (held : session.Holds disk done) {ids : List Segment} (inner : ids ≠ []) {found : Dict}
    (there : recordIn disk (session.base ++ nodePath session.childrenDir ids) = some found) :
    ∃ record ∈ done, jsonableMembers record.record.entries = true ∧ record.trail = ids ∧
      found = record.record := by
  cases (held.holds _ found).mp there with
  | inl top =>
    have empty := congrArg List.length top.1
    rw [nodePath_length, List.length_nil] at empty
    have none : ids.length = 0 := by omega
    exact absurd (List.length_eq_zero_iff.mp none) inner
  | inr earlier =>
    obtain ⟨record, member, dumps, path, same⟩ := earlier
    exact ⟨record, member, dumps, (nodePath_injective session.childrenDir path).symm, same⟩

theorem Session.Holds.stored_iff {disk : RecordDisk}
    {done : List (ForeignRecord session.loaderId)} (held : session.Holds disk done)
    (finding : Finding) :
    Stored disk session.childrenDir (session.base ++ [session.childrenDir])
        (.str session.loaderId) finding ↔
      ∃ record ∈ done, jsonableMembers record.record.entries = true ∧ Near done record ∧
        finding = session.findingOf record := by
  have one (name : Segment) : session.base ++ [session.childrenDir] ++ [name] =
      session.base ++ nodePath session.childrenDir [name] := by simp [nodePath]
  have two (first second : Segment) :
      session.base ++ nodePath session.childrenDir [first] ++ [session.childrenDir] ++ [second] =
        session.base ++ nodePath session.childrenDir [first, second] := by simp [nodePath]
  constructor
  · intro stored
    cases stored with
    | @direct _ _ name found there =>
      rw [one] at there ⊢
      obtain ⟨record, member, dumps, path, rfl⟩ := held.at_node session (by simp) there
      refine ⟨record, member, dumps, Or.inl (trail_eq_one path).1, ?_⟩
      simp [Session.findingOf, Session.dirOf, path, (trail_eq_one path).1]
    | @nested _ _ name found _ there deeper =>
      rw [one] at there deeper
      obtain ⟨above, aboveIn, aboveDumps, path, rfl⟩ := held.at_node session (by simp) there
      obtain ⟨hung, named⟩ := trail_eq_one path
      have aboveId : getD above.record "id" = .str name.val := by
        simp [getD, above.showsId, named]
      rw [aboveId] at deeper
      cases deeper with
      | @direct _ _ second found there =>
        rw [two] at there ⊢
        obtain ⟨record, member, dumps, path, rfl⟩ := held.at_node session (by simp) there
        obtain ⟨parent, -⟩ := trail_eq_two path
        refine ⟨record, member, dumps,
          Or.inr ⟨above, aboveIn, hung, aboveDumps, by rw [parent, named]⟩, ?_⟩
        simp [Session.findingOf, Session.dirOf, path, parent]
      | @nested _ _ second found _ there deepest =>
        -- three levels down nothing was ever written
        obtain ⟨third, rest, place⟩ := deepest.place_below
        have recorded := deepest.recorded
        rw [place, two, List.append_assoc, List.append_assoc] at recorded
        cases (held.holds _ _).mp recorded with
        | inl top => simp at top
        | inr earlier =>
          obtain ⟨record, -, -, path, -⟩ := earlier
          have lengths := congrArg List.length path
          have short := trail_length_le record
          simp only [List.length_append, nodePath_length, List.length_cons,
            List.length_nil] at lengths
          omega
  · rintro ⟨record, member, dumps, near, rfl⟩
    have there : recordIn disk (session.dirOf record) = some record.record :=
      (held.holds _ _).mpr (Or.inr ⟨record, member, dumps, rfl, rfl⟩)
    cases near with
    | inl hung =>
      have path : record.trail = [record.id] := by simp [ForeignRecord.trail, hung]
      rw [Session.dirOf, path, ← one] at there
      have stored := @Stored.direct disk session.childrenDir _ (.str session.loaderId) _ _ there
      rw [one] at stored
      simpa [Session.findingOf, Session.dirOf, path, hung] using stored
    | inr under =>
      obtain ⟨above, aboveIn, hung, aboveDumps, parent⟩ := under
      have abovePath : above.trail = [above.id] := by simp [ForeignRecord.trail, hung]
      have path : record.trail = [above.id, record.id] := by
        simp [ForeignRecord.trail, parent]
      have aboveThere : recordIn disk (session.dirOf above) = some above.record :=
        (held.holds _ _).mpr (Or.inr ⟨above, aboveIn, aboveDumps, rfl, rfl⟩)
      rw [Session.dirOf, abovePath, ← one] at aboveThere
      rw [Session.dirOf, path, ← two] at there
      have aboveId : getD above.record "id" = .str above.id.val := by
        simp [getD, above.showsId]
      have inner := @Stored.direct disk session.childrenDir _ (.str above.id.val) _ _ there
      rw [← aboveId, ← one] at inner
      have stored := @Stored.nested disk session.childrenDir _ (.str session.loaderId) _ _ _
        aboveThere inner
      rw [one, two, aboveId] at stored
      simpa [Session.findingOf, Session.dirOf, path, parent] using stored

theorem Session.findingOf_positioned (record : ForeignRecord session.loaderId) :
    (session.findingOf record).positioned = record.record :=
  OrderedDict.insert_of_get? record.showsParent

theorem Session.findingOf_place_injective {first second : ForeignRecord session.loaderId}
    (same : (session.findingOf first).place = (session.findingOf second).place) :
    first.id = second.id := by
  simp only [Session.findingOf, Session.dirOf, List.append_cancel_left_eq] at same
  exact trail_last (nodePath_injective session.childrenDir same)

/-- What `load_tree` answers, once the anchor and the records are in place. -/
theorem Session.Holds.loaded {disk : RecordDisk} {done : List (ForeignRecord session.loaderId)}
    (held : session.Holds disk done) :
    ∃ found : List Finding,
      loadTree process kernel loader disk =
        .ok (kernel.record loader :: found.map Finding.positioned) ∧
      (found.map Finding.place).Nodup ∧
      ∀ finding, finding ∈ found ↔
        ∃ record ∈ done, jsonableMembers record.record.entries = true ∧ Near done record ∧
          finding = session.findingOf record := by
  have anchored : recordIn disk session.base = some (kernel.record loader) := by
    have top := (held.holds [] (kernel.record loader)).mpr (Or.inl ⟨rfl, rfl⟩)
    rwa [List.append_nil] at top
  obtain ⟨found, reads, distinct, members⟩ :=
    readTree_eq session.resolved anchored session.children
  have anchorId : getD (kernel.record loader) "id" = .str session.loaderId := by
    simp [getD, session.recorded]
  refine ⟨found, ?_, distinct, ?_⟩
  · rw [loadTree, session.rooted]
    exact reads
  · intro finding
    rw [members, anchorId]
    exact held.stored_iff session finding

variable (tree : ForeignTree session.loaderId)

/-- The namespace after every record of a tree was sent, in any order. -/
theorem Session.sent (foreign : Foreign kernel tree) {disk : RecordDisk}
    (vacant : Vacant disk session.base)
    (dumps : jsonableMembers (kernel.record loader).entries = true)
    {order : List (ForeignRecord session.loaderId)} (arrival : order.Perm tree.records) :
    session.Holds
      (persistAll process packageReadme kernel loader
        (seedAnchor process packageReadme kernel loader disk).1 order) order := by
  have start := @Session.seeded process packageReadme kernel loader session disk vacant dumps
  apply @Session.persistedAll process packageReadme kernel loader session _ [] start order
  · intro record member
    exact foreign record (arrival.mem_iff.mp member)
  · intro record member above parent
    cases tree.parents record (arrival.mem_iff.mp member) with
    | inl isRoot => simp [isRoot, tree.rootParent] at parent
    | inr held =>
      obtain ⟨upper, upperIn, hung⟩ := held
      rw [parent, Option.some.injEq] at hung
      rw [hung]
      exact foreign upper upperIn
  · exact ((arrival.map ForeignRecord.id).nodup_iff).mpr tree.distinct

/-- A record that is listed lies at most one step below the foreign root. -/
theorem Session.listed_shallow (foreign : Foreign kernel tree) {disk : RecordDisk}
    (vacant : Vacant disk session.base)
    (dumps : jsonableMembers (kernel.record loader).entries = true)
    {order : List (ForeignRecord session.loaderId)} (arrival : order.Perm tree.records)
    {answer : List Dict}
    (reads : loadTree process kernel loader
      (persistAll process packageReadme kernel loader
        (seedAnchor process packageReadme kernel loader disk).1 order) = .ok answer)
    {record : ForeignRecord session.loaderId} (member : record ∈ tree.records)
    (listed : record.record ∈ answer) :
    jsonableMembers record.record.entries = true ∧
      (record = tree.root ∨ record.parent = some tree.root.id) := by
  have held := @Session.sent process packageReadme kernel loader session tree foreign disk vacant
    dumps order arrival
  obtain ⟨found, loaded, -, members⟩ := held.loaded session
  rw [loaded] at reads
  cases reads
  cases List.mem_cons.mp listed with
  | inl isAnchor =>
    have shown := record.showsId
    rw [isAnchor, session.recorded] at shown
    have held := session.registered
    rw [Value.str.inj (Option.some.inj shown), foreign record member] at held
    cases held
  | inr below =>
    obtain ⟨finding, findingIn, positioned⟩ := List.mem_map.mp below
    obtain ⟨other, otherIn, otherDumps, near, rfl⟩ := (members finding).mp findingIn
    rw [session.findingOf_positioned] at positioned
    have sameId : other.id = record.id := by
      have shown := other.showsId
      rw [positioned, record.showsId] at shown
      exact Subtype.ext (Value.str.inj (Option.some.inj shown)).symm
    have sameRecord : other = record :=
      List.inj_on_of_nodup_map tree.distinct (arrival.mem_iff.mp otherIn) member sameId
    subst sameRecord
    refine ⟨otherDumps, ?_⟩
    have topmost (upper : ForeignRecord session.loaderId) (upperIn : upper ∈ tree.records)
        (hung : upper.parent = none) : upper = tree.root := by
      cases tree.parents upper upperIn with
      | inl isRoot => exact isRoot
      | inr under =>
        obtain ⟨above, -, parent⟩ := under
        simp [hung] at parent
    cases near with
    | inl hung => exact Or.inl (topmost other member hung)
    | inr under =>
      obtain ⟨above, aboveIn, hung, -, parent⟩ := under
      rw [topmost above (arrival.mem_iff.mp aboveIn) hung] at parent
      exact Or.inr parent

/-- A foreign tree comes back as it was sent exactly when its records dump to JSON and
none of them is more than one step below the foreign root. -/
theorem session_round_trip_iff (foreign : Foreign kernel tree) {disk : RecordDisk}
    (vacant : Vacant disk session.base)
    (dumps : jsonableMembers (kernel.record loader).entries = true)
    {order : List (ForeignRecord session.loaderId)} (arrival : order.Perm tree.records) :
    (∃ answer, loadTree process kernel loader
        (persistAll process packageReadme kernel loader
          (seedAnchor process packageReadme kernel loader disk).1 order) = .ok answer ∧
        answer.Perm (kernel.record loader :: tree.records.map ForeignRecord.record)) ↔
      ∀ record ∈ tree.records, jsonableMembers record.record.entries = true ∧
        (record = tree.root ∨ record.parent = some tree.root.id) := by
  constructor
  · rintro ⟨answer, reads, perm⟩ record member
    apply session.listed_shallow tree foreign vacant dumps arrival reads member
    exact perm.mem_iff.mpr (List.mem_cons_of_mem _ (List.mem_map_of_mem member))
  · intro shallow
    have held := @Session.sent process packageReadme kernel loader session tree foreign disk vacant
      dumps order arrival
    obtain ⟨found, reads, distinct, members⟩ := held.loaded session
    refine ⟨_, reads, List.Perm.cons _ ?_⟩
    have exactly : ∀ finding, finding ∈ found ↔ finding ∈ order.map session.findingOf := by
      intro finding
      rw [members, List.mem_map]
      constructor
      · rintro ⟨record, member, -, -, rfl⟩
        exact ⟨record, member, rfl⟩
      · rintro ⟨record, member, rfl⟩
        have fine := shallow record (arrival.mem_iff.mp member)
        refine ⟨record, member, fine.1, ?_, rfl⟩
        cases fine.2 with
        | inl isRoot => exact Or.inl (isRoot ▸ tree.rootParent)
        | inr parent =>
          exact Or.inr ⟨tree.root, arrival.mem_iff.mpr tree.rooted, tree.rootParent,
            (shallow tree.root tree.rooted).1, parent⟩
    have once : (order.map session.findingOf).Nodup := by
      have ids : (order.map ForeignRecord.id).Nodup :=
        (arrival.map ForeignRecord.id).nodup_iff.mpr tree.distinct
      apply List.Nodup.map_on _ (List.Nodup.of_map _ ids)
      intro first firstIn second secondIn same
      exact List.inj_on_of_nodup_map ids firstIn secondIn
        (session.findingOf_place_injective (congrArg Finding.place same))
    have perm := (List.perm_ext_iff_of_nodup (List.Nodup.of_map _ distinct) once).mpr exactly
    have records := perm.map Finding.positioned
    rw [List.map_map, show Finding.positioned ∘ session.findingOf = ForeignRecord.record from
      funext session.findingOf_positioned] at records
    exact records.trans (arrival.map ForeignRecord.record)

end Session

/-! ### A web session -/

/-- The host's root and a session loader with the namespace `.fantastic/web/s1`. -/
def webKernel : Kernel :=
  (Kernel.fresh.place (.str "kernel_state")
    { id := .str "kernel_state"
      handlerModule := .str "kernel_state.tools"
      parent := none
      address := .path (.ofString ".fantastic")
      children := .empty
      metadata := .empty
      ephemeral := false }).place (.str "s1")
    { id := .str "s1"
      handlerModule := .str "kernel_state.tools"
      parent := some 0
      address := .path (.ofString ".fantastic/agents/s1")
      children := .empty
      metadata := ((OrderedDict.empty.insert "root" (Value.str ".fantastic/web/s1")).insert
        "watch" (.bool false)).insert "children_dir" (.str "web_agents")
      ephemeral := false }

theorem plain_web : PurePath.PlainSegment "web" := by decide

theorem plain_s1 : PurePath.PlainSegment "s1" := by decide

theorem plain_webAgents : PurePath.PlainSegment "web_agents" := by decide

def webSession : Session workDir webKernel 1 where
  loaderId := "s1"
  root := .ofString ".fantastic/web/s1"
  base := [⟨"work", plain_work⟩, ⟨".fantastic", plain_fantastic⟩, ⟨"web", plain_web⟩,
    ⟨"s1", plain_s1⟩]
  childrenDir := ⟨"web_agents", plain_webAgents⟩
  named := by decide
  registered := by decide
  recorded := by decide
  rooted := by decide
  apart := by decide
  resolved := by decide
  children := by decide
  usable := by decide

theorem bare_vacant : Vacant (Disk.bare : RecordDisk) webSession.base := by
  constructor
  · intro front _ content
    by_cases top : front = []
    · simp [top]
    · simp [Disk.at?_bare top]
  · intro rest inner
    exact Disk.at?_bare (by simp [inner])

/-- A record with nothing but its place in the tree. -/
def webRecord (id : Segment) (parent : Option Segment) : ForeignRecord webSession.loaderId where
  id := id
  parent := parent
  record := (OrderedDict.empty.insert "id" (Value.str id.val)).insert "parent_id"
    (.str ((parent.map Subtype.val).getD "s1"))
  showsId := by simp [OrderedDict.get?_insert]
  showsParent := by simp [webSession]

def app : Segment := ⟨"app", by decide⟩
def page : Segment := ⟨"page", by decide⟩
def note : Segment := ⟨"note", by decide⟩

/-- `app`, a `page` in it, and a `note` in that. -/
def deepTree : ForeignTree webSession.loaderId where
  records := [webRecord app none, webRecord page (some app), webRecord note (some page)]
  root := webRecord app none
  rooted := by simp
  rootParent := rfl
  distinct := by decide
  parents := by
    intro record member
    simp only [List.mem_cons, List.not_mem_nil, or_false] at member
    obtain rfl | rfl | rfl := member
    · exact Or.inl rfl
    · exact Or.inr ⟨webRecord app none, by simp, rfl⟩
    · exact Or.inr ⟨webRecord page (some app), by simp, rfl⟩
  rank := fun id => if id = app then 0 else if id = page then 1 else 2
  ranked := by
    intro record member above parent
    simp only [List.mem_cons, List.not_mem_nil, or_false] at member
    obtain rfl | rfl | rfl := member <;> cases parent <;> decide

/-- The same without the `note`. -/
def shallowTree : ForeignTree webSession.loaderId where
  records := [webRecord app none, webRecord page (some app)]
  root := webRecord app none
  rooted := by simp
  rootParent := rfl
  distinct := by decide
  parents := by
    intro record member
    simp only [List.mem_cons, List.not_mem_nil, or_false] at member
    obtain rfl | rfl := member
    · exact Or.inl rfl
    · exact Or.inr ⟨webRecord app none, by simp, rfl⟩
  rank := fun id => if id = app then 0 else 1
  ranked := by
    intro record member above parent
    simp only [List.mem_cons, List.not_mem_nil, or_false] at member
    obtain rfl | rfl := member
    · cases parent
    · cases parent
      decide

theorem deepTree_foreign : Foreign webKernel deepTree := by
  intro record member
  simp only [deepTree, List.mem_cons, List.not_mem_nil, or_false] at member
  obtain rfl | rfl | rfl := member <;> decide

theorem shallowTree_foreign : Foreign webKernel shallowTree := by
  intro record member
  simp only [shallowTree, List.mem_cons, List.not_mem_nil, or_false] at member
  obtain rfl | rfl := member <;> decide

/-- Three levels: the `note` is written under a directory for `page` at the top, where
no record is, and `load_tree` does not get to it. -/
theorem grandchild_is_lost :
    Foreign webKernel deepTree ∧ Vacant (Disk.bare : RecordDisk) webSession.base ∧
      ¬ ∃ answer, loadTree workDir webKernel 1
          (persistAll workDir (fun _ => none) webKernel 1
            (seedAnchor workDir (fun _ => none) webKernel 1 .bare).1 deepTree.records) =
              .ok answer ∧
          answer.Perm (webKernel.record 1 :: deepTree.records.map ForeignRecord.record) := by
  refine ⟨deepTree_foreign, bare_vacant, ?_⟩
  rintro ⟨answer, reads, perm⟩
  have member : webRecord note (some page) ∈ deepTree.records := by simp [deepTree]
  have listed := perm.mem_iff.mpr (List.mem_cons_of_mem _ (List.mem_map_of_mem member))
  have near := (webSession.listed_shallow deepTree deepTree_foreign bare_vacant (by decide)
    (List.Perm.refl _) reads member listed).2
  obtain same | parent := near
  · exact absurd (congrArg ForeignRecord.id same) (by decide)
  · exact absurd parent (by decide)

theorem page_comes_back :
    Foreign webKernel shallowTree ∧ Vacant (Disk.bare : RecordDisk) webSession.base ∧
      ∃ answer, loadTree workDir webKernel 1
          (persistAll workDir (fun _ => none) webKernel 1
            (seedAnchor workDir (fun _ => none) webKernel 1 .bare).1
            [webRecord page (some app), webRecord app none]) = .ok answer ∧
          answer.Perm (webKernel.record 1 :: shallowTree.records.map ForeignRecord.record) := by
  refine ⟨shallowTree_foreign, bare_vacant, ?_⟩
  have arrival : [webRecord page (some app), webRecord app none].Perm shallowTree.records :=
    List.Perm.swap _ _ _
  apply (session_round_trip_iff webSession shallowTree shallowTree_foreign bare_vacant (by decide)
    arrival).mpr
  intro record member
  simp only [shallowTree, List.mem_cons, List.not_mem_nil, or_false] at member
  obtain rfl | rfl := member
  · exact ⟨by decide, Or.inl rfl⟩
  · exact ⟨by decide, Or.inr rfl⟩

end Fantastic.Python.Loader

import Fantastic.Python.KernelEffect
import Fantastic.Python.Snapshot

/-!
# When a snapshot round-trips

A record is a flat overlay, so what `load` reads back depends on which keys the meta
of an agent can hold. Here the kernel is at rest: if the live tree is a tree and no
meta holds a key that `load` gives another meaning, then `save` succeeds, its
records validate, and `load` rebuilds the same tree in any kernel.
-/

namespace Fantastic.Python.Kernel

open Fantastic.ParentForest (Link Ranked childrenOf preorder)

variable {kernel : Kernel} {ref : Nat}

/-- The keys `load` takes out of a record, and those that collide with a parameter of
`Agent` when they are left in its meta. -/
def reservedKeys : List String :=
  ["id", "handler_module", "parent_id", "self", "root_path", "ctx", "parent"]

/-- An agent that a snapshot can carry. -/
structure Savable (agent : Agent) : Prop where
  named : ∃ text, text ≠ "" ∧ agent.id = .str text
  unreserved : ∀ name ∈ reservedKeys, name ∉ agent.metadata.keys
  persistent : agent.ephemeral = false

def AllSavable (kernel : Kernel) : Prop :=
  ∀ ref, kernel.Live ref → Savable (kernel.heap ref)

/-- The id of the parent, as a record writes it. -/
def parentIdValue (kernel : Kernel) (ref : Nat) : Value :=
  match (kernel.heap ref).parent with
  | none => .null
  | some above => (kernel.heap above).id

theorem recordFields_get? (name : String) :
    (kernel.recordFields ref).get? name =
      if name = "id" then some (kernel.heap ref).id
      else if name = "handler_module" then
        if (kernel.heap ref).handlerModule = .null then none
        else some (kernel.heap ref).handlerModule
      else if name = "parent_id" then
        (kernel.heap ref).parent.map fun above => (kernel.heap above).id
      else none := by
  rw [recordFields]
  by_cases isId : name = "id"
  · subst isId
    cases (kernel.heap ref).parent <;> by_cases bare : (kernel.heap ref).handlerModule = .null <;>
      simp [bare, OrderedDict.get?_insert]
  · by_cases isModule : name = "handler_module"
    · subst isModule
      cases (kernel.heap ref).parent <;> by_cases bare : (kernel.heap ref).handlerModule = .null <;>
        simp [bare, OrderedDict.get?_insert]
    · cases (kernel.heap ref).parent <;> by_cases bare : (kernel.heap ref).handlerModule = .null <;>
        simp [bare, OrderedDict.get?_insert, isId, isModule]

section Record

variable (savable : Savable (kernel.heap ref))

include savable

theorem record_get?_field {name : String} (reserved : name ∈ reservedKeys) :
    (kernel.record ref).get? name = (kernel.recordFields ref).get? name := by
  rw [record, OrderedDict.get?_update,
    OrderedDict.get?_eq_none_iff.mpr (savable.unreserved name reserved), Option.none_or]

theorem record_id : getD (kernel.record ref) "id" = (kernel.heap ref).id := by
  rw [getD, record_get?_field savable (by decide), recordFields_get?]
  rfl

theorem record_handlerModule :
    getD (kernel.record ref) "handler_module" = (kernel.heap ref).handlerModule := by
  rw [getD, record_get?_field savable (by decide), recordFields_get?]
  by_cases bare : (kernel.heap ref).handlerModule = .null
  · simp [bare]
  · simp [bare]

theorem record_parentId : getD (kernel.record ref) "parent_id" = kernel.parentIdValue ref := by
  rw [getD, record_get?_field savable (by decide), recordFields_get?, parentIdValue]
  cases (kernel.heap ref).parent <;> rfl

/-- `load` gets the meta back, in order. -/
theorem record_meta : recordMeta (kernel.record ref) = (kernel.heap ref).metadata := by
  have fieldKeys : ∀ name ∈ (kernel.recordFields ref).keys,
      name ∈ ["id", "handler_module", "parent_id"] := by
    intro name present
    rcases OrderedDict.mem_keys_iff.mp present with ⟨item, found⟩
    rw [recordFields_get?] at found
    by_contra other
    simp only [List.mem_cons, List.not_mem_nil, or_false, not_or] at other
    simp [other.1, other.2.1, other.2.2] at found
  have disjoint : ∀ name ∈ (kernel.heap ref).metadata.keys,
      name ∉ (kernel.recordFields ref).keys := by
    intro name inMeta inFields
    refine savable.unreserved name ?_ inMeta
    have field := fieldKeys name inFields
    simp only [reservedKeys, List.mem_cons, List.not_mem_nil, or_false] at field ⊢
    tauto
  apply OrderedDict.ext_entries
  rw [recordMeta, OrderedDict.filterKeys_entries, record, OrderedDict.update_entries_of_disjoint disjoint,
    List.filter_append]
  have dropped : (kernel.recordFields ref).entries.filter
      (fun entry => decide (entry.1 ∉ ["id", "handler_module", "parent_id"])) = [] := by
    rw [List.filter_eq_nil_iff]
    intro entry member
    have field := fieldKeys entry.1 (List.mem_map_of_mem member)
    simp [field]
  have kept : (kernel.heap ref).metadata.entries.filter
      (fun entry => decide (entry.1 ∉ ["id", "handler_module", "parent_id"])) =
        (kernel.heap ref).metadata.entries := by
    rw [List.filter_eq_self]
    intro entry member
    rw [decide_eq_true_eq]
    intro field
    refine savable.unreserved entry.1 ?_ (List.mem_map_of_mem member)
    simp only [reservedKeys, List.mem_cons, List.not_mem_nil, or_false] at field ⊢
    tauto
  rw [dropped, kept, List.nil_append]

end Record

/-! ### Records that validate -/

/-- A record with a non-empty text id and, if it names a parent, a text naming it. -/
structure TextRecord (record : Dict) : Prop where
  id : ∃ text, text ≠ "" ∧ getD record "id" = .str text
  parentId : getD record "parent_id" = .null ∨ ∃ text, getD record "parent_id" = .str text

/-- A flat list that describes one tree. -/
structure OneTree (records : List Dict) (root : Dict) : Prop where
  text : ∀ record ∈ records, TextRecord record
  nodup : (records.map recordKey).Nodup
  rootListed : root ∈ records
  rootOnly : ∀ record ∈ records, (getD record "parent_id" = .null ↔ record = root)
  closed : ∀ record ∈ records, ∀ parentKey, recordParent record = some parentKey →
    ∃ upper ∈ records, recordKey upper = parentKey

def textId (record : Dict) : DictKey :=
  match getD record "id" with
  | .str text => .str text
  | _ => .none

theorem TextRecord.key {record : Dict} (text : TextRecord record) :
    recordKey record = .ok (textId record) := by
  rcases text.id with ⟨id, _, same⟩
  simp [recordKey, textId, same, hashKey]

theorem TextRecord.truthy_id {record : Dict} (text : TextRecord record) :
    truthy (getD record "id") = true := by
  rcases text.id with ⟨id, nonempty, same⟩
  simp [same, truthy, nonempty]

private theorem scan_records (runtime : Runtime) {records : List Dict}
    (text : ∀ record ∈ records, TextRecord record) (ids : List DictKey) (roots : List Value)
    (nodup : (ids ++ records.map textId).Nodup) :
    records.foldlM (scanRecord runtime) (ids, roots) =
      .ok (ids ++ records.map textId, roots ++
        (records.filter fun record => decide (getD record "parent_id" = .null)).map
          fun record => getD record "id") := by
  induction records generalizing ids roots with
  | nil => simp [pure, Except.pure]
  | cons record rest ih =>
    have head := text record List.mem_cons_self
    have fresh : textId record ∉ ids := by
      rw [List.nodup_append] at nodup
      intro member
      exact nodup.2.2 _ member _ (by simp) rfl
    have scanned : scanRecord runtime (ids, roots) record =
        .ok (ids ++ [textId record],
          if getD record "parent_id" = .null then roots ++ [getD record "id"] else roots) := by
      have key := head.key
      rw [recordKey] at key
      simp [scanRecord, head.truthy_id, key, fresh, pure, Except.pure, bind, Except.bind]
    rw [List.foldlM_cons, scanned]
    simp only [bind, Except.bind]
    rw [ih (fun other member => text other (List.mem_cons_of_mem _ member)) _ _ (by simpa using nodup)]
    by_cases top : getD record "parent_id" = .null
    · simp [top]
    · simp [top]

private theorem check_parents (runtime : Runtime) (ids : List DictKey) {records : List Dict}
    (text : ∀ record ∈ records, TextRecord record)
    (resolved : ∀ record ∈ records, ∀ key, recordParent record = some (.ok key) → key ∈ ids) :
    records.forM (checkParent runtime ids) = .ok () := by
  induction records with
  | nil => rfl
  | cons record rest ih =>
    have head : checkParent runtime ids record = .ok () := by
      rcases (text record List.mem_cons_self).parentId with none | ⟨name, some⟩
      · simp [checkParent, none]
      · have member := resolved record List.mem_cons_self (.str name) (by
          simp [recordParent, some, hashKey])
        simp [checkParent, some, hashKey, member, bind, Except.bind, pure, Except.pure]
    simp only [List.forM, head, bind, Except.bind]
    exact ih (fun other member => text other (List.mem_cons_of_mem _ member))
      (fun other member => resolved other (List.mem_cons_of_mem _ member))

theorem OneTree.textId_nodup {records : List Dict} {root : Dict} (tree : OneTree records root) :
    (records.map textId).Nodup := by
  have keys : records.map recordKey = (records.map textId).map Except.ok := by
    rw [List.map_map]
    apply List.map_congr_left
    intro record member
    exact (tree.text record member).key
  have nodup := tree.nodup
  rw [keys] at nodup
  exact nodup.of_map

theorem OneTree.validates (runtime : Runtime) {records : List Dict} {root : Dict}
    (tree : OneTree records root) :
    validateRecords runtime records currentVersion = .ok (getD root "id") := by
  have single : (records.filter fun record => decide (getD record "parent_id" = .null)) = [root] := by
    rw [← List.perm_singleton, List.perm_ext_iff_of_nodup (tree.nodup.of_map.filter _)
      (List.nodup_singleton root)]
    intro record
    simp only [List.mem_filter, decide_eq_true_eq, List.mem_singleton]
    constructor
    · rintro ⟨member, top⟩
      exact (tree.rootOnly record member).mp top
    · rintro rfl
      exact ⟨tree.rootListed, (tree.rootOnly record tree.rootListed).mpr rfl⟩
  have scanned := scan_records runtime tree.text [] [] (by simpa using tree.textId_nodup)
  rw [single] at scanned
  have checked := check_parents runtime (records.map textId) tree.text (by
    intro record member key named
    rcases tree.closed record member _ named with ⟨upper, upperMember, upperKey⟩
    rw [(tree.text upper upperMember).key] at upperKey
    rw [← Except.ok.inj upperKey]
    exact List.mem_map_of_mem upperMember)
  simp only [List.nil_append, List.map_cons, List.map_nil] at scanned
  simp [validateRecords, scanned, checked, currentVersion, bind, Except.bind, pure, Except.pure]

/-! ### The records of a live tree -/

theorem savedRecords_eq (savable : kernel.AllSavable) :
    kernel.savedRecords = kernel.agents.items.map kernel.record := by
  rw [savedRecords, List.filter_eq_self.mpr]
  intro ref member
  rcases List.mem_map.mp member with ⟨entry, entryMember, rfl⟩
  have live : kernel.Live entry.2 := ⟨entry.1, OrderedDict.mem_entries_iff.mp entryMember⟩
  simp [(savable entry.2 live).persistent]

theorem mem_savedRecords_iff (savable : kernel.AllSavable) {record : Dict} :
    record ∈ kernel.savedRecords ↔ ∃ ref, kernel.Live ref ∧ kernel.record ref = record := by
  rw [savedRecords_eq savable]
  simp only [OrderedDict.items, List.mem_map]
  constructor
  · rintro ⟨ref, ⟨entry, member, rfl⟩, rfl⟩
    exact ⟨entry.2, ⟨entry.1, OrderedDict.mem_entries_iff.mp member⟩, rfl⟩
  · rintro ⟨ref, ⟨key, found⟩, rfl⟩
    exact ⟨ref, ⟨(key, ref), OrderedDict.mem_entries_iff.mpr found, rfl⟩, rfl⟩

def recordRank (kernel : Kernel) (record : Dict) : Nat :=
  match recordKey record with
  | .ok key => (kernel.agents.get? key).getD 0
  | .error _ => 0

section Saved

variable (tree : kernel.Tree) (savable : kernel.AllSavable)

include tree savable

theorem record_key {key : DictKey} (found : kernel.agents.get? key = some ref) :
    recordKey (kernel.record ref) = .ok key := by
  rw [recordKey, record_id (savable ref ⟨key, found⟩)]
  exact (tree.registered found).2

theorem record_parent {key upperKey : DictKey} {above : Nat}
    (found : kernel.agents.get? key = some ref) (hung : (kernel.heap ref).parent = some above)
    (upperFound : kernel.agents.get? upperKey = some above) :
    recordParent (kernel.record ref) = some (.ok upperKey) := by
  rcases (savable above ⟨upperKey, upperFound⟩).named with ⟨text, _, named⟩
  have hashed := (tree.registered upperFound).2
  rw [recordParent, record_parentId (savable ref ⟨key, found⟩), parentIdValue, hung]
  simp only [named] at hashed ⊢
  rw [hashed]

theorem record_text (live : kernel.Live ref) : TextRecord (kernel.record ref) := by
  have fine := savable ref live
  refine ⟨?_, ?_⟩
  · rw [record_id fine]
    exact fine.named
  · rw [record_parentId fine, parentIdValue]
    rcases live with ⟨key, found⟩
    cases hung : (kernel.heap ref).parent with
    | none => exact .inl rfl
    | some above =>
      rcases (savable above (tree.parentLinks found hung).1).named with ⟨text, _, named⟩
      exact .inr ⟨text, named⟩

/-- The id in a record tells which agent it was taken from. -/
theorem record_inj {other : Nat} (live : kernel.Live ref) (otherLive : kernel.Live other)
    (same : kernel.record ref = kernel.record other) : ref = other := by
  rcases live with ⟨key, found⟩
  rcases otherLive with ⟨otherKey, otherFound⟩
  have keys := record_key tree savable found
  rw [same, record_key tree savable otherFound] at keys
  rw [Except.ok.inj keys, found] at otherFound
  exact Option.some.inj otherFound

theorem savedRecords_oneTree {root : Nat} (isRoot : kernel.root = some root) :
    OneTree kernel.savedRecords (kernel.record root) := by
  rcases tree.rootLive with ⟨top, sameRoot, rootLive, parentless⟩
  obtain rfl : top = root := Option.some.inj (sameRoot.symm.trans isRoot)
  have keys : kernel.savedRecords.map recordKey = kernel.agents.keys.map Except.ok := by
    rw [savedRecords_eq savable, OrderedDict.items, OrderedDict.keys, List.map_map, List.map_map,
      List.map_map]
    apply List.map_congr_left
    intro entry member
    exact record_key tree savable (OrderedDict.mem_entries_iff.mp member)
  refine ⟨?_, ?_, ?_, ?_, ?_⟩
  · intro record member
    rcases (mem_savedRecords_iff savable).mp member with ⟨ref, live, rfl⟩
    exact record_text tree savable live
  · rw [keys]
    exact kernel.agents.keys_nodup.map fun _ _ same => Except.ok.inj same
  · exact (mem_savedRecords_iff savable).mpr ⟨top, rootLive, rfl⟩
  · intro record member
    rcases (mem_savedRecords_iff savable).mp member with ⟨ref, live, rfl⟩
    rw [record_parentId (savable ref live), parentIdValue]
    constructor
    · intro bare
      cases hung : (kernel.heap ref).parent with
      | none =>
        rw [Option.some.inj (sameRoot.symm.trans (tree.rootOnly live hung))]
      | some above =>
        rcases live with ⟨key, found⟩
        rcases (savable above (tree.parentLinks found hung).1).named with ⟨text, _, named⟩
        simp [hung, named] at bare
    · intro same
      rw [record_inj tree savable live rootLive same, parentless]
  · intro record member parentKey named
    rcases (mem_savedRecords_iff savable).mp member with ⟨ref, ⟨key, found⟩, rfl⟩
    cases hung : (kernel.heap ref).parent with
    | none =>
      rw [recordParent, record_parentId (savable ref ⟨key, found⟩), parentIdValue, hung] at named
      exact absurd named (by simp)
    | some above =>
      rcases (tree.parentLinks found hung).1 with ⟨upperKey, upperFound⟩
      rw [record_parent tree savable found hung upperFound] at named
      refine ⟨kernel.record above, (mem_savedRecords_iff savable).mpr
        ⟨above, ⟨upperKey, upperFound⟩, rfl⟩, ?_⟩
      rw [record_key tree savable upperFound]
      exact Option.some.inj named

/-- References grow downwards, so they rank the records of the tree. -/
theorem savedRecords_ranked :
    Ranked kernel.savedRecords recordKey recordParent kernel.recordRank := by
  rintro child upper ⟨childMember, upperMember, link⟩
  rcases (mem_savedRecords_iff savable).mp childMember with ⟨ref, ⟨key, found⟩, rfl⟩
  rcases (mem_savedRecords_iff savable).mp upperMember with ⟨above, ⟨upperKey, upperFound⟩, rfl⟩
  have sameKey := record_key tree savable upperFound
  cases hung : (kernel.heap ref).parent with
  | none =>
    rw [recordParent, record_parentId (savable ref ⟨key, found⟩), parentIdValue, hung] at link
    exact absurd link (by simp)
  | some parent =>
    have links := tree.parentLinks found hung
    rcases links.1 with ⟨parentKey, parentFound⟩
    rw [record_parent tree savable found hung parentFound, sameKey, Option.some.injEq,
      Except.ok.injEq] at link
    subst link
    have same : parent = above := Option.some.inj (parentFound.symm.trans upperFound)
    rw [recordRank, recordRank, sameKey, record_key tree savable found]
    simpa [upperFound, found, ← same] using links.2.1

end Saved

/-! ### Rebuilding -/

/-- A record read as an agent. -/
def recordView (record : Dict) : AgentView where
  id := getD record "id"
  parentId :=
    match getD record "parent_id" with
    | .null => none
    | parentId => some parentId
  handlerModule := getD record "handler_module"
  metadata := recordMeta record

theorem recordView_record (tree : kernel.Tree) (savable : kernel.AllSavable)
    (live : kernel.Live ref) : recordView (kernel.record ref) = kernel.view ref := by
  have fine := savable ref live
  have parents : (match getD (kernel.record ref) "parent_id" with
      | .null => none
      | parentId => some parentId) =
        (kernel.heap ref).parent.map fun above => (kernel.heap above).id := by
    rw [record_parentId fine, parentIdValue]
    rcases live with ⟨key, found⟩
    cases hung : (kernel.heap ref).parent with
    | none => rfl
    | some above =>
      rcases (savable above (tree.parentLinks found hung).1).named with ⟨text, _, named⟩
      simp [named]
  rw [recordView, view, record_id fine, record_handlerModule fine, record_meta fine, parents]

/-- A record that `load` turns into an agent: its module imports, and no key of its
meta collides with a parameter of `Agent`. -/
structure Loadable (runtime : Runtime) (record : Dict) : Prop where
  imports : truthy (getD record "handler_module") = true →
    runtime.importable (getD record "handler_module") = true
  unclashed : clashes initParameters (recordMeta record) = false

/-- What building the listed records does to a kernel. -/
structure Rebuilt (before : Kernel) (built : List Dict) (after : Kernel) : Prop where
  grows : before.allocated ≤ after.allocated
  fields : ∀ other, other < before.allocated → SameFields (after.heap other) (before.heap other)
  childrenDir : after.childrenDir = before.childrenDir
  agents : ∀ record ∈ built, ∃ ref, after.agents.get? (textId record) = some ref ∧
    ref < after.allocated ∧ (∀ above, (after.heap ref).parent = some above → above < ref) ∧
    after.view ref = recordView record
  others : ∀ key, key ∉ built.map textId → after.agents.get? key = before.agents.get? key

theorem Rebuilt.nothing (kernel : Kernel) : Rebuilt kernel [] kernel where
  grows := Nat.le_refl _
  fields := fun _ _ => SameFields.refl _
  childrenDir := rfl
  agents := by simp
  others := fun _ _ => rfl

theorem Rebuilt.trans {first second third : Kernel} {early late : List Dict}
    (left : Rebuilt first early second) (right : Rebuilt second late third)
    (disjoint : ∀ record ∈ early, textId record ∉ late.map textId) :
    Rebuilt first (early ++ late) third where
  grows := Nat.le_trans left.grows right.grows
  fields := fun other old =>
    (right.fields other (Nat.lt_of_lt_of_le old left.grows)).trans (left.fields other old)
  childrenDir := right.childrenDir.trans left.childrenDir
  agents := by
    intro record member
    rcases List.mem_append.mp member with inEarly | inLate
    · rcases left.agents record inEarly with ⟨ref, found, bound, falls, sameView⟩
      have same := right.fields ref bound
      refine ⟨ref, ?_, Nat.lt_of_lt_of_le bound right.grows, ?_, ?_⟩
      · rw [right.others _ (disjoint record inEarly)]
        exact found
      · rw [same.parent]
        exact falls
      · rw [← sameView, view, view, same.id, same.handlerModule, same.metadata, same.parent]
        cases hung : (second.heap ref).parent with
        | none => rfl
        | some above =>
          have aboveSame := right.fields above (Nat.lt_trans (falls above hung) bound)
          rw [Option.map_some, Option.map_some, aboveSame.id]
    · exact right.agents record inLate
  others := by
    intro key absent
    rw [List.map_append, List.mem_append, not_or] at absent
    rw [right.others key absent.2, left.others key absent.1]

/-- Where `build` may put a record: at the top, or under an agent that stands at a
path and has the id the record names. -/
def Seat (kernel : Kernel) (parent : Option Nat) (record : Dict) : Prop :=
  match parent with
  | none => getD record "parent_id" = .null
  | some above => above < kernel.allocated ∧
      (∃ path, (kernel.heap above).address = .path path) ∧
      (∃ text, (kernel.heap above).id = .str text) ∧
      getD record "parent_id" = (kernel.heap above).id

theorem place_parentless_heap {key : DictKey} {agent : Agent} (top : agent.parent = none) :
    (kernel.place key agent).heap = Function.update kernel.heap kernel.allocated agent := by
  simp [place, register, top]

private theorem place_new {key : DictKey} {agent : Agent}
    (old : ∀ above, agent.parent = some above → above < kernel.allocated) :
    (kernel.place key agent).heap kernel.allocated = agent := by
  cases hung : agent.parent with
  | none => simp [place_parentless_heap hung]
  | some above => exact place_heap_new hung (old above hung)

private theorem place_old {key : DictKey} {agent : Agent} {other : Nat}
    (bound : other < kernel.allocated) :
    SameFields ((kernel.place key agent).heap other) (kernel.heap other) := by
  cases hung : agent.parent with
  | none =>
    rw [place_parentless_heap hung, Function.update_of_ne (Nat.ne_of_lt bound)]
    exact SameFields.refl _
  | some above => exact place_sameFields hung bound

/-- The agent `load` makes of a record. -/
def recordAgent (record : Dict) (parent : Option Nat) (address : Address) : Agent where
  id := getD record "id"
  handlerModule := getD record "handler_module"
  parent := parent
  address := address
  children := .empty
  metadata := recordMeta record
  ephemeral := false

theorem construct_record {parent : Option Nat} {record : Dict} (rootPath : Option PurePath)
    (text : TextRecord record) (seat : kernel.Seat parent record) :
    ∃ path, kernel.construct (getD record "id")
        (if parent.isNone then rootPath.map .path else none) parent
        (getD record "handler_module") (recordMeta record) =
      .ok (kernel.place (textId record) (recordAgent record parent (.path path))) := by
  have addressed : ∃ path, kernel.chooseAddress
      (if parent.isNone then rootPath.map .path else none) parent (getD record "id") =
        .ok (.path path) := by
    rcases text.id with ⟨id, _, named⟩
    cases parent with
    | none =>
      cases rootPath with
      | none => exact ⟨_, rfl⟩
      | some path => exact ⟨path, rfl⟩
    | some above =>
      rcases seat.2.1 with ⟨path, stands⟩
      refine ⟨(path.join kernel.childrenDir).join id, ?_⟩
      simp [chooseAddress, defaultAddress, stands, named, Address.join, bind, Except.bind]
  rcases addressed with ⟨path, addressed⟩
  have key := text.key
  rw [recordKey] at key
  refine ⟨path, ?_⟩
  rw [construct, addressed, key]
  rfl

/-- Placing the agent of one record. -/
theorem place_rebuilt {parent : Option Nat} {record : Dict} (address : Address)
    (seat : kernel.Seat parent record) :
    Rebuilt kernel [record] (kernel.place (textId record) (recordAgent record parent address)) ∧
      (kernel.place (textId record) (recordAgent record parent address)).heap kernel.allocated =
        recordAgent record parent address := by
  have old : ∀ above, parent = some above → above < kernel.allocated := by
    rintro above rfl
    exact seat.1
  have new : (kernel.place (textId record) (recordAgent record parent address)).heap
      kernel.allocated = recordAgent record parent address := place_new old
  refine ⟨⟨?_, fun other bound => place_old bound, place_childrenDir, ?_, ?_⟩, new⟩
  · rw [place_allocated]
    exact Nat.le_succ _
  · intro other member
    rw [List.mem_singleton] at member
    subst member
    refine ⟨kernel.allocated, ?_, ?_, ?_, ?_⟩
    · rw [place_get?, if_pos rfl]
    · rw [place_allocated]
      exact Nat.lt_succ_self _
    · rw [new]
      exact old
    · rw [view, new, recordView]
      cases parent with
      | none =>
        have bare : getD other "parent_id" = .null := seat
        simp [recordAgent, bare]
      | some above =>
        rcases seat with ⟨bound, _, ⟨name, isText⟩, sameId⟩
        have same : SameFields ((kernel.place (textId other)
            (recordAgent other (some above) address)).heap above) (kernel.heap above) :=
          place_old bound
        have sameName := same.id.trans isText
        simp only [recordAgent] at sameName ⊢
        simp [sameName, sameId, isText]
  · intro other absent
    rw [List.map_singleton, List.mem_singleton] at absent
    rw [place_get?, if_neg absent]

section Build

variable {runtime : Runtime} {records : List Dict} (rootPath : Option PurePath)

/-- The loop of `build` over the children, given what one recursive call does. -/
private theorem build_children {fuel : Nat}
    (call : ∀ {kernel : Kernel} {parent : Option Nat} {record : Dict}, record ∈ records →
      ((preorder records recordKey recordParent fuel record).map textId).Nodup →
      kernel.Seat parent record →
      ∃ after, build runtime records (rootPath.map .path) fuel parent kernel record = .ok after ∧
        Rebuilt kernel (preorder records recordKey recordParent fuel record) after)
    {above : Nat} (pending : List Dict) (listed : ∀ child ∈ pending, child ∈ records)
    (nodup : ((pending.flatMap (preorder records recordKey recordParent fuel)).map textId).Nodup)
    (seats : ∀ child ∈ pending, kernel.Seat (some above) child) :
    ∃ after, pending.foldlM
        (build runtime records (rootPath.map .path) fuel (some above)) kernel = .ok after ∧
      Rebuilt kernel (pending.flatMap (preorder records recordKey recordParent fuel)) after := by
  induction pending generalizing kernel with
  | nil => exact ⟨kernel, rfl, Rebuilt.nothing kernel⟩
  | cons child rest ih =>
    rw [List.flatMap_cons, List.map_append, List.nodup_append] at nodup
    rcases call (listed child List.mem_cons_self) nodup.1 (seats child List.mem_cons_self) with
      ⟨middle, built, first⟩
    have later : ∀ other ∈ rest, middle.Seat (some above) other := by
      intro other member
      rcases seats other (List.mem_cons_of_mem _ member) with ⟨bound, ⟨path, stands⟩, named, same⟩
      have fields := first.fields above bound
      refine ⟨Nat.lt_of_lt_of_le bound first.grows, ⟨path, ?_⟩, ?_, ?_⟩
      · rw [fields.address, stands]
      · rw [fields.id]
        exact named
      · rw [fields.id]
        exact same
    rcases ih (fun other member => listed other (List.mem_cons_of_mem _ member)) nodup.2.1 later
      with ⟨after, folded, second⟩
    refine ⟨after, ?_, ?_⟩
    · rw [List.foldlM_cons, built]
      exact folded
    · rw [List.flatMap_cons]
      apply first.trans second
      intro record member again
      exact nodup.2.2 _ (List.mem_map_of_mem member) _ again rfl

theorem build_rebuilt (text : ∀ record ∈ records, TextRecord record)
    (loadable : ∀ record ∈ records, Loadable runtime record) (fuel : Nat)
    {parent : Option Nat} {record : Dict} (listed : record ∈ records)
    (nodup : ((preorder records recordKey recordParent fuel record).map textId).Nodup)
    (seat : kernel.Seat parent record) :
    ∃ after, build runtime records (rootPath.map .path) fuel parent kernel record = .ok after ∧
      Rebuilt kernel (preorder records recordKey recordParent fuel record) after := by
  induction fuel generalizing kernel parent record with
  | zero => exact ⟨kernel, rfl, Rebuilt.nothing kernel⟩
  | succ fuel ih =>
    have fine := loadable record listed
    have imported : (truthy (getD record "handler_module") &&
        !runtime.importable (getD record "handler_module")) = false := by
      cases handled : truthy (getD record "handler_module") with
      | false => rfl
      | true => simp [fine.imports handled]
    rcases construct_record rootPath (text record listed) seat with
      ⟨path, constructed⟩
    rcases place_rebuilt (.path path) seat with ⟨first, new⟩
    simp only [preorder, List.map_cons, List.nodup_cons] at nodup
    rcases (text record listed).id with ⟨id, _, named⟩
    have seats : ∀ child ∈ childrenOf records recordParent (recordKey record),
        (kernel.place (textId record) (recordAgent record parent (.path path))).Seat
          (some kernel.allocated) child := by
      intro child member
      simp only [childrenOf, List.mem_filter, decide_eq_true_eq] at member
      refine ⟨by rw [place_allocated]; omega, ?_, ?_, ?_⟩
      · rw [new]
        exact ⟨path, rfl⟩
      · rw [new]
        exact ⟨id, named⟩
      rw [new]
      have link := member.2
      rcases (text child member.1).parentId with bare | ⟨name, isText⟩
      · simp [recordParent, bare] at link
      · simp only [recordParent, isText, recordKey, named, hashKey, Option.some.injEq,
          Except.ok.injEq, DictKey.str.injEq] at link
        rw [isText, link]
        exact named.symm
    rcases build_children rootPath (ih ·) _ (fun child member => (List.mem_filter.mp member).1)
        nodup.2 seats with ⟨after, folded, rest⟩
    refine ⟨after, ?_, ?_⟩
    · simp only [build, imported, Bool.false_eq_true, if_false, fine.unclashed, constructed]
      exact folded
    · apply first.trans rest
      intro other member again
      rw [List.mem_singleton] at member
      subst member
      exact nodup.1 again

end Build

theorem OneTree.find_root {records : List Dict} {root : Dict} (tree : OneTree records root) :
    records.reverse.find? (fun record => decide (getD record "parent_id" = .null)) = some root := by
  cases found : records.reverse.find? fun record => decide (getD record "parent_id" = .null) with
  | none =>
    have absent := List.find?_eq_none.mp found root (List.mem_reverse.mpr tree.rootListed)
    simp [(tree.rootOnly root tree.rootListed).mpr rfl] at absent
  | some record =>
    have bare : getD record "parent_id" = .null := by simpa using List.find?_some found
    have member := List.mem_reverse.mp (List.mem_of_find?_eq_some found)
    rw [(tree.rootOnly record member).mp bare]

/-- Loading a flat list that describes one tree rebuilds exactly its records. -/
theorem OneTree.loads {runtime : Runtime} {records : List Dict} {root : Dict} {rank : Dict → Nat}
    (tree : OneTree records root) (ranked : Ranked records recordKey recordParent rank)
    (loadable : ∀ record ∈ records, Loadable runtime record) (host : Kernel)
    (rootPath : Option PurePath) :
    ∃ rebuilt, host.load runtime { version := currentVersion, records := records } rootPath =
        .ok rebuilt ∧
      (∀ record ∈ records, rebuilt.viewOf (textId record) = some (recordView record)) ∧
      ∀ key, key ∉ records.map textId → rebuilt.viewOf key = none := by
  have onlyRoot : ∀ record ∈ records, recordParent record = none → record = root := by
    intro record member bare
    rw [← tree.rootOnly record member]
    rcases (tree.text record member).parentId with null | ⟨name, isText⟩
    · exact null
    · simp [recordParent, isText] at bare
  have walked : ∀ {record}, record ∈ preorder records recordKey recordParent records.length root ↔
      record ∈ records :=
    ParentForest.mem_preorder_root_iff ranked tree.rootListed onlyRoot tree.closed
  have nodup : ((preorder records recordKey recordParent records.length root).map textId).Nodup := by
    refine List.Nodup.map_on ?_ (ParentForest.preorder_nodup ranked tree.nodup _ tree.rootListed)
    intro first firstWalked second secondWalked same
    exact List.inj_on_of_nodup_map tree.textId_nodup (walked.mp firstWalked)
      (walked.mp secondWalked) same
  have seat : (host.cleared (childrenDirOf root)).Seat none root :=
    (tree.rootOnly root tree.rootListed).mpr rfl
  rcases build_rebuilt rootPath tree.text loadable records.length tree.rootListed
      nodup seat with ⟨rebuilt, built, result⟩
  refine ⟨rebuilt, ?_, ?_, ?_⟩
  · simp only [load, tree.validates runtime, tree.find_root]
    exact built
  · intro record member
    rcases result.agents record (walked.mpr member) with ⟨ref, found, _, _, sameView⟩
    rw [viewOf, found, Option.map_some, sameView]
  · intro key absent
    have unbuilt : key ∉ (preorder records recordKey recordParent records.length root).map textId := by
      intro present
      rcases List.mem_map.mp present with ⟨record, member, same⟩
      exact absent (List.mem_map.mpr ⟨record, walked.mp member, same⟩)
    rw [viewOf, result.others key unbuilt]
    rfl

theorem OneTree.perm {records others : List Dict} {root : Dict} (tree : OneTree records root)
    (same : others.Perm records) : OneTree others root where
  text := fun record member => tree.text record (same.mem_iff.mp member)
  nodup := (same.map recordKey).nodup_iff.mpr tree.nodup
  rootListed := same.mem_iff.mpr tree.rootListed
  rootOnly := fun record member => tree.rootOnly record (same.mem_iff.mp member)
  closed := by
    intro record member key named
    rcases tree.closed record (same.mem_iff.mp member) key named with ⟨upper, upperMember, sameKey⟩
    exact ⟨upper, same.mem_iff.mpr upperMember, sameKey⟩

/-- Every module of a live agent imports. -/
def AllImportable (runtime : Runtime) (kernel : Kernel) : Prop :=
  ∀ ref, kernel.Live ref → truthy (kernel.heap ref).handlerModule = true →
    runtime.importable (kernel.heap ref).handlerModule = true

theorem record_loadable {runtime : Runtime} (savable : Savable (kernel.heap ref))
    (imports : truthy (kernel.heap ref).handlerModule = true →
      runtime.importable (kernel.heap ref).handlerModule = true) :
    Loadable runtime (kernel.record ref) := by
  refine ⟨?_, ?_⟩
  · rw [record_handlerModule savable]
    exact imports
  · rw [record_meta savable, ← Bool.not_eq_true, clashes_iff]
    rintro ⟨name, listed, present⟩
    refine savable.unreserved name ?_ present
    simp only [initParameters, reservedKeys, List.mem_cons, List.not_mem_nil, or_false] at listed ⊢
    tauto

theorem save_ok (tree : kernel.Tree) (savable : kernel.AllSavable) :
    kernel.save = .ok { version := currentVersion
                        records := kernel.savedRecords.insertionSort recordLe } := by
  rw [save, if_pos]
  rw [List.pairwise_iff_forall_sublist]
  intro left right sublist
  have text : ∀ record ∈ [left, right], TextRecord record := by
    intro record member
    rcases (mem_savedRecords_iff savable).mp (sublist.subset member) with ⟨ref, live, rfl⟩
    exact record_text tree savable live
  rcases (text left (by simp)).id with ⟨first, _, firstText⟩
  rcases (text right (by simp)).id with ⟨second, _, secondText⟩
  rw [firstText, secondText]
  rfl

theorem roundTrips_of_savable {runtime : Runtime} (tree : kernel.Tree)
    (savable : kernel.AllSavable) (importable : kernel.AllImportable runtime) :
    kernel.RoundTrips runtime := by
  rcases tree.rootLive with ⟨root, isRoot, _, _⟩
  have sorted := List.perm_insertionSort recordLe kernel.savedRecords
  have oneTree := (savedRecords_oneTree tree savable isRoot).perm sorted
  have ranked : Ranked (kernel.savedRecords.insertionSort recordLe) recordKey recordParent
      kernel.recordRank := by
    rintro child upper ⟨childMember, upperMember, link⟩
    exact savedRecords_ranked tree savable child upper
      ⟨sorted.mem_iff.mp childMember, sorted.mem_iff.mp upperMember, link⟩
  have listed : ∀ record, record ∈ kernel.savedRecords.insertionSort recordLe ↔
      ∃ ref, kernel.Live ref ∧ kernel.record ref = record := by
    intro record
    rw [sorted.mem_iff, mem_savedRecords_iff savable]
  have loadable : ∀ record ∈ kernel.savedRecords.insertionSort recordLe,
      Loadable runtime record := by
    intro record member
    rcases (listed record).mp member with ⟨ref, live, rfl⟩
    exact record_loadable (savable ref live) (importable ref live)
  refine ⟨_, save_ok tree savable, ⟨_, oneTree.validates runtime⟩, ?_⟩
  intro host rootPath
  rcases oneTree.loads ranked loadable host rootPath with ⟨rebuilt, loaded, present, absent⟩
  refine ⟨rebuilt, loaded, ?_⟩
  intro key
  have keyOf : ∀ {ref other}, kernel.agents.get? other = some ref →
      textId (kernel.record ref) = other := by
    intro ref other found
    have text := record_text tree savable ⟨other, found⟩
    exact Except.ok.inj (text.key.symm.trans (record_key tree savable found))
  cases found : kernel.agents.get? key with
  | some ref =>
    have live : kernel.Live ref := ⟨key, found⟩
    have view := present (kernel.record ref) ((listed _).mpr ⟨ref, live, rfl⟩)
    rw [keyOf found] at view
    rw [view, viewOf, found, Option.map_some, recordView_record tree savable live]
  | none =>
    rw [viewOf, found, Option.map_none, absent key]
    intro member
    rcases List.mem_map.mp member with ⟨record, recordMember, same⟩
    rcases (listed record).mp recordMember with ⟨ref, ⟨other, otherFound⟩, rfl⟩
    rw [keyOf otherFound] at same
    subst same
    rw [found] at otherFound
    exact absurd otherFound (by simp)

end Fantastic.Python.Kernel

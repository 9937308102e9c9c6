import Fantastic.Rust.Snapshot
import Fantastic.Rust.HydrationTree

/-!
# What `Kernel::load` builds

The passes build exactly the records that hang below the root through linked bundles, skip
exactly the others that hang below the root, and put off for ever what does not hang below
it. `Partial` holds between any two records of any pass.
-/

namespace Fantastic.Rust.Kernel

open ParentForest

variable {host : Host} {workdir : Option PurePath}

/-! ### What a snapshot says -/

/-- The record hangs below the root of the snapshot. -/
abbrev Attached (records : List AgentRecord) (record : AgentRecord) : Prop :=
  Reached records AgentRecord.id AgentRecord.parentId (fun _ => True) record

/-- It does so through records whose bundles are linked in, its own included. -/
abbrev Kept (host : Host) (records : List AgentRecord) (record : AgentRecord) : Prop :=
  Reached records AgentRecord.id AgentRecord.parentId
    (fun upper => Loading.installed host upper = true) record

/-- The checks `load` makes before it drops the old tree. -/
structure Valid (state : KernelState) : Prop where
  known : state.version ≤ currentVersion
  distinct : (state.agents.map AgentRecord.id).Nodup
  rooted : ∃ root ∈ state.agents, root.parentId = none ∧
    ∀ other ∈ state.agents, other.parentId = none → other = root
  closed : ∀ record ∈ state.agents, ∀ parentId, record.parentId = some parentId →
    ∃ above ∈ state.agents, above.id = parentId

theorem scan_eq (seen : List String) (roots : Nat) (records : List AgentRecord) :
    (∃ failure, scan host seen roots records = .error failure) ∧
      ¬ (seen.reverse ++ records.map AgentRecord.id).Nodup ∨
    ∃ all, scan host seen roots records =
        .ok (all, roots + records.countP fun record => record.parentId = none) ∧
      (∀ id, id ∈ all ↔ id ∈ seen ∨ ∃ record ∈ records, record.id = id) ∧
      (seen.Nodup → (seen.reverse ++ records.map AgentRecord.id).Nodup) := by
  induction records generalizing seen roots with
  | nil =>
    right
    refine ⟨seen, ?_, ?_, ?_⟩
    · simp [scan]
    · simp
    · simp
  | cons record records ih =>
    unfold scan
    by_cases again : record.id ∈ seen
    · left
      rw [if_pos again]
      refine ⟨⟨_, rfl⟩, ?_⟩
      intro nodup
      rw [List.nodup_append] at nodup
      exact nodup.2.2 record.id (List.mem_reverse.mpr again) record.id (by simp) rfl
    · rw [if_neg again]
      have shifted : (record.id :: seen).reverse ++ records.map AgentRecord.id =
          seen.reverse ++ (record :: records).map AgentRecord.id := by simp
      rcases ih (record.id :: seen) (if record.parentId = none then roots + 1 else roots) with
        ⟨failed, clash⟩ | ⟨all, passed, members, distinct⟩
      · left
        rw [shifted] at clash
        exact ⟨failed, clash⟩
      · right
        refine ⟨all, ?_, ?_, ?_⟩
        · rw [passed, List.countP_cons]
          by_cases bare : record.parentId = none
          · simp only [bare, if_true, decide_true, Nat.add_assoc, Nat.add_comm 1]
          · simp [bare]
        · intro id
          rw [members]
          simp only [List.mem_cons, exists_eq_or_imp]
          constructor
          · rintro ((rfl | old) | later)
            · exact .inr (.inl rfl)
            · exact .inl old
            · exact .inr (.inr later)
          · rintro (old | here | later)
            · exact .inl (.inr old)
            · exact .inl (.inl here.symm)
            · exact .inr later
        · intro nodup
          rw [← shifted]
          exact distinct (List.nodup_cons.mpr ⟨again, nodup⟩)

theorem checkParents_ok_iff (seen : List String) (records : List AgentRecord) :
    checkParents host seen records = .ok () ↔
      ∀ record ∈ records, ∀ parentId, record.parentId = some parentId → parentId ∈ seen := by
  induction records with
  | nil => simp [checkParents]
  | cons record records ih =>
    unfold checkParents
    cases named : record.parentId with
    | none => simp [ih, named]
    | some parentId =>
      by_cases listed : parentId ∈ seen
      · simp [ih, named, listed]
      · simp [named, listed]

/-- One root, said as a count. -/
theorem one_root_iff (records : List AgentRecord)
    (distinct : (records.map AgentRecord.id).Nodup) :
    records.countP (fun record => record.parentId = none) = 1 ↔
      ∃ root ∈ records, root.parentId = none ∧
        ∀ other ∈ records, other.parentId = none → other = root := by
  have nodup : records.Nodup := distinct.of_map
  rw [List.countP_eq_length_filter]
  constructor
  · intro single
    obtain ⟨root, alone⟩ := List.length_eq_one_iff.mp single
    have member : ∀ other, other ∈ records ∧ other.parentId = none ↔ other = root := by
      intro other
      have same : other ∈ records.filter (fun record => record.parentId = none) ↔
          other ∈ [root] := by rw [alone]
      simpa using same
    have here := (member root).mpr rfl
    exact ⟨root, here.1, here.2, fun other listed bare => (member other).mp ⟨listed, bare⟩⟩
  · intro ⟨root, listed, bare, only⟩
    have perm : (records.filter fun record => record.parentId = none).Perm [root] := by
      rw [List.perm_ext_iff_of_nodup (nodup.filter _) (List.nodup_singleton _)]
      intro other
      simp only [List.mem_filter, decide_eq_true_eq, List.mem_singleton]
      constructor
      · intro both
        exact only other both.1 both.2
      · rintro rfl
        exact ⟨listed, bare⟩
    exact perm.length_eq

theorem validate_ok_iff (host : Host) (state : KernelState) :
    validate host state = .ok () ↔ Valid state := by
  unfold validate
  by_cases newer : state.version > currentVersion
  · simp only [if_pos newer]
    constructor
    · intro passed
      cases passed
    · intro valid
      exact absurd valid.known (UInt32.not_le.mpr newer)
  · simp only [if_neg newer]
    rcases @scan_eq host [] 0 state.agents with ⟨⟨failure, failed⟩, clash⟩ |
      ⟨all, passed, members, distinct⟩
    · rw [failed]
      constructor
      · intro impossible
        cases impossible
      · intro valid
        exact absurd valid.distinct (by simpa using clash)
    · have nodup : (state.agents.map AgentRecord.id).Nodup := by
        simpa using distinct List.nodup_nil
      have parents := @checkParents_ok_iff host all state.agents
      have roots := one_root_iff state.agents nodup
      have content : ∀ parentId, parentId ∈ all ↔ ∃ above ∈ state.agents, above.id = parentId := by
        intro parentId
        rw [members]
        simp
      simp only [content] at parents
      rw [passed]
      change (if _ then _ else _) = _ ↔ _
      rw [Nat.zero_add]
      by_cases single : state.agents.countP (fun record => record.parentId = none) = 1
      · rw [if_neg (by omega)]
        change (if _ then _ else _) = _ ↔ _
        rw [if_neg (by omega)]
        change checkParents host all state.agents = .ok () ↔ _
        rw [parents]
        constructor
        · intro closed
          exact ⟨UInt32.not_lt.mp newer, nodup, roots.mp single, closed⟩
        · intro valid
          exact valid.closed
      · constructor
        · intro passedAll
          exfalso
          by_cases bare : state.agents.countP (fun record => record.parentId = none) = 0
          · rw [if_pos bare] at passedAll
            cases passedAll
          · rw [if_neg bare] at passedAll
            change (if _ then _ else _) = _ at passedAll
            rw [if_pos (by omega)] at passedAll
            cases passedAll
        · intro valid
          exact absurd (roots.mpr valid.rooted) single

/-! ### What the passes have built so far -/

theorem kept_attached {records : List AgentRecord} {record : AgentRecord}
    (kept : Kept host records record) : Attached records record :=
  kept.mono fun _ _ => trivial

/-- Some record of the snapshot is behind every entry of the two tables. -/
structure Partial (host : Host) (start : Kernel) (records : List AgentRecord)
    (loading : Loading) : Prop where
  built : ∀ {id ref}, loading.byId.get? id = some ref → ∃ record, Kept host records record ∧
    record.id = id ∧ (loading.kernel.heap ref).record = record ∧
      (loading.kernel.heap ref).ephemeral = false ∧
      start.allocated ≤ ref ∧ ref < loading.kernel.allocated
  skipped : ∀ {id}, id ∈ loading.skipIds → ∃ record, Attached records record ∧
    ¬ Kept host records record ∧ record.id = id
  registry : ∀ id, loading.kernel.agents.get? id = loading.byId.get? id
  inboxes : ∀ id, id ∈ loading.kernel.inboxes.keys ↔ id ∈ loading.byId.keys
  root : ∀ record ∈ records, record.parentId = none →
    loading.kernel.root = loading.byId.get? record.id
  older : ∀ ref, ref < start.allocated → loading.kernel.heap ref = start.heap ref
  grown : start.allocated ≤ loading.kernel.allocated

/-- The loop is through with an id. -/
def Loading.Done (loading : Loading) (id : String) : Prop :=
  id ∈ loading.byId.keys ∨ id ∈ loading.skipIds

theorem Partial.start (host : Host) (kernel : Kernel) (records : List AgentRecord) :
    Partial host kernel records { kernel := kernel.cleared, byId := .empty, skipIds := [] } where
  built := by
    intro id ref found
    cases found
  skipped := by
    intro id member
    cases member
  registry := fun _ => rfl
  inboxes := fun _ => Iff.rfl
  root := fun _ _ _ => rfl
  older := fun _ _ => rfl
  grown := Nat.le_refl _

section Steps

variable {start : Kernel} {records : List AgentRecord} {loading : Loading}
  {record : AgentRecord}

theorem Partial.skip (part : Partial host start records loading)
    (attached : Attached records record) (dropped : ¬ Kept host records record) :
    Partial host start records (loading.skip record) where
  built := part.built
  skipped := by
    intro id member
    rcases List.mem_cons.mp member with rfl | old
    · exact ⟨record, attached, dropped, rfl⟩
    · exact part.skipped old
  registry := part.registry
  inboxes := part.inboxes
  root := part.root
  older := part.older
  grown := part.grown

/-- The root record is built: registered and put in the root cell. -/
theorem Partial.buildRoot (part : Partial host start records loading) (kept : Kept host records record)
    (bare : record.parentId = none)
    (alone : ∀ other ∈ records, other.parentId = none → other = record) (rootPath : PurePath) :
    Partial host start records (loading.build record rootPath) := by
  have built : loading.build record rootPath =
      { kernel := { (loading.kernel.allocate (.new record rootPath false)).register
          loading.kernel.allocated with root := some loading.kernel.allocated }
        byId := loading.byId.insert record.id loading.kernel.allocated
        skipIds := loading.skipIds } := by
    simp only [Loading.build, bare, Option.bind_none]
  rw [built]
  have heap : ∀ ref, (((loading.kernel.allocate (.new record rootPath false)).register
      loading.kernel.allocated).heap ref) =
      if ref = loading.kernel.allocated then .new record rootPath false
      else loading.kernel.heap ref := by
    intro ref
    simp only [allocate, register, Function.update_apply]
  have grown := part.grown
  constructor
  · intro id ref found
    simp only [OrderedDict.get?_insert] at found
    split at found
    case isTrue same =>
      cases found
      refine ⟨record, kept, same.symm, ?_, ?_, grown, Nat.lt_succ_self _⟩
      · simp only [heap, if_true]
        rfl
      · simp only [heap, if_true]
        rfl
    case isFalse =>
      obtain ⟨other, otherKept, sameId, sameRecord, stays, low, high⟩ := part.built found
      have apart : ref ≠ loading.kernel.allocated := by omega
      refine ⟨other, otherKept, sameId, ?_, ?_, low, Nat.lt_succ_of_lt high⟩
      · simpa only [heap, if_neg apart] using sameRecord
      · simpa only [heap, if_neg apart] using stays
  · exact part.skipped
  · intro id
    simp only [register, allocate, Function.update_self, OrderedDict.get?_insert, part.registry]
    rfl
  · intro id
    simp only [register, allocate, Function.update_self, OrderedDict.mem_keys_insert, part.inboxes]
    rfl
  · intro other listed otherBare
    rw [alone other listed otherBare, OrderedDict.get?_insert_self]
  · intro ref old
    have apart : ref ≠ loading.kernel.allocated := by omega
    simp only [heap, if_neg apart]
    exact part.older ref old
  · exact Nat.le_succ_of_le grown

/-- A record is built under its parent. -/
theorem Partial.buildChild (part : Partial host start records loading)
    (distinct : (records.map AgentRecord.id).Nodup) (kept : Kept host records record)
    {parentId : String} (named : record.parentId = some parentId) {above : Nat}
    (found : loading.byId.get? parentId = some above) (rootPath : PurePath) :
    Partial host start records (loading.build record rootPath) := by
  have built : loading.build record rootPath =
      { kernel := loading.kernel.adopt above (.new record rootPath false)
        byId := loading.byId.insert record.id loading.kernel.allocated
        skipIds := loading.skipIds } := by
    simp only [Loading.build, named, Option.bind_some, found]
  rw [built]
  obtain ⟨upper, _, _, _, _, aboveNew, aboveOld⟩ := part.built found
  have grown := part.grown
  constructor
  · intro id ref entry
    simp only [OrderedDict.get?_insert] at entry
    split at entry
    case isTrue same =>
      cases entry
      refine ⟨record, kept, same.symm, ?_, ?_, grown, Nat.lt_succ_self _⟩
      · rw [adopt_heap_new aboveOld]
        rfl
      · rw [adopt_heap_new aboveOld]
        rfl
    case isFalse =>
      obtain ⟨other, otherKept, sameId, sameRecord, stays, low, high⟩ := part.built entry
      have fields := @adopt_fields loading.kernel above (.new record rootPath false) aboveOld ref high
      refine ⟨other, otherKept, sameId, ?_, ?_, low, Nat.lt_succ_of_lt high⟩
      · rw [← sameRecord]
        simp only [Agent.record, fields.id, fields.handlerModule, fields.parentId, fields.metadata]
      · rw [fields.ephemeral, stays]
  · exact part.skipped
  · intro id
    rw [adopt_agents, OrderedDict.get?_insert, OrderedDict.get?_insert, part.registry]
    rfl
  · intro id
    simp only [adopt, modify, register, allocate, Function.update_self,
      OrderedDict.mem_keys_insert, part.inboxes]
    rfl
  · intro other listed bare
    have apart : other.id ≠ record.id := by
      intro same
      have equal := List.inj_on_of_nodup_map distinct listed kept.listed same
      rw [equal, named] at bare
      cases bare
    rw [adopt_root, part.root other listed bare, OrderedDict.get?_insert_of_ne _ _ apart]
  · intro ref old
    rw [adopt_heap aboveOld, if_neg (by omega), if_neg (by omega)]
    exact part.older ref old
  · exact Nat.le_succ_of_le grown

/-- Below a dropped record nothing is kept. -/
theorem not_kept_under (distinct : (records.map AgentRecord.id).Nodup) {above : AgentRecord}
    (link : Link records AgentRecord.id AgentRecord.parentId record above)
    (dropped : ¬ Kept host records above) : ¬ Kept host records record := by
  intro kept
  cases kept with
  | top _ bare =>
    rw [link.2.2] at bare
    cases bare
  | under other upper =>
    rw [link_right_unique distinct other link] at upper
    exact dropped upper

/-- A record the pass does not put off keeps the invariant and is done with. -/
theorem Partial.loadOne (part : Partial host start records loading)
    (distinct : (records.map AgentRecord.id).Nodup)
    (alone : ∀ root ∈ records, root.parentId = none →
      ∀ other ∈ records, other.parentId = none → other = root)
    (listed : record ∈ records) {after : Loading}
    (placed : loading.loadOne host workdir record = some after) :
    Partial host start records after ∧ after.Done record.id ∧
      ∀ id, loading.Done id → after.Done id := by
  have skipDone : (loading.skip record).Done record.id ∧
      ∀ id, loading.Done id → (loading.skip record).Done id := by
    refine ⟨.inr (List.mem_cons_self ..), ?_⟩
    intro id done
    exact done.imp (fun old => old) (List.mem_cons_of_mem _)
  have buildDone : ∀ rootPath, (loading.build record rootPath).Done record.id ∧
      ∀ id, loading.Done id → (loading.build record rootPath).Done id := by
    intro rootPath
    refine ⟨.inl (OrderedDict.mem_keys_insert.mpr (.inl rfl)), ?_⟩
    intro id done
    exact done.imp (fun old => OrderedDict.mem_keys_insert.mpr (.inr old)) fun old => old
  unfold Loading.loadOne at placed
  cases named : record.parentId with
  | none =>
    simp only [named, Option.some.injEq, Loading.loadHere] at placed
    by_cases linked : Loading.installed host record = true
    · rw [if_pos linked] at placed
      rw [← placed]
      exact ⟨part.buildRoot (.top listed named linked) named (alone record listed named) _,
        buildDone _⟩
    · rw [if_neg linked] at placed
      rw [← placed]
      exact ⟨part.skip (.top listed named trivial) fun kept => linked kept.kept, skipDone⟩
  | some parentId =>
    simp only [named] at placed
    by_cases ancestor : parentId ∈ loading.skipIds
    · rw [if_pos ancestor, Option.some.injEq] at placed
      rw [← placed]
      obtain ⟨above, attached, dropped, rfl⟩ := part.skipped ancestor
      have link : Link records AgentRecord.id AgentRecord.parentId record above :=
        ⟨listed, attached.listed, named⟩
      exact ⟨part.skip (.under link attached trivial) (not_kept_under distinct link dropped),
        skipDone⟩
    · rw [if_neg ancestor] at placed
      by_cases processed : loading.byId.contains parentId = true
      · rw [if_pos processed, Option.some.injEq, Loading.loadHere] at placed
        obtain ⟨ref, found⟩ := OrderedDict.mem_keys_iff.mp (OrderedDict.contains_iff.mp processed)
        obtain ⟨above, aboveKept, sameId, _⟩ := part.built found
        have link : Link records AgentRecord.id AgentRecord.parentId record above :=
          ⟨listed, aboveKept.listed, named.trans (congrArg some sameId.symm)⟩
        by_cases linked : Loading.installed host record = true
        · rw [if_pos linked] at placed
          rw [← placed]
          exact ⟨part.buildChild distinct (.under link aboveKept linked) named found _,
            buildDone _⟩
        · rw [if_neg linked] at placed
          rw [← placed]
          exact ⟨part.skip (.under link (kept_attached aboveKept) trivial)
            fun kept => linked kept.kept, skipDone⟩
      · rw [if_neg processed] at placed
        cases placed

end Steps

/-! ### One pass, and all of them -/

section Passes

variable {start : Kernel} {records : List AgentRecord}

/-- What one pass leaves: its list is split into what is done and what is put off. -/
structure Passed (host : Host) (workdir : Option PurePath) (start : Kernel)
    (records : List AgentRecord) (loading : Loading) (pending : List AgentRecord)
    (result : Loading × List AgentRecord × Bool) : Prop where
  part : Partial host start records result.1
  sublist : result.2.1.Sublist pending
  settled : ∀ record ∈ pending, record ∈ result.2.1 ∨ result.1.Done record.id
  still : ∀ id, loading.Done id → result.1.Done id
  shorter : result.2.2 = true → result.2.1.length < pending.length
  stuck : result.2.2 = false → result.1 = loading ∧ result.2.1 = pending ∧
    ∀ record ∈ pending, loading.loadOne host workdir record = none

theorem Partial.loadPass (distinct : (records.map AgentRecord.id).Nodup)
    (alone : ∀ root ∈ records, root.parentId = none →
      ∀ other ∈ records, other.parentId = none → other = root)
    {pending : List AgentRecord} {loading : Loading} (part : Partial host start records loading)
    (listed : ∀ record ∈ pending, record ∈ records) :
    Passed host workdir start records loading pending
      (Loading.loadPass host workdir loading pending) := by
  induction pending generalizing loading with
  | nil =>
    refine ⟨part, .refl _, by simp, fun _ done => done, by simp [Loading.loadPass], ?_⟩
    intro _
    exact ⟨rfl, rfl, by simp⟩
  | cons record rest ih =>
    have restListed : ∀ other ∈ rest, other ∈ records :=
      fun other member => listed other (List.mem_cons_of_mem _ member)
    unfold Loading.loadPass
    cases placed : loading.loadOne host workdir record with
    | none =>
      have passed := ih part restListed
      refine ⟨passed.part, passed.sublist.cons_cons record, ?_, passed.still, ?_, ?_⟩
      · intro other member
        rcases List.mem_cons.mp member with rfl | later
        · exact .inl (List.mem_cons_self ..)
        · exact (passed.settled other later).imp_left (List.mem_cons_of_mem _)
      · intro progress
        exact Nat.succ_lt_succ (passed.shorter progress)
      · intro idle
        obtain ⟨sameLoading, sameList, putOff⟩ := passed.stuck idle
        refine ⟨sameLoading, congrArg (record :: ·) sameList, ?_⟩
        intro other member
        rcases List.mem_cons.mp member with rfl | later
        · exact placed
        · exact putOff other later
    | some after =>
      obtain ⟨afterPart, done, kept⟩ := part.loadOne distinct alone
        (listed record (List.mem_cons_self ..)) placed
      have passed := ih afterPart restListed
      refine ⟨passed.part, passed.sublist.cons record, ?_, ?_, ?_, ?_⟩
      · intro other member
        rcases List.mem_cons.mp member with rfl | later
        · exact .inr (passed.still _ done)
        · exact passed.settled other later
      · intro id earlier
        exact passed.still id (kept id earlier)
      · intro _
        exact Nat.lt_succ_of_le passed.sublist.length_le
      · intro idle
        cases idle

/-- What the passes end with. -/
structure Finished (host : Host) (workdir : Option PurePath) (start : Kernel)
    (records : List AgentRecord) (result : Loading × List AgentRecord) : Prop where
  part : Partial host start records result.1
  listed : ∀ record ∈ result.2, record ∈ records
  settled : ∀ record ∈ records, record ∈ result.2 ∨ result.1.Done record.id
  stuck : ∀ record ∈ result.2, result.1.loadOne host workdir record = none

theorem Partial.loadLoop (distinct : (records.map AgentRecord.id).Nodup)
    (alone : ∀ root ∈ records, root.parentId = none →
      ∀ other ∈ records, other.parentId = none → other = root)
    {fuel : Nat} {pending : List AgentRecord} {loading : Loading}
    (part : Partial host start records loading) (listed : ∀ record ∈ pending, record ∈ records)
    (settled : ∀ record ∈ records, record ∈ pending ∨ loading.Done record.id)
    (enough : pending.length ≤ fuel) :
    Finished host workdir start records (Loading.loadLoop host workdir fuel loading pending) := by
  induction fuel generalizing pending loading with
  | zero =>
    have empty : pending = [] := List.length_eq_zero_iff.mp (Nat.le_zero.mp enough)
    subst empty
    exact ⟨part, listed, settled, by simp [Loading.loadLoop]⟩
  | succ fuel ih =>
    unfold Loading.loadLoop
    by_cases empty : pending.isEmpty = true
    · rw [if_pos empty]
      refine ⟨part, listed, settled, ?_⟩
      rw [List.isEmpty_iff.mp empty]
      simp
    · rw [if_neg empty]
      have passed : Passed host workdir start records loading pending
          (Loading.loadPass host workdir loading pending) := part.loadPass distinct alone listed
      generalize Loading.loadPass host workdir loading pending = result at passed
      obtain ⟨after, next, progress⟩ := result
      have nextListed : ∀ record ∈ next, record ∈ records :=
        fun record member => listed record (passed.sublist.subset member)
      have nextSettled : ∀ record ∈ records, record ∈ next ∨ after.Done record.id := by
        intro record member
        rcases settled record member with waiting | done
        · exact passed.settled record waiting
        · exact .inr (passed.still _ done)
      cases progress with
      | true =>
        have shorter := passed.shorter rfl
        exact ih passed.part nextListed nextSettled (by simp only at shorter; omega)
      | false =>
        obtain ⟨sameLoading, sameList, putOff⟩ := passed.stuck rfl
        simp only at sameLoading sameList
        refine ⟨passed.part, nextListed, nextSettled, ?_⟩
        simp only [Bool.false_eq_true, if_false, sameLoading, sameList]
        exact putOff

/-- What hangs below the root is done with, whatever was put off. -/
theorem Finished.done {result : Loading × List AgentRecord}
    (finished : Finished host workdir start records result) {record : AgentRecord}
    (attached : Attached records record) :
    record ∉ result.2 ∧ result.1.Done record.id := by
  have processed : record ∉ result.2 → record ∉ result.2 ∧ result.1.Done record.id := by
    intro outside
    exact ⟨outside, (finished.settled record attached.listed).resolve_left outside⟩
  induction attached with
  | top listed bare _ =>
    apply processed
    intro waiting
    have putOff := finished.stuck _ waiting
    simp [Loading.loadOne, bare] at putOff
  | @under node above link upper _ ih =>
    apply processed
    intro waiting
    have putOff := finished.stuck _ waiting
    have aboveDone : result.1.Done above.id := by
      apply And.right
      apply ih
      intro outside
      exact ⟨outside, (finished.settled above upper.listed).resolve_left outside⟩
    simp only [Loading.loadOne, link.2.2] at putOff
    rcases aboveDone with built | skipped
    · by_cases ancestor : above.id ∈ result.1.skipIds
      · simp [ancestor] at putOff
      · simp [ancestor, OrderedDict.contains_iff.mpr built] at putOff
    · simp [skipped] at putOff

end Passes

/-! ### What a snapshot that passed the checks leaves behind -/

/-- The kernel after the passes: what is kept is registered, and nothing else is. -/
structure Loaded (host : Host) (records : List AgentRecord) (before after : Kernel) : Prop where
  registered : ∀ {id ref}, after.agents.get? id = some ref →
    Kept host records (after.heap ref).record ∧ (after.heap ref).id = id ∧
      (after.heap ref).ephemeral = false ∧ before.allocated ≤ ref
  complete : ∀ {record}, Kept host records record → ∃ ref,
    after.agents.get? record.id = some ref ∧ (after.heap ref).record = record
  root : ∀ record ∈ records, record.parentId = none → after.root = after.agents.get? record.id
  inboxes : ∀ id, id ∈ after.inboxes.keys ↔ id ∈ after.agents.keys
  older : ∀ ref, ref < before.allocated → after.heap ref = before.heap ref

theorem Finished.loaded {start : Kernel} {records : List AgentRecord}
    {result : Loading × List AgentRecord} (distinct : (records.map AgentRecord.id).Nodup)
    (finished : Finished host workdir start records result) :
    Loaded host records start result.1.kernel where
  registered := by
    intro id ref found
    rw [finished.part.registry] at found
    obtain ⟨record, kept, sameId, same, stays, low, _⟩ := finished.part.built found
    subst same
    exact ⟨kept, sameId, stays, low⟩
  complete := by
    intro record kept
    have done : record.id ∈ result.1.byId.keys := by
      rcases (finished.done (kept_attached kept)).2 with built | skipped
      · exact built
      · obtain ⟨other, attached, dropped, sameId⟩ := finished.part.skipped skipped
        have same := List.inj_on_of_nodup_map distinct attached.listed kept.listed sameId
        rw [same] at dropped
        exact absurd kept dropped
    obtain ⟨ref, found⟩ := OrderedDict.mem_keys_iff.mp done
    obtain ⟨other, otherKept, sameId, sameRecord, _⟩ := finished.part.built found
    refine ⟨ref, (finished.part.registry _).trans found, ?_⟩
    rw [sameRecord]
    exact List.inj_on_of_nodup_map distinct otherKept.listed kept.listed sameId
  root := by
    intro record listed bare
    rw [finished.part.registry]
    exact finished.part.root record listed bare
  inboxes := by
    intro id
    rw [finished.part.inboxes, OrderedDict.mem_keys_iff, OrderedDict.mem_keys_iff]
    simp only [finished.part.registry]
  older := finished.part.older

theorem Finished.resolved_iff {start : Kernel} {records : List AgentRecord}
    {result : Loading × List AgentRecord} (distinct : (records.map AgentRecord.id).Nodup)
    (finished : Finished host workdir start records result) :
    result.2.isEmpty = true ↔ ∀ record ∈ records, Attached records record := by
  constructor
  · intro empty record listed
    rcases finished.settled record listed with waiting | built | skipped
    · rw [List.isEmpty_iff.mp empty] at waiting
      cases waiting
    · obtain ⟨ref, found⟩ := OrderedDict.mem_keys_iff.mp built
      obtain ⟨other, kept, sameId, _⟩ := finished.part.built found
      rw [← List.inj_on_of_nodup_map distinct kept.listed listed sameId]
      exact kept_attached kept
    · obtain ⟨other, attached, _, sameId⟩ := finished.part.skipped skipped
      rw [← List.inj_on_of_nodup_map distinct attached.listed listed sameId]
      exact attached
  · intro all
    rw [List.isEmpty_iff, List.eq_nil_iff_forall_not_mem]
    intro record waiting
    exact (finished.done (all record (finished.listed record waiting))).1 waiting

theorem Valid.alone {state : KernelState} (valid : Valid state) :
    ∀ root ∈ state.agents, root.parentId = none →
      ∀ other ∈ state.agents, other.parentId = none → other = root := by
  intro root listed bare other otherListed otherBare
  obtain ⟨top, _, _, only⟩ := valid.rooted
  rw [only root listed bare, only other otherListed otherBare]

theorem load_invalid (kernel : Kernel) {state : KernelState} (invalid : ¬ Valid state) :
    (load host workdir kernel state).1 = kernel ∧ (load host workdir kernel state).2 ≠ none := by
  unfold load
  cases checked : validate host state with
  | error failure => exact ⟨rfl, by simp⟩
  | ok _ => exact absurd ((validate_ok_iff host state).mp checked) invalid

theorem load_valid (kernel : Kernel) {state : KernelState} (valid : Valid state) :
    Loaded host state.agents kernel (load host workdir kernel state).1 ∧
      ((load host workdir kernel state).2 = none ↔
        ∀ record ∈ state.agents, Attached state.agents record) := by
  have finished : Finished host workdir kernel state.agents
      (Loading.loadLoop host workdir state.agents.length
        { kernel := kernel.cleared, byId := .empty, skipIds := [] } state.agents) := by
    apply (Partial.start host kernel state.agents).loadLoop valid.distinct valid.alone
    · exact fun _ member => member
    · exact fun _ member => .inl member
    · exact Nat.le_refl _
  have loaded := finished.loaded valid.distinct
  have resolved := finished.resolved_iff valid.distinct
  unfold load
  rw [(validate_ok_iff host state).mpr valid]
  generalize Loading.loadLoop host workdir state.agents.length
    { kernel := kernel.cleared, byId := .empty, skipIds := [] } state.agents = result at *
  simp only
  by_cases done : result.2.isEmpty = true
  · rw [if_pos done]
    exact ⟨loaded, fun _ => resolved.mp done, fun _ => rfl⟩
  · rw [if_neg done]
    refine ⟨loaded, ?_, ?_⟩
    · intro impossible
      cases impossible
    · intro all
      exact absurd (resolved.mpr all) done

/-! ### A failed load and the old tree -/

/-- The registry, the inboxes, the root cell and the agents behind them. -/
structure SameTables (before after : Kernel) : Prop where
  agents : ∀ id, after.agents.get? id = before.agents.get? id
  inboxes : ∀ id, after.inboxes.get? id = before.inboxes.get? id
  root : after.root = before.root
  contents : ∀ ref, ref < before.allocated → after.heap ref = before.heap ref

/-- A kernel whose root cell, when it is set, holds an agent that was made. -/
structure LiveKernel where
  kernel : Kernel
  rootMade : ∀ ref, kernel.root = some ref → ref < kernel.allocated

/-- Nothing is registered, nothing has an inbox and the root cell is not set. -/
structure Vacant (kernel : Kernel) : Prop where
  agents : kernel.agents.keys = []
  inboxes : kernel.inboxes.keys = []
  root : kernel.root = none

/-- The root record needs a bundle that is not linked in. -/
def RootDropped (host : Host) (records : List AgentRecord) : Prop :=
  ∃ root ∈ records, root.parentId = none ∧ Loading.installed host root = false

/-- The snapshot passes the checks and a record of it does not hang below its root. -/
def HasDetached (state : KernelState) : Prop :=
  Valid state ∧ ∃ record ∈ state.agents, ¬ Attached state.agents record

/-- Without the root nothing is kept. -/
theorem RootDropped.none_kept {records : List AgentRecord}
    (alone : ∀ root ∈ records, root.parentId = none →
      ∀ other ∈ records, other.parentId = none → other = root)
    (dropped : RootDropped host records) (record : AgentRecord) : ¬ Kept host records record := by
  intro kept
  obtain ⟨root, listed, bare, missing⟩ := dropped
  induction kept with
  | top topListed topBare linked =>
    rw [alone root listed bare _ topListed topBare, missing] at linked
    cases linked
  | under _ _ _ ih => exact ih

theorem Loaded.vacant {records : List AgentRecord} {before after : Kernel}
    (loaded : Loaded host records before after)
    (alone : ∀ root ∈ records, root.parentId = none →
      ∀ other ∈ records, other.parentId = none → other = root)
    (dropped : RootDropped host records) : Vacant after := by
  have unregistered : ∀ id, after.agents.get? id = none := by
    intro id
    cases found : after.agents.get? id with
    | none => rfl
    | some ref => exact absurd (loaded.registered found).1 (dropped.none_kept alone _)
  have bare : after.agents.keys = [] := by
    rw [List.eq_nil_iff_forall_not_mem]
    intro id
    exact OrderedDict.get?_eq_none_iff.mp (unregistered id)
  constructor
  · exact bare
  · rw [List.eq_nil_iff_forall_not_mem]
    intro id member
    rw [loaded.inboxes, bare] at member
    cases member
  · obtain ⟨root, listed, top, _⟩ := dropped
    rw [loaded.root root listed top, unregistered]

theorem Vacant.sameTables {before after : Kernel} (emptied : Vacant after)
    (contents : ∀ ref, ref < before.allocated → after.heap ref = before.heap ref) :
    SameTables before after ↔ Vacant before := by
  have noAgent : ∀ id, after.agents.get? id = none := by
    intro id
    rw [OrderedDict.get?_eq_none_iff, emptied.agents]
    simp
  have noInbox : ∀ id, after.inboxes.get? id = none := by
    intro id
    rw [OrderedDict.get?_eq_none_iff, emptied.inboxes]
    simp
  constructor
  · intro same
    constructor
    · rw [List.eq_nil_iff_forall_not_mem]
      intro id
      rw [← OrderedDict.get?_eq_none_iff, ← same.agents, noAgent]
    · rw [List.eq_nil_iff_forall_not_mem]
      intro id
      rw [← OrderedDict.get?_eq_none_iff, ← same.inboxes, noInbox]
    · rw [← same.root, emptied.root]
  · intro before
    constructor
    · intro id
      rw [noAgent, eq_comm, OrderedDict.get?_eq_none_iff, before.agents]
      simp
    · intro id
      rw [noInbox, eq_comm, OrderedDict.get?_eq_none_iff, before.inboxes]
      simp
    · rw [emptied.root, before.root]
    · exact contents

/-- A kept root is a new agent, so the root cell has changed. -/
theorem Loaded.root_changed {records : List AgentRecord} {live : LiveKernel} {after : Kernel}
    (loaded : Loaded host records live.kernel after) {root : AgentRecord} (listed : root ∈ records)
    (bare : root.parentId = none) (linked : Loading.installed host root = true) :
    ¬ SameTables live.kernel after := by
  intro same
  obtain ⟨ref, found, _⟩ := loaded.complete (.top listed bare linked)
  have cell : live.kernel.root = some ref := by
    rw [← same.root, loaded.root root listed bare, found]
  have made := live.rootMade ref cell
  have new := (loaded.registered found).2.2.2
  omega

/-- A failed load leaves the old tree in place, unless it failed in the passes: there the
old tree is gone, which shows in any kernel but an empty one that loads nothing. -/
theorem load_atomic_iff (host : Host) (workdir : Option PurePath) (live : LiveKernel)
    (state : KernelState) :
    ((load host workdir live.kernel state).2 ≠ none →
      SameTables live.kernel (load host workdir live.kernel state).1) ↔
    (¬ HasDetached state ∨ (RootDropped host state.agents ∧ Vacant live.kernel)) := by
  by_cases valid : Valid state
  · obtain ⟨loaded, accepted⟩ := @load_valid host workdir live.kernel state valid
    by_cases all : ∀ record ∈ state.agents, Attached state.agents record
    · constructor
      · intro _
        left
        intro ⟨_, record, listed, detached⟩
        exact detached (all record listed)
      · intro _ failed
        exact absurd (accepted.mpr all) failed
    · have failed : (load host workdir live.kernel state).2 ≠ none :=
        fun ok => all (accepted.mp ok)
      have detached : HasDetached state := by
        refine ⟨valid, ?_⟩
        by_contra none
        apply all
        intro record listed
        by_contra loose
        exact none ⟨record, listed, loose⟩
      by_cases dropped : RootDropped host state.agents
      · have emptied := (loaded.vacant valid.alone dropped).sameTables loaded.older
        constructor
        · intro atomic
          exact .inr ⟨dropped, emptied.mp (atomic failed)⟩
        · rintro (attached | ⟨_, vacant⟩) _
          · exact absurd detached attached
          · exact emptied.mpr vacant
      · constructor
        · intro atomic
          obtain ⟨root, listed, bare, _⟩ := valid.rooted
          have linked : Loading.installed host root = true := by
            by_contra missing
            exact dropped ⟨root, listed, bare, Bool.eq_false_iff.mpr missing⟩
          exact absurd (atomic failed) (loaded.root_changed listed bare linked)
        · rintro (attached | ⟨missing, _⟩)
          · exact absurd detached attached
          · exact absurd missing dropped
  · constructor
    · intro _
      exact .inl fun detached => valid detached.1
    · intro _ _
      rw [(load_invalid live.kernel valid).1]
      exact ⟨fun _ => rfl, fun _ => rfl, rfl, fun _ _ => rfl⟩

/-- A root, and two records that name each other as their parents. -/
def looseCycle : KernelState where
  version := 1
  agents := [plainRecord "core" none, plainRecord "left" (some "right"),
    plainRecord "right" (some "left")]

/-- Every check passes, the old tree is dropped, and the load fails. -/
theorem loose_cycle_drops_the_tree :
    ¬ ((load everyBundle none (bootInMemory "core") looseCycle).2 ≠ none →
      SameTables (bootInMemory "core")
        (load everyBundle none (bootInMemory "core") looseCycle).1) := by
  intro atomic
  have failed : (load everyBundle none (bootInMemory "core") looseCycle).2.isSome = true :=
    rfl
  have cell : (load everyBundle none (bootInMemory "core") looseCycle).1.root = some 1 :=
    rfl
  have same := (atomic (Option.isSome_iff_ne_none.mp failed)).root
  rw [cell] at same
  cases same

end Fantastic.Rust.Kernel

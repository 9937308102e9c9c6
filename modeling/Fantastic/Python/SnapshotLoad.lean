import Fantastic.Python.SnapshotRuns

/-!
# What `load` accepts and what it builds

`validate_records` looks at one record at a time; `build` follows the children from the
root. Between the two stand the records that are kept: those below the root through
modules that import. Whatever the records are, a load that returns has registered the kept
records, each under its parent, and nothing else.
-/

namespace Fantastic.Python

open Fantastic.ParentForest

variable {runtime : Runtime} {records : List Dict}

/-! ### The checks of `validate_records` -/

/-- What the two loops look at. Every id is non-empty and hashable. -/
structure LocalChecks (records : List Dict) : Prop where
  named : ∀ record ∈ records, truthy (getD record "id") = true
  hashable : ∀ record ∈ records, ∃ key, recordKey record = .ok key
  distinct : (records.map recordKey).Nodup
  rooted : ∃ root ∈ records, recordParent root = none ∧
    ∀ other ∈ records, recordParent other = none → other = root
  closed : ∀ record ∈ records, ∀ key, recordParent record = some key →
    ∃ above ∈ records, recordKey above = key

theorem recordParent_eq_none_iff {record : Dict} :
    recordParent record = none ↔ getD record "parent_id" = .null := by
  unfold recordParent
  split
  case h_1 same => simp [same]
  case h_2 other => simpa using other

theorem scanRecord_ok_iff {seen result : List DictKey × List Value} {record : Dict} :
    scanRecord runtime seen record = .ok result ↔
      ∃ key, recordKey record = .ok key ∧ truthy (getD record "id") = true ∧ key ∉ seen.1 ∧
        result = (seen.1 ++ [key],
          if getD record "parent_id" = .null then seen.2 ++ [getD record "id"] else seen.2) := by
  simp only [scanRecord, recordKey]
  cases truthy (getD record "id") with
  | false =>
    simp only [Bool.not_false, if_true, Bool.false_eq_true, false_and, and_false, exists_false,
      iff_false]
    intro failed
    cases failed
  | true =>
    simp only [Bool.not_true, Bool.false_eq_true, if_false, true_and]
    cases hashKey (getD record "id") with
    | error failure =>
      simp only [reduceCtorEq, false_and, exists_false, iff_false]
      intro failed
      cases failed
    | ok key =>
      change (if key ∈ seen.1 then _ else _) = _ ↔ _
      by_cases again : key ∈ seen.1
      · rw [if_pos again]
        constructor
        · intro failed
          cases failed
        · rintro ⟨other, same, fresh, _⟩
          rw [← Except.ok.inj same] at fresh
          exact absurd again fresh
      · rw [if_neg again]
        constructor
        · intro scanned
          exact ⟨key, rfl, again, (Except.ok.inj scanned).symm⟩
        · rintro ⟨other, same, _, rfl⟩
          rw [← Except.ok.inj same]
          rfl

theorem scan_ok_iff {seen result : List DictKey × List Value} (nodup : seen.1.Nodup) :
    records.foldlM (scanRecord runtime) seen = .ok result ↔
      (∀ record ∈ records, truthy (getD record "id") = true) ∧
      ∃ keys, records.map recordKey = keys.map .ok ∧ (seen.1 ++ keys).Nodup ∧
        result = (seen.1 ++ keys, seen.2 ++
          (records.filter fun record => decide (recordParent record = none)).map
            fun record => getD record "id") := by
  induction records generalizing seen with
  | nil =>
    simp only [List.foldlM_nil, pure, Except.pure, Except.ok.injEq, List.map_nil]
    constructor
    · rintro rfl
      exact ⟨by simp, [], rfl, by simpa using nodup, by simp⟩
    · rintro ⟨_, keys, none, _, rfl⟩
      rw [List.map_eq_nil_iff.mp none.symm]
      simp
  | cons record rest ih =>
    simp only [List.foldlM_cons, bind_eq_ok_iff, scanRecord_ok_iff]
    have bare : decide (recordParent record = none) =
        decide (getD record "parent_id" = .null) := by simp [recordParent_eq_none_iff]
    constructor
    · rintro ⟨middle, ⟨key, hashed, named, fresh, rfl⟩, scanned⟩
      have grown : (seen.1 ++ [key]).Nodup := by
        rw [List.nodup_append]
        refine ⟨nodup, by simp, ?_⟩
        intro old member new single same
        rw [List.mem_singleton] at single
        rw [same, single] at member
        exact fresh member
      obtain ⟨restNamed, keys, hashedRest, distinct, rfl⟩ := (ih grown).mp scanned
      refine ⟨?_, key :: keys, ?_, ?_, ?_⟩
      · intro other member
        rcases List.mem_cons.mp member with rfl | later
        · exact named
        · exact restNamed other later
      · rw [List.map_cons, List.map_cons, hashed, hashedRest]
      · simpa using distinct
      · rw [List.filter_cons, bare]
        by_cases top : getD record "parent_id" = .null
        · simp [top]
        · simp [top]
    · rintro ⟨named, keys, hashed, distinct, rfl⟩
      cases keys with
      | nil => simp at hashed
      | cons key keys =>
        rw [List.map_cons, List.map_cons, List.cons.injEq] at hashed
        have split : (seen.1 ++ [key] ++ keys).Nodup := by simpa using distinct
        have grown := (List.nodup_append.mp split).1
        refine ⟨_, ⟨key, hashed.1, named record (List.mem_cons_self ..), ?_, rfl⟩, ?_⟩
        · intro member
          exact (List.nodup_append.mp grown).2.2 key member key (by simp) rfl
        · rw [ih grown]
          refine ⟨fun other later => named other (List.mem_cons_of_mem _ later), keys,
            hashed.2, split, ?_⟩
          rw [List.filter_cons, bare]
          by_cases top : getD record "parent_id" = .null
          · simp [top]
          · simp [top]

theorem checkParent_ok_iff {ids : List DictKey} {record : Dict} :
    checkParent runtime ids record = .ok () ↔
      ∀ key, recordParent record = some key → ∃ hashed ∈ ids, key = .ok hashed := by
  unfold checkParent recordParent
  split
  case h_1 => simp
  case h_2 =>
    cases hashed : hashKey (getD record "parent_id") with
    | error failure => simp [bind, Except.bind]
    | ok key =>
      by_cases listed : key ∈ ids
      · simp [bind, Except.bind, listed, pure, Except.pure]
      · simp [bind, Except.bind, listed, throw, throwThe, MonadExceptOf.throw]

theorem checkParents_ok_iff {ids : List DictKey} :
    records.forM (checkParent runtime ids) = .ok () ↔
      ∀ record ∈ records, ∀ key, recordParent record = some key →
        ∃ hashed ∈ ids, key = .ok hashed := by
  induction records with
  | nil => simp [List.forM, pure, Except.pure]
  | cons record rest ih =>
    simp only [List.forM, bind_eq_ok_iff, List.forall_mem_cons]
    rw [← ih, ← checkParent_ok_iff]
    constructor
    · rintro ⟨_, head, others⟩
      exact ⟨head, others⟩
    · rintro ⟨head, others⟩
      exact ⟨(), head, others⟩

theorem keys_of_hashable (hashable : ∀ record ∈ records, ∃ key, recordKey record = .ok key) :
    ∃ keys : List DictKey, records.map recordKey = keys.map Except.ok := by
  induction records with
  | nil => exact ⟨[], rfl⟩
  | cons record rest ih =>
    obtain ⟨key, hashed⟩ := hashable record (List.mem_cons_self ..)
    obtain ⟨keys, others⟩ := ih fun other later => hashable other (List.mem_cons_of_mem _ later)
    refine ⟨key :: keys, ?_⟩
    rw [List.map_cons, List.map_cons, hashed, others]

/-- The roots the first loop collects, for records with one root. -/
theorem rooted_iff (distinct : (records.map recordKey).Nodup) :
    (∃ root, (records.filter fun record => decide (recordParent record = none)) = [root]) ↔
      ∃ root ∈ records, recordParent root = none ∧
        ∀ other ∈ records, recordParent other = none → other = root := by
  have member : ∀ record, record ∈ records.filter
      (fun record => decide (recordParent record = none)) ↔
        record ∈ records ∧ recordParent record = none := by
    intro record
    rw [List.mem_filter, decide_eq_true_eq]
  constructor
  · rintro ⟨root, single⟩
    rw [single] at member
    have here := (member root).mp (by simp)
    refine ⟨root, here.1, here.2, ?_⟩
    intro other listed bare
    simpa using (member other).mpr ⟨listed, bare⟩
  · rintro ⟨root, listed, bare, only⟩
    refine ⟨root, ?_⟩
    rw [← List.perm_singleton, List.perm_ext_iff_of_nodup (distinct.of_map.filter _)
      (List.nodup_singleton root)]
    intro other
    rw [member, List.mem_singleton]
    constructor
    · intro both
      exact only other both.1 both.2
    · rintro rfl
      exact ⟨listed, bare⟩

theorem validate_ok_iff {version : Int} :
    (∃ rootId, validateRecords runtime records version = .ok rootId) ↔
      version ≤ currentVersion ∧ LocalChecks records := by
  unfold validateRecords
  by_cases newer : version > currentVersion
  · simp only [if_pos newer]
    constructor
    · rintro ⟨_, failed⟩
      cases failed
    · intro both
      omega
  · simp only [if_neg newer]
    have scanned : ∀ result, records.foldlM (scanRecord runtime) ([], []) = .ok result ↔ _ :=
      fun result => @scan_ok_iff runtime records ([], []) result List.nodup_nil
    simp only [bind_eq_ok_iff, scanned, List.nil_append]
    constructor
    · rintro ⟨rootId, _, ⟨named, keys, hashed, distinct, rfl⟩, checked⟩
      have keysNodup : (records.map recordKey).Nodup := by
        rw [hashed]
        exact distinct.map fun _ _ same => Except.ok.inj same
      have rooted := rooted_iff keysNodup
      simp only at checked
      split at checked
      case h_1 => cases checked
      case h_3 => cases checked
      case h_2 id single =>
        obtain ⟨root, alone, _⟩ := List.map_eq_singleton_iff.mp single
        simp only [bind_eq_ok_iff] at checked
        obtain ⟨_, parents, _⟩ := checked
        refine ⟨by omega, named, ?_, keysNodup, rooted.mp ⟨root, alone⟩, ?_⟩
        · intro record listed
          have member : recordKey record ∈ keys.map Except.ok := by
            rw [← hashed]
            exact List.mem_map_of_mem listed
          obtain ⟨key, _, same⟩ := List.mem_map.mp member
          exact ⟨key, same.symm⟩
        · intro record listed key parent
          obtain ⟨upper, upperListed, rfl⟩ := checkParents_ok_iff.mp parents record listed key parent
          have member : Except.ok upper ∈ records.map recordKey := by
            rw [hashed]
            exact List.mem_map_of_mem upperListed
          exact List.mem_map.mp member
    · rintro ⟨_, checks⟩
      obtain ⟨root, alone⟩ := (rooted_iff checks.distinct).mpr checks.rooted
      obtain ⟨keys, hashed⟩ := keys_of_hashable checks.hashable
      have distinct : keys.Nodup := by
        have nodup := checks.distinct
        rw [hashed] at nodup
        exact nodup.of_map
      have parents : records.forM (checkParent runtime keys) = .ok () := by
        rw [checkParents_ok_iff]
        intro record listed key parent
        obtain ⟨above, aboveListed, rfl⟩ := checks.closed record listed key parent
        have member : recordKey above ∈ keys.map Except.ok := by
          rw [← hashed]
          exact List.mem_map_of_mem aboveListed
        obtain ⟨upper, upperListed, same⟩ := List.mem_map.mp member
        exact ⟨upper, upperListed, same.symm⟩
      refine ⟨getD root "id", _, ⟨checks.named, keys, hashed, distinct, rfl⟩, ?_⟩
      rw [alone]
      change (records.forM (checkParent runtime keys) >>= _) = _
      rw [parents]
      rfl

namespace Kernel

/-! ### The records that are kept -/

/-- `build` does not skip the record itself. -/
def keeps (runtime : Runtime) (record : Dict) : Bool :=
  !(truthy (getD record "handler_module") && !runtime.importable (getD record "handler_module"))

theorem keeps_iff {record : Dict} : keeps runtime record = true ↔
    (truthy (getD record "handler_module") &&
      !runtime.importable (getD record "handler_module")) = false := by
  rw [keeps, Bool.not_eq_true']

/-- Below the root, through records that are not skipped. -/
abbrev Kept (runtime : Runtime) (records : List Dict) (record : Dict) : Prop :=
  Reached records recordKey recordParent (fun other => keeps runtime other = true) record

theorem build_skips {rootPath : Option Address} {record : Dict}
    (skipped : keeps runtime record = false) (fuel : Nat) (parent : Option Nat) (kernel : Kernel) :
    build runtime records rootPath fuel parent kernel record = .ok kernel := by
  cases fuel with
  | zero => rfl
  | succ fuel =>
    unfold keeps at skipped
    rw [Bool.not_eq_false'] at skipped
    simp only [build, if_pos skipped]

/-- A step that does nothing on what a filter drops may be taken on the whole list. -/
theorem foldlM_filter {State Item : Type} {keep : Item → Bool}
    {step : State → Item → Except PyError State}
    (idle : ∀ state item, keep item = false → step state item = .ok state) (items : List Item)
    (state : State) : (items.filter keep).foldlM step state = items.foldlM step state := by
  induction items generalizing state with
  | nil => rfl
  | cons item rest ih =>
    cases kept : keep item with
    | true =>
      rw [List.filter_cons_of_pos kept, List.foldlM_cons, List.foldlM_cons]
      congr 1
      funext next
      exact ih next
    | false =>
      rw [List.filter_cons_of_neg (by simp [kept]), ih, List.foldlM_cons, idle state item kept]
      rfl

theorem foldlM_congr {State Item : Type} {step other : State → Item → Except PyError State}
    {items : List Item} (same : ∀ state, ∀ item ∈ items, step state item = other state item)
    (state : State) : items.foldlM step state = items.foldlM other state := by
  induction items generalizing state with
  | nil => rfl
  | cons item rest ih =>
    rw [List.foldlM_cons, List.foldlM_cons, same state item (List.mem_cons_self ..)]
    congr 1
    funext next
    exact ih (fun state item later => same state item (List.mem_cons_of_mem _ later)) next

/-- What is not kept might as well not be in the list. -/
theorem build_kept {rootPath : Option Address} (fuel : Nat) {record : Dict}
    (kept : Kept runtime records record) (parent : Option Nat) (kernel : Kernel) :
    build runtime records rootPath fuel parent kernel record =
      build runtime (keptNodes records recordKey recordParent (keeps runtime)) rootPath fuel parent
        kernel record := by
  induction fuel generalizing record parent kernel with
  | zero => rfl
  | succ fuel ih =>
    simp only [build, childrenOf_keptNodes kept]
    have original : ∀ state child, keeps runtime child = false →
        build runtime records rootPath fuel (some kernel.allocated) state child = .ok state :=
      fun state child skipped => build_skips skipped fuel _ state
    have children : ∀ placed, (childrenOf records recordParent (recordKey record)).foldlM
        (build runtime records rootPath fuel (some kernel.allocated)) placed =
        ((childrenOf records recordParent (recordKey record)).filter (keeps runtime)).foldlM
          (build runtime (keptNodes records recordKey recordParent (keeps runtime)) rootPath fuel
            (some kernel.allocated)) placed := by
      intro placed
      rw [← foldlM_filter original]
      apply foldlM_congr
      intro state child member
      obtain ⟨listed, childKept⟩ := List.mem_filter.mp member
      apply ih
      exact .under ((mem_childrenOf_iff kept.listed).mp listed) kept childKept
    simp only [children]

/-! ### What a build that returns has done -/

/-- The agent has the fields of the record and hangs where the record says. -/
structure ReadsAs (kernel : Kernel) (ref : Nat) (record : Dict) : Prop where
  id : (kernel.heap ref).id = getD record "id"
  handlerModule : (kernel.heap ref).handlerModule = getD record "handler_module"
  metadata : (kernel.heap ref).metadata = recordMeta record
  top : recordParent record = none → (kernel.heap ref).parent = none
  hung : ∀ key, recordParent record = some key → ∃ upper above, key = .ok upper ∧
    kernel.agents.get? upper = some above ∧ (kernel.heap ref).parent = some above

/-- Every record of the list is registered, and nothing else is new. -/
structure Built (before : Kernel) (placed : List Dict) (after : Kernel) : Prop where
  tree : after.Tree
  grows : before.allocated ≤ after.allocated
  fields : ∀ other, other < before.allocated → SameFields (after.heap other) (before.heap other)
  old : ∀ {key ref}, before.agents.get? key = some ref → after.agents.get? key = some ref
  agents : ∀ record ∈ placed, ∃ key ref, recordKey record = .ok key ∧
    after.agents.get? key = some ref ∧ after.ReadsAs ref record
  unclashed : ∀ record ∈ placed, clashes initParameters (recordMeta record) = false
  added : ∀ {key ref}, after.agents.get? key = some ref →
    before.agents.get? key = some ref ∨ ∃ record ∈ placed, recordKey record = .ok key

variable {kernel after : Kernel}

theorem Built.nothing (tree : kernel.Tree) : Built kernel [] kernel where
  tree := tree
  grows := Nat.le_refl _
  fields := fun _ _ => SameFields.refl _
  old := fun found => found
  agents := by simp
  unclashed := by simp
  added := fun found => .inl found

theorem ReadsAs.later {before after : Kernel} {ref : Nat} {record : Dict}
    (reads : before.ReadsAs ref record) (same : SameFields (after.heap ref) (before.heap ref))
    (old : ∀ {key ref}, before.agents.get? key = some ref → after.agents.get? key = some ref) :
    after.ReadsAs ref record where
  id := same.id.trans reads.id
  handlerModule := same.handlerModule.trans reads.handlerModule
  metadata := same.metadata.trans reads.metadata
  top := fun bare => same.parent.trans (reads.top bare)
  hung := by
    intro key named
    obtain ⟨upper, above, hashed, found, parent⟩ := reads.hung key named
    exact ⟨upper, above, hashed, old found, same.parent.trans parent⟩

theorem Built.trans {first second third : Kernel} {early late : List Dict}
    (left : Built first early second) (right : Built second late third) :
    Built first (early ++ late) third where
  tree := right.tree
  grows := Nat.le_trans left.grows right.grows
  fields := fun other bound =>
    (right.fields other (Nat.lt_of_lt_of_le bound left.grows)).trans (left.fields other bound)
  old := fun found => right.old (left.old found)
  agents := by
    intro record member
    rcases List.mem_append.mp member with inEarly | inLate
    · obtain ⟨key, ref, hashed, found, reads⟩ := left.agents record inEarly
      have bound := (left.tree.registered found).1
      exact ⟨key, ref, hashed, right.old found, reads.later (right.fields ref bound) right.old⟩
    · exact right.agents record inLate
  unclashed := by
    intro record member
    rcases List.mem_append.mp member with inEarly | inLate
    · exact left.unclashed record inEarly
    · exact right.unclashed record inLate
  added := by
    intro key ref found
    rcases right.added found with earlier | ⟨record, inLate, hashed⟩
    · rcases left.added earlier with oldest | ⟨record, inEarly, hashed⟩
      · exact .inl oldest
      · exact .inr ⟨record, List.mem_append_left _ inEarly, hashed⟩
    · exact .inr ⟨record, List.mem_append_right _ inLate, hashed⟩

/-- One record under a registered parent. -/
theorem place_built (tree : kernel.Tree) {upper key : DictKey} {above : Nat} {record : Dict}
    {address : Address} (found : kernel.agents.get? upper = some above)
    (named : recordParent record = some (.ok upper)) (hashed : recordKey record = .ok key)
    (fresh : kernel.agents.get? key = none)
    (unclashed : clashes initParameters (recordMeta record) = false) :
    Built kernel [record] (kernel.place key (recordAgent record (some above) address)) := by
  have bound := (tree.registered found).1
  have placed : (kernel.place key (recordAgent record (some above) address)).heap
      kernel.allocated = recordAgent record (some above) address := place_heap_new rfl bound
  have stays : ∀ {other ref}, kernel.agents.get? other = some ref →
      (kernel.place key (recordAgent record (some above) address)).agents.get? other =
        some ref := by
    intro other ref entry
    rw [place_get?, if_neg, entry]
    rintro rfl
    rw [fresh] at entry
    cases entry
  constructor
  · exact place_tree tree rfl ⟨upper, found⟩ fresh hashed rfl
  · rw [place_allocated]
    exact Nat.le_succ _
  · intro other old
    exact place_sameFields rfl old
  · exact stays
  · intro other member
    rw [List.mem_singleton] at member
    subst member
    refine ⟨key, kernel.allocated, hashed, ?_, ?_⟩
    · rw [place_get?, if_pos rfl]
    · constructor
      · rw [placed]
        rfl
      · rw [placed]
        rfl
      · rw [placed]
        rfl
      · intro bare
        rw [named] at bare
        cases bare
      · intro other parent
        rw [named, Option.some.injEq] at parent
        refine ⟨upper, above, parent.symm, stays found, ?_⟩
        rw [placed]
        rfl
  · intro other member
    rw [List.mem_singleton] at member
    rw [member]
    exact unclashed
  · intro other ref entry
    rw [place_get?] at entry
    split at entry
    case isTrue same => exact .inr ⟨record, by simp, hashed.trans (congrArg _ same.symm)⟩
    case isFalse => exact .inl entry

section Walk

variable {nodes : List Dict} {rootPath : Option Address}

/-- None of the records is registered yet. -/
def Unbuilt (kernel : Kernel) (pending : List Dict) : Prop :=
  ∀ record ∈ pending, ∀ key, recordKey record = .ok key → kernel.agents.get? key = none

theorem Built.unbuilt {early late : List Dict} (built : Built kernel early after)
    (nodup : ((early ++ late).map recordKey).Nodup) (unbuilt : kernel.Unbuilt late) :
    after.Unbuilt late := by
  intro record member key hashed
  cases found : after.agents.get? key with
  | none => rfl
  | some ref =>
    exfalso
    rcases built.added found with old | ⟨other, inEarly, sameKey⟩
    · rw [unbuilt record member key hashed] at old
      cases old
    · rw [List.map_append, List.nodup_append] at nodup
      apply nodup.2.2 _ (List.mem_map_of_mem inEarly) _ (List.mem_map_of_mem member)
      rw [hashed, sameKey]

/-- The loop over the children, given what one call does. -/
theorem build_children_built {fuel : Nat}
    (call : ∀ {kernel after : Kernel} {upper : DictKey} {above : Nat} {record : Dict},
      record ∈ nodes → kernel.Tree → kernel.agents.get? upper = some above →
      recordParent record = some (.ok upper) →
      ((preorder nodes recordKey recordParent fuel record).map recordKey).Nodup →
      kernel.Unbuilt (preorder nodes recordKey recordParent fuel record) →
      build runtime nodes rootPath fuel (some above) kernel record = .ok after →
      Built kernel (preorder nodes recordKey recordParent fuel record) after)
    {upper : DictKey} {above : Nat} {pending : List Dict}
    (listed : ∀ child ∈ pending, child ∈ nodes ∧ recordParent child = some (.ok upper))
    (tree : kernel.Tree) (found : kernel.agents.get? upper = some above)
    (nodup : ((pending.flatMap (preorder nodes recordKey recordParent fuel)).map
      recordKey).Nodup)
    (unbuilt : kernel.Unbuilt (pending.flatMap (preorder nodes recordKey recordParent fuel)))
    (folded : pending.foldlM (build runtime nodes rootPath fuel (some above)) kernel = .ok after) :
    Built kernel (pending.flatMap (preorder nodes recordKey recordParent fuel)) after := by
  induction pending generalizing kernel with
  | nil =>
    rw [← Except.ok.inj folded]
    exact Built.nothing tree
  | cons child rest ih =>
    rw [List.foldlM_cons, bind_eq_ok_iff] at folded
    obtain ⟨middle, built, others⟩ := folded
    rw [List.flatMap_cons] at nodup unbuilt ⊢
    have parts := nodup
    rw [List.map_append, List.nodup_append] at parts
    obtain ⟨childListed, named⟩ := listed child (List.mem_cons_self ..)
    have first := call childListed tree found named parts.1
      (fun record member => unbuilt record (List.mem_append_left _ member)) built
    apply first.trans
    apply ih (fun other later => listed other (List.mem_cons_of_mem _ later)) first.tree
      (first.old found) parts.2.1 _ others
    exact first.unbuilt nodup fun record member => unbuilt record (List.mem_append_right _ member)

theorem build_built (all : ∀ node ∈ nodes, keeps runtime node = true) (fuel : Nat)
    {upper : DictKey} {above : Nat} {record : Dict} (listed : record ∈ nodes) (tree : kernel.Tree)
    (found : kernel.agents.get? upper = some above)
    (named : recordParent record = some (.ok upper))
    (nodup : ((preorder nodes recordKey recordParent fuel record).map recordKey).Nodup)
    (unbuilt : kernel.Unbuilt (preorder nodes recordKey recordParent fuel record))
    (built : build runtime nodes rootPath fuel (some above) kernel record = .ok after) :
    Built kernel (preorder nodes recordKey recordParent fuel record) after := by
  induction fuel generalizing kernel after upper above record with
  | zero =>
    rw [← Except.ok.inj built]
    exact Built.nothing tree
  | succ fuel ih =>
    have kept : (truthy (getD record "handler_module") &&
        !runtime.importable (getD record "handler_module")) = false := keeps_iff.mp (all record listed)
    simp only [build, kept, Bool.false_eq_true, if_false] at built
    split at built
    case isTrue => cases built
    case isFalse unclashed =>
      simp only [bind_eq_ok_iff] at built
      obtain ⟨placed, constructed, folded⟩ := built
      obtain ⟨address, key, hashed, _, rfl⟩ := construct_ok constructed
      simp only [preorder] at nodup unbuilt ⊢
      have first := @place_built kernel tree upper key above record address found named hashed
        (unbuilt record (List.mem_cons_self ..) key hashed) (Bool.not_eq_true _ ▸ unclashed)
      have rest := nodup
      rw [List.map_cons, List.nodup_cons] at rest
      apply first.trans
      apply build_children_built ih _ first.tree _ rest.2 _ folded
      · exact key
      · intro child member
        simp only [childrenOf, List.mem_filter, decide_eq_true_eq] at member
        exact ⟨member.1, member.2.trans (congrArg some hashed)⟩
      · rw [place_get?, if_pos rfl]
      · exact first.unbuilt nodup
          fun other member => unbuilt other (List.mem_cons_of_mem _ member)

end Walk

/-! ### What `load` leaves -/

/-- The registry holds the kept records and nothing else, and the root cell the root. -/
structure Loaded (runtime : Runtime) (records : List Dict) (rebuilt : Kernel) : Prop where
  agents : ∀ {record}, Kept runtime records record → ∃ key ref, recordKey record = .ok key ∧
    rebuilt.agents.get? key = some ref ∧ rebuilt.ReadsAs ref record
  unclashed : ∀ {record}, Kept runtime records record →
    clashes initParameters (recordMeta record) = false
  added : ∀ {key ref}, rebuilt.agents.get? key = some ref →
    ∃ record, Kept runtime records record ∧ recordKey record = .ok key
  root : ∀ {root key}, root ∈ records → recordParent root = none → recordKey root = .ok key →
    rebuilt.root = rebuilt.agents.get? key

theorem LocalChecks.find_root (checks : LocalChecks records) :
    ∃ root ∈ records, recordParent root = none ∧
      (∀ other ∈ records, recordParent other = none → other = root) ∧
      records.reverse.find? (fun record => decide (getD record "parent_id" = .null)) =
        some root := by
  obtain ⟨root, listed, bare, alone⟩ := checks.rooted
  refine ⟨root, listed, bare, alone, ?_⟩
  cases found : records.reverse.find? fun record => decide (getD record "parent_id" = .null) with
  | none =>
    have absent := List.find?_eq_none.mp found root (List.mem_reverse.mpr listed)
    simp [recordParent_eq_none_iff.mp bare] at absent
  | some record =>
    have top : getD record "parent_id" = .null := by simpa using List.find?_some found
    have member := List.mem_reverse.mp (List.mem_of_find?_eq_some found)
    rw [alone record member (recordParent_eq_none_iff.mpr top)]

/-- The root of a tree that was just cleared. -/
theorem place_root_built {host : Kernel} {name : String} {key : DictKey} {root : Dict}
    {address : Address} (bare : recordParent root = none) (hashed : recordKey root = .ok key)
    (unclashed : clashes initParameters (recordMeta root) = false) :
    Built (host.cleared name) [root]
      ((host.cleared name).place key (recordAgent root none address)) := by
  have heap : ((host.cleared name).place key (recordAgent root none address)).heap =
      Function.update (host.cleared name).heap (host.cleared name).allocated
        (recordAgent root none address) := place_parentless_heap rfl
  constructor
  · exact place_root_tree rfl rfl rfl rfl hashed
  · rw [place_allocated]
    exact Nat.le_succ _
  · intro other old
    rw [heap, Function.update_of_ne (Nat.ne_of_lt old)]
    exact SameFields.refl _
  · intro other ref found
    cases found
  · intro record member
    rw [List.mem_singleton] at member
    subst member
    refine ⟨key, (host.cleared name).allocated, hashed, ?_, ?_⟩
    · rw [place_get?, if_pos rfl]
    · constructor
      · rw [heap, Function.update_self]
        rfl
      · rw [heap, Function.update_self]
        rfl
      · rw [heap, Function.update_self]
        rfl
      · intro _
        rw [heap, Function.update_self]
        rfl
      · intro other named
        rw [bare] at named
        cases named
  · intro record member
    rw [List.mem_singleton] at member
    rw [member]
    exact unclashed
  · intro other ref found
    rw [place_get?] at found
    split at found
    case isTrue same => exact .inr ⟨root, by simp, hashed.trans (congrArg _ same.symm)⟩
    case isFalse => cases found

theorem build_root_built {nodes : List Dict} {rootPath : Option Address} {host : Kernel}
    {name : String} (all : ∀ node ∈ nodes, keeps runtime node = true) {fuel : Nat} {root : Dict}
    (listed : root ∈ nodes) (bare : recordParent root = none)
    (nodup : ((preorder nodes recordKey recordParent (fuel + 1) root).map recordKey).Nodup)
    (built : build runtime nodes rootPath (fuel + 1) none (host.cleared name) root = .ok after) :
    Built (host.cleared name) (preorder nodes recordKey recordParent (fuel + 1) root) after := by
  have kept := keeps_iff.mp (all root listed)
  simp only [build, kept, Bool.false_eq_true, if_false] at built
  split at built
  case isTrue => cases built
  case isFalse unclashed =>
    simp only [bind_eq_ok_iff] at built
    obtain ⟨placed, constructed, folded⟩ := built
    obtain ⟨address, key, hashed, _, rfl⟩ := construct_ok constructed
    have first := @place_root_built host name key root address bare hashed
      (Bool.not_eq_true _ ▸ unclashed)
    simp only [preorder] at nodup ⊢
    have rest := nodup
    rw [List.map_cons, List.nodup_cons] at rest
    apply first.trans
    apply build_children_built (build_built all fuel) _ first.tree _ rest.2 _ folded
    · exact key
    · intro child member
      simp only [childrenOf, List.mem_filter, decide_eq_true_eq] at member
      exact ⟨member.1, member.2.trans (congrArg some hashed)⟩
    · rw [place_get?, if_pos rfl]
    · apply first.unbuilt nodup
      intro _ _ _ _
      rfl

/-- When the root itself is skipped there is no tree. -/
theorem not_kept_of_root {root : Dict} (alone : ∀ other ∈ records, recordParent other = none →
    other = root) (dropped : keeps runtime root = false) (record : Dict) :
    ¬ Kept runtime records record := by
  intro kept
  induction kept with
  | top listed bare linked =>
    rw [alone _ listed bare, dropped] at linked
    cases linked
  | under _ _ _ ih => exact ih

/-- A load that returns has built the kept records from the root on. -/
theorem load_build {host rebuilt : Kernel} {version : Int} {rootPath : Option PurePath}
    (checks : LocalChecks records)
    (loaded : host.load runtime { version := version, records := records } rootPath = .ok rebuilt)
    {root : Dict} (rootKept : Kept runtime records root) (bare : recordParent root = none) :
    ∃ fuel, build runtime (keptNodes records recordKey recordParent (keeps runtime))
        (rootPath.map .path) (fuel + 1) none (host.cleared (childrenDirOf root)) root = .ok rebuilt ∧
      ∀ {record}, record ∈ preorder (keptNodes records recordKey recordParent (keeps runtime))
        recordKey recordParent (fuel + 1) root ↔ Kept runtime records record := by
  obtain ⟨top, _, _, alone, found⟩ := LocalChecks.find_root checks
  have same := alone root rootKept.listed bare
  subst same
  simp only [load, bind_eq_ok_iff, found] at loaded
  obtain ⟨_, _, built⟩ := loaded
  obtain ⟨fuel, length⟩ : ∃ fuel, records.length = fuel + 1 :=
    Nat.exists_eq_succ_of_ne_zero (Nat.ne_of_gt (List.length_pos_of_mem rootKept.listed))
  rw [build_kept _ rootKept, length] at built
  refine ⟨fuel, built, ?_⟩
  intro record
  rw [← length]
  exact mem_preorder_kept checks.distinct (mem_keptNodes.mpr rootKept) alone

/-- A load that returns has registered the kept records. -/
theorem load_loaded {host rebuilt : Kernel} {version : Int} {rootPath : Option PurePath}
    (checks : LocalChecks records)
    (loaded : host.load runtime { version := version, records := records } rootPath = .ok rebuilt) :
    Loaded runtime records rebuilt := by
  obtain ⟨root, listed, bare, alone, found⟩ := LocalChecks.find_root checks
  cases kept : keeps runtime root with
  | false =>
    simp only [load, bind_eq_ok_iff, found] at loaded
    obtain ⟨_, _, built⟩ := loaded
    rw [build_skips kept] at built
    rw [← Except.ok.inj built]
    constructor
    · intro record impossible
      exact absurd impossible (not_kept_of_root alone kept record)
    · intro record impossible
      exact absurd impossible (not_kept_of_root alone kept record)
    · intro key ref impossible
      cases impossible
    · intro _ _ _ _ _
      rfl
  | true =>
    have rootKept : Kept runtime records root := .top listed bare kept
    have member := mem_keptNodes.mpr rootKept
    obtain ⟨fuel, built, walked⟩ := load_build checks loaded rootKept bare
    have nodup : ((preorder (keptNodes records recordKey recordParent (keeps runtime)) recordKey
        recordParent (fuel + 1) root).map recordKey).Nodup := by
      apply List.Nodup.map_on _ (preorder_kept_nodup checks.distinct _ member)
      intro first firstWalked second secondWalked same
      exact List.inj_on_of_nodup_map checks.distinct (walked.mp firstWalked).listed
        (walked.mp secondWalked).listed same
    have result := build_root_built (fun node kept => (mem_keptNodes.mp kept).kept) member bare
      nodup built
    constructor
    · intro record keptRecord
      exact result.agents record (walked.mpr keptRecord)
    · intro record keptRecord
      exact result.unclashed record (walked.mpr keptRecord)
    · intro key ref entry
      rcases result.added entry with old | ⟨record, placed, hashed⟩
      · cases old
      · exact ⟨record, walked.mp placed, hashed⟩
    · intro top key topListed topBare hashed
      rw [alone top topListed topBare] at hashed
      obtain ⟨other, ref, sameKey, entry, reads⟩ := result.agents root (walked.mpr rootKept)
      rw [hashed] at sameKey
      rw [Except.ok.inj sameKey, entry]
      exact result.tree.rootOnly ⟨other, entry⟩ (reads.top bare)

theorem foldlM_each {State Item Failure : Type} {act : State → Item → Except Failure State}
    {items : List Item} : ∀ {before after : State}, items.foldlM act before = .ok after →
      ∀ item ∈ items, ∃ middle next, act middle item = .ok next := by
  induction items with
  | nil => simp
  | cons first rest ih =>
    intro before after folded item member
    simp only [List.foldlM_cons, bind_eq_ok_iff] at folded
    obtain ⟨next, acted, folded⟩ := folded
    cases List.mem_cons.mp member with
    | inl same => exact ⟨before, next, same ▸ acted⟩
    | inr later => exact ih folded item later

/-- An agent below another one has a text for an id: it becomes part of its path. -/
theorem build_text {nodes : List Dict} {rootPath : Option Address}
    (all : ∀ node ∈ nodes, keeps runtime node = true) (fuel : Nat) :
    ∀ {parent : Option Nat} {kernel after : Kernel} {record : Dict}, record ∈ nodes →
      build runtime nodes rootPath fuel parent kernel record = .ok after →
      ∀ node ∈ preorder nodes recordKey recordParent fuel record,
        (node = record → parent.isSome) → ∃ text, getD node "id" = .str text := by
  induction fuel with
  | zero => simp [preorder]
  | succ fuel ih =>
    intro parent kernel after record listed built node walked placed
    have kept := keeps_iff.mp (all record listed)
    simp only [build, kept, Bool.false_eq_true, if_false] at built
    split at built
    case isTrue => cases built
    case isFalse =>
      simp only [bind_eq_ok_iff] at built
      obtain ⟨placedKernel, constructed, folded⟩ := built
      by_cases same : node = record
      · obtain ⟨above, there⟩ := Option.isSome_iff_exists.mp (placed same)
        obtain ⟨address, key, _, addressed, _⟩ := construct_ok constructed
        rw [there] at addressed
        simp only [Option.isNone_some, Bool.false_eq_true, if_false, reduceCtorEq, false_or,
          true_and] at addressed
        rw [same]
        exact defaultAddress_text addressed
      · simp only [preorder, List.mem_cons, same, false_or, List.mem_flatMap] at walked
        obtain ⟨child, inside, below⟩ := walked
        obtain ⟨middle, next, builtChild⟩ := foldlM_each folded child inside
        have childListed : child ∈ nodes := (List.mem_filter.mp inside).1
        exact ih childListed builtChild node below (fun _ => rfl)

/-- The ids of the agents a load has put below others are texts. -/
theorem load_text {host rebuilt : Kernel} {version : Int} {rootPath : Option PurePath}
    (checks : LocalChecks records)
    (loaded : host.load runtime { version := version, records := records } rootPath = .ok rebuilt)
    {record : Dict} (kept : Kept runtime records record) (below : recordParent record ≠ none) :
    ∃ text, getD record "id" = .str text := by
  obtain ⟨root, listed, bare, alone, _⟩ := LocalChecks.find_root checks
  cases rootKeeps : keeps runtime root with
  | false => exact absurd kept (not_kept_of_root alone rootKeeps record)
  | true =>
    have rootKept : Kept runtime records root := .top listed bare rootKeeps
    obtain ⟨fuel, built, walked⟩ := load_build checks loaded rootKept bare
    apply build_text (fun node kept => (mem_keptNodes.mp kept).kept) (fuel + 1)
      (mem_keptNodes.mpr rootKept) built record (walked.mpr kept)
    intro same
    rw [same] at below
    exact absurd bare below

/-- A list that passes the checks is loaded, when the kept records have texts for ids and
collide with no parameter of `Agent`. -/
theorem load_succeeds {version : Int} (known : version ≤ currentVersion)
    (checks : LocalChecks records)
    (text : ∀ record, Kept runtime records record → TextRecord record)
    (unclashed : ∀ record, Kept runtime records record →
      clashes initParameters (recordMeta record) = false) (host : Kernel)
    (rootPath : Option PurePath) :
    ∃ rebuilt, host.load runtime { version := version, records := records } rootPath =
      .ok rebuilt := by
  obtain ⟨rootId, validated⟩ := (@validate_ok_iff runtime records version).mpr ⟨known, checks⟩
  obtain ⟨root, listed, bare, alone, found⟩ := LocalChecks.find_root checks
  simp only [load, validated, found]
  change ∃ rebuilt, build runtime records (rootPath.map .path) records.length none
    (host.cleared (childrenDirOf root)) root = .ok rebuilt
  cases kept : keeps runtime root with
  | false => exact ⟨_, build_skips kept _ _ _⟩
  | true =>
    have rootKept : Kept runtime records root := .top listed bare kept
    have member := mem_keptNodes.mpr rootKept
    have worded : ∀ record ∈ keptNodes records recordKey recordParent (keeps runtime),
        TextRecord record := fun record inKept => text record (mem_keptNodes.mp inKept)
    have loadable : ∀ record ∈ keptNodes records recordKey recordParent (keeps runtime),
        Loadable runtime record := by
      intro record inKept
      have keptRecord := mem_keptNodes.mp inKept
      refine ⟨?_, unclashed record keptRecord⟩
      intro handled
      have skip := keeps_iff.mp keptRecord.kept
      simpa [handled] using skip
    have nodup : ((preorder (keptNodes records recordKey recordParent (keeps runtime)) recordKey
        recordParent records.length root).map textId).Nodup := by
      apply List.Nodup.map_on _ (preorder_kept_nodup checks.distinct _ member)
      intro first firstWalked second secondWalked same
      have left := (preorder_below member firstWalked).1
      have right := (preorder_below member secondWalked).1
      apply List.inj_on_of_nodup_map checks.distinct (mem_keptNodes.mp left).listed
        (mem_keptNodes.mp right).listed
      rw [(worded first left).key, (worded second right).key, same]
    have seat : (host.cleared (childrenDirOf root)).Seat none root :=
      recordParent_eq_none_iff.mp bare
    obtain ⟨rebuilt, built, _⟩ := build_rebuilt rootPath worded loadable records.length member
      nodup seat
    exact ⟨rebuilt, (build_kept _ rootKept _ _).trans built⟩

end Kernel

/-! ### Acceptance -/

/-- A single rooted tree: usable ids that differ, one root, and every record below it. -/
structure SingleTree (records : List Dict) : Prop where
  named : ∀ record ∈ records, truthy (getD record "id") = true
  hashable : ∀ record ∈ records, ∃ key, recordKey record = .ok key
  distinct : (records.map recordKey).Nodup
  rooted : ∃ root ∈ records, recordParent root = none ∧
    ∀ other ∈ records, recordParent other = none → other = root
  reachable : ∀ record ∈ records,
    Reached records recordKey recordParent (fun _ => True) record

/-- `validate_records(records)` returns. -/
def Accepts (runtime : Runtime) (records : List Dict) : Prop :=
  ∃ rootId, validateRecords runtime records currentVersion = .ok rootId

/-- A load of the list that returns has made every record an agent under its parent, when
every module imports. -/
def RegistersAll (runtime : Runtime) (records : List Dict) : Prop :=
  ∀ (host rebuilt : Kernel) (version : Int) (rootPath : Option PurePath),
    host.load runtime { version := version, records := records } rootPath = .ok rebuilt →
    (∀ record ∈ records, truthy (getD record "handler_module") = true →
      runtime.importable (getD record "handler_module") = true) →
    ∀ record ∈ records, ∃ key ref, recordKey record = .ok key ∧
      rebuilt.agents.get? key = some ref ∧ rebuilt.ReadsAs ref record

theorem SingleTree.localChecks (single : SingleTree records) : LocalChecks records where
  named := single.named
  hashable := single.hashable
  distinct := single.distinct
  rooted := single.rooted
  closed := by
    intro record listed key named
    cases single.reachable record listed with
    | top _ bare =>
      rw [named] at bare
      cases bare
    | @under _ above link =>
      exact ⟨above, link.2.1, Option.some.inj (link.2.2.symm.trans named)⟩

theorem LocalChecks.singleTree_iff (checks : LocalChecks records) :
    SingleTree records ↔ Acyclic records recordKey recordParent := by
  rw [← all_reached_iff_acyclic checks.distinct checks.closed]
  constructor
  · intro single
    exact single.reachable
  · intro reachable
    exact ⟨checks.named, checks.hashable, checks.distinct, checks.rooted, reachable⟩

theorem SingleTree.registersAll (single : SingleTree records) : RegistersAll runtime records := by
  intro host rebuilt version rootPath loaded imports record listed
  apply (Kernel.load_loaded single.localChecks loaded).agents
  have keep : ∀ other ∈ records, Kernel.keeps runtime other = true := by
    intro other member
    rw [Kernel.keeps_iff]
    cases handled : truthy (getD other "handler_module") with
    | false => rfl
    | true => rw [imports other member handled]; rfl
  induction single.reachable record listed with
  | top topListed bare _ => exact .top topListed bare (keep _ topListed)
  | under link upper _ ih => exact .under link (ih upper.listed) (keep _ link.1)

/-- The local checks decide what the tree is, except for a cycle: with one they let a list
through that is no tree. -/
theorem acceptance_iff (runtime : Runtime) (records : List Dict) :
    ((Accepts runtime records ↔ SingleTree records) ∧ RegistersAll runtime records) ↔
      (LocalChecks records → Acyclic records recordKey recordParent) := by
  have accepts : Accepts runtime records ↔ LocalChecks records := by
    rw [Accepts, validate_ok_iff]
    exact ⟨fun both => both.2, fun checks => ⟨Int.le_refl _, checks⟩⟩
  constructor
  · intro ⟨exact, _⟩ checks
    exact checks.singleTree_iff.mp (exact.mp (accepts.mpr checks))
  · intro acyclic
    have same : Accepts runtime records ↔ SingleTree records := by
      rw [accepts]
      constructor
      · intro checks
        exact checks.singleTree_iff.mpr (acyclic checks)
      · intro single
        exact single.localChecks
    refine ⟨same, ?_⟩
    intro host rebuilt version rootPath loaded
    have checks : LocalChecks records := by
      simp only [Kernel.load, bind_eq_ok_iff] at loaded
      obtain ⟨rootId, validated, _⟩ := loaded
      exact (validate_ok_iff.mp ⟨rootId, validated⟩).2
    have single := checks.singleTree_iff.mpr (acyclic checks)
    exact single.registersAll host rebuilt version rootPath loaded

def namedRecord (id : String) : Dict :=
  OrderedDict.empty.insert "id" (.str id)

def childRecord (id parentId : String) : Dict :=
  (namedRecord id).insert "parent_id" (.str parentId)

/-- A root, and two records that name each other. -/
def pairedRecords : List Dict :=
  [namedRecord "core", childRecord "left" "right", childRecord "right" "left"]

theorem paired_records_accepted :
    ¬ ((Accepts Kernel.permissive pairedRecords ↔ SingleTree pairedRecords) ∧
      RegistersAll Kernel.permissive pairedRecords) := by
  intro ⟨exact, _⟩
  have accepted : Accepts Kernel.permissive pairedRecords := by
    refine ⟨.str "core", ?_⟩
    rfl
  have single := exact.mp accepted
  have up : Link pairedRecords recordKey recordParent (childRecord "left" "right")
      (childRecord "right" "left") := ⟨by simp [pairedRecords], by simp [pairedRecords], rfl⟩
  have back : Link pairedRecords recordKey recordParent (childRecord "right" "left")
      (childRecord "left" "right") := ⟨by simp [pairedRecords], by simp [pairedRecords], rfl⟩
  exact (single.reachable _ up.1).not_above_itself single.distinct
    (Relation.TransGen.head up (.single back))

end Fantastic.Python

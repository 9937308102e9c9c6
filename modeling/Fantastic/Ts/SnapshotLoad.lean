import Fantastic.Ts.Snapshot

/-!
# What the frontend kernel makes of a snapshot

Whatever `load` accepts, every agent it registers is made of a record of the list. From a
list that forms one tree, with every bundle registered, it makes one agent of each record.
-/

namespace Fantastic.Ts

open ParentForest (Ranked childrenOf preorder)

/-- The record has a text for an id, and not the empty one. -/
def Named (record : Dict) : Prop :=
  ∃ id, id ≠ "" ∧ record.get? "id" = some (.str id)

theorem Named.recordId_ne {record : Dict} (named : Named record) : recordId record ≠ "" := by
  obtain ⟨id, nonempty, found⟩ := named
  rw [recordId, found]
  exact nonempty

/-! ### The checks -/

theorem scanRecord_ok_iff {seen result : List String × Option String} {record : Dict} :
    scanRecord seen record = .ok result ↔
      Named record ∧ recordId record ∉ seen.1 ∧ (isTop record = true → seen.2 = none) ∧
        result = (seen.1 ++ [recordId record],
          if isTop record then some (recordId record) else seen.2) := by
  unfold scanRecord recordId Named
  split
  case h_1 id found =>
    simp only [found, Option.some.injEq, Value.str.injEq]
    by_cases empty : id = ""
    · simp [empty]
    · by_cases again : id ∈ seen.1
      · simp [empty, again]
      · by_cases top : isTop record = true
        · cases first : seen.2 with
          | none => simp [empty, again, top, eq_comm]
          | some rootId => simp [empty, again, top]
        · simp [empty, again, top, eq_comm]
  case h_2 other =>
    constructor
    · intro impossible
      cases impossible
    · intro fine
      obtain ⟨⟨id, _, found⟩, _⟩ := fine
      exact absurd found (other id)

theorem scan_named {records : List Dict} {seen result : List String × Option String}
    (scanned : records.foldlM scanRecord seen = .ok result) : ∀ record ∈ records, Named record := by
  induction records generalizing seen with
  | nil =>
    intro record listed
    cases listed
  | cons head records ih =>
    rw [List.foldlM_cons] at scanned
    cases first : scanRecord seen head with
    | error problem =>
      rw [first] at scanned
      cases scanned
    | ok next =>
      rw [first] at scanned
      intro record listed
      cases listed with
      | head => exact (scanRecord_ok_iff.mp first).1
      | tail _ later => exact ih scanned record later

theorem validateRecords_named {records : List Dict} {version : Int} {rootId : String}
    (valid : validateRecords records version = .ok rootId) : ∀ record ∈ records, Named record := by
  unfold validateRecords at valid
  split at valid
  case isTrue => cases valid
  case isFalse =>
    cases scanned : records.foldlM scanRecord ([], none) with
    | error problem =>
      rw [scanned] at valid
      cases valid
    | ok seen => exact scan_named scanned

theorem scan_tree {records : List Dict} {seen : List String × Option String}
    (named : ∀ record ∈ records, Named record)
    (fresh : ∀ record ∈ records, recordId record ∉ seen.1)
    (nodup : (records.map recordId).Nodup)
    (single : seen.2.toList.length + (records.filter isTop).length ≤ 1) :
    records.foldlM scanRecord seen = .ok (seen.1 ++ records.map recordId,
      seen.2.or ((records.filter isTop).head?.map recordId)) := by
  induction records generalizing seen with
  | nil => simp [pure, Except.pure]
  | cons head records ih =>
    simp only [List.map_cons, List.nodup_cons] at nodup
    have alone (top : isTop head = true) : seen.2 = none ∧ records.filter isTop = [] := by
      rw [List.filter_cons_of_pos top, List.length_cons] at single
      constructor
      · rw [← Option.toList_eq_nil_iff]
        exact List.eq_nil_of_length_eq_zero (by omega)
      · exact List.eq_nil_of_length_eq_zero (by omega)
    have scanned : scanRecord seen head = .ok (seen.1 ++ [recordId head],
        if isTop head then some (recordId head) else seen.2) := by
      rw [scanRecord_ok_iff]
      exact ⟨named head List.mem_cons_self, fresh head List.mem_cons_self,
        fun top => (alone top).1, rfl⟩
    rw [List.foldlM_cons, scanned]
    change records.foldlM scanRecord _ = _
    rw [ih (fun record listed => named record (List.mem_cons_of_mem _ listed)) _ nodup.2]
    · by_cases top : isTop head = true
      · obtain ⟨first, rest⟩ := alone top
        simp [top, first, rest, List.append_assoc]
      · simp [top, List.append_assoc]
    · by_cases top : isTop head = true
      · rw [(alone top).2]
        simp [top]
      · rw [List.filter_cons_of_neg top] at single
        simpa [top] using single
    · intro record listed again
      simp only [List.mem_append, List.mem_singleton] at again
      cases again with
      | inl before => exact fresh record (List.mem_cons_of_mem _ listed) before
      | inr same => exact nodup.1 (same ▸ List.mem_map_of_mem listed)

theorem check_closed {ids : List String} {records : List Dict}
    (closed : ∀ record ∈ records, isTop record = true ∨
      ∃ parentId, recordParent record = some parentId ∧ parentId ∈ ids) :
    records.forM (checkParent ids) = .ok () := by
  induction records with
  | nil => rfl
  | cons head records ih =>
    have first : checkParent ids head = .ok () := by
      unfold checkParent
      cases closed head List.mem_cons_self with
      | inl top =>
        unfold isTop at top
        cases value : parentValue head <;> simp [value] at top ⊢
      | inr known =>
        obtain ⟨parentId, named, listed⟩ := known
        unfold recordParent at named
        cases value : parentValue head <;> simp [value] at named ⊢
        rw [named]
        exact listed
    simp only [List.forM, first, bind, Except.bind]
    exact ih fun record listed => closed record (List.mem_cons_of_mem _ listed)

/-! ### Lists that form one tree -/

structure OneTree (records : List Dict) (root : Dict) : Prop where
  named : ∀ record ∈ records, Named record
  nodup : (records.map recordId).Nodup
  rooted : root ∈ records
  top : isTop root = true
  only : ∀ record ∈ records, recordParent record = none → record = root
  closed : ∀ record ∈ records, ∀ parentId, recordParent record = some parentId →
    ∃ upper ∈ records, recordId upper = parentId

theorem recordParent_of_top {record : Dict} (top : isTop record = true) :
    recordParent record = none := by
  unfold isTop at top
  unfold recordParent
  cases value : parentValue record <;> simp [value] at top ⊢

namespace OneTree

variable {records : List Dict} {root : Dict}

theorem tops (tree : OneTree records root) : records.filter isTop = [root] := by
  have distinct : records.Nodup := tree.nodup.of_map
  rw [← List.perm_singleton, List.perm_ext_iff_of_nodup (distinct.filter _)
    (List.nodup_singleton root)]
  intro record
  rw [List.mem_filter, List.mem_singleton]
  constructor
  · intro both
    exact tree.only record both.1 (recordParent_of_top both.2)
  · intro same
    rw [same]
    exact ⟨tree.rooted, tree.top⟩

theorem validates (tree : OneTree records root) :
    validateRecords records currentVersion = .ok (recordId root) := by
  have scanned := @scan_tree records ([], none) tree.named
    (fun _ _ impossible => List.not_mem_nil impossible) tree.nodup (by
      rw [tree.tops]
      exact Nat.le_refl _)
  have checked : records.forM (checkParent (records.map recordId)) = .ok () := by
    apply check_closed
    intro record listed
    cases named : recordParent record with
    | none =>
      left
      rw [tree.only record listed named]
      exact tree.top
    | some parentId =>
      right
      obtain ⟨upper, upperListed, same⟩ := tree.closed record listed parentId named
      exact ⟨parentId, rfl, same ▸ List.mem_map_of_mem upperListed⟩
  rw [tree.tops, List.nil_append] at scanned
  unfold validateRecords
  rw [if_neg (not_not_intro rfl), scanned]
  simp only [Except.bind, Option.none_or, List.head?_cons, Option.map_some, checked]

theorem found (tree : OneTree records root) : records.reverse.find? isTop = some root := by
  rw [← List.head?_filter, List.filter_reverse, tree.tops]
  rfl

end OneTree

/-! ### Building -/

namespace Kernel

variable {bundles : List String} {records : List Dict} {root : Dict}

theorem withChildren_rootId (kernel : Kernel) (id : String) (change : List String → List String) :
    (kernel.withChildren id change).rootId = kernel.rootId := by
  unfold withChildren
  split <;> rfl

theorem register_rootId (kernel : Kernel) (init : AgentInit) :
    (kernel.register init).1.rootId = kernel.rootId := by
  unfold register
  cases init.parentId with
  | none => rfl
  | some parentId => exact withChildren_rootId ..

/-- One record, under the parent it names. -/
def place (kernel : Kernel) (record : Dict) : Kernel :=
  (kernel.register (recordAgent record (recordParent record))).1

/-- Below the root, `build` registers the records of a depth-first walk. -/
theorem build_eq_foldl (fine : ∀ record ∈ records, installed bundles record = true) (fuel : Nat)
    (kernel : Kernel) {record : Dict} (listed : record ∈ records) {parentId : String}
    (under : recordParent record = some parentId) :
    build bundles records fuel (some parentId) kernel record =
      (preorder records recordId recordParent fuel record).foldl place kernel := by
  induction fuel generalizing kernel record parentId with
  | zero => rfl
  | succ fuel ih =>
    have placed : place kernel record =
        (kernel.register (recordAgent record (some parentId))).1 := by
      rw [place, under]
    rw [build, if_pos (fine record listed)]
    simp only [preorder, List.foldl_cons, List.foldl_flatMap, reduceCtorEq, if_false, ← placed]
    apply List.foldl_ext
    intro built child member
    have facts := List.mem_filter.mp member
    exact ih built facts.1 (of_decide_eq_true facts.2)

/-- At the root, the walk starts with an empty registry that knows its root. -/
theorem build_root_eq (fine : ∀ record ∈ records, installed bundles record = true) (fuel : Nat)
    (kernel : Kernel) (listed : root ∈ records) (top : recordParent root = none) :
    build bundles records (fuel + 1) none kernel root =
      (preorder records recordId recordParent (fuel + 1) root).foldl place
        { kernel with rootId := some (recordId root) } := by
  have rooted : ({ (kernel.register (recordAgent root none)).1 with
      rootId := some (recordId root) } : Kernel) =
        place { kernel with rootId := some (recordId root) } root := by
    rw [place, top]
    rfl
  rw [build, if_pos (fine root listed)]
  simp only [preorder, List.foldl_cons, List.foldl_flatMap, if_true, rooted]
  apply List.foldl_ext
  intro built child member
  have facts := List.mem_filter.mp member
  exact build_eq_foldl fine fuel built facts.1 (of_decide_eq_true facts.2)

theorem foldl_place_rootId (walk : List Dict) (kernel : Kernel) :
    (walk.foldl place kernel).rootId = kernel.rootId := by
  induction walk generalizing kernel with
  | nil => rfl
  | cons record walk ih => rw [List.foldl_cons, ih, place, register_rootId]

theorem held_foldl_place_of_not_mem (walk : List Dict) (kernel : Kernel) {id : String}
    (absent : id ∉ walk.map recordId) : (walk.foldl place kernel).held id = kernel.held id := by
  induction walk generalizing kernel with
  | nil => rfl
  | cons record walk ih =>
    rw [List.map_cons, List.mem_cons, not_or] at absent
    rw [List.foldl_cons, ih _ absent.2, place, held_register, if_neg]
    exact absent.1

theorem held_foldl_place_of_mem (walk : List Dict) (kernel : Kernel)
    (nodup : (walk.map recordId).Nodup) {record : Dict} (listed : record ∈ walk) :
    (walk.foldl place kernel).held (recordId record) =
      some (recordAgent record (recordParent record)) := by
  induction walk generalizing kernel with
  | nil => cases listed
  | cons head walk ih =>
    rw [List.map_cons, List.nodup_cons] at nodup
    rw [List.foldl_cons]
    cases listed with
    | head =>
      rw [held_foldl_place_of_not_mem _ _ nodup.1, place, held_register]
      exact if_pos rfl
    | tail _ later => exact ih _ nodup.2 later

/-- A list that forms one tree, with every bundle registered, is loaded whole. -/
theorem load_tree (tree : OneTree records root) {rank : Dict → Nat}
    (ranked : Ranked records recordId recordParent rank)
    (fine : ∀ record ∈ records, installed bundles record = true) :
    ∃ loaded, load bundles records currentVersion = .ok loaded ∧
      loaded.rootId = some (recordId root) ∧
      (∀ record ∈ records, loaded.held (recordId record) =
        some (recordAgent record (recordParent record))) ∧
      ∀ id, id ∉ records.map recordId → loaded.held id = none := by
  let walk := preorder records recordId recordParent records.length root
  have members (record : Dict) : record ∈ walk ↔ record ∈ records :=
    ParentForest.mem_preorder_root_iff ranked tree.rooted tree.only tree.closed
  have nodup : (walk.map recordId).Nodup := by
    apply List.Nodup.map_on
    · intro first firstListed second secondListed same
      exact List.inj_on_of_nodup_map tree.nodup ((members first).mp firstListed)
        ((members second).mp secondListed) same
    · exact ParentForest.preorder_nodup ranked tree.nodup _ tree.rooted
  let cleared : Kernel := { agents := .empty, rootId := some (recordId root) }
  have built : load bundles records currentVersion = .ok (walk.foldl place cleared) := by
    have some_fuel : ∃ fuel, records.length = fuel + 1 :=
      Nat.exists_eq_succ_of_ne_zero (Nat.ne_of_gt (List.length_pos_of_mem tree.rooted))
    obtain ⟨fuel, length⟩ := some_fuel
    simp only [load, tree.validates, Except.bind, tree.found, walk, length]
    rw [build_root_eq fine fuel _ tree.rooted (recordParent_of_top tree.top)]
  refine ⟨_, built, foldl_place_rootId .., ?_, ?_⟩
  · intro record listed
    exact held_foldl_place_of_mem walk cleared nodup ((members record).mpr listed)
  · intro id absent
    rw [held_foldl_place_of_not_mem]
    · rfl
    · intro present
      obtain ⟨record, listed, same⟩ := List.mem_map.mp present
      exact absent (List.mem_map.mpr ⟨record, (members record).mp listed, same⟩)

/-- Every agent of the kernel was there before or is made of a record of the list. -/
def MadeOf (records : List Dict) (before after : Kernel) : Prop :=
  ∀ id agent, after.held id = some agent → before.held id = some agent ∨
    ∃ record ∈ records, recordId record = id ∧ ∃ parentId, agent = recordAgent record parentId

theorem MadeOf.trans {first second third : Kernel} (early : MadeOf records first second)
    (late : MadeOf records second third) : MadeOf records first third := by
  intro id agent found
  cases late id agent found with
  | inl before => exact early id agent before
  | inr made => exact .inr made

theorem build_madeOf (fuel : Nat) : ∀ (parentId : Option String) (kernel : Kernel) (record : Dict),
    record ∈ records → MadeOf records kernel (build bundles records fuel parentId kernel record) := by
  induction fuel with
  | zero =>
    intro parentId kernel record _ id agent found
    exact .inl found
  | succ fuel ih =>
    intro parentId kernel record listed
    unfold build
    split
    case isFalse =>
      intro id agent found
      exact .inl found
    case isTrue =>
      have placed : MadeOf records kernel
          (if parentId = none then
            { (kernel.register (recordAgent record parentId)).1 with
              rootId := some (recordId record) }
          else (kernel.register (recordAgent record parentId)).1) := by
        intro id agent found
        have same : ((kernel.register (recordAgent record parentId)).1).held id = some agent := by
          split at found <;> exact found
        rw [held_register] at same
        split at same
        case isTrue here =>
          exact .inr ⟨record, listed, here.symm, parentId, (Option.some.inj same).symm⟩
        case isFalse => exact .inl same
      have below (children : List Dict) (inside : ∀ child ∈ children, child ∈ records) :
          ∀ start, MadeOf records start (children.foldl
            (build bundles records fuel (some (recordId record))) start) := by
        induction children with
        | nil =>
          intro start id agent found
          exact .inl found
        | cons child children hypothesis =>
          intro start
          rw [List.foldl_cons]
          exact (ih _ start child (inside child List.mem_cons_self)).trans
            (hypothesis (fun other member => inside other (List.mem_cons_of_mem _ member)) _)
      exact placed.trans (below _ (fun child member => (List.mem_filter.mp member).1) _)

/-- Every loaded agent is made of a record with a proper id. -/
theorem load_madeOf {version : Int} {loaded : Kernel}
    (done : load bundles records version = .ok loaded) {id : String} {agent : AgentInit}
    (found : loaded.held id = some agent) :
    ∃ record ∈ records, Named record ∧ recordId record = id ∧
      ∃ parentId, agent = recordAgent record parentId := by
  unfold load at done
  cases valid : validateRecords records version with
  | error problem =>
    rw [valid] at done
    cases done
  | ok rootId =>
    rw [valid] at done
    simp only [Except.bind] at done
    cases top : records.reverse.find? isTop with
    | none =>
      rw [top] at done
      cases done
      cases found
    | some rootRecord =>
      rw [top] at done
      cases done
      have listed := List.mem_reverse.mp (List.mem_of_find?_eq_some top)
      cases build_madeOf records.length none _ rootRecord listed id agent found with
      | inl before => cases before
      | inr made =>
        obtain ⟨record, member, same, parentId, agentSame⟩ := made
        exact ⟨record, member, validateRecords_named valid record member, same, parentId,
          agentSame⟩

end Kernel

end Fantastic.Ts

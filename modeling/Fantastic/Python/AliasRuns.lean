import Fantastic.Python.AliasTable
import Fantastic.Python.SnapshotLoad

/-!
# Aliases along runs of requests and loads

`Kernel.load` clears the registry and not `well_known`, so what it leaves in step depends on the
names that were there before. The records a load builds are listed by `plan`, up to the one where
it raises; `Placements` ties the list to the kernel.
-/

namespace Fantastic.Python.Kernel

open Fantastic.ParentForest (childrenOf)

variable {runtime : Runtime} {kernel after : Kernel} {records built : List Dict}

/-! ### The records a load builds -/

def isText : Value → Bool
  | .str _ => true
  | _ => false

/-- One more record, unless an earlier one raised. -/
def planNext (part : Dict → List Dict × Bool) (sofar : List Dict × Bool) (record : Dict) :
    List Dict × Bool :=
  if sofar.2 then sofar else (sofar.1 ++ (part record).1, (part record).2)

/-- The records below and with `record` that a load builds, in order, and whether it then raises:
at a keyword the constructor takes, or at an id that cannot be joined to a path. -/
def plan (runtime : Runtime) (records : List Dict) : Nat → Bool → Dict → List Dict × Bool
  | 0, _, _ => ([], false)
  | fuel + 1, top, record =>
    let handlerModule := getD record "handler_module"
    if truthy handlerModule && !runtime.importable handlerModule then ([], false)
    else if clashes initParameters (recordMeta record) then ([], true)
    else if !top && !isText (getD record "id") then ([], true)
    else
      (childrenOf records recordParent (recordKey record)).foldl
        (planNext (plan runtime records fuel false)) ([record], false)

def loadedAgent (parent : Option Nat) (address : Address) (record : Dict) : Agent where
  id := getD record "id"
  handlerModule := getD record "handler_module"
  parent := parent
  address := address
  children := .empty
  metadata := recordMeta record
  ephemeral := false

/-- Agents placed one after the other, each below one that exists. -/
inductive Placements : Kernel → List Dict → Kernel → Prop where
  | done (kernel : Kernel) : Placements kernel [] kernel
  | next {kernel after : Kernel} {record : Dict} {rest : List Dict} {key : DictKey} {above : Nat}
      {address : Address} (hashed : recordKey record = .ok key) (old : above < kernel.allocated)
      (later : Placements (kernel.place key (loadedAgent (some above) address record)) rest after) :
      Placements kernel (record :: rest) after

theorem Placements.append {middle : Kernel} {rest : List Dict} (first : Placements kernel built middle)
    (second : Placements middle rest after) : Placements kernel (built ++ rest) after := by
  induction first with
  | done => exact second
  | next hashed old _ ih => exact .next hashed old (ih second)

theorem Placements.allocated_le (placed : Placements kernel built after) :
    kernel.allocated ≤ after.allocated := by
  induction placed with
  | done => exact Nat.le_refl _
  | next _ _ _ ih =>
    rw [place_allocated] at ih
    omega

theorem Placements.fields (placed : Placements kernel built after) {ref : Nat}
    (old : ref < kernel.allocated) : SameFields (after.heap ref) (kernel.heap ref) := by
  induction placed with
  | done => exact SameFields.refl _
  | next _ _ _ ih =>
    apply (ih _).trans
    · exact place_sameFields rfl old
    · rw [place_allocated]
      omega

theorem Placements.root (placed : Placements kernel built after) : after.root = kernel.root := by
  induction placed with
  | done => rfl
  | next _ _ _ ih => exact ih.trans (place_root rfl)

/-- What is not replaced stays registered. -/
theorem Placements.stays {key : DictKey} {ref : Nat} (placed : Placements kernel built after)
    (found : kernel.agents.get? key = some ref)
    (spared : ∀ record ∈ built, recordKey record ≠ .ok key) : after.agents.get? key = some ref := by
  induction placed with
  | done => exact found
  | next hashed _ _ ih =>
    apply ih
    · rw [place_get?, if_neg, found]
      intro same
      apply spared _ List.mem_cons_self
      rw [same]
      exact hashed
    · intro record listed
      exact spared record (List.mem_cons_of_mem _ listed)

/-- Every registered agent is one of the built records or was there before. -/
theorem Placements.registered {key : DictKey} {ref : Nat} (placed : Placements kernel built after)
    (found : after.agents.get? key = some ref) :
    kernel.agents.get? key = some ref ∨ ∃ record ∈ built, recordKey record = .ok key ∧
      (after.heap ref).id = getD record "id" ∧ (after.heap ref).metadata = recordMeta record := by
  induction placed with
  | done => exact .inl found
  | @next kernel after record rest own above address hashed old later ih =>
    obtain earlier | ⟨other, listed, reads⟩ := ih found
    · rw [place_get?] at earlier
      split at earlier
      case isTrue same =>
        cases earlier
        have inside : kernel.allocated <
            (kernel.place own (loadedAgent (some above) address record)).allocated := by
          rw [place_allocated]
          exact Nat.lt_succ_self _
        have fields := later.fields inside
        rw [place_heap_new rfl old] at fields
        exact .inr ⟨record, List.mem_cons_self, same ▸ hashed, fields.id, fields.metadata⟩
      case isFalse => exact .inl earlier
    · exact .inr ⟨other, List.mem_cons_of_mem _ listed, reads⟩

theorem Placements.present {key : DictKey} (placed : Placements kernel built after)
    (listed : (∃ ref, kernel.agents.get? key = some ref) ∨
      ∃ record ∈ built, recordKey record = .ok key) :
    ∃ ref, after.agents.get? key = some ref := by
  induction placed with
  | done =>
    obtain found | ⟨record, listed, _⟩ := listed
    · exact found
    · cases listed
  | next hashed _ _ ih =>
    apply ih
    obtain ⟨ref, found⟩ | ⟨record, listed, keyed⟩ := listed
    · left
      rw [place_get?]
      split
      · exact ⟨_, rfl⟩
      · exact ⟨ref, found⟩
    · obtain rfl | later := List.mem_cons.mp listed
      · left
        rw [place_get?, if_pos (Except.ok.inj (keyed.symm.trans hashed))]
        exact ⟨_, rfl⟩
      · exact .inr ⟨record, later, keyed⟩

/-- The entry of a name is that of a built record which declares it, or the old one. -/
theorem Placements.wellKnown (placed : Placements kernel built after) (name : String) :
    (after.wellKnown.get? name = kernel.wellKnown.get? name ∧
        ∀ record ∈ built, aliasOf (recordMeta record) ≠ some name) ∨
      ∃ record ∈ built, aliasOf (recordMeta record) = some name ∧
        after.wellKnown.get? name = some (getD record "id") := by
  induction placed with
  | done =>
    left
    exact ⟨rfl, fun _ listed => absurd listed List.not_mem_nil⟩
  | @next kernel after record rest own above address hashed old later ih =>
    obtain ⟨same, undeclared⟩ | ⟨other, listed, declares, entry⟩ := ih
    · by_cases declares : aliasOf (recordMeta record) = some name
      · right
        refine ⟨record, List.mem_cons_self, declares, ?_⟩
        rw [same, place_wellKnown]
        have own : aliasOf (loadedAgent (some above) address record).metadata = some name := declares
        rw [own]
        exact OrderedDict.get?_insert_self _ _ _
      · left
        constructor
        · rw [same]
          exact place_wellKnown_get? own _ declares
        · intro other listed
          obtain rfl | rest := List.mem_cons.mp listed
          · exact declares
          · exact undeclared other rest
    · right
      exact ⟨other, List.mem_cons_of_mem _ listed, declares, entry⟩

/-! ### The plan is what happens -/

theorem isText_iff {value : Value} : isText value = true ↔ ∃ text, value = .str text := by
  cases value with
  | str text => exact iff_of_true rfl ⟨text, rfl⟩
  | _ =>
    apply iff_of_false
    · exact Bool.false_ne_true
    · intro text
      obtain ⟨_, isText⟩ := text
      cases isText

theorem foldl_planNext_cons (listing : Dict → List Dict × Bool) (record : Dict) (children : List Dict) :
    ∀ sofar : List Dict × Bool, children.foldl (planNext listing) (record :: sofar.1, sofar.2) =
      (record :: (children.foldl (planNext listing) sofar).1,
        (children.foldl (planNext listing) sofar).2) := by
  induction children with
  | nil =>
    intro sofar
    rfl
  | cons child children ih =>
    intro sofar
    obtain ⟨built, stopped⟩ := sofar
    cases stopped with
    | true => exact ih (built, true)
    | false => exact ih (built ++ (listing child).1, (listing child).2)

/-- The loop over the children of one record, given what each recursive call does. -/
theorem foldl_planned {part : Kernel → Dict → Kernel × Option PyError}
    {listing : Dict → List Dict × Bool} {above : Nat} {path : PurePath}
    (each : ∀ kernel record, above < kernel.allocated → (kernel.heap above).address = .path path →
      Placements kernel (listing record).1 (part kernel record).1 ∧
        (part kernel record).2.isSome = (listing record).2)
    (children : List Dict) : ∀ (reached : Kernel × Option PyError) (sofar : List Dict × Bool),
      above < kernel.allocated → (kernel.heap above).address = .path path →
      Placements kernel sofar.1 reached.1 → reached.2.isSome = sofar.2 →
        Placements kernel (children.foldl (planNext listing) sofar).1
            (children.foldl (goOn part) reached).1 ∧
          (children.foldl (goOn part) reached).2.isSome =
            (children.foldl (planNext listing) sofar).2 := by
  induction children with
  | nil =>
    intro reached sofar _ _ placed same
    exact ⟨placed, same⟩
  | cons child children ih =>
    intro reached sofar old address placed same
    rw [List.foldl_cons, List.foldl_cons]
    obtain ⟨middle, raised⟩ := reached
    obtain ⟨built, stopped⟩ := sofar
    cases raised with
    | some failure =>
      cases stopped with
      | false => cases same
      | true => exact ih _ _ old address placed same
    | none =>
      cases stopped with
      | true => cases same
      | false =>
        have inside := Nat.lt_of_lt_of_le old placed.allocated_le
        have stillPath : (middle.heap above).address = .path path :=
          (placed.fields old).address.trans address
        obtain ⟨further, agree⟩ := each middle child inside stillPath
        exact ih _ _ old address (placed.append further) agree

theorem buildAttempt_planned {rootPath : Option Address} (fuel : Nat) :
    ∀ (above : Nat) (path : PurePath) (kernel : Kernel) (record : Dict),
      above < kernel.allocated → (kernel.heap above).address = .path path →
        Placements kernel (plan runtime records fuel false record).1
            (buildAttempt runtime records rootPath fuel (some above) kernel record).1 ∧
          (buildAttempt runtime records rootPath fuel (some above) kernel record).2.isSome =
            (plan runtime records fuel false record).2 := by
  induction fuel with
  | zero =>
    intro above path kernel record _ _
    exact ⟨.done kernel, rfl⟩
  | succ fuel ih =>
    intro above path kernel record old address
    rw [buildAttempt, plan]
    split
    · exact ⟨.done kernel, rfl⟩
    split
    · exact ⟨.done kernel, rfl⟩
    cases text : isText (getD record "id") with
    | false =>
      have refused : kernel.construct (getD record "id") none (some above)
          (getD record "handler_module") (recordMeta record) = .error .typeError := by
        cases id : getD record "id" with
        | str name =>
          rw [id] at text
          cases text
        | _ => simp [construct, chooseAddress, defaultAddress, address, Address.join, bind,
            Except.bind]
      simp only [Option.isNone_some, Bool.false_eq_true, if_false, refused]
      exact ⟨.done kernel, rfl⟩
    | true =>
      obtain ⟨name, id⟩ := isText_iff.mp text
      have constructed : kernel.construct (getD record "id") none (some above)
          (getD record "handler_module") (recordMeta record) =
            .ok (kernel.place (.str name) (loadedAgent (some above)
              (.path ((path.join kernel.childrenDir).join name)) record)) := by
        simp only [construct, chooseAddress, defaultAddress, address, Address.join, bind,
          Except.bind, id, hashKey, loadedAgent]
        rfl
      simp only [Option.isNone_some, Bool.false_eq_true, if_false, constructed, Bool.not_true,
        Bool.and_false]
      have newAgent := @place_heap_new kernel above (.str name) (loadedAgent (some above)
        (.path ((path.join kernel.childrenDir).join name)) record) rfl old
      have keyed : recordKey record = .ok (.str name) := by
        rw [recordKey, id]
        rfl
      obtain ⟨further, agree⟩ := foldl_planned
        (fun middle child => ih kernel.allocated _ middle child)
        (childrenOf records recordParent (recordKey record)) (_, none) ([], false)
        (by rw [place_allocated]; exact Nat.lt_succ_self _)
        (congrArg Agent.address newAgent) (.done _) rfl
      rw [foldl_planNext_cons _ record _ ([], false)]
      exact ⟨.next keyed old further, agree⟩

theorem mem_foldl_planNext {listing : Dict → List Dict × Bool} {other : Dict} (children : List Dict) :
    ∀ sofar : List Dict × Bool, other ∈ (children.foldl (planNext listing) sofar).1 →
      other ∈ sofar.1 ∨ ∃ child ∈ children, other ∈ (listing child).1 := by
  induction children with
  | nil =>
    intro sofar listed
    exact .inl listed
  | cons child children ih =>
    intro sofar listed
    obtain early | ⟨later, member, deeper⟩ := ih _ listed
    · rw [planNext] at early
      split at early
      · exact .inl early
      · obtain before | own := List.mem_append.mp early
        · exact .inl before
        · exact .inr ⟨child, List.mem_cons_self, own⟩
    · exact .inr ⟨later, List.mem_cons_of_mem _ member, deeper⟩

/-- Below its first record a plan lists records of the snapshot that name a parent. -/
theorem mem_plan {other : Dict} (fuel : Nat) : ∀ (top : Bool) (record : Dict),
    other ∈ (plan runtime records fuel top record).1 →
      other = record ∨ other ∈ records ∧ recordParent other ≠ none := by
  induction fuel with
  | zero =>
    intro top record listed
    cases listed
  | succ fuel ih =>
    intro top record listed
    rw [plan] at listed
    split at listed
    · cases listed
    split at listed
    · cases listed
    split at listed
    · cases listed
    obtain own | ⟨child, member, deeper⟩ := mem_foldl_planNext _ _ listed
    · exact .inl (List.mem_singleton.mp own)
    · right
      obtain rfl | below := ih false child deeper
      · simp only [childrenOf, List.mem_filter, decide_eq_true_eq] at member
        refine ⟨member.1, ?_⟩
        rw [member.2]
        exact Option.some_ne_none _
      · exact below

/-- The records that `Kernel.load` builds of a snapshot it has validated. -/
def loadPlan (runtime : Runtime) (records : List Dict) : List Dict :=
  match records.reverse.find? fun record => decide (getD record "parent_id" = .null) with
  | none => []
  | some rootRecord => (plan runtime records records.length true rootRecord).1

/-- What a load leaves behind, returned or not, in terms of the records it built. -/
structure Reloaded (kernel : Kernel) (records built : List Dict) (after : Kernel) : Prop where
  listed : ∀ record ∈ built, record ∈ records
  agents : ∀ {key ref}, after.agents.get? key = some ref → ∃ record ∈ built,
    recordKey record = .ok key ∧ (after.heap ref).id = getD record "id" ∧
      (after.heap ref).metadata = recordMeta record
  present : ∀ {record key}, record ∈ built → recordKey record = .ok key →
    ∃ ref, after.agents.get? key = some ref
  wellKnown : ∀ name, (after.wellKnown.get? name = kernel.wellKnown.get? name ∧
      ∀ record ∈ built, aliasOf (recordMeta record) ≠ some name) ∨
    ∃ record ∈ built, aliasOf (recordMeta record) = some name ∧
      after.wellKnown.get? name = some (getD record "id")
  root : ∀ {record key}, record ∈ built → recordParent record = none → recordKey record = .ok key →
    after.agents.get? key = after.root
  allocated : after.Allocated

theorem cleared_reloaded (childrenDir : String) :
    Reloaded kernel records [] (kernel.cleared childrenDir) where
  listed _ member := absurd member List.not_mem_nil
  agents found := by cases found
  present member := absurd member List.not_mem_nil
  wellKnown _ := .inl ⟨rfl, fun _ member => absurd member List.not_mem_nil⟩
  root member := absurd member List.not_mem_nil
  allocated := cleared_allocated kernel childrenDir

theorem Placements.allocated (placed : Placements kernel built after) (fine : kernel.Allocated) :
    after.Allocated := by
  induction placed with
  | done => exact fine
  | next _ _ _ ih => exact ih (fine.place _ _)

/-- The root is placed in the cleared kernel and everything else below it. -/
theorem placements_reloaded {childrenDir : String} {rootRecord : Dict} {rest : List Dict}
    {key : DictKey} {address : Address} (checks : LocalChecks records)
    (member : rootRecord ∈ records) (bare : recordParent rootRecord = none)
    (hashed : recordKey rootRecord = .ok key)
    (below : ∀ record ∈ rest, record ∈ records ∧ recordParent record ≠ none)
    (placed : Placements ((kernel.cleared childrenDir).place key (loadedAgent none address rootRecord))
      rest after) : Reloaded kernel records (rootRecord :: rest) after := by
  have newAgent : ((kernel.cleared childrenDir).place key
      (loadedAgent none address rootRecord)).heap kernel.allocated =
        loadedAgent none address rootRecord := by
    simp [place, register, loadedAgent, cleared]
  have fields : SameFields (after.heap kernel.allocated) (loadedAgent none address rootRecord) := by
    rw [← newAgent]
    apply placed.fields
    rw [place_allocated]
    exact Nat.lt_succ_self _
  have own : ((kernel.cleared childrenDir).place key
      (loadedAgent none address rootRecord)).agents.get? key = some kernel.allocated := by
    rw [place_get?, if_pos rfl]
    rfl
  have unreplaced : ∀ record ∈ rest, recordKey record ≠ .ok key := by
    intro record listed sameKey
    have same := List.inj_on_of_nodup_map checks.distinct (below record listed).1 member
      (sameKey.trans hashed.symm)
    rw [same] at listed
    exact (below rootRecord listed).2 bare
  have isRoot : after.root = some kernel.allocated := placed.root
  constructor
  · intro record listed
    obtain rfl | later := List.mem_cons.mp listed
    · exact member
    · exact (below record later).1
  · intro other ref found
    obtain early | ⟨record, listed, reads⟩ := placed.registered found
    · rw [place_get?] at early
      split at early
      case isTrue same =>
        cases early
        exact ⟨rootRecord, List.mem_cons_self, same ▸ hashed, fields.id, fields.metadata⟩
      case isFalse => cases early
    · exact ⟨record, List.mem_cons_of_mem _ listed, reads⟩
  · intro record other listed keyed
    apply placed.present
    obtain rfl | later := List.mem_cons.mp listed
    · cases hashed.symm.trans keyed
      exact .inl ⟨_, own⟩
    · exact .inr ⟨record, later, keyed⟩
  · intro name
    obtain ⟨same, undeclared⟩ | ⟨record, listed, declares, entry⟩ := placed.wellKnown name
    · by_cases declares : aliasOf (recordMeta rootRecord) = some name
      · right
        refine ⟨rootRecord, List.mem_cons_self, declares, ?_⟩
        have ownAlias : aliasOf (loadedAgent none address rootRecord).metadata = some name := declares
        rw [same, place_wellKnown, ownAlias]
        exact OrderedDict.get?_insert_self _ _ _
      · left
        constructor
        · rw [same]
          exact place_wellKnown_get? key _ declares
        · intro record listed
          obtain rfl | later := List.mem_cons.mp listed
          · exact declares
          · exact undeclared record later
    · exact .inr ⟨record, List.mem_cons_of_mem _ listed, declares, entry⟩
  · intro record other listed top keyed
    obtain rfl | later := List.mem_cons.mp listed
    · cases hashed.symm.trans keyed
      rw [isRoot]
      exact placed.stays own unreplaced
    · exact absurd top (below record later).2
  · exact placed.allocated ((cleared_allocated kernel childrenDir).place key _)

theorem loadAttempt_reloaded {snapshot : KernelState} {rootPath : Option PurePath} {rootId : Value}
    (validated : validateRecords runtime snapshot.records snapshot.version = .ok rootId) :
    Reloaded kernel snapshot.records (loadPlan runtime snapshot.records)
      (kernel.loadAttempt runtime snapshot rootPath).1 := by
  have checks := (validate_ok_iff.mp ⟨rootId, validated⟩).2
  obtain ⟨root, member, bare, _, first⟩ := LocalChecks.find_root checks
  obtain ⟨key, hashed⟩ := checks.hashable root member
  simp only [loadAttempt, validated, first, loadPlan]
  obtain ⟨fuel, count⟩ := Nat.exists_eq_add_of_lt (List.length_pos_of_mem member)
  rw [Nat.zero_add] at count
  rw [count, buildAttempt, plan]
  split
  · exact cleared_reloaded _
  split
  · exact cleared_reloaded _
  obtain ⟨path, constructed⟩ : ∃ path : PurePath,
      (kernel.cleared (childrenDirOf root)).construct (getD root "id") (rootPath.map .path) none
        (getD root "handler_module") (recordMeta root) =
          .ok ((kernel.cleared (childrenDirOf root)).place key
            (loadedAgent none (.path path) root)) := by
    have sameKey : hashKey (getD root "id") = .ok key := hashed
    cases rootPath with
    | none => exact ⟨.ofString ".fantastic", by simp [construct, chooseAddress, defaultAddress,
        sameKey, bind, Except.bind, pure, Except.pure, loadedAgent]⟩
    | some path => exact ⟨path, by simp [construct, chooseAddress, sameKey, bind, Except.bind,
        pure, Except.pure, loadedAgent]⟩
  simp only [Option.isNone_none, if_true, constructed, Bool.not_true, Bool.false_and,
    Bool.false_eq_true, if_false]
  have newAgent : ((kernel.cleared (childrenDirOf root)).place key
      (loadedAgent none (.path path) root)).heap kernel.allocated =
        loadedAgent none (.path path) root := by
    simp [place, register, loadedAgent, cleared]
  obtain ⟨placed, _⟩ := foldl_planned
    (fun middle child => buildAttempt_planned fuel kernel.allocated path middle child)
    (childrenOf snapshot.records recordParent (recordKey root)) (_, none) ([], false)
    (by rw [place_allocated]; exact Nat.lt_succ_self _)
    (congrArg Agent.address newAgent) (.done _) rfl
  rw [foldl_planNext_cons _ root _ ([], false)]
  apply placements_reloaded checks member bare hashed _ placed
  intro record listed
  obtain none | ⟨child, childMember, deeper⟩ := mem_foldl_planNext _ _ listed
  · cases none
  · obtain rfl | below := mem_plan fuel false child deeper
    · simp only [childrenOf, List.mem_filter, decide_eq_true_eq] at childMember
      refine ⟨childMember.1, ?_⟩
      rw [childMember.2]
      exact Option.some_ne_none _
    · exact below

/-! ### Loads that keep the table in step -/

/-- `kernel` names the root only, no alias is a name of another record, and every name that was
in the table before is declared again. -/
structure Rewires (kernel : Kernel) (built : List Dict) : Prop where
  reserved : ∀ record ∈ built, recordParent record ≠ none →
    getD record "id" ≠ .str "kernel" ∧ aliasOf (recordMeta record) ≠ some "kernel"
  distinct : ∀ first ∈ built, ∀ second ∈ built, ∀ name, aliasOf (recordMeta first) = some name →
    aliasOf (recordMeta second) = some name ∨ getD second "id" = .str name →
      recordKey first = recordKey second
  restored : ∀ name target, kernel.wellKnown.get? name = some target →
    ∃ record ∈ built, aliasOf (recordMeta record) = some name

theorem Reloaded.wired (reloaded : Reloaded kernel records built after) (checks : LocalChecks records)
    (rewires : Rewires kernel built) : after.Wired := by
  have unique : ∀ {first second : Dict}, first ∈ built → second ∈ built →
      recordKey first = recordKey second → first = second := by
    intro first second firstListed secondListed sameKey
    exact List.inj_on_of_nodup_map checks.distinct (reloaded.listed first firstListed)
      (reloaded.listed second secondListed) sameKey
  have isTop : ∀ {key ref record}, after.agents.get? key = some ref → record ∈ built →
      recordKey record = .ok key → recordParent record = none →
        after.resolveTarget (.str "kernel") = .ok (some ref) := by
    intro key ref record found listed keyed bare
    rw [resolveTarget_kernel, ← reloaded.root listed bare keyed, found]
  constructor
  · exact reloaded.allocated
  · intro key ref found
    obtain ⟨record, _, keyed, sameId, _⟩ := reloaded.agents found
    rw [sameId]
    exact keyed
  constructor
  · intro name target listed
    obtain ⟨same, undeclared⟩ | ⟨record, member, declares, entry⟩ := reloaded.wellKnown name
    · rw [same] at listed
      obtain ⟨record, member, declares⟩ := rewires.restored name target listed
      exact absurd declares (undeclared record member)
    · rw [entry] at listed
      cases listed
      obtain ⟨key, keyed⟩ := checks.hashable record (reloaded.listed record member)
      obtain ⟨ref, found⟩ := reloaded.present member keyed
      obtain ⟨other, otherMember, otherKeyed, _, sameMeta⟩ := reloaded.agents found
      have same := unique otherMember member (otherKeyed.trans keyed.symm)
      refine ⟨key, ref, keyed, found, ?_⟩
      rw [sameMeta, same]
      exact declares
  · intro key ref name found declared
    obtain ⟨record, member, keyed, _, sameMeta⟩ := reloaded.agents found
    rw [sameMeta] at declared
    by_cases top : name = "kernel"
    · subst top
      by_cases bare : recordParent record = none
      · exact isTop found member keyed bare
      · exact absurd declared (rewires.reserved record member bare).2
    · rw [resolveTarget_eq_some_iff fun same => top (Value.str.inj same)]
      obtain ⟨_, undeclared⟩ | ⟨other, otherMember, declares, entry⟩ := reloaded.wellKnown name
      · exact absurd declared (undeclared record member)
      · rw [wellKnownId_listed entry]
        have sameKey := rewires.distinct other otherMember record member name declares (.inl declared)
        exact ⟨key, sameKey.trans keyed, found⟩
  · intro key ref found
    obtain ⟨record, member, keyed, sameId, _⟩ := reloaded.agents found
    rw [sameId]
    by_cases top : getD record "id" = .str "kernel"
    · rw [top]
      by_cases bare : recordParent record = none
      · exact isTop found member keyed bare
      · exact absurd top (rewires.reserved record member bare).1
    · rw [resolveTarget_eq_some_iff top]
      cases text : getD record "id" with
      | str name =>
        obtain ⟨same, undeclared⟩ | ⟨other, otherMember, declares, entry⟩ := reloaded.wellKnown name
        · have unlisted : after.wellKnown.get? name = none := by
            rw [same]
            cases listed : kernel.wellKnown.get? name with
            | none => rfl
            | some target =>
              obtain ⟨other, otherMember, declares⟩ := rewires.restored name target listed
              exact absurd declares (undeclared other otherMember)
          rw [wellKnownId_unlisted unlisted, ← text]
          exact ⟨key, keyed, found⟩
        · rw [wellKnownId_listed entry]
          have sameKey := rewires.distinct other otherMember record member name declares (.inr text)
          exact ⟨key, sameKey.trans keyed, found⟩
      | _ =>
        refine ⟨key, ?_, found⟩
        rw [← keyed, recordKey, text]
        rfl

/-! ### Runs -/

/-- What one operation needs of the kernel it meets. -/
def InStep (runtime : Runtime) (kernel : Kernel) : Operation → Prop
  | .request request => KeepsAliases runtime kernel request
  | .load snapshot _ => ∀ rootId,
      validateRecords runtime snapshot.records snapshot.version = .ok rootId →
        Rewires kernel (loadPlan runtime snapshot.records)

def InStepRun (runtime : Runtime) : Kernel → List Operation → Prop
  | _, [] => True
  | kernel, operation :: rest =>
    InStep runtime kernel operation ∧ InStepRun runtime (kernel.perform runtime operation) rest

theorem Wired.perform {operation : Operation} (wired : kernel.Wired)
    (inStep : InStep runtime kernel operation) : (kernel.perform runtime operation).Wired := by
  cases operation with
  | request request => exact wired.step inStep
  | load snapshot rootPath =>
    cases validated : validateRecords runtime snapshot.records snapshot.version with
    | error failure =>
      simp only [Kernel.perform, loadAttempt, validated]
      exact wired
    | ok rootId =>
      have checks := (validate_ok_iff.mp ⟨rootId, validated⟩).2
      exact (loadAttempt_reloaded validated).wired checks (inStep rootId validated)

theorem fresh_wired : fresh.Wired where
  allocated := fresh_allocated
  keyed found := by cases found
  consistent :=
    { entries := fun listed => by cases listed
      declared := fun found => by cases found
      literal := fun found => by cases found }

/-- A kernel with its first agent, whatever that declares. -/
theorem Start.wired {start : Kernel} (started : Start start) : start.Wired := by
  cases started with
  | fresh => exact fresh_wired
  | @rooted id handlerModule rootPath metadata _ built =>
    have fine := fresh_allocated.construct built
    obtain ⟨address, key, hashed, _, placed⟩ := construct_ok built
    have only : ∀ {other ref}, start.agents.get? other = some ref → other = key ∧ ref = 0 := by
      intro other ref found
      rw [placed, place_get?] at found
      split at found
      case isTrue same =>
        cases found
        exact ⟨same, rfl⟩
      case isFalse => cases found
    have found : start.agents.get? key = some 0 := by
      rw [placed, place_get?, if_pos rfl]
      rfl
    have isRoot : start.root = some 0 := by
      rw [placed]
      rfl
    have newAgent : (start.heap 0).id = id ∧ (start.heap 0).metadata = metadata := by
      rw [placed]
      exact ⟨rfl, rfl⟩
    have entry : ∀ name, aliasOf metadata = some name → start.wellKnown.get? name = some id := by
      intro name declared
      rw [placed, place_wellKnown]
      simp only [declared, OrderedDict.get?_insert_self]
    have noEntry : ∀ name, aliasOf metadata ≠ some name → start.wellKnown.get? name = none := by
      intro name undeclared
      rw [placed, place_wellKnown_get? key _ undeclared]
      rfl
    constructor
    · exact fine
    · intro other ref hit
      obtain ⟨rfl, rfl⟩ := only hit
      rw [newAgent.1]
      exact hashed
    constructor
    · intro name target listed
      by_cases declared : aliasOf metadata = some name
      · rw [entry name declared] at listed
        cases listed
        refine ⟨key, 0, hashed, found, ?_⟩
        rw [newAgent.2]
        exact declared
      · rw [noEntry name declared] at listed
        cases listed
    · intro other ref name hit declared
      obtain ⟨rfl, rfl⟩ := only hit
      rw [newAgent.2] at declared
      by_cases top : Value.str name = .str "kernel"
      · rw [top, resolveTarget_kernel, isRoot]
      · rw [resolveTarget_eq_some_iff top, wellKnownId_listed (entry name declared)]
        exact ⟨other, hashed, hit⟩
    · intro other ref hit
      obtain ⟨rfl, rfl⟩ := only hit
      rw [newAgent.1]
      by_cases top : id = .str "kernel"
      · rw [top, resolveTarget_kernel, isRoot]
      · rw [resolveTarget_eq_some_iff top]
        have same : start.wellKnownId id = id := by
          cases id with
          | str text =>
            by_cases declared : aliasOf metadata = some text
            · exact wellKnownId_listed (entry text declared)
            · exact wellKnownId_unlisted (noEntry text declared)
          | _ => rfl
        rw [same]
        exact ⟨other, hashed, hit⟩

theorem Wired.performAll (operations : List Operation) : ∀ kernel : Kernel, kernel.Wired →
    InStepRun runtime kernel operations → ∀ done, done <+: operations →
      (kernel.performAll runtime done).Wired := by
  induction operations with
  | nil =>
    intro kernel wired _ done early
    rw [List.prefix_nil.mp early]
    exact wired
  | cons operation operations ih =>
    intro kernel wired inStep done early
    cases done with
    | nil => exact wired
    | cons first done =>
      obtain ⟨same, earlier⟩ := List.cons_prefix_cons.mp early
      subst same
      exact ih _ (wired.perform inStep.1) inStep.2 done earlier

/-- In every state of a run whose operations keep the names apart, the alias table and the
registry are in step. -/
theorem aliases_consistent_run {start : Kernel} (started : Start start) (runtime : Runtime)
    (operations : List Operation) (inStep : InStepRun runtime start operations) :
    ∀ done, done <+: operations → (start.performAll runtime done).AliasesConsistent := by
  intro done early
  exact (Wired.performAll operations start started.wired inStep done early).consistent

/-! ### An alias of one agent -/

def memoRecords : List Dict :=
  [OrderedDict.empty.insert "id" (Value.str "root"),
    ((OrderedDict.empty.insert "id" (Value.str "notes")).insert "parent_id" (.str "root")).insert
      "alias" (.str "memo")]

/-- `create_agent` with an alias, and a load of the snapshot of the same tree. -/
def memoOperations : List Operation :=
  [.request (rootRequest .createAgent (notesPayload.insert "alias" (.str "memo"))),
    .load { version := 1, records := memoRecords } none]

theorem soleRoot_names {key : DictKey} {ref : Nat} (found : soleRoot.agents.get? key = some ref) :
    (soleRoot.heap ref).metadata = .empty ∧ (soleRoot.heap ref).id = .str "root" := by
  rw [soleRoot, place_get?] at found
  split at found
  · cases found
    exact ⟨rfl, rfl⟩
  · cases found

theorem memo_inStep : InStepRun permissive soleRoot memoOperations := by
  refine ⟨⟨?_, ?_⟩, ?_, trivial⟩
  · intro above id key address creation
    have named : Except.ok (Value.str "notes") = .ok id := creation.chosen
    cases named
    constructor
    · decide
    · intro text _
      rfl
    · intro name declared
      have isMemo : some "memo" = some name := declared
      cases isMemo
      refine ⟨by decide, ?_⟩
      intro other ref found
      obtain ⟨bare, isRoot⟩ := soleRoot_names found
      rw [bare, isRoot]
      exact ⟨by decide, by decide⟩
  · intro ref patch
    cases patch.verb
  · intro rootId _
    constructor
    · decide
    · intro first firstListed second secondListed name declares clash
      have apart : ∀ first ∈ loadPlan permissive memoRecords,
          ∀ second ∈ loadPlan permissive memoRecords, aliasOf (recordMeta first) ≠ none →
            (aliasOf (recordMeta second) = aliasOf (recordMeta first) ∨
              some (getD second "id") = (aliasOf (recordMeta first)).map .str) →
                recordKey first = recordKey second := by
        decide
      apply apart first firstListed second secondListed
      · rw [declares]
        exact Option.some_ne_none _
      · rw [declares]
        obtain same | same := clash
        · exact .inl same
        · exact .inr (congrArg some same)
    · intro name target listed
      have names : (soleRoot.perform permissive (.request (rootRequest .createAgent
          (notesPayload.insert "alias" (.str "memo"))))).wellKnown.keys = ["memo"] := by
        decide
      have listedName := OrderedDict.mem_keys_iff.mpr ⟨target, listed⟩
      rw [names, List.mem_singleton] at listedName
      subst listedName
      have declared : ∃ record ∈ loadPlan permissive memoRecords,
          aliasOf (recordMeta record) = some "memo" := by
        decide
      exact declared

/-- The notes agent answers to its alias after every step of the run. -/
theorem memo_run_consistent :
    Start soleRoot ∧ InStepRun permissive soleRoot memoOperations ∧
      (soleRoot.performAll permissive memoOperations).AliasesConsistent :=
  ⟨soleRoot_start, memo_inStep, aliases_consistent_run soleRoot_start permissive memoOperations
    memo_inStep memoOperations List.prefix_rfl⟩

/-- An alias that `update_agent` declares is not entered. -/
theorem updated_alias_unreachable :
    Start soleRoot ∧
      ¬ (soleRoot.performAll permissive [.request (rootRequest .updateAgent
        ((OrderedDict.empty.insert "id" (Value.str "root")).insert "alias"
          (.str "top")))]).AliasesConsistent := by
  refine ⟨soleRoot_start, ?_⟩
  intro consistent
  have reachable := @AliasesConsistent.declared _ consistent (.str "root") 0 "top" (by decide)
    (by decide)
  have unreachable : (soleRoot.performAll permissive [.request (rootRequest .updateAgent
      ((OrderedDict.empty.insert "id" (Value.str "root")).insert "alias"
        (.str "top")))]).resolveTarget (.str "top") = .ok none := by
    decide
  cases reachable.symm.trans unreachable

end Fantastic.Python.Kernel

import Fantastic.Swift.Snapshot

/-!
# Which snapshots the Swift kernel accepts, and what it makes of them

Several roots and detached cycles pass the checks of `load`, and what does not hang below
the first root is then neither built nor wired. Every other snapshot is either refused
before anything is touched or comes back as a whole tree.
-/

namespace Fantastic.Swift.Kernel

open ParentForest

/-! ### What the documentation asks for -/

/-- The checks `load` makes before it touches the registry. -/
structure Checked (state : KernelState) : Prop where
  known : state.version ≤ currentVersion
  distinct : (state.agents.map AgentRecord.id).Nodup
  closed : ∀ record ∈ state.agents, ∀ parentId, record.parentId = some parentId →
    ∃ above ∈ state.agents, above.id = parentId
  rooted : ∃ root ∈ state.agents, root.parentId = none

def SingleRoot (records : List AgentRecord) : Prop :=
  ∀ first ∈ records, first.parentId = none → ∀ second ∈ records, second.parentId = none →
    first = second

/-- A known version, and records that form one rooted tree. -/
structure OneTree (state : KernelState) : Prop where
  known : state.version ≤ currentVersion
  distinct : (state.agents.map AgentRecord.id).Nodup
  rooted : ∃ root ∈ state.agents, root.parentId = none ∧
    ∀ other ∈ state.agents, other.parentId = none → other = root
  attached : ∀ record ∈ state.agents,
    Reached state.agents AgentRecord.id AgentRecord.parentId (fun _ => True) record

/-- The record is registered, and its parent's child map holds the same agent. -/
def Placed (kernel : Kernel) (record : AgentRecord) : Prop :=
  ∃ ref, kernel.agents.get? record.id = some ref ∧ (kernel.heap ref).record = record ∧
    ∀ parentId, record.parentId = some parentId →
      ∃ above, kernel.agents.get? parentId = some above ∧ (kernel.heap above).id = parentId ∧
        (kernel.heap above).children.get? record.id = some ref

/-- `load` returns; it accepts exactly the trees, with every record in its place, and leaves
the kernel alone when it throws. -/
def LoadsTrees (kernel : Kernel) (state : KernelState) : Prop :=
  ∃ after thrown, kernel.load state = some (after, thrown) ∧
    (thrown = none ↔ OneTree state) ∧
    (thrown = none → ∀ record ∈ state.agents, Placed after record) ∧
    (thrown ≠ none → after = kernel)

theorem oneTree_iff (state : KernelState) :
    OneTree state ↔ Checked state ∧ SingleRoot state.agents ∧
      Acyclic state.agents AgentRecord.id AgentRecord.parentId := by
  constructor
  · intro tree
    have closed : ∀ record ∈ state.agents, ∀ parentId, record.parentId = some parentId →
        ∃ above ∈ state.agents, above.id = parentId := by
      intro record listed parentId named
      cases tree.attached record listed with
      | top _ bare =>
        rw [named] at bare
        cases bare
      | @under _ above link _ _ =>
        exact ⟨above, link.2.1, Option.some.inj (link.2.2.symm.trans named)⟩
    obtain ⟨root, rootListed, bare, only⟩ := tree.rooted
    refine ⟨⟨tree.known, tree.distinct, closed, root, rootListed, bare⟩, ?_, ?_⟩
    · intro first firstListed firstBare second secondListed secondBare
      rw [only first firstListed firstBare, only second secondListed secondBare]
    · exact (all_reached_iff_acyclic tree.distinct closed).mp tree.attached
  · intro ⟨checked, single, acyclic⟩
    obtain ⟨root, rootListed, bare⟩ := checked.rooted
    refine ⟨checked.known, checked.distinct, ⟨root, rootListed, bare, ?_⟩, ?_⟩
    · intro other otherListed otherBare
      exact single other otherListed otherBare root rootListed bare
    · exact (all_reached_iff_acyclic checked.distinct checked.closed).mpr acyclic

/-! ### The checks -/

theorem checkDuplicates_ok_iff {seen all : List String} {records : List AgentRecord} :
    checkDuplicates seen records = .ok all ↔
      ((records.map AgentRecord.id).Nodup ∧ ∀ record ∈ records, record.id ∉ seen) ∧
        all = (records.map AgentRecord.id).reverse ++ seen := by
  induction records generalizing seen with
  | nil => simp [checkDuplicates, eq_comm]
  | cons record records ih =>
    unfold checkDuplicates
    by_cases again : record.id ∈ seen
    · simp [again]
    · rw [if_neg again, ih]
      simp only [List.map_cons, List.nodup_cons, List.mem_map, List.mem_cons, forall_eq_or_imp,
        List.reverse_cons, List.append_assoc, List.singleton_append, not_or]
      constructor
      · intro fine
        obtain ⟨⟨nodup, unseen⟩, content⟩ := fine
        refine ⟨⟨⟨?_, nodup⟩, again, fun other listed => (unseen other listed).2⟩, content⟩
        intro clash
        obtain ⟨other, listed, same⟩ := clash
        exact (unseen other listed).1 same
      · intro fine
        obtain ⟨⟨⟨unlisted, nodup⟩, _, unseen⟩, content⟩ := fine
        refine ⟨⟨nodup, fun other listed => ⟨?_, unseen other listed⟩⟩, content⟩
        intro same
        exact unlisted ⟨other, listed, same⟩

theorem countRoots_ok_iff {seen : List String} {roots count : Nat} {records : List AgentRecord} :
    countRoots seen roots records = .ok count ↔
      (∀ record ∈ records, ∀ parentId, record.parentId = some parentId → parentId ∈ seen) ∧
        count = roots + records.countP fun record => record.parentId.isNone := by
  induction records generalizing roots with
  | nil => simp [countRoots, eq_comm]
  | cons record records ih =>
    unfold countRoots
    cases named : record.parentId with
    | none =>
      simp only [ih, List.mem_cons, forall_eq_or_imp, named, List.countP_cons]
      simp [Nat.add_assoc, Nat.add_comm 1]
    | some parentId =>
      by_cases listed : parentId ∈ seen
      · simp [ih, named, listed]
      · simp [named, listed]

theorem validate_eq {state : KernelState} (known : state.version ≤ currentVersion) :
    validate state = (do
      let seen ← checkDuplicates [] state.agents
      let roots ← countRoots seen 0 state.agents
      if roots = 0 then throw (.invalidSnapshot "no root agent (parent_id=null)")) := by
  unfold validate
  rw [if_neg (UInt32.not_lt.mpr known)]

theorem validate_ok_iff (state : KernelState) : validate state = .ok () ↔ Checked state := by
  by_cases known : state.version ≤ currentVersion
  · rw [validate_eq known]
    have members : ∀ parentId, parentId ∈ (state.agents.map AgentRecord.id).reverse ++ [] ↔
        ∃ above ∈ state.agents, above.id = parentId := by
      simp
    constructor
    · intro passed
      cases duplicates : checkDuplicates [] state.agents with
      | error failure =>
        rw [duplicates] at passed
        cases passed
      | ok seen =>
        obtain ⟨⟨distinct, _⟩, content⟩ := checkDuplicates_ok_iff.mp duplicates
        subst content
        cases counted : countRoots ((state.agents.map AgentRecord.id).reverse ++ []) 0
            state.agents with
        | error failure =>
          simp only [duplicates, bind, Except.bind, counted] at passed
          cases passed
        | ok roots =>
          obtain ⟨closed, total⟩ := countRoots_ok_iff.mp counted
          simp only [duplicates, bind, Except.bind, counted] at passed
          by_cases bare : roots = 0
          · rw [if_pos bare] at passed
            cases passed
          · refine ⟨known, distinct, ?_, ?_⟩
            · intro record listed parentId named
              exact (members parentId).mp (closed record listed parentId named)
            · have some' : 0 < state.agents.countP fun record => record.parentId.isNone := by
                omega
              obtain ⟨root, listed, top⟩ := List.countP_pos_iff.mp some'
              exact ⟨root, listed, Option.isNone_iff_eq_none.mp top⟩
    · intro checked
      have duplicates : checkDuplicates [] state.agents =
          .ok ((state.agents.map AgentRecord.id).reverse ++ []) :=
        checkDuplicates_ok_iff.mpr ⟨⟨checked.distinct, by simp⟩, rfl⟩
      have counted : countRoots ((state.agents.map AgentRecord.id).reverse ++ []) 0 state.agents =
          .ok (0 + state.agents.countP fun record => record.parentId.isNone) := by
        refine countRoots_ok_iff.mpr ⟨?_, rfl⟩
        intro record listed parentId named
        exact (members parentId).mpr (checked.closed record listed parentId named)
      obtain ⟨root, listed, bare⟩ := checked.rooted
      have some' : 0 < state.agents.countP fun record => record.parentId.isNone :=
        List.countP_pos_iff.mpr ⟨root, listed, by simp [bare]⟩
      simp only [duplicates, bind, Except.bind, counted]
      rw [if_neg (by omega)]
      rfl
  · constructor
    · intro passed
      unfold validate at passed
      rw [if_pos (UInt32.not_le.mp known)] at passed
      cases passed
    · intro checked
      exact absurd checked.known known

/-! ### What `construct` builds -/

/-- Both registries hold the same fresh agents, each made from a record of its id. -/
structure Partial (records : List AgentRecord) (loading : Loading) : Prop where
  shared : ∀ id ref, loading.registry.get? id = some ref →
    loading.kernel.agents.get? id = some ref ∧ ref < loading.kernel.allocated ∧
      ∃ record ∈ records, record.id = id ∧ (loading.kernel.heap ref).record = record

variable {records : List AgentRecord} {baseRoot : FileUrl}

theorem place_agents (loading : Loading) (record : AgentRecord) (rootPath : FileUrl) :
    (loading.place record rootPath).kernel.agents =
      loading.kernel.agents.insert record.id loading.kernel.allocated := by
  simp [Loading.place, register, allocate]

theorem place_heap (loading : Loading) (record : AgentRecord) (rootPath : FileUrl) :
    (loading.place record rootPath).kernel.heap = Function.update loading.kernel.heap
      loading.kernel.allocated (Agent.new record rootPath) := by
  simp [Loading.place, register, allocate]

theorem place_allocated (loading : Loading) (record : AgentRecord) (rootPath : FileUrl) :
    (loading.place record rootPath).kernel.allocated = loading.kernel.allocated + 1 := by
  simp [Loading.place, register, allocate]

theorem Partial.place {loading : Loading} (before : Partial records loading)
    {record : AgentRecord} (listed : record ∈ records) (rootPath : FileUrl) :
    Partial records (loading.place record rootPath) := by
  constructor
  intro id ref found
  rw [place_agents, place_heap, place_allocated]
  rw [Loading.place, OrderedDict.get?_insert] at found
  rw [OrderedDict.get?_insert]
  by_cases same : id = record.id
  · subst same
    simp only [if_true, Option.some.injEq] at found ⊢
    subst found
    refine ⟨rfl, Nat.lt_succ_self _, record, listed, rfl, ?_⟩
    simp
  · rw [if_neg same] at found ⊢
    obtain ⟨registered, old, source⟩ := before.shared id ref found
    refine ⟨registered, Nat.lt_succ_of_lt old, ?_⟩
    rw [Function.update_of_ne (Nat.ne_of_lt old)]
    exact source

/-- From one state of the recursion to a later one, after the records in between. -/
structure Extended (records visited : List AgentRecord) (loading after : Loading) : Prop where
  sound : Partial records after
  kept : ∀ id ∈ loading.registry.keys, id ∈ after.registry.keys
  built : ∀ record ∈ visited, record.id ∈ after.registry.keys

theorem Extended.trans {visited later : List AgentRecord} {first second third : Loading}
    (before : Extended records visited first second)
    (next : Extended records later second third) :
    Extended records (visited ++ later) first third := by
  refine ⟨next.sound, fun id listed => next.kept id (before.kept id listed), ?_⟩
  intro record listed
  cases List.mem_append.mp listed with
  | inl here => exact next.kept _ (before.built record here)
  | inr there => exact next.built record there

theorem place_extended {loading : Loading} (before : Partial records loading)
    {record : AgentRecord} (listed : record ∈ records) (rootPath : FileUrl) :
    Extended records [record] loading (loading.place record rootPath) := by
  refine ⟨before.place listed rootPath, ?_, ?_⟩
  · intro id present
    exact OrderedDict.mem_keys_insert.mpr (.inr present)
  · intro other here
    cases List.mem_singleton.mp here
    exact OrderedDict.mem_keys_insert.mpr (.inl rfl)

theorem foldlM_extended {step : Loading → AgentRecord → Option Loading}
    {walk : AgentRecord → List AgentRecord} {children : List AgentRecord}
    (each : ∀ child ∈ children, ∀ loading after, Partial records loading →
      step loading child = some after → Extended records (walk child) loading after)
    {loading after : Loading} (before : Partial records loading)
    (ran : children.foldlM step loading = some after) :
    Extended records (children.flatMap walk) loading after := by
  induction children generalizing loading with
  | nil =>
    cases ran
    exact ⟨before, fun _ present => present, by simp⟩
  | cons child children ih =>
    rw [List.foldlM_cons] at ran
    obtain ⟨middle, first, rest⟩ := Option.bind_eq_some_iff.mp ran
    have here := each child (by simp) loading middle before first
    rw [List.flatMap_cons]
    exact here.trans (ih (fun other listed => each other (by simp [listed])) here.sound rest)

/-- What `construct` has built when it returns: the walk below its record. -/
theorem construct_extended {fuel : Nat} {start : AgentRecord} {above : Option FileUrl}
    {loading after : Loading} (before : Partial records loading) (listed : start ∈ records)
    (returned : Loading.construct records baseRoot fuel start above loading = some after) :
    Extended records (preorder records AgentRecord.id AgentRecord.parentId fuel start)
      loading after := by
  induction fuel generalizing start above loading after with
  | zero => cases returned
  | succ fuel ih =>
    unfold Loading.construct at returned
    rw [preorder, ← List.singleton_append]
    have here := place_extended before listed (Loading.rootPathOf baseRoot start above)
    refine here.trans (foldlM_extended ?_ here.sound returned)
    intro child inside middle next sound ran
    exact ih sound ((mem_childrenOf_iff listed).mp inside).1 ran

theorem foldlM_returns {step : Loading → AgentRecord → Option Loading}
    {children : List AgentRecord}
    (each : ∀ child ∈ children, ∀ loading, ∃ after, step loading child = some after)
    (loading : Loading) : ∃ after, children.foldlM step loading = some after := by
  induction children generalizing loading with
  | nil => exact ⟨loading, rfl⟩
  | cons child children ih =>
    obtain ⟨middle, first⟩ := each child (by simp) loading
    obtain ⟨after, rest⟩ := ih (fun other listed => each other (by simp [listed])) middle
    refine ⟨after, ?_⟩
    rw [List.foldlM_cons, first]
    exact rest

/-- Without cycles the recursion ends within the number of records. -/
theorem construct_returns {rank : AgentRecord → Nat}
    (ranked : Ranked records AgentRecord.id AgentRecord.parentId rank) {bound : Nat}
    (bounded : ∀ record ∈ records, rank record < bound) {fuel : Nat} {start : AgentRecord}
    (listed : start ∈ records) (enough : bound ≤ rank start + fuel) (above : Option FileUrl)
    (loading : Loading) :
    ∃ after, Loading.construct records baseRoot fuel start above loading = some after := by
  induction fuel generalizing start above loading with
  | zero =>
    have inside := bounded start listed
    omega
  | succ fuel ih =>
    unfold Loading.construct
    apply foldlM_returns
    intro child inside middle
    have link := (mem_childrenOf_iff listed).mp inside
    have lower := ranked _ _ link
    exact ih link.1 (by omega) _ middle

/-! ### The last pass -/

/-- The registries hold what they held, and every agent kept its own fields. -/
structure Rewired (loading after : Loading) : Prop where
  registry : after.registry = loading.registry
  agents : after.kernel.agents = loading.kernel.agents
  record : ∀ ref, (after.kernel.heap ref).record = (loading.kernel.heap ref).record
  children : ∀ ref id child, (loading.kernel.heap ref).children.get? id = some child →
    loading.registry.get? id = some child → (after.kernel.heap ref).children.get? id = some child

theorem Rewired.refl (loading : Loading) : Rewired loading loading :=
  ⟨rfl, rfl, fun _ => rfl, fun _ _ _ held _ => held⟩

theorem Rewired.trans {first second third : Loading} (before : Rewired first second)
    (next : Rewired second third) : Rewired first third := by
  refine ⟨next.registry.trans before.registry, next.agents.trans before.agents, ?_, ?_⟩
  · intro ref
    rw [next.record, before.record]
  · intro ref id child held registered
    refine next.children ref id child (before.children ref id child held registered) ?_
    rw [before.registry]
    exact registered

theorem Partial.heap_id {loading : Loading} (sound : Partial records loading) {id : String}
    {ref : Nat} (found : loading.registry.get? id = some ref) :
    (loading.kernel.heap ref).id = id := by
  obtain ⟨_, _, record, _, named, made⟩ := sound.shared id ref found
  rw [← named, ← made]
  rfl

theorem wire_allocated (loading : Loading) (record : AgentRecord) :
    (loading.wire record).kernel.allocated = loading.kernel.allocated := by
  unfold Loading.wire
  split <;> rfl

theorem wire_rewired {loading : Loading} (sound : Partial records loading)
    (record : AgentRecord) : Rewired loading (loading.wire record) := by
  unfold Loading.wire
  split
  case h_1 parent child _ found =>
    refine ⟨rfl, rfl, ?_, ?_⟩
    · intro ref
      by_cases same : ref = parent
      · subst same
        simp [modify]
      · simp [modify, same]
    · intro ref id held present registered
      by_cases same : ref = parent
      · subst same
        simp only [modify, Function.update_self, Agent.insertChild]
        rw [OrderedDict.get?_insert, sound.heap_id found]
        by_cases here : id = record.id
        · subst here
          rw [if_pos rfl, ← found, registered]
        · rw [if_neg here, present]
      · simpa [modify, same] using present
  case h_2 => exact .refl loading

/-- The record's agent goes into the child map of its parent's. -/
theorem wire_children {loading : Loading} (sound : Partial records loading)
    {record : AgentRecord} {parentId : String} {parent child : Nat}
    (named : record.parentId = some parentId) (above : loading.registry.get? parentId = some parent)
    (found : loading.registry.get? record.id = some child) :
    ((loading.wire record).kernel.heap parent).children.get? record.id = some child := by
  unfold Loading.wire
  rw [named, Option.bind_some, above, found]
  simp [modify, Agent.insertChild, sound.heap_id found]

theorem Partial.rewired {loading after : Loading} (sound : Partial records loading)
    (rewired : Rewired loading after)
    (allocated : after.kernel.allocated = loading.kernel.allocated) : Partial records after := by
  constructor
  intro id ref found
  rw [rewired.registry] at found
  rw [rewired.agents, rewired.record, allocated]
  exact sound.shared id ref found

theorem wiring {rest : List AgentRecord} {loading : Loading} (sound : Partial records loading) :
    Rewired loading (rest.foldl Loading.wire loading) ∧
      ∀ record ∈ rest, ∀ parentId parent child, record.parentId = some parentId →
        loading.registry.get? parentId = some parent →
        loading.registry.get? record.id = some child →
          ((rest.foldl Loading.wire loading).kernel.heap parent).children.get? record.id =
            some child := by
  induction rest generalizing loading with
  | nil => exact ⟨.refl loading, by simp⟩
  | cons record rest ih =>
    have here := wire_rewired sound record
    obtain ⟨later, wired⟩ := ih (sound.rewired here (wire_allocated loading record))
    refine ⟨here.trans later, ?_⟩
    intro other listed parentId parent child named above found
    cases List.mem_cons.mp listed with
    | inl same =>
      subst same
      apply later.children _ _ _ (wire_children sound named above found)
      rw [here.registry]
      exact found
    | inr inside =>
      apply wired other inside parentId parent child named
      · rw [here.registry]
        exact above
      · rw [here.registry]
        exact found

/-! ### The whole load -/

theorem setRoot_rewired (loading : Loading) (record : AgentRecord) :
    Rewired loading (loading.setRoot record) := by
  unfold Loading.setRoot
  split
  · exact .refl loading
  · exact ⟨rfl, rfl, fun _ => rfl, fun _ _ _ held _ => held⟩

theorem setRoot_allocated (loading : Loading) (record : AgentRecord) :
    (loading.setRoot record).kernel.allocated = loading.kernel.allocated := by
  unfold Loading.setRoot
  split <;> rfl

theorem find_root {root : AgentRecord}
    (found : (records.find? fun record => record.parentId.isNone) = some root) :
    root ∈ records ∧ root.parentId = none :=
  ⟨List.mem_of_find?_eq_some found, by simpa using List.find?_some found⟩

/-- A tree is loaded with every record in its place. -/
theorem load_tree {kernel : Kernel} {state : KernelState} (tree : OneTree state) :
    ∃ after, kernel.load state = some (after, none) ∧
      ∀ record ∈ state.agents, Placed after record := by
  obtain ⟨checked, single, acyclic⟩ := (oneTree_iff state).mp tree
  have valid := (validate_ok_iff state).mpr checked
  obtain ⟨bareRoot, bareListed, bare⟩ := checked.rooted
  cases top : state.agents.find? fun record => record.parentId.isNone with
  | none =>
    have none' := List.find?_eq_none.mp top bareRoot bareListed
    simp [bare] at none'
  | some root =>
    obtain ⟨rootListed, rootBare⟩ := find_root top
    have ranked := compressed_ranked (depth_ranked acyclic)
    obtain ⟨built, returned⟩ := @construct_returns state.agents kernel.baseRoot _ ranked
      state.agents.length (fun _ => compressed_lt _) state.agents.length root rootListed
      (Nat.le_add_left _ _) none { kernel := kernel.wipe, registry := .empty }
    have start : Partial state.agents { kernel := kernel.wipe, registry := .empty } :=
      ⟨by simp⟩
    have extended := construct_extended start rootListed returned
    have everywhere : ∀ record ∈ state.agents, record.id ∈ built.registry.keys := by
      intro record listed
      apply extended.built
      apply (mem_preorder_root_iff (depth_ranked acyclic) rootListed _ checked.closed).mpr listed
      intro other otherListed otherBare
      exact single other otherListed otherBare root rootListed rootBare
    have rooted := setRoot_rewired built root
    have sound := extended.sound.rewired rooted (setRoot_allocated built root)
    obtain ⟨rewired, wired⟩ := @wiring state.agents state.agents _ sound
    have whole := rooted.trans rewired
    refine ⟨((state.agents.foldl Loading.wire (built.setRoot root)).kernel), ?_, ?_⟩
    · rw [load, valid]
      simp only [top, returned]
      rfl
    · intro record listed
      obtain ⟨ref, found⟩ := OrderedDict.mem_keys_iff.mp (everywhere record listed)
      obtain ⟨registered, _, source, sourceListed, sameId, made⟩ :=
        extended.sound.shared record.id ref found
      have sameRecord : source = record :=
        List.inj_on_of_nodup_map checked.distinct sourceListed listed sameId
      refine ⟨ref, ?_, ?_, ?_⟩
      · rw [whole.agents]
        exact registered
      · rw [whole.record, made, sameRecord]
      · intro parentId named
        obtain ⟨upper, upperListed, rfl⟩ := checked.closed record listed parentId named
        obtain ⟨above, aboveFound⟩ := OrderedDict.mem_keys_iff.mp (everywhere upper upperListed)
        refine ⟨above, ?_, ?_, ?_⟩
        · rw [whole.agents]
          exact (extended.sound.shared upper.id above aboveFound).1
        · have kept := congrArg AgentRecord.id (whole.record above)
          exact kept.trans (extended.sound.heap_id aboveFound)
        · apply wired record listed upper.id above ref named
          · rw [rooted.registry]
            exact aboveFound
          · rw [rooted.registry]
            exact found

/-! ### Loading what hangs below the first root -/

theorem foldlM_preserves {Holds : Loading → Prop} {step : Loading → AgentRecord → Option Loading}
    {children : List AgentRecord}
    (each : ∀ child loading after, Holds loading → step loading child = some after → Holds after)
    {loading after : Loading} (before : Holds loading)
    (ran : children.foldlM step loading = some after) : Holds after := by
  induction children generalizing loading with
  | nil =>
    cases ran
    exact before
  | cons child children ih =>
    rw [List.foldlM_cons] at ran
    obtain ⟨middle, first, rest⟩ := Option.bind_eq_some_iff.mp ran
    exact ih (each child loading middle before first) rest

/-- What holds of the start and survives placing a record survives `construct`. -/
theorem construct_preserves {Holds : Loading → Prop}
    (placed : ∀ loading record rootPath, Holds loading →
      Holds (Loading.place loading record rootPath)) {fuel : Nat} {start : AgentRecord}
    {above : Option FileUrl} {loading after : Loading} (before : Holds loading)
    (returned : Loading.construct records baseRoot fuel start above loading = some after) :
    Holds after := by
  induction fuel generalizing start above loading after with
  | zero => cases returned
  | succ fuel ih =>
    unfold Loading.construct at returned
    apply foldlM_preserves _ (placed loading start _ before) returned
    intro child middle next held ran
    exact ih held ran

/-- Both registries hold the same. -/
theorem construct_registry {fuel : Nat} {start : AgentRecord} {above : Option FileUrl}
    {loading after : Loading} (same : loading.kernel.agents = loading.registry)
    (returned : Loading.construct records baseRoot fuel start above loading = some after) :
    after.kernel.agents = after.registry := by
  refine @construct_preserves records baseRoot
    (fun loading => loading.kernel.agents = loading.registry) ?_ fuel start above loading after
    same returned
  intro loading record rootPath agree
  rw [place_agents, agree]
  rfl

theorem unregister_agents (kernel : Kernel) (ids : List String) :
    ∀ id, (ids.foldl unregister kernel).agents.get? id =
      if id ∈ ids then none else kernel.agents.get? id := by
  induction ids generalizing kernel with
  | nil => simp
  | cons first ids ih =>
    intro id
    rw [List.foldl_cons, ih]
    by_cases later : id ∈ ids
    · simp [later]
    · simp only [later, if_false, unregister, OrderedDict.get?_erase, List.mem_cons, or_false]

/-- Every agent is registered under its own id. -/
def Keyed (kernel : Kernel) : Prop :=
  ∀ id ref, kernel.agents.get? id = some ref → (kernel.heap ref).id = id

theorem Keyed.wipe {kernel : Kernel} (keyed : kernel.Keyed) : kernel.wipe.agents = .empty := by
  apply OrderedDict.eq_empty_of_keys
  rw [List.eq_nil_iff_forall_not_mem]
  intro id present
  obtain ⟨ref, found⟩ := OrderedDict.mem_keys_iff.mp present
  rw [Kernel.wipe, unregister_agents] at found
  by_cases listed : id ∈ kernel.allAgents
  · rw [if_pos listed] at found
    cases found
  · rw [if_neg listed] at found
    apply listed
    refine List.mem_map.mpr ⟨ref, ?_, keyed id ref found⟩
    exact OrderedDict.mem_items_iff.mpr ⟨id, found⟩

/-- The root itself, and what has a parent. -/
def hangs (root record : AgentRecord) : Bool :=
  record.parentId.isSome || decide (record.id = root.id)

noncomputable def belowRoot (records : List AgentRecord) (root : AgentRecord) : List AgentRecord :=
  keptNodes records AgentRecord.id AgentRecord.parentId (hangs root)

theorem mem_belowRoot {root record : AgentRecord} (listed : root ∈ records)
    (bare : root.parentId = none)
    (below : Below records AgentRecord.id AgentRecord.parentId record root) :
    record ∈ belowRoot records root := by
  apply mem_keptNodes.mpr
  induction below using Relation.ReflTransGen.head_induction_on with
  | refl => exact .top listed bare (by simp [hangs])
  | head link _ ih => exact .under link ih (by simp [hangs, link.2.2])

theorem belowRoot_children {root start : AgentRecord} (inside : start ∈ belowRoot records root) :
    childrenOf (belowRoot records root) AgentRecord.parentId start.id =
      childrenOf records AgentRecord.parentId start.id := by
  unfold belowRoot
  rw [childrenOf_keptNodes (mem_keptNodes.mp inside), List.filter_eq_self]
  intro child listed
  have named := (List.mem_filter.mp listed).2
  simp only [decide_eq_true_eq] at named
  simp [hangs, named]

theorem belowRoot_root {root other : AgentRecord} (distinct : (records.map AgentRecord.id).Nodup)
    (listed : root ∈ records) (inside : other ∈ belowRoot records root)
    (bare : other.parentId = none) : other = root := by
  have reached := mem_keptNodes.mp inside
  have kept := reached.kept
  simp only [hangs, bare, Option.isSome_none, Bool.false_or, decide_eq_true_eq] at kept
  exact List.inj_on_of_nodup_map distinct reached.listed listed kept

theorem foldlM_congr {first second : Loading → AgentRecord → Option Loading}
    {children : List AgentRecord}
    (each : ∀ child ∈ children, ∀ loading, first loading child = second loading child)
    (loading : Loading) : children.foldlM first loading = children.foldlM second loading := by
  induction children generalizing loading with
  | nil => rfl
  | cons child children ih =>
    rw [List.foldlM_cons, List.foldlM_cons, each child (by simp)]
    congr 1
    funext middle
    exact ih (fun other listed => each other (by simp [listed])) middle

/-- The recursion from the root goes through what hangs below it and nothing else. -/
theorem construct_belowRoot {root start : AgentRecord} (inside : start ∈ belowRoot records root)
    (fuel : Nat) (above : Option FileUrl) (loading : Loading) :
    Loading.construct records baseRoot fuel start above loading =
      Loading.construct (belowRoot records root) baseRoot fuel start above loading := by
  induction fuel generalizing start above loading with
  | zero => rfl
  | succ fuel ih =>
    unfold Loading.construct
    rw [belowRoot_children inside]
    apply foldlM_congr
    intro child listed middle
    rw [← belowRoot_children inside] at listed
    exact ih (List.mem_filter.mp listed).1 _ middle

theorem Partial.mono {some' all : List AgentRecord} {loading : Loading}
    (sound : Partial some' loading) (more : ∀ record ∈ some', record ∈ all) :
    Partial all loading := by
  constructor
  intro id ref found
  obtain ⟨registered, old, record, listed, named, made⟩ := sound.shared id ref found
  exact ⟨registered, old, record, more record listed, named, made⟩

theorem wiring_root (rest : List AgentRecord) (loading : Loading) :
    (rest.foldl Loading.wire loading).kernel.root = loading.kernel.root := by
  induction rest generalizing loading with
  | nil => rfl
  | cons record rest ih =>
    rw [List.foldl_cons, ih]
    unfold Loading.wire
    split <;> rfl

/-- What passes the checks is loaded; what hangs below the first root is in its place, that
root is the kernel's, and only records are registered. -/
theorem load_below (kernel : Kernel) {state : KernelState} (checked : Checked state)
    {root : AgentRecord}
    (top : (state.agents.find? fun record => record.parentId.isNone) = some root) :
    ∃ after, kernel.load state = some (after, none) ∧
      (∀ record, Below state.agents AgentRecord.id AgentRecord.parentId record root →
        Placed after record) ∧
      (∃ ref, after.root = some ref ∧ after.agents.get? root.id = some ref) ∧
      (kernel.Keyed → ∀ id ref, after.agents.get? id = some ref →
        ∃ record ∈ state.agents, record.id = id ∧ (after.heap ref).record = record) := by
  obtain ⟨rootListed, rootBare⟩ := find_root top
  have rootInside := mem_belowRoot rootListed rootBare .refl
  have acyclic : Acyclic (belowRoot state.agents root) AgentRecord.id AgentRecord.parentId :=
    keptNodes_acyclic checked.distinct
  have ranked := compressed_ranked (depth_ranked acyclic)
  have enough : (belowRoot state.agents root).length ≤ state.agents.length :=
    keptNodes_sublist.length_le
  obtain ⟨built, returned⟩ := @construct_returns (belowRoot state.agents root) kernel.baseRoot _
    ranked (belowRoot state.agents root).length (fun _ => compressed_lt _) state.agents.length root
    rootInside (Nat.le_trans enough (Nat.le_add_left _ _)) none
    { kernel := kernel.wipe, registry := .empty }
  have start : Partial (belowRoot state.agents root)
      { kernel := kernel.wipe, registry := .empty } := ⟨by simp⟩
  have extended := construct_extended start rootInside returned
  have sound : Partial state.agents built :=
    extended.sound.mono fun record inside => (mem_keptNodes.mp inside).listed
  have rooted := setRoot_rewired built root
  have rootedSound := sound.rewired rooted (setRoot_allocated built root)
  obtain ⟨rewired, wired⟩ := @wiring state.agents state.agents _ rootedSound
  have whole := rooted.trans rewired
  have everywhere : ∀ record ∈ belowRoot state.agents root,
      record.id ∈ built.registry.keys := by
    intro record inside
    apply extended.built
    apply preorder_complete ranked (fun _ => compressed_lt _) rootInside
      (Nat.le_trans enough (Nat.le_add_left _ _))
    exact below_root (depth_ranked acyclic)
      (fun other => belowRoot_root checked.distinct rootListed) (fun _ => keptNodes_closed) inside
  refine ⟨(state.agents.foldl Loading.wire (built.setRoot root)).kernel, ?_, ?_, ?_, ?_⟩
  · rw [load, (validate_ok_iff state).mpr checked]
    simp only [top, construct_belowRoot rootInside, returned]
    rfl
  · intro record below
    have inside := mem_belowRoot rootListed rootBare below
    obtain ⟨ref, found⟩ := OrderedDict.mem_keys_iff.mp (everywhere record inside)
    obtain ⟨registered, _, source, sourceListed, sameId, made⟩ := sound.shared record.id ref found
    have sameRecord : source = record := List.inj_on_of_nodup_map checked.distinct sourceListed
      (mem_keptNodes.mp inside).listed sameId
    refine ⟨ref, ?_, ?_, ?_⟩
    · rw [whole.agents]
      exact registered
    · rw [whole.record, made, sameRecord]
    · intro parentId named
      obtain ⟨upper, upperInside, rfl⟩ := keptNodes_closed inside named
      obtain ⟨above, aboveFound⟩ := OrderedDict.mem_keys_iff.mp (everywhere upper upperInside)
      refine ⟨above, ?_, ?_, ?_⟩
      · rw [whole.agents]
        exact (sound.shared upper.id above aboveFound).1
      · exact (congrArg AgentRecord.id (whole.record above)).trans (sound.heap_id aboveFound)
      · apply wired record (mem_keptNodes.mp inside).listed upper.id above ref named
        · rw [rooted.registry]
          exact aboveFound
        · rw [rooted.registry]
          exact found
  · obtain ⟨ref, found⟩ := OrderedDict.mem_keys_iff.mp (everywhere root rootInside)
    refine ⟨ref, ?_, ?_⟩
    · rw [wiring_root, Loading.setRoot, found]
    · rw [whole.agents]
      exact (sound.shared root.id ref found).1
  · intro keyed id ref found
    rw [whole.agents, construct_registry keyed.wipe returned] at found
    obtain ⟨_, _, record, listed, named, made⟩ := sound.shared id ref found
    exact ⟨record, listed, named, by rw [whole.record, made]⟩

/-- What passes the checks is never refused later. -/
theorem load_checked {kernel after : Kernel} {state : KernelState} {thrown : Option KernelError}
    (checked : Checked state) (returned : kernel.load state = some (after, thrown)) :
    thrown = none := by
  rw [load, (validate_ok_iff state).mpr checked] at returned
  simp only at returned
  split at returned
  · cases returned
    rfl
  · obtain ⟨built, _, last⟩ := Option.bind_eq_some_iff.mp returned
    cases last
    rfl

theorem load_refused {kernel : Kernel} {state : KernelState} (unchecked : ¬ Checked state) :
    ∃ failure, kernel.load state = some (kernel, some failure) := by
  rw [← validate_ok_iff] at unchecked
  cases refused : validate state with
  | error failure =>
    refine ⟨failure, ?_⟩
    rw [load, refused]
  | ok _ => exact absurd refused unchecked

/-- `load` meets its documentation on what its checks refuse and on what has one root and
no cycle, and on nothing else. -/
theorem loads_trees_iff (kernel : Kernel) (state : KernelState) :
    LoadsTrees kernel state ↔
      (Checked state → SingleRoot state.agents ∧
        Acyclic state.agents AgentRecord.id AgentRecord.parentId) := by
  constructor
  · intro meets checked
    obtain ⟨after, thrown, returned, accepted, _, _⟩ := meets
    exact ((oneTree_iff state).mp (accepted.mp (load_checked checked returned))).2
  · intro condition
    by_cases checked : Checked state
    · have tree := (oneTree_iff state).mpr ⟨checked, condition checked⟩
      obtain ⟨after, returned, placed⟩ := @load_tree kernel state tree
      exact ⟨after, none, returned, iff_of_true rfl tree, fun _ => placed, fun thrown =>
        absurd rfl thrown⟩
    · obtain ⟨failure, returned⟩ := @load_refused kernel state checked
      refine ⟨kernel, some failure, returned, ?_, ?_, fun _ => rfl⟩
      · refine iff_of_false (by simp) ?_
        intro tree
        exact checked ((oneTree_iff state).mp tree).1
      · intro accepted
        cases accepted

/-- A root, and a record that is its own parent. -/
def selfParented : KernelState where
  version := 1
  agents := [
    { id := "kernel", handlerModule := none, parentId := none, metadata := .empty },
    { id := "loop", handlerModule := none, parentId := some "loop", metadata := .empty }]

theorem self_parented_record_is_lost :
    ∃ after, (fresh none 256).load selfParented = some (after, none) ∧
      after.agents.get? "loop" = none ∧ ¬ LoadsTrees (fresh none 256) selfParented := by
  have run : ((fresh none 256).load selfParented).map
      (fun outcome => (outcome.1.agents.get? "loop", outcome.2)) = some (none, none) :=
    rfl
  obtain ⟨⟨after, thrown⟩, returned, seen⟩ := Option.map_eq_some_iff.mp run
  obtain ⟨lost, accepted⟩ := Prod.mk.inj seen
  simp only at lost accepted
  subst accepted
  refine ⟨after, returned, lost, ?_⟩
  intro meets
  obtain ⟨other, thrown, again, _, placed, _⟩ := meets
  rw [returned] at again
  cases again
  obtain ⟨ref, registered, _⟩ := placed rfl
    { id := "loop", handlerModule := none, parentId := some "loop", metadata := .empty }
    (by simp [selfParented])
  rw [lost] at registered
  cases registered

end Fantastic.Swift.Kernel

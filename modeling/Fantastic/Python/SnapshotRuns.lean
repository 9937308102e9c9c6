import Fantastic.Python.SnapshotRoundTrip

/-!
# Snapshots along whole runs

Which keys the requests of a run can put into a meta. `Faithful` is the condition on
one request: with it every reachable kernel round-trips, and the last section shows
a single `create_agent` outside of it after which the snapshot is refused.
-/

namespace Fantastic.Python.Kernel

variable {kernel after : Kernel} {runtime : Runtime} {request : Request}

def run (runtime : Runtime) (kernel : Kernel) (requests : List Request) : Kernel :=
  requests.foldl (step runtime) kernel

/-- A kernel that holds one root and nothing else: `Agent(id, root_path, ctx=…,
handler_module=…, **meta)` on a kernel without agents. -/
structure OneRoot (start : Kernel) : Prop where
  built : ∃ (empty : Kernel) (text : String) (rootPath : Option Address) (handlerModule : Value)
    (metadata : Dict),
      empty.agents = .empty ∧ empty.root = none ∧ text ≠ "" ∧
      (∀ name ∈ reservedKeys, name ∉ metadata.keys) ∧
      empty.construct (.str text) rootPath none handlerModule metadata = .ok start

/-- No agent is registered under this id. -/
def Free (kernel : Kernel) (id : Value) : Prop :=
  ∀ key, hashKey id = .ok key → kernel.agents.get? key = none

/-- A request that does not put a key of another meaning into a meta, makes no agent
without a proper id and does not delete the root. A request that is refused anyway
may say what it likes. -/
def Faithful (kernel : Kernel) (request : Request) : Prop :=
  let payload := request.payload
  let id := getD payload "id"
  match request.verb with
  | .createAgent =>
    truthy (getD payload "handler_module") = true → kernel.Free id →
    clashes ["self", "ctx", "parent"] payload = false →
      "parent_id" ∉ payload.keys ∧
      (id = .null ∨ (∃ text, text ≠ "" ∧ id = .str text) ∨
        ((∀ text, id ≠ .str text) ∧ getD payload "root_path" = .null))
  | .updateAgent =>
    ¬ kernel.Free id → clashes ["self", "agent_id"] payload = false →
      ∀ name ∈ ["handler_module", "parent_id", "root_path", "ctx", "parent"], name ∉ payload.keys
  | .deleteAgent =>
    ∀ root, kernel.root = some root → hashKey id = hashKey (kernel.heap root).id →
      kernel.findLockedDescendant kernel.allocated root ≠ none

def FaithfulRun (runtime : Runtime) : Kernel → List Request → Prop
  | _, [] => True
  | kernel, request :: rest =>
    Faithful kernel request ∧ FaithfulRun runtime (kernel.step runtime request) rest

/-- The invariant of faithful runs. -/
structure Snapshotable (kernel : Kernel) : Prop where
  tree : kernel.Tree
  savable : kernel.AllSavable

theorem Savable.congr {left right : Agent} (savable : Savable left)
    (same : SameFields right left) : Savable right where
  named := by
    rw [same.id]
    exact savable.named
  unreserved := by
    rw [same.metadata]
    exact savable.unreserved
  persistent := by
    rw [same.ephemeral]
    exact savable.persistent

/-- The first agent of an empty kernel is its only one. -/
theorem place_root_only {empty : Kernel} {key other : DictKey} {top : Agent} {ref : Nat}
    (noAgents : empty.agents = .empty)
    (found : (empty.place key top).agents.get? other = some ref) :
    other = key ∧ ref = empty.allocated := by
  rw [place_get?, noAgents, OrderedDict.get?_empty] at found
  by_cases same : other = key
  · simp only [same, if_true, Option.some.injEq] at found
    exact ⟨same, found.symm⟩
  · simp [same] at found

theorem place_root_tree {empty : Kernel} {key : DictKey} {top : Agent}
    (noAgents : empty.agents = .empty) (noRoot : empty.root = none) (parentless : top.parent = none)
    (childless : top.children = .empty) (hashed : hashKey top.id = .ok key) :
    (empty.place key top).Tree := by
  have heap : (empty.place key top).heap empty.allocated = top := by
    rw [place_parentless_heap parentless, Function.update_self]
  have isRoot : (empty.place key top).root = some empty.allocated := by
    simp [place, register, parentless, noRoot]
  refine ⟨?_, ?_, ?_, ?_, ?_⟩
  · intro other ref found
    obtain ⟨rfl, rfl⟩ := place_root_only noAgents found
    rw [place_allocated, heap]
    exact ⟨Nat.lt_succ_self _, hashed⟩
  · intro ref other child live linked
    obtain ⟨refKey, found⟩ := live
    rw [(place_root_only noAgents found).2, heap, childless, OrderedDict.get?_empty] at linked
    exact absurd linked (by simp)
  · intro other ref above found hung
    rw [(place_root_only noAgents found).2, heap, parentless] at hung
    exact absurd hung (by simp)
  · refine ⟨empty.allocated, isRoot, ⟨key, ?_⟩, ?_⟩
    · rw [place_get?, if_pos rfl]
    · rw [heap, parentless]
  · intro ref live _
    obtain ⟨refKey, found⟩ := live
    rw [(place_root_only noAgents found).2]
    exact isRoot

theorem place_root_snapshotable {empty : Kernel} {key : DictKey} {top : Agent}
    (noAgents : empty.agents = .empty) (noRoot : empty.root = none) (parentless : top.parent = none)
    (childless : top.children = .empty) (hashed : hashKey top.id = .ok key)
    (savable : Savable top) : (empty.place key top).Snapshotable := by
  refine ⟨place_root_tree noAgents noRoot parentless childless hashed, ?_⟩
  intro ref live
  obtain ⟨refKey, found⟩ := live
  rw [(place_root_only noAgents found).2, place_parentless_heap parentless, Function.update_self]
  exact savable

theorem OneRoot.snapshotable {start : Kernel} (oneRoot : OneRoot start) : start.Snapshotable := by
  rcases oneRoot.built with
    ⟨empty, text, rootPath, handlerModule, metadata, noAgents, noRoot, named, unreserved, built⟩
  rcases construct_ok built with ⟨address, key, hashed, _, rfl⟩
  exact place_root_snapshotable noAgents noRoot rfl rfl hashed ⟨⟨text, named, rfl⟩, unreserved, rfl⟩

/-- A registry without odd ids has nothing under the key of `None`. -/
theorem Snapshotable.free_null (fine : kernel.Snapshotable) : kernel.Free .null := by
  intro key hashed
  by_contra taken
  rcases Option.ne_none_iff_exists'.mp taken with ⟨ref, found⟩
  rcases (fine.savable ref ⟨key, found⟩).named with ⟨text, _, isText⟩
  have registered := (fine.tree.registered found).2
  rw [isText] at registered
  cases hashed
  simp [hashKey] at registered

private theorem createdMeta_unreserved {payload : Dict} (noParentId : "parent_id" ∉ payload.keys)
    (unclashed : clashes ["self", "ctx", "parent"] payload = false) :
    ∀ name ∈ reservedKeys, name ∉ (createdMeta payload).keys := by
  intro name reserved present
  rw [createdMeta, OrderedDict.mem_keys_erase, OrderedDict.mem_keys_iff,
    OrderedDict.get?_filterKeys] at present
  rcases present with ⟨notPath, item, found⟩
  have kept : name ∉ ["type", "handler_module", "id"] := by
    intro dropped
    simp [dropped] at found
  have inPayload : name ∈ payload.keys := by
    rw [OrderedDict.mem_keys_iff]
    refine ⟨item, ?_⟩
    simpa [kept] using found
  rw [← Bool.not_eq_true, clashes_iff] at unclashed
  simp only [List.mem_cons, List.not_mem_nil, or_false, not_or] at kept
  simp only [reservedKeys, List.mem_cons, List.not_mem_nil, or_false] at reserved
  rcases reserved with rfl | rfl | rfl | rfl | rfl | rfl | rfl
  · exact kept.2.2 rfl
  · exact kept.2.1 rfl
  · exact noParentId inPayload
  · exact unclashed ⟨"self", by simp, inPayload⟩
  · exact notPath rfl
  · exact unclashed ⟨"ctx", by simp, inPayload⟩
  · exact unclashed ⟨"parent", by simp, inPayload⟩

private theorem updatePatch_unreserved {payload : Dict}
    (plain : ∀ name ∈ ["handler_module", "parent_id", "root_path", "ctx", "parent"],
      name ∉ payload.keys)
    (unclashed : clashes ["self", "agent_id"] payload = false) :
    ∀ name ∈ reservedKeys, name ∉ (updatePatch payload).keys := by
  intro name reserved present
  rw [updatePatch, OrderedDict.mem_keys_iff, OrderedDict.get?_filterKeys] at present
  rcases present with ⟨item, found⟩
  have kept : name ∉ ["type", "id"] := by
    intro dropped
    simp [dropped] at found
  have inPayload : name ∈ payload.keys := by
    rw [OrderedDict.mem_keys_iff]
    refine ⟨item, ?_⟩
    simpa [kept] using found
  rw [← Bool.not_eq_true, clashes_iff] at unclashed
  by_cases isSelf : name = "self"
  · exact unclashed ⟨name, by simp [isSelf], inPayload⟩
  · refine plain name ?_ inPayload
    simp only [List.mem_cons, List.not_mem_nil, or_false, not_or] at kept
    simp only [reservedKeys, List.mem_cons, List.not_mem_nil, or_false] at reserved ⊢
    tauto

theorem Snapshotable.placed {agent : Agent} {above : Nat} {key : DictKey}
    (fine : kernel.Snapshotable) (hung : agent.parent = some above) (live : kernel.Live above)
    (fresh : kernel.agents.get? key = none) (hashed : hashKey agent.id = .ok key)
    (childless : agent.children = .empty) (savable : Savable agent) :
    (kernel.place key agent).Snapshotable := by
  refine ⟨place_tree fine.tree hung live fresh hashed childless, ?_⟩
  rintro ref ⟨other, found⟩
  rw [place_get?] at found
  by_cases same : other = key
  · simp only [same, if_true, Option.some.injEq] at found
    subst found
    rw [place_heap_new hung (fine.tree.live_lt live)]
    exact savable
  · simp only [same, if_false] at found
    exact (fine.savable ref ⟨other, found⟩).congr
      (place_sameFields hung (fine.tree.registered found).1)

theorem Snapshotable.patched {ref : Nat} {id : Value} {patch : Dict} (fine : kernel.Snapshotable)
    (unreserved : ∀ name ∈ reservedKeys, name ∉ patch.keys) :
    (kernel.patched ref id patch).Snapshotable := by
  refine ⟨patched_tree fine.tree id patch, ?_⟩
  intro other live
  have before := fine.savable other live
  rw [patched_heap]
  split
  · refine ⟨before.named, ?_, before.persistent⟩
    intro name reserved present
    rcases OrderedDict.mem_keys_update.mp present with new | old
    · exact unreserved name reserved new
    · exact before.unreserved name reserved old
  · exact before

theorem Snapshotable.thinned (fine : kernel.Snapshotable) (removals : LeafRemovals kernel after) :
    after.Snapshotable := by
  have thinned := removals.thinned fine.tree
  refine ⟨removals.tree fine.tree, ?_⟩
  rintro ref ⟨key, found⟩
  exact (fine.savable ref ⟨key, thinned.shrinks found⟩).congr (thinned.fields ref)

/-- One faithful request keeps the invariant. -/
theorem Snapshotable.effect (fine : kernel.Snapshotable) (faithful : Faithful kernel request)
    (effect : Effect runtime kernel request after) : after.Snapshotable := by
  cases effect with
  | refused => exact fine
  | @created self id key address verb live _ handled chosen placed hashed fresh unclashed =>
    simp only [Faithful, verb] at faithful
    have named := chooseId_ok chosen
    have free : kernel.Free (getD request.payload "id") := by
      rcases named with ⟨null, _⟩ | ⟨_, rfl⟩
      · rw [null]
        exact fine.free_null
      · intro other otherHashed
        rw [← Except.ok.inj (hashed.symm.trans otherHashed)]
        exact fresh
    rcases faithful handled free unclashed with ⟨noParentId, idKind⟩
    have text : ∃ text, text ≠ "" ∧ id = .str text := by
      rcases named with ⟨_, minted⟩ | ⟨notNull, given⟩
      · exact minted
      · rcases idKind with null | isText | ⟨notText, noPath⟩
        · exact absurd null notNull
        · rw [given]
          exact isText
        · rcases defaultAddress_text (placed noPath) with ⟨text, isText⟩
          exact absurd (given.symm.trans isText) (notText text)
    exact fine.placed rfl live fresh hashed rfl
      ⟨text, createdMeta_unreserved noParentId unclashed, rfl⟩
  | @updated key target verb hashed found unclashed =>
    simp only [Faithful, verb] at faithful
    have taken : ¬ kernel.Free (getD request.payload "id") := by
      intro free
      rw [free key hashed] at found
      exact absurd found (by simp)
    exact fine.patched (updatePatch_unreserved (faithful taken unclashed) unclashed)
  | @deleted key target verb hashed found unlocked =>
    simp only [Faithful, verb] at faithful
    cases hung : (kernel.heap target).parent with
    | none =>
      have isRoot := fine.tree.rootOnly ⟨key, found⟩ hung
      have sameKey := hashed.trans (fine.tree.registered found).2.symm
      exact absurd unlocked (faithful target isRoot sameKey)
    | some above =>
      have pruned := cascadeDelete_pruned kernel.allocated fine.tree found hung (by omega)
      exact fine.thinned pruned.removals

theorem Snapshotable.run (fine : kernel.Snapshotable) (requests : List Request)
    (faithful : FaithfulRun runtime kernel requests) : (kernel.run runtime requests).Snapshotable := by
  induction requests generalizing kernel with
  | nil => exact fine
  | cons request rest ih =>
    exact ih (fine.effect faithful.1 (step_effect runtime fine.tree request)) faithful.2

/-- Every kernel a faithful run reaches from one root round-trips. -/
theorem faithful_run_round_trips {start : Kernel} (oneRoot : OneRoot start)
    (requests : List Request) (faithful : FaithfulRun runtime start requests)
    (importable : (start.run runtime requests).AllImportable runtime) :
    (start.run runtime requests).RoundTrips runtime := by
  have fine := oneRoot.snapshotable.run requests faithful
  exact roundTrips_of_savable fine.tree fine.savable importable

/-! ### A payload that names its own parent -/

def permissive : Runtime where
  importable := fun _ => true
  repr := fun _ => ""
  str := fun _ => ""

def soleRoot : Kernel :=
  fresh.place (.str "root")
    { id := .str "root"
      handlerModule := .null
      parent := none
      address := .path (.ofString ".fantastic")
      children := .empty
      metadata := .empty
      ephemeral := false }

theorem soleRoot_oneRoot : OneRoot soleRoot :=
  ⟨fresh, "root", none, .null, .empty, rfl, rfl, by simp,
    by simp [OrderedDict.empty, OrderedDict.keys], rfl⟩

def notesPayload : Dict :=
  (OrderedDict.empty.insert "handler_module" (Value.str "notes.tools")).insert "id" (.str "notes")

def rootRequest (verb : SystemVerb) (payload : Dict) : Request where
  target := .str "kernel"
  verb := verb
  payload := payload
  token := "0a1b2c"

/-- `create_agent` keeps a `parent_id` of its payload in the meta, the record shows it
instead of the real parent, and the snapshot no longer validates. -/
theorem ghost_parent_breaks_round_trip :
    OneRoot soleRoot ∧
      (soleRoot.run permissive [rootRequest .createAgent
        (notesPayload.insert "parent_id" (.str "ghost"))]).AllImportable permissive ∧
      ¬ (soleRoot.run permissive [rootRequest .createAgent
        (notesPayload.insert "parent_id" (.str "ghost"))]).RoundTrips permissive := by
  refine ⟨soleRoot_oneRoot, fun _ _ _ => rfl, ?_⟩
  rintro ⟨snapshot, saved, ⟨rootId, validated⟩, _⟩
  have invalid : ((soleRoot.run permissive [rootRequest .createAgent
      (notesPayload.insert "parent_id" (.str "ghost"))]).save >>= fun snapshot =>
        validateRecords permissive snapshot.records snapshot.version) =
          .error (.snapshotError "agent  parent  not in snapshot") := by
    decide
  rw [saved] at invalid
  exact absurd (validated.symm.trans invalid) (by simp)

/-- An agent is created, patched, deleted and created again, all faithfully. -/
def notesRequests : List Request :=
  [rootRequest .createAgent notesPayload,
    rootRequest .updateAgent
      ((OrderedDict.empty.insert "id" (Value.str "notes")).insert "title" (.str "todo")),
    rootRequest .deleteAgent (OrderedDict.empty.insert "id" (Value.str "notes")),
    rootRequest .createAgent notesPayload]

theorem notes_run_faithful : FaithfulRun permissive soleRoot notesRequests := by
  have plain : ∀ kernel, Faithful kernel (rootRequest .createAgent notesPayload) := by
    intro kernel _ _ _
    exact ⟨by decide, .inr (.inl ⟨"notes", by decide, by decide⟩)⟩
  refine ⟨plain _, ?_, ?_, plain _, trivial⟩
  · intro _ _
    decide
  · intro root isRoot sameKey
    have top : root = 0 := (Option.some.inj (isRoot.symm.trans (by decide)))
    subst top
    exact absurd sameKey (by decide)

theorem notes_run_round_trips :
    OneRoot soleRoot ∧ FaithfulRun permissive soleRoot notesRequests ∧
      (soleRoot.run permissive notesRequests).RoundTrips permissive :=
  ⟨soleRoot_oneRoot, notes_run_faithful,
    faithful_run_round_trips soleRoot_oneRoot notesRequests notes_run_faithful fun _ _ _ => rfl⟩

end Fantastic.Python.Kernel

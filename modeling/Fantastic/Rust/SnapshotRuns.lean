import Fantastic.Rust.KernelRuns
import Fantastic.Rust.SnapshotText

/-!
# The round trip through a snapshot text, over whole runs

A kernel whose tables are one tree and whose metas are clean saves to a text that loads
into the same tree. `create_agent` keeps the record's own fields out of the meta;
`update_agent` does not, so a run keeps its metas clean as long as no update that reaches
an agent carries such a key.
-/

namespace Fantastic.Rust.Kernel

open ParentForest

variable {serde : SerdeJson} {host : Host} {kernel : Kernel} {request : Request}

/-- The text of the kernel is accepted wherever every bundle is linked in, and the loaded
kernel has the same agents: their ids, modules, parents and metas. -/
def RoundTrips (serde : SerdeJson) (kernel : Kernel) : Prop :=
  ∀ (host : Host) (workdir : Option PurePath) (other : Kernel),
    (∀ name, host.installed name = true) →
    (other.loadJson serde host workdir (kernel.saveJson serde)).2 = none ∧
      ∀ id, ((other.loadJson serde host workdir (kernel.saveJson serde)).1.agents.get? id).map
          (fun ref => ((other.loadJson serde host workdir
            (kernel.saveJson serde)).1.heap ref).record) =
        (kernel.agents.get? id).map fun ref => (kernel.heap ref).record

/-- Every registered agent is saved, with a meta that reads back. -/
structure Clean (serde : SerdeJson) (kernel : Kernel) : Prop where
  agent : ∀ {key ref}, kernel.agents.get? key = some ref →
    (kernel.heap ref).ephemeral = false ∧ CleanMeta serde (kernel.heap ref).metadata

/-! ### A kernel at rest -/

section Rest

theorem Clean.mem_save (clean : kernel.Clean serde) {record : AgentRecord} :
    record ∈ kernel.save.agents ↔
      ∃ key ref, kernel.agents.get? key = some ref ∧ (kernel.heap ref).record = record := by
  simp only [save, List.mem_mergeSort, List.mem_map, List.mem_filter, OrderedDict.items]
  constructor
  · rintro ⟨ref, ⟨⟨entry, member, rfl⟩, _⟩, rfl⟩
    exact ⟨entry.1, entry.2, OrderedDict.mem_entries_iff.mp member, rfl⟩
  · rintro ⟨key, ref, found, rfl⟩
    refine ⟨ref, ⟨⟨(key, ref), OrderedDict.mem_entries_iff.mpr found, rfl⟩, ?_⟩, rfl⟩
    rw [(clean.agent found).1]
    rfl

/-- The ids of the saved records are keys of the registry. -/
theorem Tree.save_distinct (tree : kernel.Tree) :
    (kernel.save.agents.map AgentRecord.id).Nodup := by
  have perm := (List.mergeSort_perm
    ((kernel.agents.items.filter fun ref => !(kernel.heap ref).ephemeral).map
      fun ref => (kernel.heap ref).record) fun left right => decide (left.id ≤ right.id)).map
        AgentRecord.id
  rw [save, perm.nodup_iff, List.map_map]
  have ids : kernel.agents.items.map (fun ref => (kernel.heap ref).id) = kernel.agents.keys := by
    rw [OrderedDict.items, OrderedDict.keys, List.map_map]
    apply List.map_congr_left
    intro entry member
    exact (tree.registered (OrderedDict.mem_entries_iff.mp member)).1
  apply List.Nodup.sublist (List.filter_sublist.map _)
  change (kernel.agents.items.map fun ref => (kernel.heap ref).id).Nodup
  rw [ids]
  exact kernel.agents.keys_nodup

variable (tree : kernel.Tree) (clean : kernel.Clean serde)

include tree clean

theorem save_valid : Valid kernel.save where
  known := UInt32.le_refl _
  distinct := tree.save_distinct
  rooted := by
    obtain ⟨root, isRoot, found, bare⟩ := tree.rooted
    refine ⟨(kernel.heap root).record, clean.mem_save.mpr ⟨_, root, found, rfl⟩, bare, ?_⟩
    intro other listed otherBare
    obtain ⟨key, ref, otherFound, rfl⟩ := clean.mem_save.mp listed
    by_cases top : kernel.root = some ref
    · rw [isRoot] at top
      rw [Option.some.inj top]
    · obtain ⟨parentId, _, named, _⟩ := tree.hung otherFound top
      have bareRef : (kernel.heap ref).parentId = none := otherBare
      rw [named] at bareRef
      cases bareRef
  closed := by
    intro record listed parentId named
    obtain ⟨key, ref, found, rfl⟩ := clean.mem_save.mp listed
    have namedRef : (kernel.heap ref).parentId = some parentId := named
    have inner : kernel.root ≠ some ref := by
      intro top
      obtain ⟨root, isRoot, _, bare⟩ := tree.rooted
      rw [isRoot] at top
      rw [← Option.some.inj top, bare] at namedRef
      cases namedRef
    obtain ⟨upper, above, aboveNamed, aboveFound, _⟩ := tree.hung found inner
    rw [namedRef] at aboveNamed
    rw [← Option.some.inj aboveNamed] at aboveFound
    exact ⟨_, clean.mem_save.mpr ⟨_, above, aboveFound, rfl⟩, (tree.registered aboveFound).1⟩

/-- Every saved record hangs below the saved root. -/
theorem save_kept (linked : ∀ name, host.installed name = true) {record : AgentRecord}
    (listed : record ∈ kernel.save.agents) : Kept host kernel.save.agents record := by
  have installed : ∀ other : AgentRecord, Loading.installed host other = true := by
    intro other
    unfold Loading.installed
    split
    · rfl
    · exact linked _
  obtain ⟨key, ref, found, rfl⟩ := clean.mem_save.mp listed
  -- references fall from child to parent
  induction ref using Nat.strongRecOn generalizing key with
  | ind ref ih =>
    by_cases top : kernel.root = some ref
    · obtain ⟨root, isRoot, _, bare⟩ := tree.rooted
      rw [isRoot] at top
      rw [Option.some.inj top] at bare
      exact .top listed bare (installed _)
    · obtain ⟨parentId, above, named, aboveFound, _, lower⟩ := tree.hung found top
      have upper := clean.mem_save.mpr ⟨parentId, above, aboveFound, rfl⟩
      have sameId : (kernel.heap above).record.id = parentId := (tree.registered aboveFound).1
      refine .under ⟨listed, upper, ?_⟩ (ih above lower parentId aboveFound upper) (installed _)
      exact named.trans (congrArg some sameId.symm)

theorem roundTrips_of_clean : kernel.RoundTrips serde := by
  intro host workdir other linked
  have texts : serde.fromStr (kernel.saveJson serde) = some kernel.save := by
    apply fromStr_write
    intro record listed
    obtain ⟨key, ref, found, rfl⟩ := clean.mem_save.mp listed
    exact (clean.agent found).2
  have valid := save_valid tree clean
  have kept := fun {record} listed => @save_kept serde host kernel tree clean linked record listed
  simp only [loadJson, texts]
  obtain ⟨loaded, accepted⟩ := @load_valid host workdir other kernel.save valid
  refine ⟨accepted.mpr fun record listed => kept_attached (kept listed), ?_⟩
  intro id
  cases found : kernel.agents.get? id with
  | some ref =>
    have listed := clean.mem_save.mpr ⟨id, ref, found, rfl⟩
    obtain ⟨made, madeFound, same⟩ := loaded.complete (kept listed)
    have sameId : (kernel.heap ref).record.id = id := (tree.registered found).1
    rw [sameId] at madeFound
    rw [madeFound, Option.map_some, Option.map_some, same]
  | none =>
    cases made : (load host workdir other kernel.save).1.agents.get? id with
    | none => rfl
    | some ref =>
      obtain ⟨keptRecord, sameId, _⟩ := loaded.registered made
      obtain ⟨key, old, oldFound, same⟩ := clean.mem_save.mp keptRecord.listed
      have oldId : (kernel.heap old).id = id :=
        (congrArg AgentRecord.id same).trans sameId
      rw [(tree.registered oldFound).1] at oldId
      rw [oldId, found] at oldFound
      cases oldFound

end Rest

/-! ### One message -/

/-- The message puts nothing into a meta that a snapshot would not give back: its values
read back, and an update that reaches an agent names neither its module nor its parent. -/
structure KeepsText (serde : SerdeJson) (kernel : Kernel) (request : Request) : Prop where
  values : textOf request.payload "type" = some "create_agent" ∨
    textOf request.payload "type" = some "update_agent" →
      ∀ key value, request.payload.get? key = some value → Readable serde value
  fields : textOf request.payload "type" = some "update_agent" →
    ∀ id ref, textOf request.payload "id" = some id → kernel.agents.get? id = some ref →
      "handler_module" ∉ request.payload.keys ∧ "parent_id" ∉ request.payload.keys

/-- `create_from_payload` keeps the fields of the record out of its meta. -/
theorem newRecord_clean {payload : Dict} (parentId handlerModule token : String)
    (values : ∀ key value, payload.get? key = some value → Readable serde value) :
    CleanMeta serde (newRecord payload parentId handlerModule token).metadata := by
  intro key value found
  rw [newRecord, OrderedDict.get?_filterKeys] at found
  split at found
  case isTrue kept =>
    refine ⟨?_, values key value found⟩
    simp only [decide_eq_true_eq, List.mem_cons, List.not_mem_nil, or_false, not_or] at kept ⊢
    exact ⟨kept.2.1, kept.2.2.1, kept.2.2.2⟩
  case isFalse => cases found

theorem updateMeta_clean {payload metadata : Dict} (clean : CleanMeta serde metadata)
    (values : ∀ key value, payload.get? key = some value → Readable serde value)
    (fields : "handler_module" ∉ payload.keys ∧ "parent_id" ∉ payload.keys) :
    CleanMeta serde
      (metadata.update (payload.filterKeys fun key => key ∉ ["type", "id"])) := by
  intro key value found
  rw [OrderedDict.get?_update, OrderedDict.get?_filterKeys] at found
  split at found
  case isTrue kept =>
    cases patched : payload.get? key with
    | none =>
      rw [patched, Option.none_or] at found
      exact clean key value found
    | some new =>
      rw [patched, Option.some_or] at found
      have present : key ∈ payload.keys := OrderedDict.mem_keys_iff.mpr ⟨new, patched⟩
      refine ⟨?_, ?_⟩
      · simp only [decide_eq_true_eq, List.mem_cons, List.not_mem_nil, or_false, not_or] at kept ⊢
        refine ⟨kept.2, ?_, ?_⟩
        · rintro rfl
          exact fields.1 present
        · rintro rfl
          exact fields.2 present
      · rw [← Option.some.inj found]
        exact values key new patched
  case isFalse =>
    rw [Option.none_or] at found
    exact clean key value found

theorem Clean.effect (clean : kernel.Clean serde) (tree : kernel.Tree)
    (spares : kernel.SparesRoot request) (keeps : KeepsText serde kernel request) {next : Kernel}
    (effect : kernel.Effect request next) : next.Clean serde := by
  cases effect with
  | nothing => exact clean
  | created parent handlerModule path target verb fresh =>
    have bound := (tree.registered (tree.resolved target)).2
    constructor
    intro key ref found
    rw [adopt_agents, OrderedDict.get?_insert] at found
    split at found
    case isTrue =>
      cases found
      rw [adopt_heap_new bound]
      exact ⟨rfl, newRecord_clean (kernel.heap parent).id handlerModule request.token
        (keeps.values (.inl verb))⟩
    case isFalse =>
      have old := (tree.registered found).2
      rw [(adopt_fields bound old).ephemeral, (adopt_fields bound old).metadata]
      exact clean.agent found
  | updated id target found verb named =>
    constructor
    intro key ref entry
    have old := clean.agent (show kernel.agents.get? key = some ref from entry)
    simp only [modify, Function.update_apply]
    split
    case isTrue same =>
      subst same
      exact ⟨old.1, updateMeta_clean old.2 (keeps.values (.inr verb))
        (keeps.fields verb id ref named found)⟩
    case isFalse => exact old
  | deleted id target found verb named free =>
    have inner : kernel.root ≠ some target := by
      intro top
      apply spares target top verb _ free
      rw [(tree.registered found).1]
      exact named
    have trimmed := cascadeDelete_trims kernel.allocated tree found inner (Nat.le_add_left _ _)
    constructor
    intro key ref entry
    rw [(trimmed.fields ref).ephemeral, (trimmed.fields ref).metadata]
    exact clean.agent (trimmed.shrinks key ref entry)

theorem Clean.vivify (clean : kernel.Clean serde) (id : String) : (kernel.vivify id).Clean serde := by
  constructor
  intro key ref found
  rw [vivify_agents] at found
  rw [vivify_heap]
  exact clean.agent found

theorem Clean.step (clean : kernel.Clean serde) (tree : kernel.Tree)
    (spares : kernel.SparesRoot request) (keeps : KeepsText serde kernel request) :
    (step host kernel request).Clean serde := by
  obtain ⟨next, effect, same⟩ := step_effect host kernel request
  have nextClean := clean.effect tree spares keeps effect
  cases same with
  | inl same =>
    rw [same]
    exact nextClean
  | inr made =>
    obtain ⟨id, same⟩ := made
    rw [same]
    exact nextClean.vivify id

/-! ### Whole runs -/

/-- Every message spares the root and keeps the text. -/
def TextRun (serde : SerdeJson) (host : Host) : Kernel → List Request → Prop
  | _, [] => True
  | kernel, request :: requests =>
    kernel.SparesRoot request ∧ KeepsText serde kernel request ∧
      TextRun serde host (step host kernel request) requests

theorem TextRun.roundTrips {requests : List Request} (tree : kernel.Tree)
    (clean : kernel.Clean serde) (careful : TextRun serde host kernel requests) :
    (run host kernel requests).RoundTrips serde := by
  induction requests generalizing kernel with
  | nil => exact roundTrips_of_clean tree clean
  | cons request requests ih =>
    obtain ⟨spares, keeps, rest⟩ := careful
    exact ih (tree.step spares) (clean.step tree spares keeps) rest

/-- From a boot with clean metas, a run whose messages spare the root and keep the text
ends in a kernel that round-trips. -/
theorem text_runs_round_trip (serde : SerdeJson) (host : Host) (boot : Boot) (kernel : Kernel)
    (requests : List Request) (consistent : boot.Consistent host)
    (booted : boot.start host = .ok kernel) (clean : kernel.Clean serde)
    (careful : TextRun serde host kernel requests) :
    (run host kernel requests).RoundTrips serde :=
  careful.roundTrips (consistent.tree booted) clean

/-! ### A retitled agent, and one whose module is patched -/

/-- `serde_json` on texts without floats. -/
def floatless : SerdeJson where
  float := fun _ => []
  floats := fun _ => none
  complaint := fun _ => "duplicate field"

def createNotes : Request :=
  toCore (((verbPayload "create_agent" "notes").insert "handler_module" (.str "noop.tools")).insert
    "title" (.str "first"))

def patchNotes (key : String) : Request :=
  toCore ((verbPayload "update_agent" "notes").insert key (.str "second"))

theorem readable_text (text : String) : Readable floatless (.str text) :=
  ⟨trivial, trivial, Nat.zero_le _⟩

theorem request_readable {payload : Dict} (texts : ∀ entry ∈ payload.entries, ∃ text,
    entry.2 = .str text) (key : String) (value : Value) (found : payload.get? key = some value) :
    Readable floatless value := by
  obtain ⟨text, same⟩ := texts _ (OrderedDict.mem_entries_iff.mpr found)
  rw [show value = .str text from same]
  exact readable_text text

theorem createNotes_texts : ∀ entry ∈ createNotes.payload.entries, ∃ text, entry.2 = .str text := by
  have entries : createNotes.payload.entries = [("type", .str "create_agent"), ("id", .str "notes"),
      ("handler_module", .str "noop.tools"), ("title", .str "first")] :=
    rfl
  rw [entries]
  simp

theorem patchTitle_texts :
    ∀ entry ∈ (patchNotes "title").payload.entries, ∃ text, entry.2 = .str text := by
  have entries : (patchNotes "title").payload.entries = [("type", .str "update_agent"),
      ("id", .str "notes"), ("title", .str "second")] :=
    rfl
  rw [entries]
  simp

theorem retitling_is_text :
    TextRun floatless everyBundle (bootInMemory "core") [createNotes, patchNotes "title"] := by
  refine ⟨?_, ⟨?_, ?_⟩, ?_, ⟨?_, ?_⟩, trivial⟩
  · intro root _ verb
    exact absurd verb (by decide)
  · intro _
    exact request_readable createNotes_texts
  · intro verb
    exact absurd verb (by decide)
  · intro root _ verb
    exact absurd verb (by decide)
  · intro _
    exact request_readable patchTitle_texts
  · intro _ _ _ _ _
    decide

theorem bootInMemory_clean (serde : SerdeJson) (rootId : String) :
    (bootInMemory rootId).Clean serde := by
  constructor
  intro key ref found
  have registry : (bootInMemory rootId).agents.get? key =
      if key = rootId then some 0 else none := by
    change (OrderedDict.empty.insert rootId 0).get? key = _
    rw [OrderedDict.get?_insert, OrderedDict.get?_empty]
  rw [registry] at found
  split at found
  case isTrue =>
    rw [← Option.some.inj found]
    refine ⟨rfl, ?_⟩
    intro name value present
    cases present
  case isFalse => cases found

theorem retitled_agent_round_trips :
    (run everyBundle (bootInMemory "core") [createNotes, patchNotes "title"]).RoundTrips
      floatless :=
  text_runs_round_trip floatless everyBundle (.memory "core") (bootInMemory "core")
    [createNotes, patchNotes "title"] trivial rfl (bootInMemory_clean floatless "core") retitling_is_text

/-- The kernel after `update_agent` has put `handler_module` into the meta of `notes`. -/
def patchedModule : Kernel :=
  run everyBundle (bootInMemory "core") [createNotes, patchNotes "handler_module"]

theorem patchedModule_metas : ∀ record ∈ patchedModule.save.agents,
    ∀ entry ∈ record.metadata.entries, ∃ text, entry.2 = .str text := by
  have items : patchedModule.agents.items = [0, 1] := rfl
  have root : (patchedModule.heap 0).metadata.entries = [] := rfl
  have notes : (patchedModule.heap 1).metadata.entries =
      [("title", .str "first"), ("handler_module", .str "second")] := rfl
  intro record listed
  simp only [save, List.mem_mergeSort, List.mem_map, List.mem_filter, items, List.mem_cons,
    List.not_mem_nil, or_false] at listed
  obtain ⟨ref, ⟨which, _⟩, rfl⟩ := listed
  intro entry member
  change entry ∈ (patchedModule.heap ref).metadata.entries at member
  rcases which with rfl | rfl
  · rw [root] at member
    cases member
  · rw [notes] at member
    simp only [List.mem_cons, List.not_mem_nil, or_false] at member
    rcases member with rfl | rfl
    · exact ⟨_, rfl⟩
    · exact ⟨_, rfl⟩

/-- The key is written twice, and `load_json` refuses the text. -/
theorem patched_module_breaks_the_text : ¬ patchedModule.RoundTrips floatless := by
  intro trips
  have accepted := (trips everyBundle none .fresh fun _ => rfl).1
  have listed : (patchedModule.heap 1).record ∈ patchedModule.save.agents := by
    have items : patchedModule.agents.items = [0, 1] := rfl
    have stays : (patchedModule.heap 1).ephemeral = false := rfl
    simp only [save, List.mem_mergeSort, List.mem_map, List.mem_filter, items]
    exact ⟨1, ⟨by simp, by rw [stays]; rfl⟩, rfl⟩
  have writable : JsonGrammar.Writable floatless.style floatless.floats
      patchedModule.save.toRaw := by
    apply toRaw_writable
    intro record member entry inMeta
    obtain ⟨text, same⟩ := patchedModule_metas record member entry inMeta
    rw [same]
    trivial
  have unread : floatless.fromStr (patchedModule.saveJson floatless) = none :=
    fromStr_twice writable listed rfl
  rw [loadJson, unread] at accepted
  cases accepted

end Fantastic.Rust.Kernel

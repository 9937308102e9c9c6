import Fantastic.Ts.ProxyRuns
import Fantastic.Ts.SnapshotLoad

/-!
# A view tree and its copy on the host

A view builds a tree, its loader takes the tree to the host with `start` and one `flush`,
and a fresh loader brings it back with `loadTree`. The host keeps each record under its id
and its parent, below an anchor record that bears the address of the host's loader.

The root's missing parent becomes the host's id, or its address, on the way out and nothing
again on the way in, and the anchor is dropped. A meta has no member `__proto__`.
-/

namespace Fantastic.Ts

/-! ### The tree -/

/-- `setRoot(new Agent(init))`. -/
def Kernel.setRoot (kernel : Kernel) (init : AgentInit) : Kernel :=
  let registered := if kernel.agents.contains init.id then kernel else (kernel.register init).1
  { registered with rootId := some init.id }

def Kernel.fresh : Kernel where
  agents := .empty
  rootId := none

/-- The handler module of the agent is registered. -/
def AgentInit.Runs (bundles : List String) (init : AgentInit) : Prop :=
  ∀ handlerModule, init.handlerModule = some handlerModule → handlerModule ∈ bundles

/-- A root, then agents with fresh ids under registered parents, and any patches. -/
inductive Built (bundles : List String) : Kernel → Prop where
  | root (init : AgentInit) (top : init.parentId = none) (runs : init.Runs bundles) :
      Built bundles (Kernel.fresh.setRoot init)
  | register {kernel : Kernel} (built : Built bundles kernel) (init : AgentInit)
      (parentId : String) (under : init.parentId = some parentId)
      (registered : kernel.held parentId ≠ none) (fresh : kernel.held init.id = none)
      (runs : init.Runs bundles) : Built bundles (kernel.register init).1
  | updateMeta {kernel : Kernel} (built : Built bundles kernel) (id : String) (patch : Dict) :
      Built bundles (kernel.updateMeta id patch).1

/-! ### There and back -/

namespace ProxyLoader

/-- `r.id === this.hostLoaderId || r["alias"] === this.hostLoaderId`. -/
def isAnchor (loader : ProxyLoader) (record : Dict) : Bool :=
  decide (record.get? "id" = some (.str loader.hostLoaderId) ∨
    record.get? "alias" = some (.str loader.hostLoaderId))

/-- A record whose parent is the anchor, under either name, becomes a root. -/
def rerooted (loader : ProxyLoader) (anchorId : Option Value) (record : Dict) : Dict :=
  if some (parentValue record) = anchorId ∨ parentValue record = .str loader.hostLoaderId then
    record.insert "parent_id" .null
  else record

/-- `loadTree`, with the records of the host's reply: what the loader learns, and what it
returns. -/
def loadTree (loader : ProxyLoader) (records : List Dict) : ProxyLoader × List Dict :=
  let anchorId := (records.find? loader.isAnchor).bind fun anchor => anchor.get? "id"
  let learned :=
    match anchorId with
    | some (.str id) => { loader with hostRootId := id }
    | _ => loader
  (learned, (records.filter fun record => decide (record.get? "id" ≠ anchorId)).map
    (loader.rerooted anchorId))

end ProxyLoader

/-- `start`, and one `flush` to its end. -/
def flushed (rule : HostRule) (kernel : Kernel) (hostLoaderId hostRootId : String) : World :=
  (World.started kernel hostLoaderId hostRootId .empty).run rule
    (.flush :: List.replicate kernel.agents.keys.length (.advance 0))

/-- The host's own record: it has the id, and the address as its id or its alias. -/
structure Anchor (anchor : Dict) (anchorId hostLoaderId : String) : Prop where
  id : anchor.get? "id" = some (.str anchorId)
  addressed : anchorId = hostLoaderId ∨ anchor.get? "alias" = some (.str hostLoaderId)

def SameTree (left right : Kernel) : Prop :=
  left.rootId = right.rootId ∧ ∀ id, left.held id = right.held id

/-- In whatever order the host lists the records below the anchor, a fresh loader returns
records that `load` accepts, and they make the same tree. -/
def RoundTrips (bundles : List String) (rule : HostRule) (kernel : Kernel)
    (hostLoaderId hostRootId : String) (anchor : Dict) : Prop :=
  ∀ stored : List Dict, stored.Perm (flushed rule kernel hostLoaderId hostRootId).host.items →
    ∃ loaded, Kernel.load bundles
        ((ProxyLoader.create hostLoaderId hostLoaderId).loadTree (anchor :: stored)).2
        currentVersion = .ok loaded ∧ SameTree loaded kernel

/-- No meta holds one of the three keys that `load` takes for a field, no id is empty or the
anchor's, and the address of the host's loader is not taken by a local agent. -/
structure Portable (kernel : Kernel) (hostLoaderId anchorId : String) : Prop where
  forwards : kernel.forwards hostLoaderId = true
  ids : ∀ {id agent}, kernel.held id = some agent → id ≠ "" ∧ id ≠ anchorId
  metas : ∀ {id agent}, kernel.held id = some agent →
    ∀ key ∈ ["id", "handler_module", "parent_id"], key ∉ agent.metadata.keys

/-! ### What is built -/

structure ViewTree (bundles : List String) (kernel : Kernel) : Prop where
  filed : ∀ {id agent}, kernel.held id = some agent → agent.id = id
  runs : ∀ {id agent}, kernel.held id = some agent → agent.Runs bundles
  rooted : ∃ rootId root, kernel.rootId = some rootId ∧ kernel.held rootId = some root ∧
    root.parentId = none ∧
    ∀ id agent, kernel.held id = some agent → agent.parentId = none → id = rootId
  ranked : ∃ rank : String → Nat, ∀ id agent parentId, kernel.held id = some agent →
    agent.parentId = some parentId → kernel.held parentId ≠ none ∧ rank parentId < rank id

theorem Built.viewTree {bundles : List String} {kernel : Kernel} (built : Built bundles kernel) :
    ViewTree bundles kernel := by
  induction built with
  | root init top runs =>
    have held (id : String) : (Kernel.fresh.setRoot init).held id =
        if id = init.id then some init else none := Kernel.held_register Kernel.fresh init id
    constructor
    · intro id agent found
      rw [held] at found
      split at found
      case isTrue same =>
        cases found
        exact same.symm
      case isFalse => cases found
    · intro id agent found
      rw [held] at found
      split at found
      · cases found
        exact runs
      · cases found
    · refine ⟨init.id, init, rfl, (held init.id).trans (if_pos rfl), top, ?_⟩
      intro id agent found _
      rw [held] at found
      split at found
      case isTrue same => exact same
      case isFalse => cases found
    · refine ⟨fun _ => 0, ?_⟩
      intro id agent parentId found under
      rw [held] at found
      split at found
      · cases found
        rw [top] at under
        cases under
      · cases found
  | @register kernel built init parentId under registered fresh runs ih =>
    have held := Kernel.held_register kernel init
    have apart {id : String} {agent : AgentInit} (found : kernel.held id = some agent) :
        id ≠ init.id := by
      intro same
      rw [same, fresh] at found
      cases found
    constructor
    · intro id agent found
      rw [held] at found
      split at found
      case isTrue same =>
        cases found
        exact same.symm
      case isFalse => exact ih.filed found
    · intro id agent found
      rw [held] at found
      split at found
      · cases found
        exact runs
      · exact ih.runs found
    · obtain ⟨rootId, root, named, found, top, only⟩ := ih.rooted
      refine ⟨rootId, root, (Kernel.register_rootId kernel init).trans named, ?_, top, ?_⟩
      · rw [held, if_neg (apart found), found]
      · intro id agent present bare
        rw [held] at present
        split at present
        · cases present
          rw [under] at bare
          cases bare
        · exact only id agent present bare
    · obtain ⟨rank, falls⟩ := ih.ranked
      have parentApart : parentId ≠ init.id := by
        intro same
        rw [same] at registered
        exact registered fresh
      refine ⟨Function.update rank init.id (rank parentId + 1), ?_⟩
      intro id agent above found named
      rw [held] at found
      split at found
      case isTrue same =>
        cases found
        rw [under] at named
        cases named
        rw [held, if_neg parentApart, same, Function.update_self,
          Function.update_of_ne parentApart]
        exact ⟨registered, Nat.lt_succ_self _⟩
      case isFalse different =>
        obtain ⟨present, lower⟩ := falls id agent above found named
        have aboveApart : above ≠ init.id := by
          intro same
          rw [same] at present
          exact present fresh
        rw [held, if_neg aboveApart, Function.update_of_ne aboveApart,
          Function.update_of_ne different]
        exact ⟨present, lower⟩
  | @updateMeta kernel built name patch ih =>
    have held (id : String) (agent : AgentInit)
        (found : (kernel.updateMeta name patch).1.held id = some agent) :
        ∃ before, kernel.held id = some before ∧ agent.id = before.id ∧
          agent.handlerModule = before.handlerModule ∧ agent.parentId = before.parentId := by
      rw [Kernel.held_updateMeta] at found
      split at found
      case isTrue same =>
        obtain ⟨before, there, rfl⟩ := Option.map_eq_some_iff.mp found
        exact ⟨before, same ▸ there, rfl, rfl, rfl⟩
      case isFalse => exact ⟨agent, found, rfl, rfl, rfl⟩
    have stays (id : String) (present : kernel.held id ≠ none) :
        (kernel.updateMeta name patch).1.held id ≠ none := by
      rw [Kernel.held_updateMeta]
      split
      case isTrue same =>
        rw [ne_eq, Option.map_eq_none_iff, ← same]
        exact present
      case isFalse => exact present
    have sameRoot : (kernel.updateMeta name patch).1.rootId = kernel.rootId := by
      unfold Kernel.updateMeta
      split <;> rfl
    constructor
    · intro id agent found
      obtain ⟨before, there, sameId, _⟩ := held id agent found
      rw [sameId, ih.filed there]
    · intro id agent found
      obtain ⟨before, there, _, sameModule, _⟩ := held id agent found
      intro handlerModule named
      rw [sameModule] at named
      exact ih.runs there handlerModule named
    · obtain ⟨rootId, root, named, found, top, only⟩ := ih.rooted
      obtain ⟨later, present⟩ := Option.ne_none_iff_exists'.mp
        (stays rootId (by simp [found]))
      obtain ⟨before, there, _, _, sameParent⟩ := held rootId later present
      rw [found] at there
      cases there
      refine ⟨rootId, later, sameRoot.trans named, present, sameParent.trans top, ?_⟩
      intro id agent there bare
      obtain ⟨before, old, _, _, sameAbove⟩ := held id agent there
      exact only id before old (sameAbove ▸ bare)
    · obtain ⟨rank, falls⟩ := ih.ranked
      refine ⟨rank, ?_⟩
      intro id agent parentId found under
      obtain ⟨before, there, _, _, sameParent⟩ := held id agent found
      obtain ⟨present, lower⟩ := falls id before parentId there (sameParent ▸ under)
      exact ⟨stays parentId present, lower⟩

/-! ### What the host is sent -/

/-- The registered agents, in order. -/
def Kernel.inits (kernel : Kernel) : List AgentInit :=
  kernel.agents.items.map Agent.toAgentInit

theorem ViewTree.mem_inits_iff {bundles : List String} {kernel : Kernel}
    (tree : ViewTree bundles kernel) {init : AgentInit} :
    init ∈ kernel.inits ↔ kernel.held init.id = some init := by
  unfold Kernel.inits Kernel.held
  simp only [OrderedDict.items, List.map_map, List.mem_map, Prod.exists, Function.comp_apply,
    OrderedDict.mem_entries_iff, Option.map_eq_some_iff]
  constructor
  · intro listed
    obtain ⟨key, agent, found, same⟩ := listed
    have filed := tree.filed (show kernel.held key = some init by
      rw [Kernel.held, found, Option.map_some, same])
    exact ⟨agent, filed ▸ found, same⟩
  · intro listed
    obtain ⟨agent, found, same⟩ := listed
    exact ⟨init.id, agent, found, same⟩

theorem ViewTree.inits_ids {bundles : List String} {kernel : Kernel}
    (tree : ViewTree bundles kernel) : kernel.inits.map AgentInit.id = kernel.agents.keys := by
  simp only [Kernel.inits, OrderedDict.items, OrderedDict.keys, List.map_map]
  apply List.map_congr_left
  intro entry member
  have found : kernel.held entry.1 = some entry.2.toAgentInit := by
    rw [Kernel.held, OrderedDict.mem_entries_iff.mp member, Option.map_some]
  exact tree.filed found

/-- The loop of `start` marks the agents dirty in order and changes nothing a flush reads. -/
theorem enqueue_fields (agents : List Agent) : ∀ (loader : ProxyLoader),
    (agents.map fun agent => agent.id).Nodup →
    (∀ agent ∈ agents, agent.id ∉ loader.dirtyPersist.keys) →
    let queued := agents.foldl (fun loader agent => loader.enqueue agent.toAgentInit) loader
    queued.dirtyPersist.keys = loader.dirtyPersist.keys ++ agents.map (fun agent => agent.id) ∧
      queued.dirtyForget = loader.dirtyForget ∧ queued.hostRootId = loader.hostRootId ∧
      queued.hostLoaderId = loader.hostLoaderId := by
  induction agents with
  | nil =>
    intro loader _ _
    exact ⟨(List.append_nil _).symm, rfl, rfl, rfl⟩
  | cons agent agents ih =>
    intro loader nodup fresh
    rw [List.map_cons, List.nodup_cons] at nodup
    have head : (loader.enqueue agent.toAgentInit).dirtyPersist.keys =
        loader.dirtyPersist.keys ++ [agent.id] := by
      have absent := fresh agent List.mem_cons_self
      simp only [ProxyLoader.enqueue, OrderedDict.keys,
        OrderedDict.insert_entries_of_fresh absent, List.map_append, List.map_cons, List.map_nil]
    obtain ⟨persist, forget, hostRoot, hostLoader⟩ :=
      ih (loader.enqueue agent.toAgentInit) nodup.2 (by
        intro other member again
        rw [head, List.mem_append, List.mem_singleton] at again
        cases again with
        | inl before => exact fresh other (List.mem_cons_of_mem _ member) before
        | inr same => exact nodup.1 (same ▸ List.mem_map_of_mem member))
    simp only [List.foldl_cons]
    refine ⟨?_, forget, hostRoot, hostLoader⟩
    rw [persist, head, List.append_assoc, List.map_cons]
    rfl

/-- What one turn of a flush does to the host. -/
def sendOne (rule : HostRule) (kernel : Kernel) (loader : ProxyLoader) (host : HostStore)
    (id : String) : HostStore :=
  match kernel.held id with
  | none => host
  | some agent =>
    if kernel.forwards loader.hostLoaderId then
      host.persistRecord rule (loader.sentRecord agent)
    else host

/-- A turn reads the loader's two names for the host and nothing else. -/
theorem sendOne_congr {rule : HostRule} {kernel : Kernel} {loader other : ProxyLoader}
    (address : other.hostLoaderId = loader.hostLoaderId)
    (root : other.hostRootId = loader.hostRootId) :
    sendOne rule kernel other = sendOne rule kernel loader := by
  funext host id
  simp only [sendOne, ProxyLoader.sentRecord, ProxyLoader.rewrittenParent, address, root]

/-- A flush on its own sends its ids one after the other. -/
theorem advance_all (rule : HostRule) (ids : List String) : ∀ (world : World),
    world.flights = [⟨ids, []⟩] →
    (world.run rule (List.replicate ids.length (.advance 0))).host =
      ids.foldl (sendOne rule world.kernel world.loader) world.host := by
  induction ids with
  | nil =>
    intro world _
    rfl
  | cons id ids ih =>
    intro world alone
    have stepped : world.step rule (.advance 0) =
        { world with
          flights := [⟨ids, []⟩]
          host := sendOne rule world.kernel world.loader world.host id } := by
      simp only [World.step, alone, List.getElem?_cons_zero, World.advanceFlight, List.set_cons_zero]
      rfl
    simp only [List.length_cons, List.replicate_succ, World.run, List.foldl_cons]
    rw [stepped]
    exact ih _ rfl

section Flush

variable {bundles : List String} {kernel : Kernel} (tree : ViewTree bundles kernel)
  (rule : HostRule) (hostLoaderId hostRootId : String)

include tree

theorem flushed_host :
    (flushed rule kernel hostLoaderId hostRootId).host =
      kernel.agents.keys.foldl (sendOne rule kernel (.create hostLoaderId hostRootId)) .empty := by
  have ids : kernel.agents.items.map (fun agent => agent.id) = kernel.agents.keys := by
    rw [← tree.inits_ids, Kernel.inits, List.map_map]
    rfl
  have nodup : (kernel.agents.items.map fun agent => agent.id).Nodup := by
    rw [ids]
    exact kernel.agents.keys_nodup
  obtain ⟨persist, forget, hostRoot, hostLoader⟩ := enqueue_fields kernel.agents.items
    (ProxyLoader.create hostLoaderId hostRootId) nodup (fun _ _ impossible => by cases impossible)
  let world := (World.started kernel hostLoaderId hostRootId .empty).step rule .flush
  have flights : world.flights = [⟨kernel.agents.keys, []⟩] := by
    have queued : world.flights = [⟨_, _⟩] := rfl
    rw [queued]
    congr 2
    · exact persist.trans ids
    · exact congrArg OrderedDict.entries forget
  have sends : sendOne rule world.kernel world.loader =
      sendOne rule kernel (.create hostLoaderId hostRootId) :=
    sendOne_congr hostLoader hostRoot
  have sent := advance_all rule kernel.agents.keys world flights
  rw [sends] at sent
  exact sent

theorem flushed_silent (silent : kernel.forwards hostLoaderId = false) :
    (flushed rule kernel hostLoaderId hostRootId).host = .empty := by
  rw [flushed_host tree]
  have still (ids : List String) (host : HostStore) :
      ids.foldl (sendOne rule kernel (.create hostLoaderId hostRootId)) host = host := by
    induction ids with
    | nil => rfl
    | cons id ids ih =>
      have same : sendOne rule kernel (.create hostLoaderId hostRootId) host id = host := by
        simp only [sendOne, ProxyLoader.create, silent]
        split <;> rfl
      rw [List.foldl_cons, same, ih]
  exact still _ _

end Flush

/-- What the host keeps of a record it did not have. -/
theorem stored_none (rule : HostRule) (record : Dict) : rule.stored none record = record := by
  cases rule with
  | replace => rfl
  | merge => exact OrderedDict.empty_update record

theorem sentRecord_id {loader : ProxyLoader} {init : AgentInit}
    (noId : "id" ∉ init.metadata.keys) :
    (loader.sentRecord init).get? "id" = some (.str init.id) := by
  rw [ProxyLoader.sentRecord, OrderedDict.get?_insert_of_ne _ _ (by decide)]
  exact AgentInit.record_id (OrderedDict.get?_eq_none_iff.mpr noId)

/-- Records of agents with different ids are kept side by side. -/
theorem persist_items {rule : HostRule} {loader : ProxyLoader} (inits : List AgentInit) :
    ∀ (host : HostStore), (inits.map AgentInit.id).Nodup →
      (∀ init ∈ inits, "id" ∉ init.metadata.keys) →
      (∀ init ∈ inits, ∀ place ∈ OrderedDict.keys host, place.1 ≠ .str init.id) →
      (inits.foldl (fun host init => host.persistRecord rule (loader.sentRecord init))
        host).items = OrderedDict.items host ++ inits.map loader.sentRecord := by
  induction inits with
  | nil =>
    intro host _ _ _
    exact (List.append_nil _).symm
  | cons init inits ih =>
    intro host nodup noId fresh
    rw [List.map_cons, List.nodup_cons] at nodup
    have place : (location (loader.sentRecord init)).1 = .str init.id := by
      rw [location, sentRecord_id (noId init List.mem_cons_self)]
      rfl
    have absent : location (loader.sentRecord init) ∉ OrderedDict.keys host := by
      intro there
      exact fresh init List.mem_cons_self _ there place
    have entries : (host.persistRecord rule (loader.sentRecord init)).entries =
        host.entries ++ [(location (loader.sentRecord init), loader.sentRecord init)] := by
      rw [HostStore.persistRecord, OrderedDict.get?_eq_none_iff.mpr absent, stored_none,
        OrderedDict.insert_entries_of_fresh absent]
    rw [List.foldl_cons, ih _ nodup.2 (fun other member => noId other (List.mem_cons_of_mem _ member))]
    · simp only [OrderedDict.items, entries, List.map_append, List.map_cons, List.map_nil,
        List.append_assoc, List.singleton_append]
    · intro other member key listed
      rw [OrderedDict.keys, entries, List.map_append, List.mem_append] at listed
      cases listed with
      | inl before => exact fresh other (List.mem_cons_of_mem _ member) key before
      | inr same =>
        rw [List.map_singleton, List.mem_singleton] at same
        rw [same, place]
        intro clash
        exact nodup.1 (List.mem_map.mpr ⟨other, member, (Value.str.inj clash).symm⟩)

theorem flushed_items {bundles : List String} {kernel : Kernel} (tree : ViewTree bundles kernel)
    (rule : HostRule) {hostLoaderId anchorId : String} (hostRootId : String)
    (portable : Portable kernel hostLoaderId anchorId) :
    (flushed rule kernel hostLoaderId hostRootId).host.items =
      kernel.inits.map (ProxyLoader.create hostLoaderId hostRootId).sentRecord := by
  have turns (inits : List AgentInit) (known : ∀ init ∈ inits, kernel.held init.id = some init) :
      ∀ host : HostStore, (inits.map AgentInit.id).foldl
          (sendOne rule kernel (.create hostLoaderId hostRootId)) host =
        inits.foldl (fun host init => host.persistRecord rule
          ((ProxyLoader.create hostLoaderId hostRootId).sentRecord init)) host := by
    induction inits with
    | nil =>
      intro host
      rfl
    | cons init inits ih =>
      intro host
      have sent : sendOne rule kernel (.create hostLoaderId hostRootId) host init.id =
          host.persistRecord rule
            ((ProxyLoader.create hostLoaderId hostRootId).sentRecord init) := by
        rw [sendOne, known init List.mem_cons_self]
        exact if_pos portable.forwards
      simp only [List.map_cons, List.foldl_cons, sent]
      exact ih (fun other member => known other (List.mem_cons_of_mem _ member)) _
  have known : ∀ init ∈ kernel.inits, kernel.held init.id = some init :=
    fun init member => tree.mem_inits_iff.mp member
  rw [flushed_host tree, ← tree.inits_ids, turns _ known]
  apply (persist_items kernel.inits .empty _ _ _).trans (List.nil_append _)
  · rw [tree.inits_ids]
    exact kernel.agents.keys_nodup
  · intro init member
    exact portable.metas (known init member) "id" (by decide)
  · intro init _ place impossible
    cases impossible

/-! ### What comes back -/

/-- The record of an agent once it is re-rooted. -/
def backRecord (loader : ProxyLoader) (init : AgentInit) : Dict :=
  if init.parentId = none then (loader.sentRecord init).insert "parent_id" .null
  else loader.sentRecord init

section Back

variable {loader : ProxyLoader} {init : AgentInit}
  (metas : ∀ key ∈ ["id", "handler_module", "parent_id"], key ∉ init.metadata.keys)

include metas

theorem backRecord_id : (backRecord loader init).get? "id" = some (.str init.id) := by
  unfold backRecord
  split
  · rw [OrderedDict.get?_insert_of_ne _ _ (by decide)]
    exact sentRecord_id (metas "id" (by decide))
  · exact sentRecord_id (metas "id" (by decide))

omit metas in
theorem backRecord_parent :
    parentValue (backRecord loader init) = (init.parentId.map Value.str).getD .null := by
  unfold backRecord parentValue ProxyLoader.sentRecord
  cases named : init.parentId with
  | none => simp
  | some parentId => simp [ProxyLoader.rewrittenParent]

theorem backRecord_module :
    (backRecord loader init).get? "handler_module" = init.handlerModule.map Value.str := by
  have kept : (backRecord loader init).get? "handler_module" =
      init.record.get? "handler_module" := by
    unfold backRecord ProxyLoader.sentRecord
    split <;> simp [OrderedDict.get?_insert]
  rw [kept, AgentInit.record, OrderedDict.get?_update,
    OrderedDict.get?_eq_none_iff.mpr (metas "handler_module" (by decide)), Option.none_or]
  cases init.handlerModule <;> cases init.parentId <;> simp [OrderedDict.get?_insert]

/-- The three fields are dropped again and the meta is left. -/
theorem backRecord_meta : recordMeta (backRecord loader init) = init.metadata := by
  have dropped : recordMeta (backRecord loader init) = recordMeta init.record := by
    unfold backRecord recordMeta ProxyLoader.sentRecord
    split
    · rw [OrderedDict.filterKeys_insert rfl, OrderedDict.filterKeys_insert rfl]
    · rw [OrderedDict.filterKeys_insert rfl]
  rw [dropped]
  apply OrderedDict.filterKeys_update
  · intro key listed
    obtain ⟨id, handlerModule, parentId, metadata⟩ := init
    have none : key ∉ (OrderedDict.empty : Dict).keys := List.not_mem_nil
    clear dropped metas
    have reserved : key ∈ ["id", "handler_module", "parent_id"] := by
      cases handlerModule <;> cases parentId <;>
        simp only [OrderedDict.mem_keys_insert, none, or_false] at listed <;>
        grind
    simp only [reserved, not_true_eq_false, decide_false]
  · intro key listed
    simp only [decide_eq_true_eq]
    intro reserved
    exact metas key reserved listed

theorem backRecord_agent :
    recordAgent (backRecord loader init) (recordParent (backRecord loader init)) = init := by
  have id : recordId (backRecord loader init) = init.id := by
    rw [recordId, backRecord_id metas]
  have handlerModule : recordModule (backRecord loader init) = init.handlerModule := by
    rw [recordModule, backRecord_module metas]
    cases init.handlerModule <;> rfl
  have parentId : recordParent (backRecord loader init) = init.parentId := by
    rw [recordParent, backRecord_parent]
    cases init.parentId <;> rfl
  rw [recordAgent, id, handlerModule, parentId, backRecord_meta metas]

end Back

/-- The host's reply, with the anchor first. -/
theorem loadTree_cons (loader : ProxyLoader) {anchor : Dict} {anchorId : String}
    (anchored : Anchor anchor anchorId loader.hostLoaderId) (stored : List Dict) :
    (loader.loadTree (anchor :: stored)).2 =
      (stored.filter fun record => decide (record.get? "id" ≠ some (.str anchorId))).map
        (loader.rerooted (some (.str anchorId))) := by
  have known : loader.isAnchor anchor = true := by
    unfold ProxyLoader.isAnchor
    cases anchored.addressed with
    | inl same => simp [anchored.id, same]
    | inr named => simp [named]
  have found : (List.find? loader.isAnchor (anchor :: stored)).bind
      (fun anchor => anchor.get? "id") = some (.str anchorId) := by
    rw [List.find?_cons_of_pos known]
    exact anchored.id
  have dropped : decide (anchor.get? "id" ≠ some (.str anchorId)) = false := by
    simp [anchored.id]
  unfold ProxyLoader.loadTree
  simp only [found, List.filter_cons, dropped, Bool.false_eq_true, if_false]

section RoundTrip

variable {bundles : List String} {kernel : Kernel} {hostLoaderId hostRootId anchorId : String}
  {anchor : Dict} (tree : ViewTree bundles kernel)
  (portable : Portable kernel hostLoaderId anchorId)
  (names : hostRootId = hostLoaderId ∨ hostRootId = anchorId)

include tree portable names

/-- Exactly the root's record names the anchor for its parent. -/
theorem rerooted_sentRecord {init : AgentInit} (listed : init ∈ kernel.inits) :
    (ProxyLoader.create hostLoaderId hostLoaderId).rerooted (some (.str anchorId))
        ((ProxyLoader.create hostLoaderId hostRootId).sentRecord init) =
      backRecord (.create hostLoaderId hostRootId) init := by
  have held := tree.mem_inits_iff.mp listed
  have value : parentValue ((ProxyLoader.create hostLoaderId hostRootId).sentRecord init) =
      .str (init.parentId.getD hostRootId) := by
    simp [parentValue, ProxyLoader.sentRecord, ProxyLoader.rewrittenParent, ProxyLoader.create]
  unfold ProxyLoader.rerooted backRecord
  rw [value]
  cases named : init.parentId with
  | none =>
    rw [if_pos rfl, if_pos]
    cases names with
    | inl same => exact .inr (congrArg Value.str same)
    | inr same => exact .inl (congrArg (fun id => some (Value.str id)) same)
  | some parentId =>
    obtain ⟨rank, falls⟩ := tree.ranked
    obtain ⟨registered, _⟩ := falls init.id init parentId held named
    obtain ⟨upper, there⟩ := Option.ne_none_iff_exists'.mp registered
    have notAnchor : parentId ≠ anchorId := (portable.ids there).2
    have notAddress : parentId ≠ hostLoaderId := by
      intro same
      have silent : kernel.forwards hostLoaderId = false := by
        obtain ⟨rootId, root, rooted, present, _⟩ := tree.rooted
        have inside {id : String} {agent : AgentInit} (found : kernel.held id = some agent) :
            kernel.agents.contains id = true := by
          obtain ⟨held, here, _⟩ := Option.map_eq_some_iff.mp found
          rw [OrderedDict.contains_iff, OrderedDict.mem_keys_iff]
          exact ⟨held, here⟩
        unfold Kernel.forwards Kernel.resolve
        split
        · rw [rooted, Option.getD_some, inside present]
          rfl
        · rw [← same, inside there]
          rfl
      rw [portable.forwards] at silent
      cases silent
    have elsewhere : ¬ (some (Value.str ((some parentId).getD hostRootId)) =
        some (.str anchorId) ∨ Value.str ((some parentId).getD hostRootId) =
          .str hostLoaderId) := by
      simp [notAnchor, notAddress]
    exact (if_neg elsewhere).trans (if_neg (Option.some_ne_none parentId)).symm

theorem back_perm (anchored : Anchor anchor anchorId hostLoaderId) {rule : HostRule}
    {stored : List Dict}
    (order : stored.Perm (flushed rule kernel hostLoaderId hostRootId).host.items) :
    ((ProxyLoader.create hostLoaderId hostLoaderId).loadTree (anchor :: stored)).2.Perm
      (kernel.inits.map (backRecord (.create hostLoaderId hostRootId))) := by
  have sent : ∀ init ∈ kernel.inits,
      (((ProxyLoader.create hostLoaderId hostRootId).sentRecord init).get? "id" ≠
        some (.str anchorId)) := by
    intro init listed
    have held := tree.mem_inits_iff.mp listed
    rw [sentRecord_id (portable.metas held "id" (by decide))]
    simp [(portable.ids held).2]
  rw [flushed_items tree rule hostRootId portable] at order
  rw [loadTree_cons (.create hostLoaderId hostLoaderId) anchored]
  have kept : stored.filter (fun record => decide (record.get? "id" ≠ some (.str anchorId))) =
      stored := by
    rw [List.filter_eq_self]
    intro record listed
    obtain ⟨init, member, same⟩ := List.mem_map.mp (order.mem_iff.mp listed)
    exact decide_eq_true (same ▸ sent init member)
  rw [kept]
  apply (order.map _).trans
  rw [List.map_map]
  apply List.Perm.of_eq
  apply List.map_congr_left
  intro init listed
  exact rerooted_sentRecord tree portable names listed

end RoundTrip

section LoadBack

variable {bundles : List String} {kernel : Kernel} (tree : ViewTree bundles kernel)
  {hostLoaderId anchorId : String} (portable : Portable kernel hostLoaderId anchorId)
  {loader : ProxyLoader} {records : List Dict}
  (order : records.Perm (kernel.inits.map (backRecord loader)))

theorem recordParent_back (init : AgentInit) :
    recordParent (backRecord loader init) = init.parentId := by
  rw [recordParent, backRecord_parent]
  cases init.parentId <;> rfl

include tree

theorem held_self {id : String} {agent : AgentInit} (held : kernel.held id = some agent) :
    kernel.held agent.id = some agent := by
  rw [tree.filed held, held]

include order in
theorem source_of_mem {record : Dict} (listed : record ∈ records) :
    ∃ init, kernel.held init.id = some init ∧ backRecord loader init = record := by
  obtain ⟨init, member, same⟩ := List.mem_map.mp (order.mem_iff.mp listed)
  exact ⟨init, tree.mem_inits_iff.mp member, same⟩

include order in
theorem mem_of_held {init : AgentInit} (held : kernel.held init.id = some init) :
    backRecord loader init ∈ records :=
  order.mem_iff.mpr (List.mem_map_of_mem (tree.mem_inits_iff.mpr held))

include portable

omit tree in
theorem recordId_back {init : AgentInit} (held : kernel.held init.id = some init) :
    recordId (backRecord loader init) = init.id := by
  rw [recordId, backRecord_id (portable.metas held)]

include order

theorem one_tree_back {rootId : String} {root : AgentInit}
    (present : kernel.held rootId = some root) (top : root.parentId = none)
    (only : ∀ id agent, kernel.held id = some agent → agent.parentId = none → id = rootId) :
    OneTree records (backRecord loader root) := by
  constructor
  · intro record listed
    obtain ⟨init, held, same⟩ := source_of_mem tree order listed
    rw [← same]
    exact ⟨init.id, (portable.ids held).1, backRecord_id (portable.metas held)⟩
  · have keys : (kernel.inits.map (backRecord loader)).map recordId = kernel.agents.keys := by
      rw [← tree.inits_ids, List.map_map]
      apply List.map_congr_left
      intro init listed
      exact recordId_back portable (tree.mem_inits_iff.mp listed)
    rw [(order.map recordId).nodup_iff, keys]
    exact kernel.agents.keys_nodup
  · exact mem_of_held tree order (held_self tree present)
  · rw [isTop, backRecord_parent, top]
    rfl
  · intro record listed bare
    obtain ⟨init, held, same⟩ := source_of_mem tree order listed
    rw [← same, recordParent_back] at bare
    have sameId := only init.id init held bare
    rw [sameId, present] at held
    cases held
    exact same.symm
  · intro record listed parentId named
    obtain ⟨init, held, same⟩ := source_of_mem tree order listed
    rw [← same, recordParent_back] at named
    obtain ⟨rank, falls⟩ := tree.ranked
    obtain ⟨registered, _⟩ := falls init.id init parentId held named
    obtain ⟨upper, there⟩ := Option.ne_none_iff_exists'.mp registered
    have upperHeld := held_self tree there
    exact ⟨_, mem_of_held tree order upperHeld,
      (recordId_back portable upperHeld).trans (tree.filed there)⟩

theorem ranked_back : ∃ rank, ParentForest.Ranked records recordId recordParent rank := by
  obtain ⟨rank, falls⟩ := tree.ranked
  refine ⟨fun record => rank (recordId record), ?_⟩
  intro child above link
  obtain ⟨childListed, _, named⟩ := link
  obtain ⟨init, held, same⟩ := source_of_mem tree order childListed
  rw [← same, recordParent_back] at named
  have lower := (falls init.id init _ held named).2
  rw [← recordId_back portable held, same] at lower
  exact lower

theorem installed_back : ∀ record ∈ records, installed bundles record = true := by
  intro record listed
  obtain ⟨init, held, same⟩ := source_of_mem tree order listed
  rw [← same, installed, backRecord_module (portable.metas held)]
  cases named : init.handlerModule with
  | none => rfl
  | some handlerModule => exact decide_eq_true (tree.runs held handlerModule named)

/-- The records of a tree, in any order, are loaded as that tree. -/
theorem load_back : ∃ loaded, Kernel.load bundles records currentVersion = .ok loaded ∧
    SameTree loaded kernel := by
  obtain ⟨rootId, root, rooted, present, top, only⟩ := tree.rooted
  obtain ⟨rank, ranked⟩ := ranked_back tree portable order
  obtain ⟨loaded, done, loadedRoot, all, rest⟩ :=
    Kernel.load_tree (one_tree_back tree portable order present top only) ranked
      (installed_back tree portable order)
  refine ⟨loaded, done, ?_, ?_⟩
  · rw [loadedRoot, recordId_back portable (held_self tree present), tree.filed present, rooted]
  · intro id
    cases held : kernel.held id with
    | some init =>
      have here := held_self tree held
      have made := all _ (mem_of_held tree order here)
      rw [recordId_back portable here, backRecord_agent (portable.metas here),
        tree.filed held] at made
      exact made
    | none =>
      apply rest
      intro listed
      obtain ⟨record, inside, same⟩ := List.mem_map.mp listed
      obtain ⟨init, there, sameRecord⟩ := source_of_mem tree order inside
      rw [← sameRecord, recordId_back portable there] at same
      rw [← same, there] at held
      cases held

end LoadBack

/-- A loaded agent comes from a record below the anchor, and its meta is what `load` leaves. -/
theorem RoundTrips.portable {bundles : List String} {rule : HostRule} {kernel : Kernel}
    {hostLoaderId hostRootId anchorId : String} {anchor : Dict}
    (tree : ViewTree bundles kernel) (anchored : Anchor anchor anchorId hostLoaderId)
    (back : RoundTrips bundles rule kernel hostLoaderId hostRootId anchor) :
    Portable kernel hostLoaderId anchorId := by
  obtain ⟨loaded, done, same⟩ := back _ (List.Perm.refl _)
  rw [loadTree_cons (.create hostLoaderId hostLoaderId) anchored] at done
  have made {id : String} {agent : AgentInit} (held : kernel.held id = some agent) :
      ∃ record : Dict, Named record ∧ recordId record = id ∧
        record.get? "id" ≠ some (.str anchorId) ∧ agent.metadata = recordMeta record := by
    rw [← same.2 id] at held
    obtain ⟨record, listed, named, sameId, parentId, sameAgent⟩ := Kernel.load_madeOf done held
    refine ⟨record, named, sameId, ?_, congrArg AgentInit.metadata sameAgent⟩
    obtain ⟨source, inside, rerooted⟩ := List.mem_map.mp listed
    have kept := of_decide_eq_true (List.mem_filter.mp inside).2
    rw [← rerooted]
    unfold ProxyLoader.rerooted
    split
    · rw [OrderedDict.get?_insert_of_ne _ _ (by decide)]
      exact kept
    · exact kept
  constructor
  · cases sends : kernel.forwards hostLoaderId with
    | true => rfl
    | false =>
      rw [flushed_silent tree rule hostLoaderId hostRootId sends] at done
      cases done
  · intro id agent held
    obtain ⟨record, named, sameId, kept, _⟩ := made held
    constructor
    · rw [← sameId]
      exact named.recordId_ne
    · intro clash
      obtain ⟨text, _, found⟩ := named
      rw [recordId, found] at sameId
      rw [found] at kept
      exact kept (congrArg (fun id => some (Value.str id)) (sameId.trans clash))
  · intro id agent held key reserved listed
    obtain ⟨record, _, _, _, sameMeta⟩ := made held
    rw [sameMeta, OrderedDict.mem_keys_iff] at listed
    obtain ⟨item, found⟩ := listed
    rw [recordMeta, OrderedDict.get?_filterKeys, if_neg (by simp [reserved])] at found
    cases found

/-- The root of a view, with nothing in its meta. -/
def bareRoot : AgentInit where
  id := "view"
  handlerModule := none
  parentId := none
  metadata := .empty

def hostAnchor : Dict :=
  (OrderedDict.empty.insert "id" (.str "loader_1")).insert "alias" (.str "js_loader")

theorem hostAnchor_anchor : Anchor hostAnchor "loader_1" "js_loader" where
  id := by decide
  addressed := .inr (by decide)

theorem bareRoot_built : Built [] (Kernel.fresh.setRoot bareRoot) := by
  apply Built.root bareRoot rfl
  intro handlerModule named
  cases named

theorem bareRoot_held {id : String} {agent : AgentInit}
    (found : (Kernel.fresh.setRoot bareRoot).held id = some agent) :
    id = "view" ∧ agent = bareRoot := by
  have held := Kernel.held_register Kernel.fresh bareRoot id
  change (Kernel.fresh.setRoot bareRoot).held id = _ at held
  rw [found] at held
  split at held
  case isTrue same => exact ⟨same, Option.some.inj held⟩
  case isFalse => cases held

end Fantastic.Ts

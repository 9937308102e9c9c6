import Fantastic.Foundation.StoreTree
import Fantastic.Rust.KernelRuns

/-!
# Where `create_agent` puts agents in the store

`store_reldir` of `persistence.rs`, for every tree that `create_agent` builds below a root. While
ids are plain names an agent lies under its id in the `agents` directory of its parent.
-/

namespace Fantastic.Rust

open PurePath (Segment PlainSegment)

/-- `to_string_lossy` of a path. -/
def pathText (path : PurePath) : String :=
  path.root ++ "/".intercalate path.parts

/-- `store_reldir`. -/
def storeReldir (storeRoot agentRoot : PurePath) : String :=
  match agentRoot.relativeTo? storeRoot with
  | some relative => pathText relative
  | none => pathText agentRoot

namespace Kernel

/-- The directory of an agent, inside the store of the root. -/
def storePlace (kernel : Kernel) (root ref : Nat) : Option (List String) :=
  (PurePath.ofString (storeReldir (kernel.heap root).rootPath (kernel.heap ref).rootPath)).folded

def storeLayout (kernel : Kernel) (root : Nat) : Layout Nat String where
  live := fun ref => ∃ key, kernel.agents.get? key = some ref
  root := root
  above := fun ref => (kernel.heap ref).parentId.bind kernel.agents.get?
  place := kernel.storePlace root

/-- The message is a `create_agent`, and the id it leads to is a name. -/
def Neat (request : Request) : Prop :=
  textOf request.payload "type" = some "create_agent" ∧
    ∀ handlerModule, textOf request.payload "handler_module" = some handlerModule →
      PlainSegment (chooseId request.payload handlerModule request.token)

/-! ### The invariant -/

theorem plain_agents : PlainSegment "agents" := by decide

def agentsDir : Segment :=
  ⟨"agents", plain_agents⟩

/-- A path with names below it. -/
def under (base : PurePath) (names : List Segment) : PurePath :=
  { base with parts := base.parts ++ names.map Subtype.val }

structure Spread (kernel : Kernel) (root : Nat) (base : PurePath) : Prop where
  tree : kernel.Tree
  top : kernel.root = some root
  anchored : (kernel.heap root).rootPath = base
  hung : ∀ {key ref}, kernel.agents.get? key = some ref → ref ≠ root →
    ∃ parentId above names, ∃ id : Segment, (kernel.heap ref).parentId = some parentId ∧
      kernel.agents.get? parentId = some above ∧
      (kernel.heap above).rootPath = under base names ∧
      (kernel.heap ref).rootPath = under base (names ++ [agentsDir, id]) ∧ key = id.val

section Spread

variable {kernel : Kernel} {root : Nat} {base : PurePath} (spread : Spread kernel root base)

include spread

theorem Spread.addressed {key : String} {ref : Nat} (found : kernel.agents.get? key = some ref) :
    ∃ names, (kernel.heap ref).rootPath = under base names := by
  by_cases isRoot : ref = root
  · subst isRoot
    refine ⟨[], ?_⟩
    rw [spread.anchored]
    simp [under]
  · obtain ⟨_, _, names, id, _, _, _, lower, _⟩ := spread.hung found isRoot
    exact ⟨_, lower⟩

theorem Spread.place {ref : Nat} {names : List Segment}
    (path : (kernel.heap ref).rootPath = under base names) :
    kernel.storePlace root ref = some (names.map Subtype.val) := by
  have relative : (under base names).relativeTo? base =
      some { root := "", parts := names.map Subtype.val } := by
    simp [PurePath.relativeTo?, under]
  unfold storePlace storeReldir
  rw [spread.anchored, path, relative]
  simp only [pathText, String.empty_append, PurePath.ofString_intercalate, PurePath.folded_plain]

/-- An agent lies under its id. -/
theorem Spread.named : (kernel.storeLayout root).Named "agents" fun ref => (kernel.heap ref).id := by
  constructor
  · have top : (kernel.heap root).rootPath = under base [] := by
      rw [spread.anchored]
      simp [under]
    exact spread.place top
  · intro ref live inner
    obtain ⟨key, found⟩ := live
    obtain ⟨parentId, above, names, id, parent, aboveFound, upper, lower, isId⟩ :=
      spread.hung found inner
    refine ⟨above, names.map Subtype.val, ?_, ⟨parentId, aboveFound⟩, spread.place upper, ?_⟩
    · simp only [storeLayout, parent, Option.bind_some, aboveFound]
    · have place := spread.place lower
      rw [List.map_append] at place
      rw [(spread.tree.registered found).1, isId]
      exact place
  · intro first second firstLive secondLive _ _ same
    obtain ⟨key, found⟩ := firstLive
    obtain ⟨other, otherFound⟩ := secondLive
    rw [(spread.tree.registered found).1, (spread.tree.registered otherFound).1] at same
    rw [same, otherFound] at found
    exact (Option.some.inj found).symm

/-- A new agent under a registered one. -/
theorem Spread.adopted {parent : Nat} {names : List Segment} {id : Segment} (agent : Agent)
    (found : kernel.agents.get? (kernel.heap parent).id = some parent)
    (fresh : kernel.agents.get? agent.id = none)
    (hung : agent.parentId = some (kernel.heap parent).id)
    (bare : ∀ key, agent.children.get? key = none)
    (upper : (kernel.heap parent).rootPath = under base names)
    (lower : agent.rootPath = under base (names ++ [agentsDir, id])) (isId : agent.id = id.val) :
    Spread (kernel.adopt parent agent) root base := by
  have known {key : String} {ref : Nat} (entry : kernel.agents.get? key = some ref) :
      ref < kernel.allocated := (spread.tree.registered entry).2
  have old := known found
  have fields {key : String} {ref : Nat} (entry : kernel.agents.get? key = some ref) :=
    @adopt_fields kernel parent agent old ref (known entry)
  have kept {key : String} {ref : Nat} (entry : kernel.agents.get? key = some ref) :
      (kernel.adopt parent agent).agents.get? key = some ref := by
    rw [adopt_agents, OrderedDict.get?_insert, if_neg, entry]
    intro same
    rw [same, fresh] at entry
    cases entry
  obtain ⟨top, isTop, topFound, _⟩ := spread.tree.rooted
  cases spread.top.symm.trans isTop
  constructor
  · exact spread.tree.adopt found fresh hung bare
  · exact spread.top
  · rw [(fields topFound).rootPath, spread.anchored]
  · intro key ref entry inner
    rw [adopt_agents, OrderedDict.get?_insert] at entry
    split at entry
    case isTrue isNew =>
      cases entry
      rw [adopt_heap_new old, isNew]
      refine ⟨_, parent, names, id, hung, kept found, ?_, lower, isId⟩
      rw [(fields found).rootPath, upper]
    case isFalse =>
      obtain ⟨parentId, above, trail, name, linked, aboveFound, high, low, isName⟩ :=
        spread.hung entry inner
      refine ⟨parentId, above, trail, name, ?_, kept aboveFound, ?_, ?_, isName⟩
      · rw [(fields entry).parentId, linked]
      · rw [(fields aboveFound).rootPath, high]
      · rw [(fields entry).rootPath, low]

theorem Spread.vivify (id : String) : Spread (kernel.vivify id) root base where
  tree := spread.tree.vivify id
  top := by
    rw [vivify_root]
    exact spread.top
  anchored := by
    rw [vivify_heap]
    exact spread.anchored
  hung := by
    rw [vivify_heap, vivify_agents]
    exact spread.hung

theorem Spread.step {host : Host} {request : Request} (neat : Neat request) :
    Spread (step host kernel request) root base := by
  unfold Kernel.step send
  cases target : kernel.resolve request.target with
  | none => exact spread
  | some parent =>
    simp only [neat.1, createFromPayload]
    cases handled : textOf request.payload "handler_module" with
    | none => exact spread
    | some handlerModule =>
      have found := spread.tree.resolved target
      obtain ⟨names, upper⟩ := spread.addressed found
      have plain := neat.2 handlerModule handled
      have container : PlainSegment "agents" := agentsDir.property
      simp only
      split
      · exact spread
      case isFalse absent =>
        have fresh : kernel.agents.get? (newRecord request.payload (kernel.heap parent).id
            handlerModule request.token).id = none := by
          rw [OrderedDict.get?_eq_none_iff]
          intro present
          exact absent (OrderedDict.contains_iff.mpr present)
        have lower : (kernel.heap parent).childrenDir.join (chooseId request.payload
            handlerModule request.token) =
              under base (names ++ [agentsDir, ⟨_, plain⟩]) := by
          rw [Agent.childrenDir, upper, PurePath.join_plain container, PurePath.join_plain plain]
          simp [under, agentsDir]
        have made := spread.adopted (.new (newRecord request.payload (kernel.heap parent).id
          handlerModule request.token) _ false) found fresh rfl (fun _ => rfl) upper lower rfl
        split
        · exact made
        · exact made.vivify _

end Spread

/-! ### Runs of `create_agent` -/

theorem Spread.start (record : AgentRecord) (base : PurePath) :
    Spread (rootOnly { record with parentId := none } base) 0 base := by
  constructor
  · exact rootOnly_tree rfl
  · rfl
  · rfl
  · intro key ref found inner
    simp only [rootOnly, register, allocate, fresh, OrderedDict.get?_insert] at found
    split at found
    · cases found
      exact absurd rfl inner
    · cases found

theorem Spread.run {kernel : Kernel} {root : Nat} {base : PurePath} {requests : List Request}
    (spread : Spread kernel root base) (host : Host)
    (neat : ∀ request ∈ requests, Neat request) :
    Spread (run host kernel requests) root base := by
  induction requests generalizing kernel with
  | nil => exact spread
  | cons request requests ih =>
    exact ih (spread.step (neat request List.mem_cons_self)) fun other later =>
      neat other (List.mem_cons_of_mem _ later)

end Kernel

end Fantastic.Rust

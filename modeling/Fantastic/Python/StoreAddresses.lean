import Fantastic.Foundation.StoreTree
import Fantastic.Python.RecordWrites
import Fantastic.Python.RegistryRuns

/-!
# Where `create_agent` puts agents in the store

The directory of an agent as the loader addresses it in its store, for every tree that
`create_agent` builds below a root. While ids are plain names and no payload brings a `root_path`,
an agent lies under its id in the `agents` directory of its parent.
-/

namespace Fantastic.Python.Loader

open PurePath (Segment PlainSegment segments segments_intercalate)
open Kernel (SameFields Request)

/-! ### Paths through the store -/

theorem intercalate_spoken {names : Place} (some : names ≠ []) :
    "/".intercalate (names.map Subtype.val) ≠ "" ∧
      "/".intercalate (names.map Subtype.val) ≠ "." := by
  have parts := segments_intercalate names
  constructor
  · intro empty
    rw [empty] at parts
    exact some (List.map_eq_nil_iff.mp parts.symm)
  · intro dot
    rw [dot] at parts
    exact some (List.map_eq_nil_iff.mp parts.symm)

/-- The path of an agent's directory relative to the store. -/
theorem storeReldir_descend {kernel : Kernel} {loader : Nat} {root : PurePath}
    (rooted : rootAddress kernel loader = .path root) (names : Place) :
    storeReldir kernel loader (.path (descend root names)) =
      .ok ("/".intercalate (names.map Subtype.val)) := by
  have relative : (descend root names).relativeTo? root =
      some { root := "", parts := names.map Subtype.val } := by
    simp [PurePath.relativeTo?, descend]
  simp only [storeReldir, Address.toPath, rooted, bind, Except.bind, relative, Option.getD_some,
    PurePath.text, pure, Except.pure]
  by_cases here : names = []
  · subst here
    rfl
  · have spoken := (intercalate_spoken here).2
    have parts : names.map Subtype.val ≠ [] := by rwa [Ne, List.map_eq_nil_iff]
    simp only [parts, decide_false, Bool.and_false, Bool.false_eq_true, if_false,
      String.empty_append, spoken]

theorem record_congr {kernel after : Kernel} {ref : Nat}
    (same : SameFields (after.heap ref) (kernel.heap ref))
    (ids : ∀ above, (kernel.heap ref).parent = some above →
      (after.heap above).id = (kernel.heap above).id) :
    after.record ref = kernel.record ref := by
  unfold Kernel.record Kernel.recordFields
  simp only [same.id, same.handlerModule, same.parent, same.metadata]
  cases hung : (kernel.heap ref).parent with
  | none => rfl
  | some above => simp only [ids above hung]

theorem rootAddress_congr {kernel after : Kernel} {ref : Nat}
    (records : after.record ref = kernel.record ref)
    (same : SameFields (after.heap ref) (kernel.heap ref)) :
    rootAddress after ref = rootAddress kernel ref := by
  unfold rootAddress
  rw [records, same.address]

/-- The directory of an agent, inside the store of the root loader. -/
def storePlace (kernel : Kernel) (loader ref : Nat) : Option (List String) :=
  match storeReldir kernel loader (kernel.heap ref).address with
  | .ok reldir => (PurePath.ofString reldir).folded
  | .error _ => none

def storeLayout (kernel : Kernel) (loader : Nat) : Layout Nat String where
  live := kernel.Live
  root := loader
  above := fun ref => (kernel.heap ref).parent
  place := storePlace kernel loader

/-- The payload brings no address, and the id it leads to is a name. -/
def Neat (runtime : Runtime) (request : Request) : Prop :=
  getD request.payload "root_path" = .null ∧
    ∀ text, Kernel.chooseId runtime request.token (getD request.payload "handler_module")
      (getD request.payload "id") = .ok (.str text) → PlainSegment text

/-! ### The invariant -/

def agentsDir : Segment :=
  ⟨"agents", plain_agents⟩

structure Spread (kernel : Kernel) (loader : Nat) (base : PurePath) : Prop where
  tree : kernel.Tree
  top : kernel.root = some loader
  container : kernel.childrenDir = "agents"
  owned : rootAddress kernel loader = .path base
  anchored : (kernel.heap loader).address = .path base
  hung : ∀ {ref above}, kernel.Live ref → (kernel.heap ref).parent = some above →
    ∃ (names : Place) (id : Segment), (kernel.heap above).address = .path (descend base names) ∧
      (kernel.heap ref).address = .path (descend base (names ++ [agentsDir, id])) ∧
      (kernel.heap ref).id = .str id.val

section Spread

variable {kernel : Kernel} {loader : Nat} {base : PurePath} (spread : Spread kernel loader base)

include spread

theorem Spread.loader_live : kernel.Live loader ∧ (kernel.heap loader).parent = none := by
  obtain ⟨top, isRoot, live, parentless⟩ := spread.tree.rootLive
  rw [spread.top] at isRoot
  cases isRoot
  exact ⟨live, parentless⟩

theorem Spread.addressed {ref : Nat} (live : kernel.Live ref) :
    ∃ names, (kernel.heap ref).address = .path (descend base names) := by
  cases hung : (kernel.heap ref).parent with
  | none =>
    have isRoot := spread.tree.rootOnly live hung
    rw [spread.top] at isRoot
    cases isRoot
    refine ⟨[], ?_⟩
    rw [spread.anchored]
    simp [descend]
  | some above =>
    obtain ⟨names, id, _, address, _⟩ := spread.hung live hung
    exact ⟨_, address⟩

theorem Spread.place {ref : Nat} {names : Place}
    (address : (kernel.heap ref).address = .path (descend base names)) :
    storePlace kernel loader ref = some (names.map Subtype.val) := by
  unfold storePlace
  rw [address, storeReldir_descend spread.owned names]
  simp only [PurePath.ofString_intercalate, PurePath.folded_plain]

/-- An agent lies under its id. -/
theorem Spread.named : (storeLayout kernel loader).Named "agents" fun ref =>
    match (kernel.heap ref).id with
    | .str text => text
    | _ => "" := by
  have idOf {ref : Nat} (live : kernel.Live ref) (inner : ref ≠ loader) :
      ∃ above names id, (kernel.heap ref).parent = some above ∧ kernel.Live above ∧
        (kernel.heap above).address = .path (descend base names) ∧
        (kernel.heap ref).address = .path (descend base (names ++ [agentsDir, id])) ∧
        (kernel.heap ref).id = .str id.val := by
    cases hung : (kernel.heap ref).parent with
    | none =>
      have isRoot := spread.tree.rootOnly live hung
      rw [spread.top] at isRoot
      exact absurd (Option.some.inj isRoot).symm inner
    | some above =>
      obtain ⟨names, id, upper, lower, isId⟩ := spread.hung live hung
      obtain ⟨key, found⟩ := live
      exact ⟨above, names, id, rfl, (spread.tree.parentLinks found hung).1, upper, lower, isId⟩
  constructor
  · have top : (kernel.heap loader).address = .path (descend base []) := by
      rw [spread.anchored]
      simp [descend]
    exact spread.place top
  · intro ref live inner
    obtain ⟨above, names, id, hung, aboveLive, upper, lower, isId⟩ := idOf live inner
    refine ⟨above, names.map Subtype.val, hung, aboveLive, spread.place upper, ?_⟩
    have place := spread.place lower
    rw [List.map_append] at place
    simp only [isId]
    exact place
  · intro first second firstLive secondLive firstInner secondInner same
    obtain ⟨_, _, firstId, _, _, _, _, isFirst⟩ := idOf firstLive firstInner
    obtain ⟨_, _, secondId, _, _, _, _, isSecond⟩ := idOf secondLive secondInner
    simp only [isFirst, isSecond] at same
    obtain ⟨key, found⟩ := firstLive
    obtain ⟨other, otherFound⟩ := secondLive
    have firstKey := (spread.tree.registered found).2
    have secondKey := (spread.tree.registered otherFound).2
    rw [isFirst] at firstKey
    rw [isSecond, ← same, firstKey] at secondKey
    cases secondKey
    exact Option.some.inj (found.symm.trans otherFound)

/-- The address of a new agent with a plain id. -/
theorem Spread.child_address {above : Nat} {names : Place} {id : Value} {address : Address}
    (upper : (kernel.heap above).address = .path (descend base names))
    (addressed : kernel.defaultAddress (some above) id = .ok address)
    (plain : ∀ text, id = .str text → PlainSegment text) :
    ∃ name : Segment, id = .str name.val ∧
      address = .path (descend base (names ++ [agentsDir, name])) := by
  obtain ⟨text, rfl⟩ := Kernel.defaultAddress_text addressed
  refine ⟨⟨text, plain text rfl⟩, rfl, ?_⟩
  have container : PlainSegment "agents" := agentsDir.property
  simp only [Kernel.defaultAddress, upper, spread.container, Address.join, bind, Except.bind,
    PurePath.join_plain container, PurePath.join_plain (plain text rfl)] at addressed
  rw [← Except.ok.inj addressed]
  simp [descend, agentsDir]

/-- A new agent under a live one. -/
theorem Spread.placed {self : Nat} {names : Place} {name : Segment} {key : DictKey} {agent : Agent}
    (live : kernel.Live self) (hashed : hashKey agent.id = .ok key)
    (fresh : kernel.agents.get? key = none) (hung : agent.parent = some self)
    (childless : agent.children = .empty)
    (upper : (kernel.heap self).address = .path (descend base names))
    (lower : agent.address = .path (descend base (names ++ [agentsDir, name])))
    (isName : agent.id = .str name.val) : Spread (kernel.place key agent) loader base := by
  have old := spread.tree.live_lt live
  have new : (kernel.place key agent).heap kernel.allocated = agent :=
    Kernel.place_heap_new hung old
  have fields {ref : Nat} (refLive : kernel.Live ref) :=
    @Kernel.place_sameFields kernel self key agent hung ref (spread.tree.live_lt refLive)
  have loaderLive := spread.loader_live.1
  have sameRecord : (kernel.place key agent).record loader = kernel.record loader := by
    apply record_congr (fields loaderLive)
    intro above parent
    rw [spread.loader_live.2] at parent
    cases parent
  constructor
  · exact Kernel.place_tree spread.tree hung live fresh hashed childless
  · rw [Kernel.place_root hung, spread.top]
  · rw [Kernel.place_childrenDir, spread.container]
  · rw [rootAddress_congr sameRecord (fields loaderLive), spread.owned]
  · rw [(fields loaderLive).address, spread.anchored]
  · intro ref above refLive parent
    obtain ⟨other, found⟩ := refLive
    rw [Kernel.place_get?] at found
    split at found
    · cases found
      rw [new] at parent ⊢
      rw [hung] at parent
      cases parent
      rw [(fields live).address]
      exact ⟨names, name, upper, lower, isName⟩
    · have refOld : kernel.Live ref := ⟨other, found⟩
      rw [(fields refOld).parent] at parent
      rw [(fields refOld).address, (fields refOld).id,
        (fields (spread.tree.parentLinks found parent).1).address]
      exact spread.hung refOld parent

theorem Spread.step {runtime : Runtime} {request : Request} (verb : request.verb = .createAgent)
    (neat : Neat runtime request) : Spread (kernel.step runtime request) loader base := by
  have effect := Kernel.step_effect runtime spread.tree request
  generalize kernel.step runtime request = next at effect
  cases effect with
  | refused => exact spread
  | @created self id key address _ live _ _ chosen placed hashed fresh _ =>
    obtain ⟨names, upper⟩ := spread.addressed live
    have plain : ∀ text, id = .str text → PlainSegment text := by
      intro text isText
      exact neat.2 text (isText ▸ chosen)
    obtain ⟨name, isName, lower⟩ := spread.child_address upper (placed neat.1) plain
    exact spread.placed live hashed fresh rfl rfl upper lower isName
  | updated other => cases verb.symm.trans other
  | deleted other => cases verb.symm.trans other

end Spread

/-! ### Runs of `create_agent` -/

/-- A root alone, which keeps its records in its own directory. -/
theorem Spread.alone {key : DictKey} {agent : Agent} {base : PurePath}
    (hashed : hashKey agent.id = .ok key) (top : agent.parent = none)
    (childless : agent.children = .empty) (address : agent.address = .path base)
    (own : ∀ text, getD agent.metadata "root" = .str text → text = "") :
    Spread (Kernel.fresh.place key agent) 0 base := by
  have heap : (Kernel.fresh.place key agent).heap 0 = agent := by
    simp [Kernel.place, Kernel.register, top, Kernel.fresh]
  have field : getD ((Kernel.fresh.place key agent).record 0) "root" = getD agent.metadata "root" := by
    rw [getD, Kernel.record, OrderedDict.get?_update, Kernel.recordFields_get?, heap]
    simp only [String.reduceEq, if_false, Option.or_none]
    rfl
  constructor
  · exact Kernel.place_root_tree rfl rfl top childless hashed
  · simp [Kernel.place, Kernel.register, top, Kernel.fresh]
  · rw [Kernel.place_childrenDir]
    rfl
  · unfold rootAddress
    rw [field, heap, address]
    split
    case h_1 text isText => rw [if_pos (own text isText)]
    case h_2 => rfl
  · rw [heap, address]
  · intro ref above live parent
    obtain ⟨other, found⟩ := live
    rw [Kernel.place_get?] at found
    split at found
    · cases found
      have bare : ((Kernel.fresh.place key agent).heap 0).parent = none := by rw [heap, top]
      cases bare.symm.trans parent
    · cases found

theorem Spread.start {id handlerModule : Value} {rootPath : Option PurePath} {metadata : Dict}
    {kernel : Kernel}
    (built : Kernel.fresh.construct id (rootPath.map .path) none handlerModule metadata = .ok kernel)
    (own : ∀ text, getD metadata "root" = .str text → text = "") :
    Spread kernel 0 (rootPath.getD (.ofString ".fantastic")) := by
  obtain ⟨address, key, hashed, addressed, rfl⟩ := Kernel.construct_ok built
  have isBase : address = .path (rootPath.getD (.ofString ".fantastic")) := by
    cases rootPath with
    | none =>
      obtain given | ⟨_, derived⟩ := addressed
      · cases given
      · exact (Except.ok.inj derived).symm
    | some path =>
      obtain given | ⟨absent, _⟩ := addressed
      · exact (Option.some.inj given).symm
      · cases absent
  exact Spread.alone hashed rfl rfl isBase own

theorem Spread.run {runtime : Runtime} {kernel : Kernel} {loader : Nat} {base : PurePath}
    {requests : List Request} (spread : Spread kernel loader base)
    (neat : ∀ request ∈ requests, request.verb = .createAgent ∧ Neat runtime request) :
    Spread (kernel.run runtime requests) loader base := by
  induction requests generalizing kernel with
  | nil => exact spread
  | cons request requests ih =>
    have first := neat request List.mem_cons_self
    exact ih (spread.step first.1 first.2) fun other later =>
      neat other (List.mem_cons_of_mem _ later)

end Fantastic.Python.Loader

import Fantastic.Rust.HydrationTree

/-!
# Runs of the tree verbs

What one message can do to the tree: nothing, a new agent, a patched meta, or a cascade.
Every message keeps the tables in agreement except one that deletes the root: the
cascade takes the whole registry away and leaves the root cell behind.
-/

namespace Fantastic.Rust.Kernel

variable {host : Host} {kernel : Kernel} {request : Request}

/-- What a message does to the kernel, up to inboxes made on the way. -/
inductive Effect (kernel : Kernel) (request : Request) : Kernel → Prop where
  | nothing : Effect kernel request kernel
  | created (parent : Nat) (handlerModule : String) (path : PurePath)
      (target : kernel.resolve request.target = some parent)
      (verb : textOf request.payload "type" = some "create_agent")
      (fresh : kernel.agents.get? (newRecord request.payload (kernel.heap parent).id handlerModule
        request.token).id = none) :
      Effect kernel request (kernel.adopt parent
        (.new (newRecord request.payload (kernel.heap parent).id handlerModule request.token)
          path false))
  | updated (id : String) (target : Nat) (found : kernel.agents.get? id = some target)
      (verb : textOf request.payload "type" = some "update_agent")
      (named : textOf request.payload "id" = some id) :
      Effect kernel request (kernel.modify target fun agent =>
        agent.updateMeta (request.payload.filterKeys fun key => key ∉ ["type", "id"]))
  | deleted (id : String) (target : Nat) (found : kernel.agents.get? id = some target)
      (verb : textOf request.payload "type" = some "delete_agent")
      (named : textOf request.payload "id" = some id)
      (free : kernel.findLockedDescendant kernel.allocated target = none) :
      Effect kernel request (cascadeDelete kernel.allocated kernel target)

/-- One message, case by case. -/
theorem step_effect (host : Host) (kernel : Kernel) (request : Request) :
    ∃ next, kernel.Effect request next ∧
      (step host kernel request = next ∨ ∃ id, step host kernel request = next.vivify id) := by
  unfold step send
  cases target : kernel.resolve request.target with
  | none => exact ⟨kernel, .nothing, Or.inl rfl⟩
  | some ref =>
    simp only
    split
    case h_1 verb =>
      unfold createFromPayload
      split
      · exact ⟨kernel, .nothing, Or.inl rfl⟩
      case h_2 handlerModule _ =>
        simp only
        split
        · exact ⟨kernel, .nothing, Or.inl rfl⟩
        case isFalse absent =>
          have fresh : kernel.agents.get? (newRecord request.payload (kernel.heap ref).id
              handlerModule request.token).id = none := by
            rw [OrderedDict.get?_eq_none_iff]
            intro present
            exact absent (OrderedDict.contains_iff.mpr present)
          refine ⟨_, .created ref handlerModule ((kernel.heap ref).childrenDir.join
            (newRecord request.payload (kernel.heap ref).id handlerModule request.token).id)
            target verb fresh, ?_⟩
          split
          · exact Or.inl rfl
          · exact Or.inr ⟨_, rfl⟩
    case h_2 verb =>
      unfold updateFromPayload
      split
      · exact ⟨kernel, .nothing, Or.inl rfl⟩
      case h_2 id named =>
        split
        · exact ⟨kernel, .nothing, Or.inl rfl⟩
        case h_2 found _ known => exact ⟨_, .updated id _ known verb named, Or.inr ⟨_, rfl⟩⟩
    case h_3 verb =>
      unfold deleteFromPayload
      split
      · exact ⟨kernel, .nothing, Or.inl rfl⟩
      case h_2 id named =>
        split
        · exact ⟨kernel, .nothing, Or.inl rfl⟩
        case h_2 found _ known =>
          split
          · exact ⟨kernel, .nothing, Or.inl rfl⟩
          case h_2 free => exact ⟨_, .deleted id _ known verb named free, Or.inr ⟨_, rfl⟩⟩
    case h_4 => exact ⟨kernel, .nothing, Or.inl rfl⟩

/-! ### The condition -/

/-- The message does not delete the root: it names another agent, or a lock below the
root refuses it. -/
def SparesRoot (kernel : Kernel) (request : Request) : Prop :=
  ∀ root, kernel.root = some root → textOf request.payload "type" = some "delete_agent" →
    textOf request.payload "id" = some (kernel.heap root).id →
    kernel.findLockedDescendant kernel.allocated root ≠ none

def CarefulRun (host : Host) : Kernel → List Request → Prop
  | _, [] => True
  | kernel, request :: requests =>
    kernel.SparesRoot request ∧ CarefulRun host (step host kernel request) requests

/-! ### Every verb keeps the tree -/

/-- The agent a message is for is registered, the root under its alias too. -/
theorem Tree.resolved (tree : kernel.Tree) {target : String} {ref : Nat}
    (found : kernel.resolve target = some ref) :
    kernel.agents.get? (kernel.heap ref).id = some ref := by
  unfold resolve at found
  split at found
  · obtain ⟨root, isRoot, rootFound, _⟩ := tree.rooted
    rw [isRoot] at found
    cases found
    exact rootFound
  · rw [(tree.registered found).1]
    exact found

/-- A change to an agent that keeps its id, its parent and its children keeps the tree. -/
theorem Tree.patched (tree : kernel.Tree) {ref : Nat} {change : Agent → Agent}
    (id : ∀ agent, (change agent).id = agent.id)
    (parentId : ∀ agent, (change agent).parentId = agent.parentId)
    (children : ∀ agent, (change agent).children = agent.children) :
    (kernel.modify ref change).Tree := by
  have ids : ∀ other, ((kernel.modify ref change).heap other).id = (kernel.heap other).id := by
    intro other
    simp only [modify, Function.update_apply]
    split
    case isTrue same => rw [id, same]
    case isFalse => rfl
  have parents : ∀ other, ((kernel.modify ref change).heap other).parentId =
      (kernel.heap other).parentId := by
    intro other
    simp only [modify, Function.update_apply]
    split
    case isTrue same => rw [parentId, same]
    case isFalse => rfl
  have lists : ∀ other, ((kernel.modify ref change).heap other).children =
      (kernel.heap other).children := by
    intro other
    simp only [modify, Function.update_apply]
    split
    case isTrue same => rw [children, same]
    case isFalse => rfl
  constructor
  · obtain ⟨root, isRoot, found, bare⟩ := tree.rooted
    exact ⟨root, isRoot, by rw [ids]; exact found, by rw [parents]; exact bare⟩
  · intro key other found
    rw [ids]
    exact tree.registered found
  · intro key other found inner
    obtain ⟨parentKey, above, named, aboveFound, listed, lower⟩ := tree.hung found inner
    exact ⟨parentKey, above, by rw [parents]; exact named, aboveFound,
      by rw [lists]; exact listed, lower⟩
  · intro upper above key other found child
    rw [lists] at child
    rw [parents]
    exact tree.listed found child

theorem Tree.effect (tree : kernel.Tree) (spares : kernel.SparesRoot request) {next : Kernel}
    (effect : kernel.Effect request next) : next.Tree := by
  cases effect with
  | nothing => exact tree
  | created parent handlerModule path target verb fresh =>
    exact tree.adopt (tree.resolved target) fresh rfl fun _ => rfl
  | updated id target found verb named =>
    exact tree.patched (fun _ => rfl) (fun _ => rfl) fun _ => rfl
  | deleted id target found verb named free =>
    have inner : kernel.root ≠ some target := by
      intro top
      apply spares target top verb _ free
      rw [(tree.registered found).1]
      exact named
    exact (cascadeDelete_trims kernel.allocated tree found inner (Nat.le_add_left _ _)).tree

theorem Tree.step (tree : kernel.Tree) (spares : kernel.SparesRoot request) :
    (step host kernel request).Tree := by
  obtain ⟨next, effect, same⟩ := step_effect host kernel request
  cases same with
  | inl same =>
    rw [same]
    exact tree.effect spares effect
  | inr made =>
    obtain ⟨id, same⟩ := made
    rw [same]
    exact (tree.effect spares effect).vivify id

theorem Tree.run (tree : kernel.Tree) {requests : List Request}
    (careful : CarefulRun host kernel requests) : (run host kernel requests).Tree := by
  induction requests generalizing kernel with
  | nil => exact tree
  | cons request requests ih => exact ih (tree.step careful.1) careful.2

/-! ### From a booted kernel -/

/-- How a kernel wakes. -/
inductive Boot where
  | memory (rootId : String)
  | disk (rootId : String) (workdir : PurePath) (store : Store)

namespace Boot

/-- `bootstrap`. -/
def start (host : Host) : Boot → Except String Kernel
  | .memory rootId => .ok (bootInMemory rootId)
  | .disk rootId workdir store => bootDisk host rootId workdir store

/-- The records on the disk agree with their places. -/
def Consistent (host : Host) : Boot → Prop
  | .memory _ => True
  | .disk rootId _ store => Rust.Consistent host rootId store

theorem Consistent.tree {boot : Boot} (consistent : boot.Consistent host)
    (booted : boot.start host = .ok kernel) : kernel.Tree := by
  cases boot with
  | memory rootId =>
    cases booted
    exact rootOnly_tree rfl
  | disk rootId workdir store =>
    obtain ⟨⟨record, read⟩, listable⟩ := bootDisk_listable booted
    rw [start, bootDisk_eq workdir read listable] at booted
    cases booted
    exact Rust.Consistent.tree consistent (directories_ne_nil read)

end Boot

/-- From a boot whose disk is consistent, messages that spare the root keep the registry,
the children maps, the parent ids and the root cell one tree. -/
theorem careful_runs_are_sound (host : Host) (boot : Boot) (kernel : Kernel)
    (requests : List Request) (consistent : boot.Consistent host)
    (booted : boot.start host = .ok kernel) (careful : CarefulRun host kernel requests) :
    (run host kernel requests).Sound :=
  ((consistent.tree booted).run careful).sound

/-! ### Two deletions -/

def verbPayload (verb id : String) : Dict :=
  (OrderedDict.empty.insert "type" (.str verb)).insert "id" (.str id)

def toCore (payload : Dict) : Request where
  target := "core"
  payload := payload
  token := "000000"
  unsaved := none

/-- An agent is created, and deleted again. -/
def createAndDelete : List Request :=
  [toCore ((verbPayload "create_agent" "notes").insert "handler_module" (.str "noop.tools")),
    toCore (verbPayload "delete_agent" "notes")]

theorem createAndDelete_careful :
    CarefulRun everyBundle (bootInMemory "core") createAndDelete := by
  refine ⟨?_, ?_, trivial⟩
  · intro root _ verb
    exact absurd verb (by decide)
  · intro root isRoot _ named
    have top : root = 0 := (Option.some.inj isRoot).symm
    rw [top] at named
    exact absurd named (by decide)

theorem created_and_deleted_is_sound :
    Boot.Consistent everyBundle (.memory "core") ∧
      CarefulRun everyBundle (bootInMemory "core") createAndDelete ∧
      (run everyBundle (bootInMemory "core") createAndDelete).Sound :=
  ⟨trivial, createAndDelete_careful,
    careful_runs_are_sound everyBundle (.memory "core") _ createAndDelete trivial rfl
      createAndDelete_careful⟩

/-- Deleting the root leaves a root cell that names nobody. -/
theorem deleted_root_is_dangling :
    ¬ (run everyBundle (bootInMemory "core") [toCore (verbPayload "delete_agent" "core")]).Sound := by
  intro sound
  obtain ⟨root, isRoot, found⟩ := sound.rootNamed
  have top : root = 0 := by
    have cell : (run everyBundle (bootInMemory "core")
        [toCore (verbPayload "delete_agent" "core")]).root = some 0 := by
      decide +kernel
    rw [cell] at isRoot
    exact (Option.some.inj isRoot).symm
  rw [top] at found
  revert found
  decide +kernel

end Fantastic.Rust.Kernel

import Fantastic.Python.RegistryRuns

/-!
# Cascades that other requests run into

`_cascade_delete` awaits a bundle's `on_delete` before it takes an agent out, and every
such hook is a place where other requests run. A cascade in flight is a stack of the
calls that have begun: each has listed the keys of its children once, and looks the next
one up when it gets there. The innermost call waits for its hook.

A step of the plant is a whole request of another kind, the admission of a
`delete_agent` (the cascade then runs up to its first hook), or the return of the hook a
cascade waits for (it then runs up to the next). A hook that raises is caught, and the
cascade goes on as if it had returned.
-/

namespace Fantastic.Python.Kernel

/-- One call of `_cascade_delete` that has begun, with the children it has yet to visit. -/
structure Frame where
  ref : Nat
  pending : List DictKey

/-- A `delete_agent` that was admitted. `admitted` remembers the subtree as it stood then;
the code keeps no such list. The stack is empty once the request is over. -/
structure Walk where
  target : Nat
  admitted : List Nat
  stack : List Frame
  raised : Bool

structure Plant where
  kernel : Kernel
  walks : List Walk

/-- The subtree below an agent, along `_children`. -/
def subtree (kernel : Kernel) : Nat → Nat → List Nat
  | 0, ref => [ref]
  | fuel + 1, ref => ref :: (kernel.heap ref).children.items.flatMap (kernel.subtree fuel)

/-- `_cascade_delete` from its first line to the first hook below: list the children,
step into the first one, and so on down. -/
def enter (kernel : Kernel) : Nat → Nat → List Frame → List Frame
  | 0, ref, outer => ⟨ref, []⟩ :: outer
  | fuel + 1, ref, outer =>
    match (kernel.heap ref).children.entries with
    | [] => ⟨ref, []⟩ :: outer
    | (_, child) :: rest => kernel.enter fuel child (⟨ref, rest.map Prod.fst⟩ :: outer)

/-- Back in the loop over the listed keys: the next child, or this agent's own hook.
Nothing when `self._children[cid]` raises `KeyError`, which no caller catches. -/
def advance (kernel : Kernel) : List Frame → Option (List Frame)
  | [] => some []
  | frame :: outer =>
    match frame.pending with
    | [] => some (frame :: outer)
    | key :: keys =>
      match (kernel.heap frame.ref).children.get? key with
      | none => none
      | some child => some (kernel.enter kernel.allocated child (⟨frame.ref, keys⟩ :: outer))

/-- The hook of the innermost call is back: the agent leaves the registry and its
parent, and the cascade runs on. -/
def resume (kernel : Kernel) (walk : Walk) : Kernel × Walk :=
  match walk.stack with
  | [] => (kernel, walk)
  | top :: outer =>
    let removed := kernel.removeOne top.ref
    match removed.advance outer with
    | some stack => (removed, { walk with stack := stack })
    | none => (removed, { walk with stack := [], raised := true })

/-- The agent a `delete_agent` starts its cascade at, once every check has passed. -/
def admits (kernel : Kernel) (request : Request) : Option Nat :=
  let id := getD request.payload "id"
  match kernel.root, kernel.resolveTarget request.target, hashKey id with
  | some _, .ok (some _), .ok key =>
    if truthy id then
      match kernel.agents.get? key with
      | none => none
      | some target =>
        if (kernel.findLockedDescendant kernel.allocated target).isNone then some target
        else none
    else none
  | _, _, _ => none

namespace Plant

inductive Action where
  | request (request : Request)
  | resume (index : Nat)

def begin (kernel : Kernel) (target : Nat) : Walk where
  target := target
  admitted := kernel.subtree kernel.allocated target
  stack := kernel.enter kernel.allocated target []
  raised := false

def step (runtime : Runtime) (plant : Plant) : Action → Plant
  | .request request =>
    if request.verb = .deleteAgent then
      match plant.kernel.admits request with
      | none => plant
      | some target => { plant with walks := plant.walks ++ [begin plant.kernel target] }
    else { plant with kernel := plant.kernel.step runtime request }
  | .resume index =>
    match plant.walks[index]? with
    | none => plant
    | some walk =>
      let (kernel, later) := plant.kernel.resume walk
      ⟨kernel, plant.walks.set index later⟩

def run (runtime : Runtime) (plant : Plant) (actions : List Action) : Plant :=
  actions.foldl (step runtime) plant

end Plant

/-! ### Going up -/

def Up (kernel : Kernel) (lower upper : Nat) : Prop :=
  (kernel.heap lower).parent = some upper

/-- The second agent is the first one or above it. -/
abbrev Ascends (kernel : Kernel) : Nat → Nat → Prop :=
  Relation.ReflTransGen kernel.Up

variable {kernel after : Kernel} {lower upper : Nat}

theorem Tree.live_of_up (tree : kernel.Tree) (live : kernel.Live lower)
    (up : kernel.Up lower upper) : kernel.Live upper := by
  obtain ⟨key, found⟩ := live
  exact (tree.parentLinks found up).1

theorem Tree.live_of_ascends (tree : kernel.Tree) (live : kernel.Live lower)
    (ascends : kernel.Ascends lower upper) : kernel.Live upper := by
  induction ascends with
  | refl => exact live
  | tail _ up ih => exact tree.live_of_up ih up

theorem up_rightUnique (kernel : Kernel) : Relator.RightUnique kernel.Up := by
  intro lower first second left right
  exact Option.some.inj (left.symm.trans right)

/-- Who is above a live agent depends on the parents of live agents only. -/
theorem Tree.ascends_congr (tree : kernel.Tree) (live : kernel.Live lower)
    (parents : ∀ ref, kernel.Live ref → (after.heap ref).parent = (kernel.heap ref).parent) :
    after.Ascends lower upper ↔ kernel.Ascends lower upper := by
  constructor
  · intro ascends
    induction ascends with
    | refl => exact .refl
    | tail _ up ih =>
      apply ih.tail
      unfold Up at up ⊢
      rw [← parents _ (tree.live_of_ascends live ih)]
      exact up
  · intro ascends
    induction ascends with
    | refl => exact .refl
    | tail earlier up ih =>
      apply ih.tail
      unfold Up at up ⊢
      rw [parents _ (tree.live_of_ascends live earlier)]
      exact up

/-- The remembered subtree is the live part below an agent. Children are younger than
their parents, which bounds the depth. -/
theorem Tree.mem_subtree_iff (tree : kernel.Tree) (fuel : Nat) {ref : Nat}
    (live : kernel.Live ref) (enough : kernel.allocated ≤ ref + fuel) {member : Nat} :
    member ∈ kernel.subtree fuel ref ↔ kernel.Live member ∧ kernel.Ascends member ref := by
  induction fuel generalizing ref with
  | zero =>
    have inside := tree.live_lt live
    omega
  | succ fuel ih =>
    rw [subtree, List.mem_cons, List.mem_flatMap]
    constructor
    · intro within
      obtain rfl | ⟨child, listed, deeper⟩ := within
      · exact ⟨live, .refl⟩
      · obtain ⟨⟨key, item⟩, entry, isChild⟩ := List.mem_map.mp listed
        cases isChild
        obtain ⟨found, up⟩ := tree.childLinks live (OrderedDict.mem_entries_iff.mp entry)
        have older := (tree.parentLinks found up).2.1
        obtain ⟨memberLive, ascends⟩ := (ih ⟨key, found⟩ (by omega)).mp deeper
        exact ⟨memberLive, ascends.tail up⟩
    · intro below
      obtain ⟨memberLive, ascends⟩ := below
      obtain same | ⟨child, deeper, up⟩ := Relation.ReflTransGen.cases_tail_iff _ _ _ |>.mp ascends
      · exact Or.inl same.symm
      · right
        obtain ⟨key, found⟩ := tree.live_of_ascends memberLive deeper
        obtain ⟨-, older, linked⟩ := tree.parentLinks found up
        refine ⟨child, ?_, (ih ⟨key, found⟩ (by omega)).mpr ⟨memberLive, deeper⟩⟩
        exact List.mem_map.mpr ⟨(key, child), OrderedDict.mem_entries_iff.mpr linked, rfl⟩

end Fantastic.Python.Kernel

import Fantastic.Python.SnapshotRuns

/-!
# The registry along whole runs

The flat registry, the parent pointers, the child tables and `ctx.root` say the same
thing in every kernel that the three tree verbs reach, as long as no `delete_agent`
takes the root. `Kernel.delete` refuses the root; the verb goes through `Agent.delete`,
which does not.
-/

namespace Fantastic.Python.Kernel

variable {kernel start : Kernel} {runtime : Runtime} {request : Request}

/-- One `_children` link. -/
def ChildOf (kernel : Kernel) (upper lower : Nat) : Prop :=
  ∃ key, (kernel.heap upper).children.get? key = some lower

/-- The registry is exactly the tree below `ctx.root`. -/
structure Exact (kernel : Kernel) : Prop where
  rooted : ∃ root, kernel.root = some root ∧ kernel.Live root
  reached : ∀ {root}, kernel.root = some root →
    ∀ ref, kernel.Live ref ↔ Relation.ReflTransGen kernel.ChildOf root ref
  hung : ∀ {ref}, kernel.Live ref → kernel.root ≠ some ref →
    ∃ above key, (kernel.heap ref).parent = some above ∧ kernel.Live above ∧
      hashKey (kernel.heap ref).id = .ok key ∧
      (kernel.heap above).children.get? key = some ref

theorem Tree.live_of_reached (tree : kernel.Tree) {root ref : Nat} (live : kernel.Live root)
    (reached : Relation.ReflTransGen kernel.ChildOf root ref) : kernel.Live ref := by
  induction reached with
  | refl => exact live
  | tail _ link ih =>
    obtain ⟨key, linked⟩ := link
    exact ⟨key, (tree.childLinks ih linked).1⟩

/-- Parents are older than their children, so the induction is on the reference. -/
theorem Tree.reached_of_live (tree : kernel.Tree) {root : Nat} (isRoot : kernel.root = some root)
    (ref : Nat) (live : kernel.Live ref) : Relation.ReflTransGen kernel.ChildOf root ref := by
  induction ref using Nat.strong_induction_on with
  | h ref ih =>
    obtain ⟨key, found⟩ := live
    cases hung : (kernel.heap ref).parent with
    | none =>
      have top := tree.rootOnly ⟨key, found⟩ hung
      rw [isRoot] at top
      cases top
      exact .refl
    | some above =>
      obtain ⟨aboveLive, older, linked⟩ := tree.parentLinks found hung
      exact (ih above older aboveLive).tail ⟨key, linked⟩

theorem Tree.exact (tree : kernel.Tree) : kernel.Exact where
  rooted := by
    obtain ⟨root, isRoot, live, -⟩ := tree.rootLive
    exact ⟨root, isRoot, live⟩
  reached := by
    intro root isRoot ref
    obtain ⟨top, isTop, topLive, -⟩ := tree.rootLive
    have same : top = root := Option.some.inj (isTop.symm.trans isRoot)
    subst same
    constructor
    · exact tree.reached_of_live isRoot ref
    · exact tree.live_of_reached topLive
  hung := by
    intro ref live notRoot
    obtain ⟨key, found⟩ := live
    cases hung : (kernel.heap ref).parent with
    | none => exact absurd (tree.rootOnly ⟨key, found⟩ hung) notRoot
    | some above =>
      obtain ⟨aboveLive, -, linked⟩ := tree.parentLinks found hung
      exact ⟨above, key, rfl, aboveLive, (tree.registered found).2, linked⟩

/-! ### Requests that take the root -/

/-- A `delete_agent` that reaches an agent, names the root, and finds no lock. -/
def DeletesRoot (kernel : Kernel) (request : Request) : Prop :=
  request.verb = .deleteAgent ∧
    (∃ self, kernel.resolveTarget request.target = .ok (some self)) ∧
    truthy (getD request.payload "id") = true ∧
    ∃ root, kernel.root = some root ∧
      hashKey (getD request.payload "id") = hashKey (kernel.heap root).id ∧
      kernel.findLockedDescendant kernel.allocated root = none

def SparingRun (runtime : Runtime) : Kernel → List Request → Prop
  | _, [] => True
  | kernel, request :: rest =>
    ¬ DeletesRoot kernel request ∧ SparingRun runtime (kernel.step runtime request) rest

/-- A `delete_agent` that reaches nobody, or names nobody, changes nothing. -/
theorem step_delete_idle (verb : request.verb = .deleteAgent)
    (idle : (∀ self, kernel.resolveTarget request.target ≠ .ok (some self)) ∨
      truthy (getD request.payload "id") = false) :
    kernel.step runtime request = kernel := by
  unfold step send
  cases kernel.root with
  | none => rfl
  | some root =>
    cases resolved : kernel.resolveTarget request.target with
    | error failure => rfl
    | ok target =>
      cases target with
      | none => rfl
      | some self =>
        obtain nobody | unnamed := idle
        · exact absurd resolved (nobody self)
        · simp [bind, Except.bind, handleSystemVerb, verb, verbDeleteAgent, unnamed]

theorem step_deletesRoot (tree : kernel.Tree) (deletes : DeletesRoot kernel request) :
    ∃ root, kernel.root = some root ∧
      kernel.step runtime request = cascadeDelete kernel.allocated kernel root := by
  obtain ⟨verb, ⟨self, resolved⟩, named, root, isRoot, same, unlocked⟩ := deletes
  refine ⟨root, isRoot, ?_⟩
  obtain ⟨top, isTop, ⟨key, found⟩, -⟩ := tree.rootLive
  rw [isRoot] at isTop
  cases isTop
  rw [(tree.registered found).2] at same
  simp [step, send, isRoot, resolved, bind, Except.bind, handleSystemVerb, verb, verbDeleteAgent,
    named, delete, same, found, unlocked, pure, Except.pure]

/-- One request that spares the root keeps the tree. -/
theorem Tree.step (tree : kernel.Tree) (spares : ¬ DeletesRoot kernel request) :
    (kernel.step runtime request).Tree := by
  by_cases idle : request.verb = .deleteAgent ∧
      ((∀ self, kernel.resolveTarget request.target ≠ .ok (some self)) ∨
        truthy (getD request.payload "id") = false)
  · rw [step_delete_idle idle.1 idle.2]
    exact tree
  have effect := step_effect runtime tree request
  generalize kernel.step runtime request = next at effect ⊢
  cases effect with
  | refused => exact tree
  | created verb live targeted handled chosen placed hashed fresh unclashed =>
    exact place_tree tree rfl live fresh hashed rfl
  | updated verb hashed found unclashed => exact patched_tree tree _ _
  | @deleted key target verb hashed found unlocked =>
    cases hung : (kernel.heap target).parent with
    | some above =>
      exact (cascadeDelete_pruned _ tree found hung (by omega)).removals.tree tree
    | none =>
      have isRoot := tree.rootOnly ⟨key, found⟩ hung
      have active := not_and.mp idle verb
      rw [not_or, not_forall] at active
      obtain ⟨⟨self, resolved⟩, named⟩ := active
      exact absurd ⟨verb, ⟨self, not_not.mp resolved⟩, Bool.eq_true_of_not_eq_false named,
        target, isRoot, hashed.trans (tree.registered found).2.symm, unlocked⟩ spares

theorem not_exact_of_deletesRoot (tree : kernel.Tree) (deletes : DeletesRoot kernel request) :
    ¬ (kernel.step runtime request).Exact := by
  intro exact
  obtain ⟨root, isRoot, same⟩ := step_deletesRoot tree deletes
  obtain ⟨top, isTop, ⟨key, found⟩, -⟩ := tree.rootLive
  rw [isRoot] at isTop
  cases isTop
  obtain ⟨sameRoot, gone⟩ := cascadeDelete_root tree found
  obtain ⟨left, isLeft, live⟩ := exact.rooted
  rw [same] at isLeft live
  rw [sameRoot, isRoot] at isLeft
  cases isLeft
  exact gone live

/-! ### Runs -/

/-- A freshly built kernel: the first agent of a kernel that has none. -/
structure FreshlyRooted (start : Kernel) : Prop where
  built : ∃ (empty : Kernel) (id : Value) (rootPath : Option Address) (handlerModule : Value)
    (metadata : Dict), empty.agents = .empty ∧ empty.root = none ∧
      empty.construct id rootPath none handlerModule metadata = .ok start

theorem FreshlyRooted.tree (fresh : FreshlyRooted start) : start.Tree := by
  obtain ⟨empty, id, rootPath, handlerModule, metadata, noAgents, noRoot, built⟩ := fresh.built
  obtain ⟨address, key, hashed, -, rfl⟩ := construct_ok built
  exact place_root_tree noAgents noRoot rfl rfl hashed

theorem Tree.exact_run_iff (tree : kernel.Tree) (requests : List Request) :
    (∀ done, done <+: requests → (kernel.run runtime done).Exact) ↔
      SparingRun runtime kernel requests := by
  induction requests generalizing kernel with
  | nil =>
    constructor
    · intro _
      trivial
    · intro _ done within
      rw [List.prefix_nil.mp within]
      exact tree.exact
  | cons request rest ih =>
    constructor
    · intro always
      have spares : ¬ DeletesRoot kernel request := fun deletes =>
        not_exact_of_deletesRoot tree deletes (always [request] (by simp))
      refine ⟨spares, (ih (tree.step spares)).mp ?_⟩
      intro done within
      exact always (request :: done) (List.cons_prefix_cons.mpr ⟨rfl, within⟩)
    · intro sparing done within
      obtain ⟨spares, sparingRest⟩ := sparing
      cases done with
      | nil => exact tree.exact
      | cons first others =>
        obtain ⟨rfl, others⟩ := List.cons_prefix_cons.mp within
        exact (ih (tree.step spares)).mpr sparingRest _ others

/-- In every kernel a run reaches, the registry is exactly the tree below the root: as
long as no request of the run deletes the root, and no longer than that. -/
theorem registry_exact_iff (fresh : FreshlyRooted start) (runtime : Runtime)
    (requests : List Request) :
    (∀ done, done <+: requests → (start.run runtime done).Exact) ↔
      SparingRun runtime start requests :=
  fresh.tree.exact_run_iff requests

theorem soleRoot_fresh : FreshlyRooted soleRoot :=
  ⟨Kernel.fresh, .str "root", none, .null, .empty, rfl, rfl, rfl⟩

theorem notes_run_spares_root :
    FreshlyRooted soleRoot ∧
      ∀ done, done <+: notesRequests → (soleRoot.run permissive done).Exact := by
  constructor
  · exact soleRoot_fresh
  apply (registry_exact_iff soleRoot_fresh permissive notesRequests).mpr
  refine ⟨?_, ?_, ?_, ?_, trivial⟩
  · intro deletes
    cases deletes.1
  · intro deletes
    cases deletes.1
  · intro deletes
    obtain ⟨-, -, -, root, isRoot, same, -⟩ := deletes
    have top : root = 0 := Option.some.inj (isRoot.symm.trans (by decide))
    subst top
    exact absurd same (by decide)
  · intro deletes
    cases deletes.1

/-- `delete_agent` for the root's own id empties the registry under `ctx.root`. -/
theorem root_is_deletable :
    FreshlyRooted soleRoot ∧
      ¬ (soleRoot.run permissive [rootRequest .deleteAgent
        (OrderedDict.empty.insert "id" (Value.str "root"))]).Exact := by
  refine ⟨soleRoot_fresh, ?_⟩
  have deletes : DeletesRoot soleRoot (rootRequest .deleteAgent
      (OrderedDict.empty.insert "id" (Value.str "root"))) :=
    ⟨rfl, ⟨0, by decide⟩, by decide, 0, by decide, by decide, by decide⟩
  exact @not_exact_of_deletesRoot _ permissive _ soleRoot_fresh.tree deletes

end Fantastic.Python.Kernel

import Fantastic.Rust.Kernel
import Mathlib.Logic.Relation

/-!
# The tree behind the Rust registry

Four tables describe one tree: the registry, the children maps, the parent ids and the
root cell. They agree when the kernel is a `Tree`: references grow from parent to child,
so every chain of parents ends. A new agent under a registered one keeps the agreement,
and so does the removal of a leaf. A cascade is nothing but removals of leaves.
-/

namespace Fantastic.Rust.Kernel

variable {host : Host} {kernel : Kernel}

/-! ### The agreement of the tables -/

structure Tree (kernel : Kernel) : Prop where
  rooted : ∃ root, kernel.root = some root ∧
    kernel.agents.get? (kernel.heap root).id = some root ∧ (kernel.heap root).parentId = none
  registered : ∀ {key ref}, kernel.agents.get? key = some ref →
    (kernel.heap ref).id = key ∧ ref < kernel.allocated
  hung : ∀ {key ref}, kernel.agents.get? key = some ref → kernel.root ≠ some ref →
    ∃ parentId above, (kernel.heap ref).parentId = some parentId ∧
      kernel.agents.get? parentId = some above ∧
      (kernel.heap above).children.get? key = some ref ∧ above < ref
  listed : ∀ {upper above key ref}, kernel.agents.get? upper = some above →
    (kernel.heap above).children.get? key = some ref →
    kernel.agents.get? key = some ref ∧ (kernel.heap ref).parentId = some upper

/-- One step up the parent ids. -/
def ParentOf (kernel : Kernel) (child above : String) : Prop :=
  ∃ ref, kernel.agents.get? child = some ref ∧ (kernel.heap ref).parentId = some above

/-- The registry, the children maps, the parent ids and the root cell describe one tree. -/
structure Sound (kernel : Kernel) : Prop where
  rootNamed : ∃ root, kernel.root = some root ∧
    kernel.agents.get? (kernel.heap root).id = some root
  parents : ∀ key ref, kernel.agents.get? key = some ref → kernel.root ≠ some ref →
    ∃ parentId above, (kernel.heap ref).parentId = some parentId ∧
      kernel.agents.get? parentId = some above ∧
      (kernel.heap above).children.get? key = some ref
  children : ∀ upper above key ref, kernel.agents.get? upper = some above →
    (kernel.heap above).children.get? key = some ref →
    kernel.agents.get? key = some ref ∧ (kernel.heap ref).id = key ∧
      (kernel.heap ref).parentId = some upper
  chains : ∀ root key ref, kernel.root = some root → kernel.agents.get? key = some ref →
    Relation.ReflTransGen kernel.ParentOf key (kernel.heap root).id

theorem Tree.chain (tree : kernel.Tree) {root : Nat} (isRoot : kernel.root = some root)
    {key : String} {ref : Nat} (found : kernel.agents.get? key = some ref) :
    Relation.ReflTransGen kernel.ParentOf key (kernel.heap root).id := by
  -- references fall from child to parent
  induction ref using Nat.strongRecOn generalizing key with
  | ind ref ih =>
    by_cases top : kernel.root = some ref
    · rw [isRoot] at top
      cases top
      rw [(tree.registered found).1]
    · obtain ⟨parentId, above, named, aboveFound, _, lower⟩ := tree.hung found top
      exact .head ⟨ref, found, named⟩ (ih above lower aboveFound)

theorem Tree.sound (tree : kernel.Tree) : kernel.Sound where
  rootNamed := by
    obtain ⟨root, isRoot, found, _⟩ := tree.rooted
    exact ⟨root, isRoot, found⟩
  parents := by
    intro key ref found inner
    obtain ⟨parentId, above, named, aboveFound, child, _⟩ := tree.hung found inner
    exact ⟨parentId, above, named, aboveFound, child⟩
  children := by
    intro upper above key ref found child
    obtain ⟨childFound, named⟩ := tree.listed found child
    exact ⟨childFound, (tree.registered childFound).1, named⟩
  chains := by
    intro root key ref isRoot found
    exact tree.chain isRoot found

/-- A child has a larger reference than its parent. -/
theorem Tree.child_above (tree : kernel.Tree) {upper key : String} {above ref : Nat}
    (found : kernel.agents.get? upper = some above)
    (child : (kernel.heap above).children.get? key = some ref) : above < ref := by
  obtain ⟨childFound, named⟩ := tree.listed found child
  by_cases top : kernel.root = some ref
  · obtain ⟨root, isRoot, _, bare⟩ := tree.rooted
    rw [isRoot] at top
    cases top
    rw [bare] at named
    cases named
  · obtain ⟨parentId, other, otherNamed, otherFound, _, lower⟩ := tree.hung childFound top
    rw [named] at otherNamed
    cases otherNamed
    rw [found] at otherFound
    cases otherFound
    exact lower

theorem Tree.child_inner (tree : kernel.Tree) {upper key : String} {above ref : Nat}
    (found : kernel.agents.get? upper = some above)
    (child : (kernel.heap above).children.get? key = some ref) : kernel.root ≠ some ref := by
  intro top
  obtain ⟨_, named⟩ := tree.listed found child
  obtain ⟨root, isRoot, _, bare⟩ := tree.rooted
  rw [isRoot] at top
  cases top
  rw [bare] at named
  cases named

/-- Two keys never share an agent. -/
theorem Tree.key_unique (tree : kernel.Tree) {first second : String} {ref : Nat}
    (left : kernel.agents.get? first = some ref) (right : kernel.agents.get? second = some ref) :
    first = second :=
  (tree.registered left).1.symm.trans (tree.registered right).1

/-! ### What a change leaves alone -/

/-- The part of an agent that only its owner changes. -/
structure SameFields (after before : Agent) : Prop where
  id : after.id = before.id
  handlerModule : after.handlerModule = before.handlerModule
  parentId : after.parentId = before.parentId
  metadata : after.metadata = before.metadata
  rootPath : after.rootPath = before.rootPath
  ephemeral : after.ephemeral = before.ephemeral

theorem SameFields.refl (agent : Agent) : SameFields agent agent :=
  ⟨rfl, rfl, rfl, rfl, rfl, rfl⟩

theorem SameFields.trans {first second third : Agent} (late : SameFields third second)
    (early : SameFields second first) : SameFields third first :=
  ⟨late.id.trans early.id, late.handlerModule.trans early.handlerModule,
    late.parentId.trans early.parentId, late.metadata.trans early.metadata,
    late.rootPath.trans early.rootPath, late.ephemeral.trans early.ephemeral⟩

@[simp] theorem vivify_heap (kernel : Kernel) (id : String) :
    (kernel.vivify id).heap = kernel.heap := by
  unfold vivify
  split <;> rfl

@[simp] theorem vivify_allocated (kernel : Kernel) (id : String) :
    (kernel.vivify id).allocated = kernel.allocated := by
  unfold vivify
  split <;> rfl

@[simp] theorem vivify_agents (kernel : Kernel) (id : String) :
    (kernel.vivify id).agents = kernel.agents := by
  unfold vivify
  split <;> rfl

@[simp] theorem vivify_root (kernel : Kernel) (id : String) :
    (kernel.vivify id).root = kernel.root := by
  unfold vivify
  split <;> rfl

/-- An inbox made on the way changes nothing about the tree. -/
theorem Tree.vivify (tree : kernel.Tree) (id : String) : (kernel.vivify id).Tree where
  rooted := by
    rw [vivify_heap, vivify_agents, vivify_root]
    exact tree.rooted
  registered := by
    rw [vivify_heap, vivify_agents, vivify_allocated]
    exact tree.registered
  hung := by
    rw [vivify_heap, vivify_agents, vivify_root]
    exact tree.hung
  listed := by
    rw [vivify_heap, vivify_agents]
    exact tree.listed

/-! ### A new agent -/

section Adopt

variable {parent : Nat} {agent : Agent}

theorem adopt_agents :
    (kernel.adopt parent agent).agents = kernel.agents.insert agent.id kernel.allocated := by
  simp [adopt, modify, register, allocate]

@[simp] theorem adopt_allocated :
    (kernel.adopt parent agent).allocated = kernel.allocated + 1 := rfl

@[simp] theorem adopt_root : (kernel.adopt parent agent).root = kernel.root := rfl

theorem adopt_heap (old : parent < kernel.allocated) (ref : Nat) :
    (kernel.adopt parent agent).heap ref =
      if ref = parent then
        { kernel.heap parent with
          children := (kernel.heap parent).children.insert agent.id kernel.allocated }
      else if ref = kernel.allocated then agent
      else kernel.heap ref := by
  have apart : parent ≠ kernel.allocated := by omega
  simp only [adopt, modify, register, allocate, Function.update_apply, if_neg apart]

theorem adopt_heap_new (old : parent < kernel.allocated) :
    (kernel.adopt parent agent).heap kernel.allocated = agent := by
  rw [adopt_heap old, if_neg (by omega), if_pos rfl]

theorem adopt_fields (old : parent < kernel.allocated) {ref : Nat} (known : ref < kernel.allocated) :
    SameFields ((kernel.adopt parent agent).heap ref) (kernel.heap ref) := by
  rw [adopt_heap old]
  split
  case isTrue same =>
    rw [same]
    exact ⟨rfl, rfl, rfl, rfl, rfl, rfl⟩
  case isFalse =>
    rw [if_neg (by omega)]
    exact .refl _

/-- The children of an agent after another one was added. -/
theorem adopt_children (old : parent < kernel.allocated) {ref : Nat}
    (known : ref < kernel.allocated) (key : String) :
    ((kernel.adopt parent agent).heap ref).children.get? key =
      if ref = parent ∧ key = agent.id then some kernel.allocated
      else (kernel.heap ref).children.get? key := by
  rw [adopt_heap old]
  by_cases same : ref = parent
  · rw [if_pos same, OrderedDict.get?_insert]
    by_cases here : key = agent.id
    · rw [if_pos here, if_pos ⟨same, here⟩]
    · rw [if_neg here, if_neg fun both => here both.2, same]
  · rw [if_neg same, if_neg (by omega), if_neg fun both => same both.1]

/-- An agent with a new id under a registered one. -/
theorem Tree.adopt (tree : kernel.Tree) {upper : String}
    (found : kernel.agents.get? upper = some parent) (new : kernel.agents.get? agent.id = none)
    (named : agent.parentId = some upper) (bare : ∀ key, agent.children.get? key = none) :
    (kernel.adopt parent agent).Tree := by
  have old := (tree.registered found).2
  have known : ∀ {key ref}, kernel.agents.get? key = some ref → ref < kernel.allocated :=
    fun entry => (tree.registered entry).2
  have get : ∀ key, (kernel.adopt parent agent).agents.get? key =
      if key = agent.id then some kernel.allocated else kernel.agents.get? key := by
    intro key
    rw [adopt_agents, OrderedDict.get?_insert]
  have kept : ∀ {key ref}, kernel.agents.get? key = some ref →
      (kernel.adopt parent agent).agents.get? key = some ref := by
    intro key ref entry
    rw [get, if_neg, entry]
    intro same
    rw [same, new] at entry
    cases entry
  constructor
  · obtain ⟨root, isRoot, rootFound, top⟩ := tree.rooted
    have fields := @adopt_fields kernel parent agent old root (known rootFound)
    refine ⟨root, isRoot, ?_, ?_⟩
    · rw [fields.id]
      exact kept rootFound
    · rw [fields.parentId]
      exact top
  · intro key ref entry
    rw [get] at entry
    split at entry
    case isTrue same =>
      cases entry
      rw [adopt_heap_new old, adopt_allocated]
      exact ⟨same.symm, Nat.lt_succ_self _⟩
    case isFalse =>
      obtain ⟨id, below⟩ := tree.registered entry
      rw [(adopt_fields old below).id, adopt_allocated]
      exact ⟨id, Nat.lt_succ_of_lt below⟩
  · intro key ref entry inner
    rw [get] at entry
    split at entry
    case isTrue same =>
      cases entry
      refine ⟨upper, parent, ?_, kept found, ?_, old⟩
      · rw [adopt_heap_new old]
        exact named
      · rw [adopt_children old old, if_pos ⟨rfl, same⟩]
    case isFalse =>
      obtain ⟨parentId, above, child, aboveFound, listed, lower⟩ := tree.hung entry inner
      refine ⟨parentId, above, ?_, kept aboveFound, ?_, lower⟩
      · rw [(adopt_fields old (known entry)).parentId]
        exact child
      · rw [adopt_children old (known aboveFound), if_neg, listed]
        intro both
        rw [both.2, new] at entry
        cases entry
  · intro upperKey above key ref aboveFound child
    rw [get] at aboveFound
    split at aboveFound
    case isTrue =>
      cases aboveFound
      rw [adopt_heap_new old, bare] at child
      cases child
    case isFalse =>
      rw [adopt_children old (known aboveFound)] at child
      split at child
      case isTrue both =>
        cases child
        rw [both.1] at aboveFound
        have sameUpper := tree.key_unique aboveFound found
        refine ⟨?_, ?_⟩
        · rw [get, if_pos both.2]
        · rw [adopt_heap_new old, sameUpper]
          exact named
      case isFalse =>
        obtain ⟨childFound, childNamed⟩ := tree.listed aboveFound child
        refine ⟨kept childFound, ?_⟩
        rw [(adopt_fields old (known childFound)).parentId]
        exact childNamed

end Adopt

/-! ### Removing a leaf, and a whole subtree -/

/-- What the removal of an agent with all below it leaves behind. -/
structure Trimmed (before after : Kernel) (top : Nat) : Prop where
  tree : after.Tree
  root : after.root = before.root
  allocated : after.allocated = before.allocated
  gone : after.agents.get? (before.heap top).id = none
  shrinks : ∀ key ref, after.agents.get? key = some ref → before.agents.get? key = some ref
  kept : ∀ key ref, before.agents.get? key = some ref → ref < top →
    after.agents.get? key = some ref
  fields : ∀ ref, SameFields (after.heap ref) (before.heap ref)
  above : ∀ upper ref, before.agents.get? upper = some ref → ref < top → ∀ key,
    (after.heap ref).children.get? key =
      if key = (before.heap top).id then none else (before.heap ref).children.get? key

section Detach

variable {key : String} {top : Nat}

/-- The registered parent of a registered agent that is not the root. -/
theorem Tree.detach_eq (tree : kernel.Tree) (found : kernel.agents.get? key = some top)
    (inner : kernel.root ≠ some top) :
    ∃ parentId above, (kernel.heap top).parentId = some parentId ∧
      kernel.agents.get? parentId = some above ∧ above < top ∧
      kernel.detach top = (kernel.modify above fun upper =>
        { upper with children := upper.children.erase key }).unregister key := by
  obtain ⟨parentId, above, named, aboveFound, _, lower⟩ := tree.hung found inner
  refine ⟨parentId, above, named, aboveFound, lower, ?_⟩
  simp only [detach, named, Option.bind_some, aboveFound, (tree.registered found).1]

theorem unlist_heap (kernel : Kernel) (above : Nat) (key : String) (ref : Nat) :
    ((kernel.modify above fun upper =>
      { upper with children := upper.children.erase key }).unregister key).heap ref =
      if ref = above then
        { kernel.heap above with children := (kernel.heap above).children.erase key }
      else kernel.heap ref := by
  simp only [modify, unregister, Function.update_apply]

theorem unlist_fields (kernel : Kernel) (above : Nat) (key : String) (ref : Nat) :
    SameFields (((kernel.modify above fun upper =>
      { upper with children := upper.children.erase key }).unregister key).heap ref)
      (kernel.heap ref) := by
  rw [unlist_heap]
  split
  case isTrue same =>
    rw [same]
    exact ⟨rfl, rfl, rfl, rfl, rfl, rfl⟩
  case isFalse => exact .refl _

theorem unlist_children (kernel : Kernel) (above : Nat) (key : String) (ref : Nat)
    (other : String) :
    (((kernel.modify above fun upper =>
      { upper with children := upper.children.erase key }).unregister key).heap
        ref).children.get? other =
      if ref = above ∧ other = key then none else (kernel.heap ref).children.get? other := by
  rw [unlist_heap]
  by_cases same : ref = above
  · rw [if_pos same, OrderedDict.get?_erase]
    by_cases here : other = key
    · rw [if_pos here, if_pos ⟨same, here⟩]
    · rw [if_neg here, if_neg fun both => here both.2, same]
  · rw [if_neg same, if_neg fun both => same both.1]

/-- A leaf goes, and the rest is a tree again. -/
theorem Tree.detach_leaf (tree : kernel.Tree) (found : kernel.agents.get? key = some top)
    (inner : kernel.root ≠ some top)
    (leaf : ∀ other, (kernel.heap top).children.get? other = none) :
    Trimmed kernel (kernel.detach top) top := by
  obtain ⟨parentId, above, named, aboveFound, lower, same⟩ := tree.detach_eq found inner
  have id := (tree.registered found).1
  have fields := unlist_fields kernel above key
  have children := unlist_children kernel above key
  rw [same]
  have get : ∀ other, ((kernel.modify above fun upper =>
      { upper with children := upper.children.erase key }).unregister key).agents.get? other =
        if other = key then none else kernel.agents.get? other := by
    intro other
    exact OrderedDict.get?_erase kernel.agents key other
  have shrinks : ∀ {other ref}, ((kernel.modify above fun upper =>
      { upper with children := upper.children.erase key }).unregister key).agents.get? other =
        some ref → other ≠ key ∧ kernel.agents.get? other = some ref := by
    intro other ref entry
    rw [get] at entry
    split at entry
    · cases entry
    case isFalse apart => exact ⟨apart, entry⟩
  have stays : ∀ {other ref}, kernel.agents.get? other = some ref → other ≠ key →
      ((kernel.modify above fun upper =>
        { upper with children := upper.children.erase key }).unregister key).agents.get? other =
          some ref := by
    intro other ref entry apart
    rw [get, if_neg apart, entry]
  refine ⟨⟨?_, ?_, ?_, ?_⟩, rfl, rfl, ?_, ?_, ?_, fields, ?_⟩
  · obtain ⟨root, isRoot, rootFound, bare⟩ := tree.rooted
    refine ⟨root, isRoot, ?_, ?_⟩
    · rw [(fields root).id]
      apply stays rootFound
      intro sameKey
      rw [sameKey, found] at rootFound
      cases rootFound
      exact inner isRoot
    · rw [(fields root).parentId]
      exact bare
  · intro other ref entry
    rw [(fields ref).id]
    exact tree.registered (shrinks entry).2
  · intro other ref entry notRoot
    obtain ⟨apart, before⟩ := shrinks entry
    obtain ⟨upper, high, childNamed, highFound, listed, order⟩ := tree.hung before notRoot
    refine ⟨upper, high, ?_, ?_, ?_, order⟩
    · rw [(fields ref).parentId]
      exact childNamed
    · apply stays highFound
      intro sameKey
      rw [sameKey, found] at highFound
      cases highFound
      rw [leaf] at listed
      cases listed
    · rw [children, if_neg fun both => apart both.2]
      exact listed
  · intro upper high other ref highFound child
    obtain ⟨_, highBefore⟩ := shrinks highFound
    rw [children] at child
    split at child
    · cases child
    case isFalse free =>
      obtain ⟨childFound, childNamed⟩ := tree.listed highBefore child
      refine ⟨stays childFound ?_, ?_⟩
      · intro sameKey
        apply free
        rw [sameKey, found] at childFound
        cases childFound
        rw [named] at childNamed
        cases childNamed
        rw [highBefore] at aboveFound
        exact ⟨Option.some.inj aboveFound, sameKey⟩
      · rw [(fields ref).parentId]
        exact childNamed
  · rw [id, get, if_pos rfl]
  · intro other ref entry
    exact (shrinks entry).2
  · intro other ref entry below
    apply stays entry
    intro sameKey
    rw [sameKey, found] at entry
    cases entry
    exact Nat.lt_irrefl _ below
  · intro upper ref entry below other
    rw [children, id]
    by_cases here : other = key
    · rw [if_pos here]
      split
      case isTrue => rfl
      case isFalse free =>
        -- only the parent lists the agent
        cases child : (kernel.heap ref).children.get? other with
        | none => rfl
        | some listed =>
          obtain ⟨childFound, childNamed⟩ := tree.listed entry child
          rw [here, found] at childFound
          cases childFound
          rw [named] at childNamed
          cases childNamed
          rw [entry] at aboveFound
          exact absurd ⟨Option.some.inj aboveFound, here⟩ free
    · rw [if_neg here, if_neg fun both => here both.2]

end Detach

/-- A cascade on its way through the children of `top`: those of `done` are gone. -/
structure Emptying (before current : Kernel) (top : Nat) (done : List String) : Prop where
  tree : current.Tree
  root : current.root = before.root
  allocated : current.allocated = before.allocated
  shrinks : ∀ key ref, current.agents.get? key = some ref → before.agents.get? key = some ref
  kept : ∀ key ref, before.agents.get? key = some ref → ref ≤ top →
    current.agents.get? key = some ref
  fields : ∀ ref, SameFields (current.heap ref) (before.heap ref)
  below : ∀ upper ref, before.agents.get? upper = some ref → ref < top → ∀ key,
    (current.heap ref).children.get? key = (before.heap ref).children.get? key
  own : ∀ key, (current.heap top).children.get? key =
    if key ∈ done then none else (before.heap top).children.get? key

section Cascade

variable {before current : Kernel} {topKey childId : String} {top child : Nat} {done : List String}

theorem Emptying.start (tree : kernel.Tree) (top : Nat) : Emptying kernel kernel top [] where
  tree := tree
  root := rfl
  allocated := rfl
  shrinks := fun _ _ entry => entry
  kept := fun _ _ entry _ => entry
  fields := fun _ => .refl _
  below := fun _ _ _ _ _ => rfl
  own := by simp

/-- A child is removed with all below it. -/
theorem Emptying.trim (emptying : Emptying before current top done) {after : Kernel}
    (found : before.agents.get? topKey = some top)
    (listed : (current.heap top).children.get? childId = some child)
    (trimmed : Trimmed current after child) :
    Emptying before after top (done ++ [childId]) := by
  have known := emptying.kept topKey top found (Nat.le_refl _)
  obtain ⟨childFound, childNamed⟩ := emptying.tree.listed known listed
  have higher := emptying.tree.child_above known listed
  have id := (emptying.tree.registered childFound).1
  constructor
  · exact trimmed.tree
  · exact trimmed.root.trans emptying.root
  · exact trimmed.allocated.trans emptying.allocated
  · intro key ref entry
    exact emptying.shrinks key ref (trimmed.shrinks key ref entry)
  · intro key ref entry low
    exact trimmed.kept key ref (emptying.kept key ref entry low) (by omega)
  · intro ref
    exact (trimmed.fields ref).trans (emptying.fields ref)
  · intro upper ref entry low key
    have current' := emptying.kept upper ref entry (by omega)
    rw [trimmed.above upper ref current' (by omega), id, ← emptying.below upper ref entry low]
    by_cases here : key = childId
    · -- the child is listed under `top` alone
      rw [if_pos here]
      cases other : (current.heap ref).children.get? key with
      | none => rfl
      | some listedRef =>
        obtain ⟨otherFound, otherNamed⟩ := emptying.tree.listed current' other
        rw [here, childFound] at otherFound
        cases otherFound
        rw [childNamed] at otherNamed
        cases otherNamed
        rw [known] at current'
        cases current'
        omega
    · rw [if_neg here]
  · intro key
    rw [trimmed.above topKey top known higher, id, emptying.own]
    by_cases here : key = childId
    · simp [here]
    · simp [here]

/-- With its children gone, `top` is a leaf and goes too. -/
theorem Emptying.finish (emptying : Emptying before current top done)
    (found : before.agents.get? topKey = some top) (inner : before.root ≠ some top)
    (all : ∀ key, key ∉ done → (before.heap top).children.get? key = none) :
    Trimmed before (current.detach top) top := by
  have known := emptying.kept topKey top found (Nat.le_refl _)
  have leaf : ∀ key, (current.heap top).children.get? key = none := by
    intro key
    rw [emptying.own]
    split
    · rfl
    case isFalse left => exact all key left
  have last := emptying.tree.detach_leaf known (emptying.root ▸ inner) leaf
  have id := (emptying.fields top).id
  constructor
  · exact last.tree
  · exact last.root.trans emptying.root
  · exact last.allocated.trans emptying.allocated
  · rw [← id]
    exact last.gone
  · intro key ref entry
    exact emptying.shrinks key ref (last.shrinks key ref entry)
  · intro key ref entry low
    exact last.kept key ref (emptying.kept key ref entry (Nat.le_of_lt low)) low
  · intro ref
    exact (last.fields ref).trans (emptying.fields ref)
  · intro upper ref entry low key
    rw [last.above upper ref (emptying.kept upper ref entry (Nat.le_of_lt low)) low, id,
      emptying.below upper ref entry low]

theorem mem_childIds {agent : Agent} {key : String} :
    key ∈ agent.childIds ↔ ∃ ref, agent.children.get? key = some ref := by
  rw [Agent.childIds, List.mem_mergeSort, OrderedDict.mem_keys_iff]

theorem childIds_nodup (agent : Agent) : agent.childIds.Nodup :=
  (List.mergeSort_perm _ _).nodup_iff.mpr agent.children.keys_nodup

/-- A cascade on an agent that is not the root removes it with all below it, and nothing
else. -/
theorem cascadeDelete_trims (fuel : Nat) (tree : kernel.Tree)
    (found : kernel.agents.get? topKey = some top) (inner : kernel.root ≠ some top)
    (enough : kernel.allocated ≤ top + fuel) :
    Trimmed kernel (cascadeDelete fuel kernel top) top := by
  induction fuel generalizing kernel topKey top with
  | zero =>
    have bound := (tree.registered found).2
    omega
  | succ fuel ih =>
    have emptied (step : Kernel → String → Kernel)
        (steps : ∀ current id child, current.agents.get? id = some child →
          step current id = cascadeDelete fuel current child) :
        ∀ ids done current, Emptying kernel current top done → (done ++ ids).Nodup →
          (∀ id ∈ ids, ∃ ref, (kernel.heap top).children.get? id = some ref) →
          Emptying kernel (ids.foldl step current) top (done ++ ids) := by
      intro ids
      induction ids with
      | nil =>
        intro done current emptying _ _
        simpa using emptying
      | cons childId ids next =>
        intro done current emptying nodup children
        rw [List.foldl_cons, List.append_cons]
        rw [List.append_cons] at nodup
        apply next _ _ _ nodup fun id member => children id (List.mem_cons_of_mem _ member)
        have fresh : childId ∉ done := by
          intro again
          have split := (List.nodup_append.mp (List.nodup_append.mp nodup).1).2.2
          exact split childId again childId (by simp) rfl
        obtain ⟨child, wasListed⟩ := children childId List.mem_cons_self
        have known := emptying.kept topKey top found (Nat.le_refl _)
        have listed : (current.heap top).children.get? childId = some child := by
          rw [emptying.own, if_neg fresh, wasListed]
        have higher := emptying.tree.child_above known listed
        have entry := (emptying.tree.listed known listed).1
        rw [steps current childId child entry]
        apply emptying.trim found listed
        apply ih emptying.tree entry (emptying.tree.child_inner known listed)
        rw [emptying.allocated]
        omega
    have all := fun step steps => emptied step steps (kernel.heap top).childIds [] kernel
      (Emptying.start tree top) (childIds_nodup _) fun id member => mem_childIds.mp member
    refine (all _ ?_).finish found inner ?_
    · intro current id child entry
      simp only [entry]
    · intro key left
      cases child : (kernel.heap top).children.get? key with
      | none => rfl
      | some ref => exact absurd (mem_childIds.mpr ⟨ref, child⟩) left

end Cascade

end Fantastic.Rust.Kernel

import Fantastic.Python.Kernel

/-!
# The shape of the live tree

What every request keeps true of the registry and the parent and child references
of the agents in it. A request places one agent, patches one meta, or removes
agents one leaf at a time; each of these three is proved to keep the tree, and the
cascade is shown to be a chain of leaf removals.
-/

namespace Fantastic.Python.Kernel

variable {kernel after : Kernel} {ref above : Nat} {key : DictKey} {agent : Agent}

def Live (kernel : Kernel) (ref : Nat) : Prop :=
  ∃ key, kernel.agents.get? key = some ref

/-- The registry files every agent under its id, parents and children point at each
other, references grow downwards, and the root is the one agent without a parent. -/
structure Tree (kernel : Kernel) : Prop where
  registered : ∀ {key ref}, kernel.agents.get? key = some ref →
    ref < kernel.allocated ∧ hashKey (kernel.heap ref).id = .ok key
  childLinks : ∀ {ref key child}, kernel.Live ref →
    (kernel.heap ref).children.get? key = some child →
      kernel.agents.get? key = some child ∧ (kernel.heap child).parent = some ref
  parentLinks : ∀ {key ref above}, kernel.agents.get? key = some ref →
    (kernel.heap ref).parent = some above →
      kernel.Live above ∧ above < ref ∧ (kernel.heap above).children.get? key = some ref
  rootLive : ∃ ref, kernel.root = some ref ∧ kernel.Live ref ∧ (kernel.heap ref).parent = none
  rootOnly : ∀ {ref}, kernel.Live ref → (kernel.heap ref).parent = none → kernel.root = some ref

theorem Tree.live_lt (tree : kernel.Tree) (live : kernel.Live ref) : ref < kernel.allocated := by
  rcases live with ⟨key, found⟩
  exact (tree.registered found).1

/-! ### Leaf removal -/

section RemoveOne

variable (hashed : hashKey (kernel.heap ref).id = .ok key)
  (hung : (kernel.heap ref).parent = some above)

include hashed

theorem removeOne_agents : (kernel.removeOne ref).agents = kernel.agents.erase key := by
  cases hung : (kernel.heap ref).parent <;>
    simp [removeOne, publishState, unregister, modify, hashed, hung]

omit hashed in
@[simp] theorem removeOne_allocated : (kernel.removeOne ref).allocated = kernel.allocated := by
  simp only [removeOne, publishState, unregister, modify]
  split <;> split <;> rfl

omit hashed in
@[simp] theorem removeOne_root : (kernel.removeOne ref).root = kernel.root := by
  simp only [removeOne, publishState, unregister, modify]
  split <;> split <;> rfl

omit hashed in
@[simp] theorem removeOne_childrenDir :
    (kernel.removeOne ref).childrenDir = kernel.childrenDir := by
  simp only [removeOne, publishState, unregister, modify]
  split <;> split <;> rfl

include hung

theorem removeOne_heap :
    (kernel.removeOne ref).heap = Function.update kernel.heap above
      { kernel.heap above with children := (kernel.heap above).children.erase key } := by
  simp [removeOne, publishState, unregister, modify, hashed, hung]

theorem removeOne_children (other : Nat) :
    ((kernel.removeOne ref).heap other).children =
      if other = above then (kernel.heap above).children.erase key
      else (kernel.heap other).children := by
  rw [removeOne_heap hashed hung, Function.update_apply]
  split <;> rfl

end RemoveOne

/-- What of an agent object no tree verb but `update_agent` ever changes. -/
structure SameFields (left right : Agent) : Prop where
  id : left.id = right.id
  handlerModule : left.handlerModule = right.handlerModule
  parent : left.parent = right.parent
  address : left.address = right.address
  metadata : left.metadata = right.metadata
  ephemeral : left.ephemeral = right.ephemeral

theorem SameFields.refl (agent : Agent) : SameFields agent agent :=
  ⟨rfl, rfl, rfl, rfl, rfl, rfl⟩

theorem SameFields.trans {first second third : Agent} (left : SameFields first second)
    (right : SameFields second third) : SameFields first third where
  id := left.id.trans right.id
  handlerModule := left.handlerModule.trans right.handlerModule
  parent := left.parent.trans right.parent
  address := left.address.trans right.address
  metadata := left.metadata.trans right.metadata
  ephemeral := left.ephemeral.trans right.ephemeral

inductive LeafRemoval (kernel : Kernel) : Kernel → Prop where
  | remove {key : DictKey} {ref above : Nat}
      (found : kernel.agents.get? key = some ref)
      (leaf : (kernel.heap ref).children = .empty)
      (hung : (kernel.heap ref).parent = some above) :
      LeafRemoval kernel (kernel.removeOne ref)

abbrev LeafRemovals : Kernel → Kernel → Prop :=
  Relation.ReflTransGen LeafRemoval

theorem removeOne_sameFields (hashed : hashKey (kernel.heap ref).id = .ok key)
    (hung : (kernel.heap ref).parent = some above) (other : Nat) :
    SameFields ((kernel.removeOne ref).heap other) (kernel.heap other) := by
  rw [removeOne_heap hashed hung, Function.update_apply]
  split
  case isTrue same =>
    subst same
    exact ⟨rfl, rfl, rfl, rfl, rfl, rfl⟩
  case isFalse => exact SameFields.refl _

theorem removeOne_get? (hashed : hashKey (kernel.heap ref).id = .ok key) (other : DictKey) :
    (kernel.removeOne ref).agents.get? other =
      if other = key then none else kernel.agents.get? other := by
  rw [removeOne_agents hashed, OrderedDict.get?_erase]

/-- Removing a leaf that is not the root keeps the tree. -/
theorem LeafRemoval.tree (removal : LeafRemoval kernel after) (tree : kernel.Tree) :
    after.Tree := by
  rcases removal with @⟨key, ref, above, found, leaf, hung⟩
  have hashed := (tree.registered found).2
  have fields := removeOne_sameFields hashed hung
  have kept : ∀ {other target}, (kernel.removeOne ref).agents.get? other = some target →
      other ≠ key ∧ kernel.agents.get? other = some target := by
    intro other target hit
    rw [removeOne_get? hashed] at hit
    by_cases same : other = key
    · simp [same] at hit
    · simp only [same, if_false] at hit
      exact ⟨same, hit⟩
  have stays : ∀ {other target}, other ≠ key → kernel.agents.get? other = some target →
      (kernel.removeOne ref).agents.get? other = some target := by
    intro other target different hit
    rw [removeOne_get? hashed, if_neg different, hit]
  have keyOf : ∀ {other}, kernel.agents.get? other = some ref → other = key := by
    intro other hit
    exact Except.ok.inj ((tree.registered hit).2.symm.trans hashed)
  refine ⟨?_, ?_, ?_, ?_, ?_⟩
  · intro other target hit
    have old := tree.registered (kept hit).2
    rw [(fields target).id, removeOne_allocated]
    exact old
  · rintro target other child ⟨targetKey, targetFound⟩ linked
    have oldLive : kernel.Live target := ⟨targetKey, (kept targetFound).2⟩
    rw [(fields child).parent]
    rw [removeOne_children hashed hung] at linked
    by_cases same : target = above
    · subst same
      simp only [if_true, OrderedDict.get?_erase] at linked
      by_cases sameKey : other = key
      · simp [sameKey] at linked
      · simp only [sameKey, if_false] at linked
        have old := tree.childLinks oldLive linked
        exact ⟨stays sameKey old.1, old.2⟩
    · simp only [same, if_false] at linked
      have old := tree.childLinks oldLive linked
      refine ⟨stays ?_ old.1, old.2⟩
      -- only the parent of the removed agent lists its key
      rintro rfl
      rw [found] at old
      have samePlace : ref = child := Option.some.inj old.1
      subst samePlace
      exact same (Option.some.inj (old.2.symm.trans hung))
  · intro other target upper hit parentHit
    have old := kept hit
    rw [(fields target).parent] at parentHit
    have links := tree.parentLinks old.2 parentHit
    have upperStays : upper ≠ ref := by
      rintro rfl
      have listed := links.2.2
      rw [leaf, OrderedDict.get?_empty] at listed
      exact absurd listed (by simp)
    refine ⟨?_, links.2.1, ?_⟩
    · rcases links.1 with ⟨upperKey, upperFound⟩
      refine ⟨upperKey, stays ?_ upperFound⟩
      rintro rfl
      exact upperStays (Option.some.inj (upperFound.symm.trans found))
    · rw [removeOne_children hashed hung]
      by_cases same : upper = above
      · subst same
        rw [if_pos rfl, OrderedDict.get?_erase, if_neg old.1]
        exact links.2.2
      · rw [if_neg same]
        exact links.2.2
  · rcases tree.rootLive with ⟨top, isRoot, ⟨topKey, topFound⟩, parentless⟩
    refine ⟨top, by simpa using isRoot, ⟨topKey, stays ?_ topFound⟩, ?_⟩
    · rintro rfl
      have same : top = ref := Option.some.inj (topFound.symm.trans found)
      rw [same, hung] at parentless
      exact absurd parentless (by simp)
    · rw [(fields top).parent]
      exact parentless
  · rintro target ⟨targetKey, targetFound⟩ parentless
    rw [(fields target).parent] at parentless
    rw [removeOne_root]
    exact tree.rootOnly ⟨targetKey, (kept targetFound).2⟩ parentless

theorem LeafRemovals.tree (removals : LeafRemovals kernel after) (tree : kernel.Tree) :
    after.Tree := by
  induction removals with
  | refl => exact tree
  | tail _ removal ih => exact removal.tree ih

/-- What a chain of leaf removals leaves alone. -/
structure Thinned (kernel after : Kernel) : Prop where
  fields : ∀ ref, SameFields (after.heap ref) (kernel.heap ref)
  shrinks : ∀ {key ref}, after.agents.get? key = some ref → kernel.agents.get? key = some ref
  allocated : after.allocated = kernel.allocated
  root : after.root = kernel.root
  childrenDir : after.childrenDir = kernel.childrenDir

theorem LeafRemoval.thinned (removal : LeafRemoval kernel after) (tree : kernel.Tree) :
    Thinned kernel after := by
  rcases removal with @⟨key, ref, above, found, leaf, hung⟩
  have hashed := (tree.registered found).2
  refine ⟨removeOne_sameFields hashed hung, ?_, removeOne_allocated, removeOne_root,
    removeOne_childrenDir⟩
  intro other target hit
  rw [removeOne_get? hashed] at hit
  by_cases same : other = key
  · simp [same] at hit
  · simpa [same] using hit

theorem LeafRemovals.thinned (removals : LeafRemovals kernel after) (tree : kernel.Tree) :
    Thinned kernel after := by
  induction removals with
  | refl => exact ⟨fun ref => SameFields.refl _, id, rfl, rfl, rfl⟩
  | tail earlier removal ih =>
    have last := removal.thinned (LeafRemovals.tree earlier tree)
    exact {
      fields := fun ref => (last.fields ref).trans (ih.fields ref)
      shrinks := fun hit => ih.shrinks (last.shrinks hit)
      allocated := last.allocated.trans ih.allocated
      root := last.root.trans ih.root
      childrenDir := last.childrenDir.trans ih.childrenDir }

/-! ### The cascade -/

/-- What the cascade at `ref` does, seen from the agents created before it: it is a
chain of leaf removals, older agents stay, and of their child tables only the
parent's changes, by the one entry of `ref`. -/
structure Pruned (kernel after : Kernel) (key : DictKey) (ref above : Nat) : Prop where
  removals : LeafRemovals kernel after
  gone : after.agents.get? key = none
  older : ∀ {other target}, target < ref → kernel.agents.get? other = some target →
    after.agents.get? other = some target
  children : ∀ other, other < ref → (after.heap other).children =
    if other = above then (kernel.heap other).children.erase key else (kernel.heap other).children

/-- The loop over the children, given what each recursive call does. The induction is
on the entries of the child table that are still to be visited. -/
theorem cascade_children {fuel : Nat}
    (call : ∀ {kernel : Kernel} {key : DictKey} {ref above : Nat}, kernel.Tree →
      kernel.agents.get? key = some ref → (kernel.heap ref).parent = some above →
      kernel.allocated ≤ ref + fuel →
        Pruned kernel (cascadeDelete fuel kernel ref) key ref above)
    (pending : List (DictKey × Nat)) (tree : kernel.Tree) (found : kernel.agents.get? key = some ref)
    (table : (kernel.heap ref).children.entries = pending)
    (enough : kernel.allocated ≤ ref + fuel + 1) :
    ∃ after, after = (pending.map Prod.snd).foldl (cascadeDelete fuel) kernel ∧
      LeafRemovals kernel after ∧ (after.heap ref).children = .empty ∧
      (∀ {other target}, target ≤ ref → kernel.agents.get? other = some target →
        after.agents.get? other = some target) ∧
      ∀ other, other < ref → (after.heap other).children = (kernel.heap other).children := by
  induction pending generalizing kernel with
  | nil =>
    refine ⟨kernel, rfl, .refl, OrderedDict.ext_entries table, fun _ hit => hit, fun _ _ => rfl⟩
  | cons entry rest ih =>
    rcases entry with ⟨childKey, child⟩
    have listed : (kernel.heap ref).children.get? childKey = some child := by
      rw [← OrderedDict.mem_entries_iff, table]
      exact List.mem_cons_self
    have link := tree.childLinks ⟨key, found⟩ listed
    have lower := (tree.parentLinks link.1 link.2).2.1
    have pruned := call tree link.1 link.2 (by omega)
    have thinned := pruned.removals.thinned tree
    have tableLater :
        ((cascadeDelete fuel kernel child).heap ref).children.entries = rest := by
      rw [pruned.children ref lower, if_pos rfl]
      exact OrderedDict.erase_head table
    rcases ih (pruned.removals.tree tree) (pruned.older lower found) tableLater
        (by rw [thinned.allocated]; exact enough) with
      ⟨last, sameFold, removals, emptied, older, untouched⟩
    refine ⟨last, sameFold, pruned.removals.trans removals, emptied, ?_, ?_⟩
    · intro other target low hit
      exact older low (pruned.older (by omega) hit)
    · intro other low
      rw [untouched other low, pruned.children other (by omega), if_neg (by omega)]

theorem cascadeDelete_pruned (fuel : Nat) (tree : kernel.Tree)
    (found : kernel.agents.get? key = some ref) (hung : (kernel.heap ref).parent = some above)
    (enough : kernel.allocated ≤ ref + fuel) :
    Pruned kernel (cascadeDelete fuel kernel ref) key ref above := by
  induction fuel generalizing kernel key ref above with
  | zero =>
    have inside := (tree.registered found).1
    omega
  | succ fuel ih =>
    rcases cascade_children ih _ tree found rfl enough with
      ⟨emptied, sameFold, removals, leaf, older, untouched⟩
    have thinned := removals.thinned tree
    have foundLater := older (Nat.le_refl ref) found
    have hungLater : (emptied.heap ref).parent = some above := by
      rw [(thinned.fields ref).parent]
      exact hung
    have hashed := ((removals.tree tree).registered foundLater).2
    have below := (tree.parentLinks found hung).2.1
    have unfolded : cascadeDelete (fuel + 1) kernel ref = emptied.removeOne ref := by
      rw [sameFold]
      rfl
    rw [unfolded]
    refine ⟨removals.tail (.remove foundLater leaf hungLater), ?_, ?_, ?_⟩
    · rw [removeOne_get? hashed, if_pos rfl]
    · intro other target low hit
      rw [removeOne_get? hashed, if_neg, older (Nat.le_of_lt low) hit]
      rintro rfl
      have same : target = ref := Option.some.inj (hit.symm.trans found)
      omega
    · intro other low
      rw [removeOne_children hashed hungLater]
      by_cases same : other = above
      · subst same
        rw [if_pos rfl, if_pos rfl, untouched other low]
      · rw [if_neg same, if_neg same, untouched other low]

/-- Nothing guards the root: the cascade unregisters it like any other agent, and
`ctx.root` keeps pointing at it. -/
theorem cascadeDelete_root (tree : kernel.Tree) (found : kernel.agents.get? key = some ref) :
    (cascadeDelete kernel.allocated kernel ref).root = kernel.root ∧
      ¬ (cascadeDelete kernel.allocated kernel ref).Live ref := by
  have inside := (tree.registered found).1
  obtain ⟨fuel, size⟩ : ∃ fuel, kernel.allocated = fuel + 1 := ⟨kernel.allocated - 1, by omega⟩
  obtain ⟨emptied, sameFold, removals, -, older, -⟩ :=
    cascade_children (cascadeDelete_pruned fuel) _ tree found rfl (by omega)
  have unfolded : cascadeDelete kernel.allocated kernel ref = emptied.removeOne ref := by
    rw [size, sameFold]
    rfl
  have later := removals.tree tree
  have hashed := (later.registered (older (Nat.le_refl ref) found)).2
  rw [unfolded]
  constructor
  · rw [removeOne_root, (removals.thinned tree).root]
  · intro live
    obtain ⟨other, hit⟩ := live
    rw [removeOne_get? hashed] at hit
    split at hit
    · contradiction
    · rename_i away
      exact away (Except.ok.inj ((later.registered hit).2.symm.trans hashed))

/-! ### Placing an agent -/

section Place

variable (hung : agent.parent = some above)

@[simp] theorem place_allocated :
    (kernel.place key agent).allocated = kernel.allocated + 1 := by
  simp only [place, register, modify, publishState]
  split <;> rfl

@[simp] theorem place_childrenDir :
    (kernel.place key agent).childrenDir = kernel.childrenDir := by
  simp only [place, register, modify, publishState]
  split <;> rfl

@[simp] theorem place_agents :
    (kernel.place key agent).agents = kernel.agents.insert key kernel.allocated := by
  simp only [place, register, modify, publishState]
  split <;> rfl

theorem place_get? (other : DictKey) :
    (kernel.place key agent).agents.get? other =
      if other = key then some kernel.allocated else kernel.agents.get? other := by
  rw [place_agents, OrderedDict.get?_insert]

include hung

theorem place_root : (kernel.place key agent).root = kernel.root := by
  simp [place, register, modify, publishState, hung]

theorem place_heap_new (old : above < kernel.allocated) :
    (kernel.place key agent).heap kernel.allocated = agent := by
  simp [place, register, modify, publishState, hung, Function.update_apply, Nat.ne_of_gt old]

theorem place_heap_old {other : Nat} (old : other < kernel.allocated) :
    (kernel.place key agent).heap other =
      if other = above then
        { kernel.heap other with
          children := (kernel.heap other).children.insert key kernel.allocated }
      else kernel.heap other := by
  have distinct : other ≠ kernel.allocated := Nat.ne_of_lt old
  by_cases same : other = above
  · subst same
    simp [place, register, modify, publishState, hung, distinct]
  · simp [place, register, modify, publishState, hung, Function.update_apply, distinct, same]

end Place

theorem place_sameFields (hung : agent.parent = some above) {other : Nat}
    (old : other < kernel.allocated) :
    SameFields ((kernel.place key agent).heap other) (kernel.heap other) := by
  rw [place_heap_old hung old]
  split
  · exact ⟨rfl, rfl, rfl, rfl, rfl, rfl⟩
  · exact SameFields.refl _

/-- A new agent under a live parent, with a fresh key and no children, keeps the tree. -/
theorem place_tree (tree : kernel.Tree) (hung : agent.parent = some above)
    (live : kernel.Live above) (fresh : kernel.agents.get? key = none)
    (hashed : hashKey agent.id = .ok key) (childless : agent.children = .empty) :
    (kernel.place key agent).Tree := by
  have aboveOld := tree.live_lt live
  have newAgent : (kernel.place key agent).heap kernel.allocated = agent :=
    place_heap_new hung aboveOld
  have split : ∀ {other target}, (kernel.place key agent).agents.get? other = some target →
      (other = key ∧ target = kernel.allocated) ∨
        (other ≠ key ∧ target < kernel.allocated ∧ kernel.agents.get? other = some target) := by
    intro other target hit
    rw [place_get?] at hit
    by_cases same : other = key
    · simp only [same, if_true, Option.some.injEq] at hit
      exact .inl ⟨same, hit.symm⟩
    · simp only [same, if_false] at hit
      exact .inr ⟨same, (tree.registered hit).1, hit⟩
  have stays : ∀ {other target}, kernel.agents.get? other = some target →
      (kernel.place key agent).agents.get? other = some target := by
    intro other target hit
    rw [place_get?, if_neg, hit]
    rintro rfl
    rw [fresh] at hit
    exact absurd hit (by simp)
  refine ⟨?_, ?_, ?_, ?_, ?_⟩
  · intro other target hit
    rw [place_allocated]
    rcases split hit with ⟨rfl, rfl⟩ | ⟨_, old, oldHit⟩
    · rw [newAgent]
      exact ⟨Nat.lt_succ_self _, hashed⟩
    · rw [(place_sameFields hung old).id]
      have before := tree.registered oldHit
      exact ⟨Nat.lt_succ_of_lt before.1, before.2⟩
  · rintro target other child ⟨targetKey, targetHit⟩ linked
    rcases split targetHit with ⟨_, rfl⟩ | ⟨_, old, oldHit⟩
    · rw [newAgent, childless, OrderedDict.get?_empty] at linked
      exact absurd linked (by simp)
    · have before : ∀ {name item}, (kernel.heap target).children.get? name = some item →
          (kernel.place key agent).agents.get? name = some item ∧
            ((kernel.place key agent).heap item).parent = some target := by
        intro name item hit
        have link := tree.childLinks ⟨targetKey, oldHit⟩ hit
        rw [(place_sameFields hung (tree.registered link.1).1).parent]
        exact ⟨stays link.1, link.2⟩
      rw [place_heap_old hung old] at linked
      by_cases same : target = above
      · subst same
        simp only [if_true, OrderedDict.get?_insert] at linked
        by_cases sameKey : other = key
        · simp only [sameKey, if_true, Option.some.injEq] at linked
          subst linked
          rw [place_get?, if_pos sameKey, newAgent]
          exact ⟨rfl, hung⟩
        · simp only [sameKey, if_false] at linked
          exact before linked
      · simp only [same, if_false] at linked
        exact before linked
  · intro other target upper hit parentHit
    rcases split hit with ⟨rfl, rfl⟩ | ⟨different, old, oldHit⟩
    · rw [newAgent, hung, Option.some.injEq] at parentHit
      subst parentHit
      rw [place_heap_old hung aboveOld, if_pos rfl]
      rcases live with ⟨upperKey, upperHit⟩
      exact ⟨⟨upperKey, stays upperHit⟩, aboveOld, OrderedDict.get?_insert_self _ _ _⟩
    · rw [(place_sameFields hung old).parent] at parentHit
      rcases tree.parentLinks oldHit parentHit with ⟨⟨upperKey, upperHit⟩, below, listed⟩
      refine ⟨⟨upperKey, stays upperHit⟩, below, ?_⟩
      rw [place_heap_old hung (tree.registered upperHit).1]
      split
      · rw [OrderedDict.get?_insert_of_ne _ _ different, listed]
      · exact listed
  · rcases tree.rootLive with ⟨top, isRoot, ⟨topKey, topHit⟩, parentless⟩
    refine ⟨top, by rw [place_root hung, isRoot], ⟨topKey, stays topHit⟩, ?_⟩
    rw [(place_sameFields hung (tree.registered topHit).1).parent]
    exact parentless
  · rintro target ⟨targetKey, targetHit⟩ parentless
    rw [place_root hung]
    rcases split targetHit with ⟨_, rfl⟩ | ⟨_, old, oldHit⟩
    · rw [newAgent, hung] at parentless
      exact absurd parentless (by simp)
    · rw [(place_sameFields hung old).parent] at parentless
      exact tree.rootOnly ⟨targetKey, oldHit⟩ parentless

/-! ### Patching a meta -/

/-- The kernel `Agent.update` leaves behind. -/
def patched (kernel : Kernel) (ref : Nat) (id : Value) (patch : Dict) : Kernel :=
  (kernel.modify ref fun agent => { agent with metadata := agent.metadata.update patch }).publishState
    (.updated id patch.keys)

theorem patched_heap (id : Value) (patch : Dict) (other : Nat) :
    (kernel.patched ref id patch).heap other =
      if other = ref then
        { kernel.heap other with metadata := (kernel.heap other).metadata.update patch }
      else kernel.heap other := by
  by_cases same : other = ref
  · subst same
    simp [patched, modify, publishState]
  · simp [patched, modify, publishState, same]

theorem patched_tree (tree : kernel.Tree) (id : Value) (patch : Dict) :
    (kernel.patched ref id patch).Tree := by
  have sameId : ∀ other, ((kernel.patched ref id patch).heap other).id = (kernel.heap other).id := by
    intro other
    rw [patched_heap]
    split <;> rfl
  have sameParent : ∀ other,
      ((kernel.patched ref id patch).heap other).parent = (kernel.heap other).parent := by
    intro other
    rw [patched_heap]
    split <;> rfl
  have sameChildren : ∀ other,
      ((kernel.patched ref id patch).heap other).children = (kernel.heap other).children := by
    intro other
    rw [patched_heap]
    split <;> rfl
  refine ⟨?_, ?_, ?_, ?_, ?_⟩
  · intro key other hit
    rw [sameId]
    exact tree.registered hit
  · intro other key child live linked
    rw [sameParent]
    rw [sameChildren] at linked
    exact tree.childLinks live linked
  · intro key other upper hit parentHit
    rw [sameChildren]
    rw [sameParent] at parentHit
    exact tree.parentLinks hit parentHit
  · rcases tree.rootLive with ⟨top, isRoot, live, parentless⟩
    exact ⟨top, isRoot, live, by rw [sameParent]; exact parentless⟩
  · intro other live parentless
    rw [sameParent] at parentless
    exact tree.rootOnly live parentless

end Fantastic.Python.Kernel

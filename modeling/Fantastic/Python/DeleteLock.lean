import Fantastic.Python.CascadeWalk

/-!
# What a delete removes, and what stops it

`Agent.delete` walks the subtree once for a lock and once to remove it. In a tree the first walk
finds a locked agent exactly if there is one, and the second takes out the subtree and nothing
else. `unregister` also drops the inbox of an agent, so the walk is followed here on a `Site`:
a kernel with the queues its agents and clients have.
-/

namespace Fantastic.Python.Kernel

structure Site where
  kernel : Kernel
  inboxes : OrderedDict DictKey Nat

namespace Site

/-- The tail of `_cascade_delete`, with `self.inboxes.pop(agent_id, None)`. -/
def removeOne (site : Site) (ref : Nat) : Site where
  kernel := site.kernel.removeOne ref
  inboxes :=
    match hashKey (site.kernel.heap ref).id with
    | .error _ => site.inboxes
    | .ok key => site.inboxes.erase key

def cascadeDelete : Nat → Site → Nat → Site
  | 0, site, _ => site
  | fuel + 1, site, ref =>
    ((site.kernel.heap ref).children.items.foldl (cascadeDelete fuel) site).removeOne ref

/-- `Agent.delete`. -/
def delete (runtime : Runtime) (site : Site) (id : Value) : Except PyError (Site × Dict) := do
  let (_, reply) ← site.kernel.delete runtime id
  let key ← hashKey id
  match site.kernel.agents.get? key with
  | none => return (site, reply)
  | some target =>
    match site.kernel.findLockedDescendant site.kernel.allocated target with
    | some _ => return (site, reply)
    | none => return (site.cascadeDelete site.kernel.allocated target, reply)

end Site

variable {runtime : Runtime} {kernel : Kernel} {site : Site} {key : DictKey} {ref : Nat}

/-- `_meta.get("delete_lock")` is true. -/
def Locked (kernel : Kernel) (ref : Nat) : Prop :=
  truthy (getD (kernel.heap ref).metadata "delete_lock") = true

/-! ### The search -/

theorem findLockedDescendant_some (tree : kernel.Tree) (fuel : Nat) {id : Value} :
    ∀ {ref : Nat}, kernel.Live ref → kernel.findLockedDescendant fuel ref = some id →
      ∃ member, kernel.Live member ∧ kernel.Ascends member ref ∧ kernel.Locked member ∧
        (kernel.heap member).id = id := by
  induction fuel with
  | zero =>
    intro ref _ found
    cases found
  | succ fuel ih =>
    intro ref live found
    rw [findLockedDescendant] at found
    split at found
    case isTrue locked =>
      cases found
      exact ⟨ref, live, .refl, locked, rfl⟩
    case isFalse =>
      obtain ⟨child, listed, deeper⟩ := List.exists_of_findSome?_eq_some found
      obtain ⟨⟨key, item⟩, entry, isChild⟩ := List.mem_map.mp listed
      cases isChild
      obtain ⟨childFound, up⟩ := tree.childLinks live (OrderedDict.mem_entries_iff.mp entry)
      obtain ⟨member, memberLive, ascends, locked, same⟩ := ih ⟨key, childFound⟩ deeper
      exact ⟨member, memberLive, ascends.tail up, locked, same⟩

theorem findLockedDescendant_none (tree : kernel.Tree) (fuel : Nat) :
    ∀ {ref : Nat}, kernel.Live ref → kernel.allocated ≤ ref + fuel →
      kernel.findLockedDescendant fuel ref = none →
        ∀ {member}, kernel.Live member → kernel.Ascends member ref → ¬ kernel.Locked member := by
  induction fuel with
  | zero =>
    intro ref live enough
    have inside := tree.live_lt live
    omega
  | succ fuel ih =>
    intro ref live enough nothing member memberLive ascends
    rw [findLockedDescendant] at nothing
    split at nothing
    · cases nothing
    case isFalse unlocked =>
      obtain same | ⟨child, deeper, up⟩ :=
        Relation.ReflTransGen.cases_tail_iff _ _ _ |>.mp ascends
      · rw [← same]
        exact unlocked
      · have childLive := tree.live_of_ascends memberLive deeper
        obtain ⟨childKey, childFound⟩ := childLive
        have links := tree.parentLinks childFound up
        have listed : child ∈ (kernel.heap ref).children.items :=
          List.mem_map.mpr ⟨(childKey, child), OrderedDict.mem_entries_iff.mpr links.2.2, rfl⟩
        have older := links.2.1
        apply ih ⟨childKey, childFound⟩ (by omega) _ memberLive deeper
        exact List.findSome?_eq_none_iff.mp nothing child listed

/-! ### The removal -/

@[simp] theorem Site.removeOne_kernel (site : Site) (ref : Nat) :
    (site.removeOne ref).kernel = site.kernel.removeOne ref := rfl

@[simp] theorem Site.cascadeDelete_kernel (fuel : Nat) : ∀ (site : Site) (ref : Nat),
    (site.cascadeDelete fuel ref).kernel = Kernel.cascadeDelete fuel site.kernel ref := by
  induction fuel with
  | zero =>
    intro site ref
    rfl
  | succ fuel ih =>
    intro site ref
    have folded : ∀ (children : List Nat) (site : Site),
        (children.foldl (Site.cascadeDelete fuel) site).kernel =
          children.foldl (Kernel.cascadeDelete fuel) site.kernel := by
      intro children
      induction children with
      | nil =>
        intro site
        rfl
      | cons child children later =>
        intro site
        rw [List.foldl_cons, List.foldl_cons, later, ih]
    rw [Site.cascadeDelete, Site.removeOne_kernel, folded]
    rfl

/-- What a removal does not touch: the registry and the inboxes away from the subtree, and the
child tables there but for the entry of the target. -/
structure Spares (site after : Site) (key : DictKey) (target : Nat) : Prop where
  kept : ∀ {other}, (∀ ref, site.kernel.agents.get? other = some ref →
      ¬ site.kernel.Ascends ref target) →
    after.kernel.agents.get? other = site.kernel.agents.get? other ∧
      after.inboxes.get? other = site.inboxes.get? other
  children : ∀ {other ref}, site.kernel.agents.get? other = some ref →
    ¬ site.kernel.Ascends ref target → (after.kernel.heap ref).children =
      if (site.kernel.heap target).parent = some ref then (site.kernel.heap ref).children.erase key
      else (site.kernel.heap ref).children

/-- A cascade on its way through the children of `ref`; `pending` is what is left of them. -/
structure Sweep (site current : Site) (ref : Nat) (pending : List (DictKey × Nat)) : Prop where
  removals : LeafRemovals site.kernel current.kernel
  kept : ∀ {other}, (∀ member, site.kernel.agents.get? other = some member →
      ¬ site.kernel.Ascends member ref) →
    current.kernel.agents.get? other = site.kernel.agents.get? other ∧
      current.inboxes.get? other = site.inboxes.get? other
  children : ∀ {other member}, site.kernel.agents.get? other = some member →
    ¬ site.kernel.Ascends member ref →
      (current.kernel.heap member).children = (site.kernel.heap member).children
  live : current.kernel.Live ref
  table : (current.kernel.heap ref).children.entries = pending

theorem Thinned.ascends_iff {after : Kernel} (thinned : Thinned kernel after) {lower upper : Nat} :
    after.Ascends lower upper ↔ kernel.Ascends lower upper := by
  have same : after.Up = kernel.Up := by
    funext low high
    unfold Up
    rw [(thinned.fields low).parent]
  rw [Ascends, same]

theorem sweep_children {fuel : Nat}
    (call : ∀ {site : Site} {key : DictKey} {ref : Nat}, site.kernel.Tree →
      site.kernel.agents.get? key = some ref → site.kernel.allocated ≤ ref + fuel →
        Spares site (site.cascadeDelete fuel ref) key ref)
    (tree : site.kernel.Tree) (enough : site.kernel.allocated ≤ ref + fuel + 1)
    (pending : List (DictKey × Nat)) : ∀ current, Sweep site current ref pending →
      Sweep site ((pending.map Prod.snd).foldl (Site.cascadeDelete fuel) current) ref [] := by
  induction pending with
  | nil =>
    intro current sweep
    exact sweep
  | cons entry rest ih =>
    intro current sweep
    obtain ⟨childKey, child⟩ := entry
    have currentTree := sweep.removals.tree tree
    have thinned := sweep.removals.thinned tree
    obtain ⟨ownKey, own⟩ := sweep.live
    have listed : (current.kernel.heap ref).children.get? childKey = some child := by
      rw [← OrderedDict.mem_entries_iff, sweep.table]
      exact List.mem_cons_self
    obtain ⟨childFound, up⟩ := currentTree.childLinks sweep.live listed
    have lower := (currentTree.parentLinks childFound up).2.1
    have below : current.kernel.allocated ≤ child + fuel := by
      rw [thinned.allocated]
      omega
    have pruned := cascadeDelete_pruned fuel currentTree childFound up below
    have spares := call currentTree childFound below
    apply ih
    -- who is below the child is below `ref`
    have deeper : ∀ {member}, ¬ site.kernel.Ascends member ref →
        ¬ current.kernel.Ascends member child := by
      intro member outside ascends
      exact outside (thinned.ascends_iff.mp (ascends.tail up))
    constructor
    · rw [Site.cascadeDelete_kernel]
      exact sweep.removals.trans pruned.removals
    · intro other outside
      obtain ⟨sameAgent, sameInbox⟩ := sweep.kept outside
      obtain ⟨laterAgent, laterInbox⟩ := @Spares.kept _ _ _ _ spares other (by
        intro member found
        rw [sameAgent] at found
        exact deeper (outside member found))
      exact ⟨laterAgent.trans sameAgent, laterInbox.trans sameInbox⟩
    · intro other member found outside
      have single : ∀ {hit}, site.kernel.agents.get? other = some hit →
          ¬ site.kernel.Ascends hit ref := by
        intro hit same
        rw [found] at same
        cases same
        exact outside
      have foundNow : current.kernel.agents.get? other = some member := by
        rw [(sweep.kept fun _ => single).1]
        exact found
      rw [spares.children foundNow (deeper outside), if_neg, sweep.children found outside]
      intro isParent
      have same : ref = member := Option.some.inj (up.symm.trans isParent)
      rw [same] at outside
      exact outside .refl
    · rw [Site.cascadeDelete_kernel]
      exact ⟨ownKey, pruned.older lower own⟩
    · rw [Site.cascadeDelete_kernel, pruned.children ref lower, if_pos rfl]
      exact OrderedDict.erase_head sweep.table

theorem Sweep.start (site : Site) (live : site.kernel.Live ref) :
    Sweep site site ref (site.kernel.heap ref).children.entries where
  removals := .refl
  kept _ := ⟨rfl, rfl⟩
  children _ _ := rfl
  live := live
  table := rfl

/-- The last step, once the children are gone. -/
theorem Sweep.finish {emptied : Site} (sweep : Sweep site emptied ref []) (tree : site.kernel.Tree)
    (found : site.kernel.agents.get? key = some ref) :
    Spares site (emptied.removeOne ref) key ref := by
  have thinned := sweep.removals.thinned tree
  have hashed : hashKey (emptied.kernel.heap ref).id = .ok key := by
    rw [(thinned.fields ref).id]
    exact (tree.registered found).2
  constructor
  · intro other outside
    have different : other ≠ key := by
      intro same
      rw [same] at outside
      exact outside ref found .refl
    obtain ⟨sameAgent, sameInbox⟩ := sweep.kept outside
    constructor
    · rw [Site.removeOne_kernel, removeOne_get? hashed, if_neg different]
      exact sameAgent
    · simp only [Site.removeOne, hashed]
      rw [OrderedDict.get?_erase, if_neg different]
      exact sameInbox
  · intro other member memberFound outside
    rw [Site.removeOne_kernel]
    cases parent : (site.kernel.heap ref).parent with
    | none =>
      have bare : (emptied.kernel.heap ref).parent = none := by
        rw [(thinned.fields ref).parent]
        exact parent
      have sameHeap : (emptied.kernel.removeOne ref).heap = emptied.kernel.heap := by
        simp only [Kernel.removeOne, bare, publishState, unregister, hashed]
      rw [sameHeap, if_neg (Option.some_ne_none _).symm]
      exact sweep.children memberFound outside
    | some above =>
      have hung : (emptied.kernel.heap ref).parent = some above := by
        rw [(thinned.fields ref).parent]
        exact parent
      rw [removeOne_children hashed hung]
      by_cases same : member = above
      · rw [if_pos same, if_pos (congrArg some same.symm), ← same, sweep.children memberFound outside]
      · rw [if_neg same, if_neg fun equal => same (Option.some.inj equal).symm]
        exact sweep.children memberFound outside

theorem cascadeDelete_sweeps (fuel : Nat) : ∀ {site : Site} {key : DictKey} {ref : Nat},
    site.kernel.Tree → site.kernel.agents.get? key = some ref →
      site.kernel.allocated ≤ ref + fuel → Spares site (site.cascadeDelete fuel ref) key ref := by
  induction fuel with
  | zero =>
    intro site key ref tree found enough
    have inside := (tree.registered found).1
    omega
  | succ fuel ih =>
    intro site key ref tree found enough
    exact (sweep_children ih tree enough _ site (.start site ⟨key, found⟩)).finish tree found

/-! ### What is gone -/

/-- An agent and its inbox go together. -/
structure Paired (site after : Site) : Prop where
  agents : ∀ other, site.kernel.agents.get? other = none → after.kernel.agents.get? other = none
  inboxes : ∀ other, site.inboxes.get? other = none → after.inboxes.get? other = none
  together : ∀ other, site.kernel.agents.get? other ≠ none →
    after.kernel.agents.get? other = none → after.inboxes.get? other = none

theorem Paired.refl (site : Site) : Paired site site :=
  ⟨fun _ absent => absent, fun _ absent => absent, fun _ present absent => absurd absent present⟩

theorem Paired.trans {first second third : Site} (early : Paired first second)
    (late : Paired second third) : Paired first third where
  agents other absent := late.agents other (early.agents other absent)
  inboxes other absent := late.inboxes other (early.inboxes other absent)
  together := by
    intro other present absent
    by_cases between : second.kernel.agents.get? other = none
    · exact late.inboxes other (early.together other present between)
    · exact late.together other between absent

theorem Site.removeOne_paired (site : Site) (ref : Nat) : Paired site (site.removeOne ref) := by
  cases hashed : hashKey (site.kernel.heap ref).id with
  | error failure =>
    have same : (site.kernel.removeOne ref).agents = site.kernel.agents := by
      simp only [Kernel.removeOne, publishState, unregister, hashed]
      split <;> rfl
    constructor
    · intro other absent
      rw [Site.removeOne_kernel, same]
      exact absent
    · intro other absent
      simp only [Site.removeOne, hashed]
      exact absent
    · intro other present absent
      rw [Site.removeOne_kernel, same] at absent
      exact absurd absent present
  | ok key =>
    constructor
    · intro other absent
      rw [Site.removeOne_kernel, removeOne_get? hashed, absent, ite_self]
    · intro other absent
      simp only [Site.removeOne, hashed]
      rw [OrderedDict.get?_erase, absent, ite_self]
    · intro other present absent
      rw [Site.removeOne_kernel, removeOne_get? hashed] at absent
      simp only [Site.removeOne, hashed]
      rw [OrderedDict.get?_erase]
      split at absent
      case isTrue same => rw [if_pos same]
      case isFalse => exact absurd absent present

theorem Site.cascadeDelete_paired (fuel : Nat) : ∀ (site : Site) (ref : Nat),
    Paired site (site.cascadeDelete fuel ref) := by
  induction fuel with
  | zero =>
    intro site ref
    exact .refl site
  | succ fuel ih =>
    intro site ref
    have folded : ∀ (children : List Nat) (current : Site),
        Paired current (children.foldl (Site.cascadeDelete fuel) current) := by
      intro children
      induction children with
      | nil =>
        intro current
        exact .refl current
      | cons child children later =>
        intro current
        exact (ih current child).trans (later _)
    exact (folded _ site).trans (Site.removeOne_paired _ ref)

/-- Without its children an agent has nobody below it. -/
theorem Tree.alone (tree : kernel.Tree) {other : DictKey} {member : Nat}
    (childless : (kernel.heap ref).children.entries = [])
    (found : kernel.agents.get? other = some member) (ascends : kernel.Ascends member ref) :
    member = ref := by
  obtain same | ⟨child, deeper, up⟩ := Relation.ReflTransGen.cases_tail_iff _ _ _ |>.mp ascends
  · exact same.symm
  · obtain ⟨childKey, childFound⟩ := tree.live_of_ascends ⟨other, found⟩ deeper
    have listed := OrderedDict.mem_entries_iff.mpr (tree.parentLinks childFound up).2.2
    rw [childless] at listed
    cases listed

theorem cascadeDelete_gone (tree : kernel.Tree) (found : kernel.agents.get? key = some ref)
    {other : DictKey} {member : Nat} (memberFound : kernel.agents.get? other = some member)
    (ascends : kernel.Ascends member ref) :
    (cascadeDelete kernel.allocated kernel ref).agents.get? other = none := by
  have inside := (tree.registered found).1
  obtain ⟨fuel, count⟩ := Nat.exists_eq_add_of_lt (Nat.zero_lt_of_lt inside)
  rw [Nat.zero_add] at count
  rw [count, cascadeDelete]
  obtain ⟨emptied, sameFold, removals, leaf, older, _⟩ :=
    cascade_children (fun tree found hung enough => cascadeDelete_pruned fuel tree found hung enough)
      _ tree found rfl (by omega)
  have thinned := removals.thinned tree
  have items : (kernel.heap ref).children.items = (kernel.heap ref).children.entries.map Prod.snd :=
    rfl
  rw [items, ← sameFold]
  have hashed : hashKey (emptied.heap ref).id = .ok key := by
    rw [(thinned.fields ref).id]
    exact (tree.registered found).2
  rw [removeOne_get? hashed]
  split
  · rfl
  case isFalse different =>
    cases left : emptied.agents.get? other with
    | none => rfl
    | some hit =>
      have same := thinned.shrinks left
      rw [memberFound] at same
      cases same
      have isTarget := (removals.tree tree).alone (congrArg OrderedDict.entries leaf) left
        (thinned.ascends_iff.mpr ascends)
      rw [isTarget] at memberFound
      have sameKey := (tree.registered memberFound).2.symm.trans (tree.registered found).2
      exact absurd (Except.ok.inj sameKey) different

/-- The subtree is gone with its inboxes, and everything else is as it was. -/
structure Removes (site after : Site) (key : DictKey) (target : Nat) : Prop
    extends Spares site after key target where
  gone : ∀ {other ref}, site.kernel.agents.get? other = some ref → site.kernel.Ascends ref target →
    after.kernel.agents.get? other = none ∧ after.inboxes.get? other = none

theorem Site.cascadeDelete_removes (tree : site.kernel.Tree)
    (found : site.kernel.agents.get? key = some ref) :
    Removes site (site.cascadeDelete site.kernel.allocated ref) key ref where
  toSpares := cascadeDelete_sweeps _ tree found (by omega)
  gone := by
    intro other member memberFound ascends
    have absent := cascadeDelete_gone tree found memberFound ascends
    rw [← Site.cascadeDelete_kernel] at absent
    refine ⟨absent, (Site.cascadeDelete_paired _ site ref).together other ?_ absent⟩
    rw [memberFound]
    exact Option.some_ne_none _

/-! ### The request -/

/-- `_verb_delete_agent`. -/
def Site.verbDeleteAgent (runtime : Runtime) (site : Site) (payload : Dict) :
    Except PyError (Site × Dict) :=
  let id := getD payload "id"
  if !truthy id then .ok (site, errorReply "delete_agent: id required")
  else site.delete runtime id

/-- On the kernel alone this is the verb of the kernel. -/
theorem Site.verbDeleteAgent_kernel (runtime : Runtime) (site : Site) (payload : Dict) :
    (site.verbDeleteAgent runtime payload).map (fun result => (result.1.kernel, result.2)) =
      site.kernel.verbDeleteAgent runtime payload := by
  simp only [Site.verbDeleteAgent, Kernel.verbDeleteAgent]
  split
  · rfl
  simp only [Site.delete, Kernel.delete]
  cases hashed : hashKey (getD payload "id") with
  | error failure => rfl
  | ok key =>
    simp only [bind, Except.bind]
    cases found : site.kernel.agents.get? key with
    | none => rfl
    | some target =>
      simp only
      cases site.kernel.findLockedDescendant site.kernel.allocated target with
      | some blockedBy => rfl
      | none =>
        simp only [pure, Except.pure, Except.map, Site.cascadeDelete_kernel]

/-- Refused: the reply names a locked agent of the subtree, and nothing has changed. -/
structure Refuses (site : Site) (target : Nat) (after : Site) (reply : Dict) : Prop where
  unchanged : after = site
  answered : reply.get? "locked" = some (.bool true)
  blocker : ∃ ref, site.kernel.Live ref ∧ site.kernel.Ascends ref target ∧
    site.kernel.Locked ref ∧ reply.get? "blocked_by" = some (site.kernel.heap ref).id

/-- Granted: exactly the subtree is gone. -/
structure Grants (site : Site) (key : DictKey) (target : Nat) (after : Site) (reply : Dict) : Prop where
  answered : reply.get? "deleted" = some (.bool true)
  removed : Removes site after key target

def LockedBelow (kernel : Kernel) (target : Nat) : Prop :=
  ∃ ref, kernel.Live ref ∧ kernel.Ascends ref target ∧ kernel.Locked ref

theorem Site.verbDeleteAgent_outcome {payload : Dict} (tree : site.kernel.Tree)
    (named : truthy (getD payload "id") = true) (hashed : hashKey (getD payload "id") = .ok key)
    (found : site.kernel.agents.get? key = some ref) :
    ∃ after reply, site.verbDeleteAgent runtime payload = .ok (after, reply) ∧
      (LockedBelow site.kernel ref ∧ Refuses site ref after reply ∨
        ¬ LockedBelow site.kernel ref ∧ Grants site key ref after reply) := by
  simp only [Site.verbDeleteAgent, named, Bool.not_true, Bool.false_eq_true, if_false, Site.delete,
    Kernel.delete, hashed, bind, Except.bind, found]
  cases searched : site.kernel.findLockedDescendant site.kernel.allocated ref with
  | some blockedBy =>
    obtain ⟨member, live, ascends, locked, sameId⟩ :=
      findLockedDescendant_some tree _ ⟨key, found⟩ searched
    refine ⟨_, _, rfl, .inl ⟨⟨member, live, ascends, locked⟩, rfl, ?_, ?_⟩⟩
    · rw [OrderedDict.get?_insert_of_ne _ _ (by decide),
        OrderedDict.get?_insert_of_ne _ _ (by decide),
        OrderedDict.get?_insert_of_ne _ _ (by decide), OrderedDict.get?_insert_self]
    · refine ⟨member, live, ascends, locked, ?_⟩
      rw [OrderedDict.get?_insert_of_ne _ _ (by decide),
        OrderedDict.get?_insert_of_ne _ _ (by decide), OrderedDict.get?_insert_self, sameId]
  | none =>
    refine ⟨_, _, rfl, .inr ⟨?_, ?_, Site.cascadeDelete_removes tree found⟩⟩
    · intro lockedBelow
      obtain ⟨member, live, ascends, locked⟩ := lockedBelow
      exact findLockedDescendant_none tree _ ⟨key, found⟩ (by omega) searched live ascends locked
    · rw [OrderedDict.get?_insert_of_ne _ _ (by decide), OrderedDict.get?_insert_self]

end Fantastic.Python.Kernel

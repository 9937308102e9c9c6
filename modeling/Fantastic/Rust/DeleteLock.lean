import Fantastic.Rust.KernelTree

/-!
# What a delete removes, and what stops it

`delete_from_payload` looks for a locked agent in the subtree and then takes the subtree out of
the registry, the inboxes and the children of its parent. Only the JSON value `true` is a lock
here. The emit at the end makes an inbox for the caller where there is none.
-/

namespace Fantastic.Rust.Kernel

open Relation (ReflTransGen)

variable {host : Host} {kernel before current : Kernel} {key topKey : String} {top : Nat}

/-- The first id is the second one or below it. -/
abbrev Under (kernel : Kernel) : String → String → Prop :=
  ReflTransGen kernel.ParentOf

/-! ### The search -/

theorem findLockedDescendant_some (tree : kernel.Tree) (fuel : Nat) {blocker : String} :
    ∀ {key : String} {top : Nat}, kernel.agents.get? key = some top →
      kernel.findLockedDescendant fuel top = some blocker →
        ∃ ref, kernel.agents.get? blocker = some ref ∧ kernel.Under blocker key ∧
          (kernel.heap ref).isDeleteLocked = true := by
  induction fuel with
  | zero =>
    intro key top _ searched
    cases searched
  | succ fuel ih =>
    intro key top found searched
    rw [findLockedDescendant] at searched
    split at searched
    case isTrue locked =>
      cases searched
      rw [(tree.registered found).1]
      exact ⟨top, found, .refl, locked⟩
    case isFalse =>
      obtain ⟨childId, listed, deeper⟩ := List.exists_of_findSome?_eq_some searched
      obtain ⟨child, childFound, inner⟩ := Option.bind_eq_some_iff.mp deeper
      obtain ⟨entry, isChild⟩ := mem_childIds.mp listed
      obtain ⟨childListed, named⟩ := tree.listed found isChild
      cases childFound.symm.trans childListed
      obtain ⟨ref, refFound, under, locked⟩ := ih childFound inner
      exact ⟨ref, refFound, under.tail ⟨child, childFound, named⟩, locked⟩

/-- A child is listed with its parent. -/
theorem Tree.child_listed (tree : kernel.Tree) {child upper : String} {above : Nat}
    (link : kernel.ParentOf child upper) (found : kernel.agents.get? upper = some above) :
    ∃ ref, kernel.agents.get? child = some ref ∧
      (kernel.heap above).children.get? child = some ref ∧ above < ref := by
  obtain ⟨ref, childFound, named⟩ := link
  have inner : kernel.root ≠ some ref := by
    intro isRoot
    obtain ⟨root, top, _, bare⟩ := tree.rooted
    cases isRoot.symm.trans top
    cases named.symm.trans bare
  obtain ⟨parentId, parent, parentNamed, parentFound, listed, lower⟩ := tree.hung childFound inner
  cases named.symm.trans parentNamed
  cases found.symm.trans parentFound
  exact ⟨ref, childFound, listed, lower⟩

theorem findLockedDescendant_none (tree : kernel.Tree) (fuel : Nat) :
    ∀ {key : String} {top : Nat}, kernel.agents.get? key = some top →
      kernel.allocated ≤ top + fuel → kernel.findLockedDescendant fuel top = none →
        ∀ {member : String} {ref : Nat}, kernel.agents.get? member = some ref →
          kernel.Under member key → (kernel.heap ref).isDeleteLocked = false := by
  induction fuel with
  | zero =>
    intro key top found enough
    have inside := (tree.registered found).2
    omega
  | succ fuel ih =>
    intro key top found enough searched member ref memberFound under
    rw [findLockedDescendant] at searched
    split at searched
    · cases searched
    case isFalse unlocked =>
      obtain same | ⟨child, deeper, link⟩ := ReflTransGen.cases_tail_iff _ _ _ |>.mp under
      · subst same
        cases memberFound.symm.trans found
        exact Bool.eq_false_iff.mpr unlocked
      · obtain ⟨childRef, childFound, listed, lower⟩ := tree.child_listed link found
        have quiet := List.findSome?_eq_none_iff.mp searched child (mem_childIds.mpr ⟨_, listed⟩)
        rw [childFound] at quiet
        exact ih childFound (by omega) quiet memberFound deeper

/-! ### The removal -/

theorem detach_agents (kernel : Kernel) (target : Nat) (other : String) :
    (kernel.detach target).agents.get? other =
      if other = (kernel.heap target).id then none else kernel.agents.get? other := by
  simp only [detach, unregister]
  rw [OrderedDict.get?_erase]
  split
  · rfl
  · split <;> rfl

theorem detach_inboxes (kernel : Kernel) (target : Nat) (other : String) :
    (kernel.detach target).inboxes.get? other =
      if other = (kernel.heap target).id then none else kernel.inboxes.get? other := by
  simp only [detach, unregister]
  rw [OrderedDict.get?_erase]
  split
  · rfl
  · split <;> rfl

/-- Only the entry of the target itself can leave a children map. -/
theorem detach_children (kernel : Kernel) (target ref : Nat) {other : String}
    (different : other ≠ (kernel.heap target).id) :
    ((kernel.detach target).heap ref).children.get? other =
      (kernel.heap ref).children.get? other := by
  simp only [detach, unregister]
  split
  · rfl
  · simp only [modify, Function.update_apply]
    split
    case isTrue same =>
      rw [OrderedDict.get?_erase, if_neg different, same]
    case isFalse => rfl

theorem detach_unlists (kernel : Kernel) {target ref : Nat} {upper : String}
    (named : (kernel.heap target).parentId = some upper)
    (found : kernel.agents.get? upper = some ref) :
    ((kernel.detach target).heap ref).children.get? (kernel.heap target).id = none := by
  simp only [detach, unregister, named, Option.bind_some, found, modify, Function.update_self]
  rw [OrderedDict.get?_erase, if_pos rfl]

theorem detach_children_absent (kernel : Kernel) (target ref : Nat) {other : String}
    (absent : (kernel.heap ref).children.get? other = none) :
    ((kernel.detach target).heap ref).children.get? other = none := by
  simp only [detach, unregister]
  split
  · exact absent
  · simp only [modify, Function.update_apply]
    split
    case isTrue same =>
      rw [OrderedDict.get?_erase, ← same, absent, ite_self]
    case isFalse => exact absent

/-- What a removal does not touch. -/
structure Spares (before after : Kernel) (topKey : String) : Prop where
  kept : ∀ {key}, ¬ before.Under key topKey →
    after.agents.get? key = before.agents.get? key ∧
      after.inboxes.get? key = before.inboxes.get? key
  children : ∀ {upper ref}, before.agents.get? upper = some ref → ¬ before.Under upper topKey →
    ∀ key, (after.heap ref).children.get? key =
      if key = topKey then none else (before.heap ref).children.get? key

/-- A cascade on its way through the children of `top`. -/
structure Sweep (before current : Kernel) (topKey : String) (top : Nat) (done : List String) : Prop where
  emptying : Emptying before current top done
  kept : ∀ {key}, ¬ before.Under key topKey →
    current.agents.get? key = before.agents.get? key ∧
      current.inboxes.get? key = before.inboxes.get? key
  children : ∀ {upper ref}, before.agents.get? upper = some ref → ¬ before.Under upper topKey →
    ∀ key, (current.heap ref).children.get? key = (before.heap ref).children.get? key

theorem Emptying.parentOf {done : List String} (emptying : Emptying before current top done)
    {child upper : String} (link : current.ParentOf child upper) : before.ParentOf child upper := by
  obtain ⟨ref, found, named⟩ := link
  refine ⟨ref, emptying.shrinks child ref found, ?_⟩
  rw [← (emptying.fields ref).parentId]
  exact named

theorem Emptying.under {done : List String} (emptying : Emptying before current top done)
    {low high : String} (under : current.Under low high) : before.Under low high :=
  ReflTransGen.mono (fun _ _ link => emptying.parentOf link) low high under

theorem Sweep.child {done : List String} {childId : String} {child : Nat} {after : Kernel}
    (sweep : Sweep before current topKey top done) (tree : before.Tree)
    (found : before.agents.get? topKey = some top)
    (listed : (current.heap top).children.get? childId = some child)
    (trimmed : Trimmed current after child) (spares : Spares current after childId) :
    Sweep before after topKey top (done ++ [childId]) := by
  have known := sweep.emptying.kept topKey top found (Nat.le_refl _)
  obtain ⟨childFound, named⟩ := sweep.emptying.tree.listed known listed
  have link : before.ParentOf childId topKey := sweep.emptying.parentOf ⟨child, childFound, named⟩
  have outside : ∀ {key}, ¬ before.Under key topKey → ¬ current.Under key childId := by
    intro key apart under
    exact apart ((sweep.emptying.under under).tail link)
  constructor
  · exact sweep.emptying.trim found listed trimmed
  · intro key apart
    obtain ⟨sameAgent, sameInbox⟩ := sweep.kept apart
    obtain ⟨laterAgent, laterInbox⟩ := spares.kept (outside apart)
    exact ⟨laterAgent.trans sameAgent, laterInbox.trans sameInbox⟩
  · intro upper ref upperFound apart key
    have upperNow : current.agents.get? upper = some ref := by
      rw [(sweep.kept apart).1]
      exact upperFound
    rw [spares.children upperNow (outside apart), sweep.children upperFound apart]
    split
    case isTrue same =>
      -- the child hangs under `top` alone
      cases entry : (before.heap ref).children.get? key with
      | none => rfl
      | some other =>
        obtain ⟨otherFound, otherNamed⟩ := tree.listed upperFound entry
        obtain ⟨linked, linkedFound, linkedNamed⟩ := link
        rw [same] at otherFound
        cases otherFound.symm.trans linkedFound
        cases otherNamed.symm.trans linkedNamed
        exact absurd .refl apart
    case isFalse => rfl

theorem sweep_children {fuel : Nat}
    (call : ∀ {kernel : Kernel} {key : String} {top : Nat}, kernel.Tree →
      kernel.agents.get? key = some top → kernel.allocated ≤ top + fuel →
        Spares kernel (cascadeDelete fuel kernel top) key)
    (tree : kernel.Tree) (found : kernel.agents.get? topKey = some top)
    (enough : kernel.allocated ≤ top + fuel + 1) (ids : List String) :
    ∀ done current, Sweep kernel current topKey top done → (done ++ ids).Nodup →
      (∀ id ∈ ids, ∃ ref, (kernel.heap top).children.get? id = some ref) →
        Sweep kernel (ids.foldl
          (fun current childId =>
            match current.agents.get? childId with
            | none => current
            | some child => cascadeDelete fuel current child)
          current) topKey top (done ++ ids) := by
  induction ids with
  | nil =>
    intro done current sweep _ _
    rw [List.append_nil]
    exact sweep
  | cons childId ids next =>
    intro done current sweep nodup children
    rw [List.foldl_cons, List.append_cons]
    rw [List.append_cons] at nodup
    apply next _ _ _ nodup fun id member => children id (List.mem_cons_of_mem _ member)
    have fresh : childId ∉ done := by
      intro again
      have split := (List.nodup_append.mp (List.nodup_append.mp nodup).1).2.2
      exact split childId again childId (List.mem_singleton.mpr rfl) rfl
    obtain ⟨child, wasListed⟩ := children childId List.mem_cons_self
    have currentTree := sweep.emptying.tree
    have known := sweep.emptying.kept topKey top found (Nat.le_refl _)
    have listed : (current.heap top).children.get? childId = some child := by
      rw [sweep.emptying.own, if_neg fresh, wasListed]
    have higher := currentTree.child_above known listed
    have entry := (currentTree.listed known listed).1
    have below : current.allocated ≤ child + fuel := by
      rw [sweep.emptying.allocated]
      omega
    simp only [entry]
    apply sweep.child tree found listed
    · exact cascadeDelete_trims fuel currentTree entry (currentTree.child_inner known listed) below
    · exact call currentTree entry below

theorem Sweep.start (tree : kernel.Tree) (topKey : String) (top : Nat) :
    Sweep kernel kernel topKey top [] where
  emptying := .start tree top
  kept _ := ⟨rfl, rfl⟩
  children _ _ _ := rfl

theorem Sweep.finish {done : List String} (sweep : Sweep before current topKey top done)
    (tree : before.Tree) (found : before.agents.get? topKey = some top) :
    Spares before (current.detach top) topKey := by
  have id : (current.heap top).id = topKey := by
    rw [(sweep.emptying.fields top).id]
    exact (tree.registered found).1
  constructor
  · intro key apart
    have different : key ≠ topKey := by
      intro same
      rw [same] at apart
      exact apart .refl
    obtain ⟨sameAgent, sameInbox⟩ := sweep.kept apart
    rw [detach_agents, detach_inboxes, id, if_neg different, if_neg different]
    exact ⟨sameAgent, sameInbox⟩
  · intro upper ref upperFound apart key
    by_cases same : key = topKey
    · rw [if_pos same, same]
      have unchanged := sweep.children upperFound apart topKey
      cases entry : (before.heap ref).children.get? topKey with
      | none =>
        apply detach_children_absent
        rw [unchanged]
        exact entry
      | some listed =>
        obtain ⟨listedFound, named⟩ := tree.listed upperFound entry
        cases found.symm.trans listedFound
        rw [← id]
        apply detach_unlists
        · rw [(sweep.emptying.fields top).parentId]
          exact named
        · rw [(sweep.kept apart).1]
          exact upperFound
    · rw [if_neg same, detach_children]
      · exact sweep.children upperFound apart key
      · rw [id]
        exact same

theorem sweep_all (fuel : Nat) (tree : kernel.Tree) (found : kernel.agents.get? topKey = some top)
    (enough : kernel.allocated ≤ top + fuel + 1)
    (call : ∀ {kernel : Kernel} {key : String} {top : Nat}, kernel.Tree →
      kernel.agents.get? key = some top → kernel.allocated ≤ top + fuel →
        Spares kernel (cascadeDelete fuel kernel top) key) :
    ∃ emptied, cascadeDelete (fuel + 1) kernel top = emptied.detach top ∧
      Sweep kernel emptied topKey top (kernel.heap top).childIds := by
  refine ⟨_, rfl, ?_⟩
  exact sweep_children call tree found enough (kernel.heap top).childIds [] kernel
    (.start tree topKey top) (childIds_nodup _) fun id member => mem_childIds.mp member

theorem cascadeDelete_spares (fuel : Nat) : ∀ {kernel : Kernel} {topKey : String} {top : Nat},
    kernel.Tree → kernel.agents.get? topKey = some top → kernel.allocated ≤ top + fuel →
      Spares kernel (cascadeDelete fuel kernel top) topKey := by
  induction fuel with
  | zero =>
    intro kernel topKey top tree found enough
    have inside := (tree.registered found).2
    omega
  | succ fuel ih =>
    intro kernel topKey top tree found enough
    obtain ⟨emptied, unfolded, sweep⟩ := sweep_all fuel tree found enough ih
    rw [unfolded]
    exact sweep.finish tree found

/-! ### What is gone -/

/-- Whoever is left of the subtree still hangs in it. -/
theorem Emptying.under_left {done : List String} (emptying : Emptying before current top done)
    {high : String} (key : String) (under : before.Under key high) :
    (∃ ref, current.agents.get? key = some ref) → current.Under key high := by
  induction under using ReflTransGen.head_induction_on with
  | refl =>
    intro _
    exact .refl
  | head link _ ih =>
    intro left
    obtain ⟨ref, found⟩ := left
    obtain ⟨wasRef, wasFound, named⟩ := link
    cases (emptying.shrinks _ ref found).symm.trans wasFound
    rw [← (emptying.fields ref).parentId] at named
    have inner : current.root ≠ some ref := by
      intro isRoot
      obtain ⟨root, top, _, bare⟩ := emptying.tree.rooted
      cases isRoot.symm.trans top
      cases named.symm.trans bare
    obtain ⟨parentId, above, parentNamed, parentFound, _⟩ := emptying.tree.hung found inner
    cases named.symm.trans parentNamed
    exact (ih ⟨above, parentFound⟩).head ⟨ref, found, named⟩

theorem Sweep.gone {done : List String} (sweep : Sweep before current topKey top done)
    (tree : before.Tree) (found : before.agents.get? topKey = some top)
    (all : ∀ key, key ∉ done → (before.heap top).children.get? key = none)
    (under : before.Under key topKey) : (current.detach top).agents.get? key = none := by
  have id : (current.heap top).id = topKey := by
    rw [(sweep.emptying.fields top).id]
    exact (tree.registered found).1
  rw [detach_agents, id]
  split
  · rfl
  case isFalse different =>
    cases left : current.agents.get? key with
    | none => rfl
    | some ref =>
      have stillUnder := sweep.emptying.under_left key under ⟨ref, left⟩
      obtain same | ⟨child, _, link⟩ := ReflTransGen.cases_tail_iff _ _ _ |>.mp stillUnder
      · exact absurd same.symm different
      · have known := sweep.emptying.kept topKey top found (Nat.le_refl _)
        obtain ⟨_, _, listed, _⟩ := sweep.emptying.tree.child_listed link known
        rw [sweep.emptying.own] at listed
        split at listed
        · cases listed
        case isFalse left =>
          rw [all child left] at listed
          cases listed

theorem cascadeDelete_gone (tree : kernel.Tree) (found : kernel.agents.get? topKey = some top)
    (under : kernel.Under key topKey) :
    (cascadeDelete kernel.allocated kernel top).agents.get? key = none := by
  have inside := (tree.registered found).2
  obtain ⟨fuel, count⟩ := Nat.exists_eq_add_of_lt (Nat.zero_lt_of_lt inside)
  rw [Nat.zero_add] at count
  rw [count]
  obtain ⟨emptied, unfolded, sweep⟩ := sweep_all fuel tree found (by omega)
    fun childTree childFound enough => cascadeDelete_spares fuel childTree childFound enough
  rw [unfolded]
  apply sweep.gone tree found _ under
  intro other left
  cases child : (kernel.heap top).children.get? other with
  | none => rfl
  | some ref => exact absurd (mem_childIds.mpr ⟨ref, child⟩) left

/-- An agent and its inbox go together. -/
structure Paired (before after : Kernel) : Prop where
  agents : ∀ key, before.agents.get? key = none → after.agents.get? key = none
  inboxes : ∀ key, before.inboxes.get? key = none → after.inboxes.get? key = none
  together : ∀ key, before.agents.get? key ≠ none → after.agents.get? key = none →
    after.inboxes.get? key = none

theorem Paired.refl (kernel : Kernel) : Paired kernel kernel :=
  ⟨fun _ absent => absent, fun _ absent => absent, fun _ present absent => absurd absent present⟩

theorem Paired.trans {first second third : Kernel} (early : Paired first second)
    (late : Paired second third) : Paired first third where
  agents key absent := late.agents key (early.agents key absent)
  inboxes key absent := late.inboxes key (early.inboxes key absent)
  together := by
    intro key present absent
    by_cases between : second.agents.get? key = none
    · exact late.inboxes key (early.together key present between)
    · exact late.together key between absent

theorem detach_paired (kernel : Kernel) (target : Nat) : Paired kernel (kernel.detach target) := by
  constructor
  · intro key absent
    rw [detach_agents, absent, ite_self]
  · intro key absent
    rw [detach_inboxes, absent, ite_self]
  · intro key present absent
    rw [detach_agents] at absent
    rw [detach_inboxes]
    split at absent
    case isTrue same => rw [if_pos same]
    case isFalse => exact absurd absent present

theorem cascadeDelete_paired (fuel : Nat) : ∀ (kernel : Kernel) (target : Nat),
    Paired kernel (cascadeDelete fuel kernel target) := by
  induction fuel with
  | zero =>
    intro kernel target
    exact .refl kernel
  | succ fuel ih =>
    intro kernel target
    have folded : ∀ (ids : List String) (current : Kernel), Paired current (ids.foldl
        (fun current childId =>
          match current.agents.get? childId with
          | none => current
          | some child => cascadeDelete fuel current child)
        current) := by
      intro ids
      induction ids with
      | nil =>
        intro current
        exact .refl current
      | cons childId ids later =>
        intro current
        rw [List.foldl_cons]
        apply Paired.trans _ (later _)
        split
        · exact .refl current
        · exact ih current _
    exact (folded _ kernel).trans (detach_paired _ target)

/-- The subtree is gone with its inboxes, and everything else is as it was. The inbox of the
caller is left out: the emit that follows makes one. -/
structure Removes (before after : Kernel) (topKey callerId : String) : Prop where
  gone : ∀ {key ref}, before.agents.get? key = some ref → before.Under key topKey →
    after.agents.get? key = none ∧ (key ≠ callerId → after.inboxes.get? key = none)
  kept : ∀ {key}, ¬ before.Under key topKey → after.agents.get? key = before.agents.get? key ∧
    (key ≠ callerId → after.inboxes.get? key = before.inboxes.get? key)
  children : ∀ {upper ref}, before.agents.get? upper = some ref → ¬ before.Under upper topKey →
    ∀ key, (after.heap ref).children.get? key =
      if key = topKey then none else (before.heap ref).children.get? key

theorem vivify_inboxes (kernel : Kernel) {id other : String} (different : other ≠ id) :
    (kernel.vivify id).inboxes.get? other = kernel.inboxes.get? other := by
  unfold vivify
  split
  · rfl
  · exact OrderedDict.get?_insert_of_ne _ _ different

theorem cascadeDelete_removes (tree : kernel.Tree) (found : kernel.agents.get? topKey = some top)
    (callerId : String) :
    Removes kernel ((cascadeDelete kernel.allocated kernel top).vivify callerId) topKey callerId := by
  have spares := cascadeDelete_spares kernel.allocated tree found (by omega)
  constructor
  · intro key ref known under
    have absent := cascadeDelete_gone tree found under
    refine ⟨by rw [vivify_agents]; exact absent, ?_⟩
    intro different
    rw [vivify_inboxes _ different]
    apply (cascadeDelete_paired _ kernel top).together key _ absent
    rw [known]
    exact Option.some_ne_none _
  · intro key apart
    obtain ⟨sameAgent, sameInbox⟩ := spares.kept apart
    refine ⟨by rw [vivify_agents]; exact sameAgent, ?_⟩
    intro different
    rw [vivify_inboxes _ different]
    exact sameInbox
  · intro upper ref upperFound apart key
    rw [vivify_heap]
    exact spares.children upperFound apart key

/-! ### The request -/

def LockedBelow (kernel : Kernel) (id : String) : Prop :=
  ∃ key ref, kernel.agents.get? key = some ref ∧ kernel.Under key id ∧
    (kernel.heap ref).isDeleteLocked = true

/-- The members of a reply. -/
def member (reply : Value) (name : String) : Option Value :=
  match reply with
  | .dict entries => (entries.find? fun entry => entry.1 = name).map Prod.snd
  | _ => none

/-- Refused: the reply names a locked agent of the subtree, and nothing has changed. -/
structure Refuses (kernel : Kernel) (id : String) (after : Kernel) (reply : Value) : Prop where
  unchanged : after = kernel
  answered : member reply "locked" = some (.bool true)
  blocker : ∃ key ref, kernel.agents.get? key = some ref ∧ kernel.Under key id ∧
    (kernel.heap ref).isDeleteLocked = true ∧ member reply "blocked_by" = some (.str key)

/-- Granted: exactly the subtree is gone. -/
structure Grants (kernel : Kernel) (id callerId : String) (after : Kernel) (reply : Value) : Prop where
  answered : member reply "deleted" = some (.bool true)
  removed : Removes kernel after id callerId

theorem deleteFromPayload_outcome (host : Host) {payload : Dict} {id : String} {target : Nat}
    (caller : Nat) (tree : kernel.Tree) (named : textOf payload "id" = some id)
    (found : kernel.agents.get? id = some target) :
    LockedBelow kernel id ∧ Refuses kernel id (deleteFromPayload host kernel caller payload).1
        (deleteFromPayload host kernel caller payload).2 ∨
      ¬ LockedBelow kernel id ∧ Grants kernel id (kernel.heap caller).id
        (deleteFromPayload host kernel caller payload).1
        (deleteFromPayload host kernel caller payload).2 := by
  simp only [deleteFromPayload, named, found]
  cases searched : kernel.findLockedDescendant kernel.allocated target with
  | some blocker =>
    obtain ⟨ref, refFound, under, locked⟩ := findLockedDescendant_some tree _ found searched
    refine .inl ⟨⟨blocker, ref, refFound, under, locked⟩, rfl, rfl, ?_⟩
    exact ⟨blocker, ref, refFound, under, locked, rfl⟩
  | none =>
    refine .inr ⟨?_, rfl, cascadeDelete_removes tree found _⟩
    intro lockedBelow
    obtain ⟨key, ref, refFound, under, locked⟩ := lockedBelow
    have unlocked := findLockedDescendant_none tree _ found (by omega) searched refFound under
    rw [unlocked] at locked
    cases locked

end Fantastic.Rust.Kernel

import Fantastic.Python.CascadeWalk

/-!
# Cascades along whole runs

A run is careful when nothing is created under an agent whose cascade has already listed
its children, and no cascade is admitted inside or around one that is in flight. In a
careful run every agent a cascade takes out is a leaf, so the tree stays whole, no lookup
fails, and a finished cascade has taken its whole subtree with it.
-/

namespace Fantastic.Python.Kernel

variable {kernel after : Kernel} {target lower : Nat}

/-! ### What a cascade in flight looks like -/

/-- The calls around the one at `lower`, innermost first: each waits for the call below it
and has listed the rest of its children, which are still exactly its children. -/
def Path (kernel : Kernel) (target : Nat) : Nat → List Frame → Prop
  | lower, [] => lower = target
  | lower, frame :: outer =>
    kernel.Live frame.ref ∧ kernel.Up lower frame.ref ∧
      (∃ key, hashKey (kernel.heap lower).id = .ok key ∧
        (kernel.heap frame.ref).children.keys = key :: frame.pending) ∧
      kernel.Path target frame.ref outer

/-- The innermost call has no child left and waits for its hook. -/
structure Standing (kernel : Kernel) (target : Nat) (stack : List Frame) : Prop where
  waits : ∃ top outer, stack = ⟨top, []⟩ :: outer ∧ kernel.Live top ∧
    (kernel.heap top).children.keys = [] ∧ kernel.Path target top outer

theorem Path.ascends {frames : List Frame} (path : kernel.Path target lower frames) :
    kernel.Ascends lower target ∧
      ∀ frame ∈ frames, kernel.Live frame.ref ∧ kernel.Ascends lower frame.ref ∧
        kernel.Ascends frame.ref target := by
  induction frames generalizing lower with
  | nil =>
    rw [show lower = target from path]
    exact ⟨.refl, by simp⟩
  | cons frame outer ih =>
    obtain ⟨live, up, -, rest⟩ := path
    obtain ⟨above, others⟩ := ih rest
    refine ⟨above.head up, ?_⟩
    intro other member
    obtain rfl | member := List.mem_cons.mp member
    · exact ⟨live, .single up, above⟩
    · obtain ⟨otherLive, here, there⟩ := others other member
      exact ⟨otherLive, here.head up, there⟩

/-- A change that keeps the ids and parents of live agents, and the frames' own child
tables, keeps the path. -/
theorem Path.congr {frames : List Frame} (path : kernel.Path target lower frames)
    (lowerSame : (after.heap lower).id = (kernel.heap lower).id ∧
      (after.heap lower).parent = (kernel.heap lower).parent)
    (framesSame : ∀ frame ∈ frames, after.Live frame.ref ∧
      (after.heap frame.ref).id = (kernel.heap frame.ref).id ∧
      (after.heap frame.ref).parent = (kernel.heap frame.ref).parent ∧
      (after.heap frame.ref).children = (kernel.heap frame.ref).children) :
    after.Path target lower frames := by
  induction frames generalizing lower with
  | nil => exact path
  | cons frame outer ih =>
    obtain ⟨-, up, ⟨key, hashed, keys⟩, rest⟩ := path
    obtain ⟨live, sameId, sameParent, sameChildren⟩ := framesSame frame List.mem_cons_self
    refine ⟨live, ?_, ⟨key, ?_, ?_⟩, ?_⟩
    · unfold Up
      rw [lowerSame.2]
      exact up
    · rw [lowerSame.1]
      exact hashed
    · rw [sameChildren]
      exact keys
    · exact ih rest ⟨sameId, sameParent⟩
        fun other member => framesSame other (List.mem_cons_of_mem _ member)

theorem Standing.congr {stack : List Frame} (standing : kernel.Standing target stack)
    (same : ∀ frame ∈ stack, after.Live frame.ref ∧
      (after.heap frame.ref).id = (kernel.heap frame.ref).id ∧
      (after.heap frame.ref).parent = (kernel.heap frame.ref).parent ∧
      (after.heap frame.ref).children = (kernel.heap frame.ref).children) :
    after.Standing target stack := by
  obtain ⟨top, outer, rfl, -, childless, path⟩ := standing.waits
  obtain ⟨live, sameId, sameParent, sameChildren⟩ := same ⟨top, []⟩ List.mem_cons_self
  refine ⟨top, outer, rfl, live, ?_, ?_⟩
  · rw [sameChildren]
    exact childless
  · exact path.congr ⟨sameId, sameParent⟩
      fun frame member => same frame (List.mem_cons_of_mem _ member)

theorem Standing.ascends {stack : List Frame} (standing : kernel.Standing target stack) :
    ∀ frame ∈ stack, kernel.Live frame.ref ∧ kernel.Ascends frame.ref target := by
  obtain ⟨top, outer, rfl, live, -, path⟩ := standing.waits
  obtain ⟨above, others⟩ := path.ascends
  intro frame member
  obtain rfl | member := List.mem_cons.mp member
  · exact ⟨live, above⟩
  · exact ⟨(others frame member).1, (others frame member).2.2⟩

/-! ### Going down and coming back -/

theorem Tree.enter_standing (tree : kernel.Tree) (fuel : Nat) {ref : Nat} {outer : List Frame}
    (live : kernel.Live ref) (enough : kernel.allocated ≤ ref + fuel)
    (path : kernel.Path target ref outer) :
    kernel.Standing target (kernel.enter fuel ref outer) := by
  induction fuel generalizing ref outer with
  | zero =>
    have inside := tree.live_lt live
    omega
  | succ fuel ih =>
    unfold enter
    split
    · rename_i none
      exact ⟨ref, outer, rfl, live, by simp [OrderedDict.keys, none], path⟩
    · rename_i key child rest entries
      have linked : (kernel.heap ref).children.get? key = some child := by
        rw [← OrderedDict.mem_entries_iff, entries]
        exact List.mem_cons_self
      obtain ⟨found, up⟩ := tree.childLinks live linked
      have older := (tree.parentLinks found up).2.1
      have hashed := (tree.registered found).2
      apply ih ⟨key, found⟩ (by omega)
      exact ⟨live, up, ⟨key, hashed, by simp [OrderedDict.keys, entries]⟩, path⟩

/-- Back in the loop after a child has gone: the listed keys are still there. -/
theorem Tree.advance_standing (tree : kernel.Tree) {frame : Frame} {outer : List Frame}
    (live : kernel.Live frame.ref) (listed : (kernel.heap frame.ref).children.keys = frame.pending)
    (path : kernel.Path target frame.ref outer) :
    ∃ stack, kernel.advance (frame :: outer) = some stack ∧ kernel.Standing target stack := by
  obtain ⟨ref, pending⟩ := frame
  cases pending with
  | nil => exact ⟨⟨ref, []⟩ :: outer, rfl, ref, outer, rfl, live, listed, path⟩
  | cons key keys =>
    have present : key ∈ (kernel.heap ref).children.keys := by
      rw [listed]
      exact List.mem_cons_self
    obtain ⟨child, linked⟩ := OrderedDict.mem_keys_iff.mp present
    obtain ⟨found, up⟩ := tree.childLinks live linked
    have hashed := (tree.registered found).2
    refine ⟨kernel.enter kernel.allocated child (⟨ref, keys⟩ :: outer), ?_, ?_⟩
    · simp only [advance, linked]
    · apply tree.enter_standing _ ⟨key, found⟩ (by omega)
      exact ⟨live, up, ⟨key, hashed, listed⟩, path⟩

/-- The return of a hook, for the cascade that waited for it: a leaf goes, and the
cascade stands at its next hook, or is over and its target is gone. -/
structure Resumed (kernel : Kernel) (walk : Walk) (result : Kernel × Walk) : Prop where
  removed : ∃ top key parent, kernel.agents.get? key = some top ∧
    kernel.Ascends top walk.target ∧ kernel.Up top parent ∧
    (kernel.heap top).children = .empty ∧ result.1 = kernel.removeOne top
  calm : result.2.raised = walk.raised
  target : result.2.target = walk.target
  admitted : result.2.admitted = walk.admitted
  stands : result.2.stack ≠ [] → result.1.Standing walk.target result.2.stack
  finished : result.2.stack = [] → ¬ result.1.Live walk.target

theorem Tree.path_older (tree : kernel.Tree) {frames : List Frame} (live : kernel.Live lower)
    (path : kernel.Path target lower frames) : ∀ frame ∈ frames, frame.ref < lower := by
  induction frames generalizing lower with
  | nil => simp
  | cons frame outer ih =>
    obtain ⟨frameLive, up, -, rest⟩ := path
    obtain ⟨key, found⟩ := live
    have older := (tree.parentLinks found up).2.1
    intro other member
    obtain rfl | member := List.mem_cons.mp member
    · exact older
    · exact Nat.lt_trans (ih frameLive rest other member) older

/-- Taking one leaf out, seen from the agents that stay. -/
theorem Tree.live_removeOne_iff (tree : kernel.Tree) {key : DictKey} {top ref : Nat}
    (found : kernel.agents.get? key = some top) :
    (kernel.removeOne top).Live ref ↔ kernel.Live ref ∧ ref ≠ top := by
  have hashed := (tree.registered found).2
  constructor
  · intro live
    obtain ⟨other, hit⟩ := live
    rw [removeOne_get? hashed] at hit
    split at hit
    · contradiction
    · rename_i away
      refine ⟨⟨other, hit⟩, ?_⟩
      intro same
      rw [same] at hit
      exact away (Except.ok.inj ((tree.registered hit).2.symm.trans hashed))
  · intro stays
    obtain ⟨⟨other, hit⟩, away⟩ := stays
    refine ⟨other, ?_⟩
    rw [removeOne_get? hashed, if_neg, hit]
    intro same
    rw [same, found] at hit
    exact away (Option.some.inj hit).symm

theorem Tree.resumed (tree : kernel.Tree) {walk : Walk} {above : Nat}
    (hung : kernel.Up walk.target above) (standing : kernel.Standing walk.target walk.stack) :
    Resumed kernel walk (kernel.resume walk) := by
  obtain ⟨top, outer, shape, live, childless, path⟩ := standing.waits
  obtain ⟨key, found⟩ := live
  have hashed := (tree.registered found).2
  have ascends := path.ascends.1
  have leaf := OrderedDict.eq_empty_of_keys childless
  cases outer with
  | nil =>
    have same : top = walk.target := path
    have result : kernel.resume walk = (kernel.removeOne top, { walk with stack := [] }) := by
      simp only [resume, shape, advance]
    rw [result]
    refine ⟨⟨top, key, above, found, ascends, ?_, leaf, rfl⟩, rfl, rfl, rfl, ?_, ?_⟩
    · rw [same]
      exact hung
    · intro stands
      exact absurd rfl stands
    · intro _ still
      exact ((tree.live_removeOne_iff found).mp still).2 same.symm
  | cons frame more =>
    have older := tree.path_older ⟨key, found⟩ path
    obtain ⟨frameLive, up, ⟨otherKey, otherHashed, keys⟩, rest⟩ := path
    have sameKey : otherKey = key := Except.ok.inj (otherHashed.symm.trans hashed)
    subst sameKey
    have later := (LeafRemoval.remove found leaf up).tree tree
    have fields := removeOne_sameFields hashed up
    have stays (ref : Nat) (refLive : kernel.Live ref) (away : ref < top) :
        (kernel.removeOne top).Live ref :=
      (tree.live_removeOne_iff found).mpr ⟨refLive, Nat.ne_of_lt away⟩
    have listed : ((kernel.removeOne top).heap frame.ref).children.keys = frame.pending := by
      rw [removeOne_children hashed up, if_pos rfl]
      exact OrderedDict.keys_erase_head keys
    have pathLater : (kernel.removeOne top).Path walk.target frame.ref more := by
      apply rest.congr ⟨(fields frame.ref).id, (fields frame.ref).parent⟩
      intro other member
      have below := tree.path_older frameLive rest other member
      refine ⟨stays other.ref (rest.ascends.2 other member).1 ?_, (fields _).id,
        (fields _).parent, ?_⟩
      · exact older other (List.mem_cons_of_mem _ member)
      · rw [removeOne_children hashed up, if_neg (Nat.ne_of_lt below)]
    obtain ⟨stack, advanced, stands⟩ := later.advance_standing
      (stays frame.ref frameLive (older frame List.mem_cons_self)) listed pathLater
    have result : kernel.resume walk = (kernel.removeOne top, { walk with stack := stack }) := by
      simp only [resume, shape, advanced]
    rw [result]
    refine ⟨⟨top, otherKey, frame.ref, found, ascends, up, leaf, rfl⟩, rfl, rfl, rfl,
      fun _ => stands, ?_⟩
    intro finished
    obtain ⟨first, others, nonempty, -⟩ := stands.waits
    have empty : stack = [] := finished
    rw [empty] at nonempty
    contradiction

/-! ### Careful runs -/

namespace Plant

variable {plant : Plant} {runtime : Runtime}

/-- No creation under an agent whose cascade has begun, and no cascade that starts at the
root, inside a cascade in flight, or around one. -/
def Careful (plant : Plant) : Action → Prop
  | .resume _ => True
  | .request request =>
    match request.verb with
    | .updateAgent => True
    | .createAgent =>
      ∀ self, plant.kernel.resolveTarget request.target = .ok (some self) →
        ∀ walk ∈ plant.walks, ∀ frame ∈ walk.stack, frame.ref ≠ self
    | .deleteAgent =>
      ∀ target, plant.kernel.admits request = some target →
        plant.kernel.root ≠ some target ∧
          ∀ walk ∈ plant.walks, walk.stack ≠ [] →
            ¬ plant.kernel.Ascends target walk.target ∧
              ¬ plant.kernel.Ascends walk.target target

def CarefulRun (runtime : Runtime) : Plant → List Action → Prop
  | _, [] => True
  | plant, action :: rest =>
    Careful plant action ∧ CarefulRun runtime (plant.step runtime action) rest

/-- One cascade, in a state of the kernel. -/
structure WalkFine (kernel : Kernel) (walk : Walk) : Prop where
  calm : walk.raised = false
  old : walk.target < kernel.allocated
  hung : walk.stack ≠ [] → ∃ above, kernel.Up walk.target above
  standing : walk.stack ≠ [] → kernel.Standing walk.target walk.stack
  gone : walk.stack = [] → ¬ kernel.Live walk.target
  covered : ∀ ref ∈ walk.admitted, ref < kernel.allocated ∧
    (kernel.Live ref → kernel.Ascends ref walk.target)

/-- The invariant of careful runs: the tree is whole, every cascade stands as it should,
and the cascades in flight are in separate subtrees. -/
structure Orderly (plant : Plant) : Prop where
  tree : plant.kernel.Tree
  fine : ∀ {index : Nat} {walk : Walk}, plant.walks[index]? = some walk → WalkFine plant.kernel walk
  apart : ∀ {index other : Nat} {walk otherWalk : Walk}, index ≠ other → plant.walks[index]? = some walk →
    plant.walks[other]? = some otherWalk → walk.stack ≠ [] → otherWalk.stack ≠ [] →
      ¬ plant.kernel.Ascends walk.target otherWalk.target

/-- What a step of the kernel leaves alone, as far as one cascade is concerned. -/
structure Untouched (kernel after : Kernel) (walk : Walk) : Prop where
  grown : kernel.allocated ≤ after.allocated
  fields : ∀ ref, kernel.Live ref → (after.heap ref).id = (kernel.heap ref).id ∧
    (after.heap ref).parent = (kernel.heap ref).parent
  shrinks : ∀ ref, ref < kernel.allocated → after.Live ref → kernel.Live ref
  frames : ∀ frame ∈ walk.stack, after.Live frame.ref ∧
    (after.heap frame.ref).children = (kernel.heap frame.ref).children

theorem WalkFine.untouched {kernel after : Kernel} {walk : Walk} (tree : kernel.Tree)
    (fine : WalkFine kernel walk) (untouched : Untouched kernel after walk) :
    WalkFine after walk where
  calm := fine.calm
  old := Nat.lt_of_lt_of_le fine.old untouched.grown
  hung := by
    intro active
    obtain ⟨above, up⟩ := fine.hung active
    obtain ⟨top, outer, -, live, -, path⟩ := (fine.standing active).waits
    have targetLive := tree.live_of_ascends live path.ascends.1
    refine ⟨above, ?_⟩
    unfold Up
    rw [(untouched.fields _ targetLive).2]
    exact up
  standing := by
    intro active
    apply (fine.standing active).congr
    intro frame member
    obtain ⟨live, -⟩ := (fine.standing active).ascends frame member
    obtain ⟨stays, children⟩ := untouched.frames frame member
    obtain ⟨sameId, sameParent⟩ := untouched.fields _ live
    exact ⟨stays, sameId, sameParent, children⟩
  gone := by
    intro finished live
    exact fine.gone finished (untouched.shrinks _ fine.old live)
  covered := by
    intro ref member
    obtain ⟨old, ascends⟩ := fine.covered ref member
    refine ⟨Nat.lt_of_lt_of_le old untouched.grown, ?_⟩
    intro live
    have before := untouched.shrinks ref old live
    exact (tree.ascends_congr before fun other otherLive => (untouched.fields other otherLive).2).mpr
      (ascends before)

/-- A step of the kernel that every cascade lets pass. -/
theorem Orderly.kernel_step {after : Kernel} (orderly : plant.Orderly) (tree : after.Tree)
    (untouched : ∀ walk ∈ plant.walks, Untouched plant.kernel after walk) :
    Orderly { plant with kernel := after } where
  tree := tree
  fine := by
    intro index walk found
    exact (orderly.fine found).untouched orderly.tree
      (untouched walk (List.mem_of_getElem? found))
  apart := by
    intro index other walk otherWalk distinct found otherFound active otherActive ascends
    have before := orderly.fine found
    obtain ⟨top, outer, -, live, -, path⟩ := (before.standing active).waits
    have targetLive := orderly.tree.live_of_ascends live path.ascends.1
    have same := untouched walk (List.mem_of_getElem? found)
    exact orderly.apart distinct found otherFound active otherActive
      ((orderly.tree.ascends_congr targetLive
        fun ref refLive => (same.fields ref refLive).2).mp ascends)

theorem placed_untouched {kernel : Kernel} {key : DictKey} {agent : Agent} {self : Nat}
    {walk : Walk} (tree : kernel.Tree) (hung : agent.parent = some self)
    (fresh : kernel.agents.get? key = none)
    (standing : walk.stack ≠ [] → kernel.Standing walk.target walk.stack)
    (clear : ∀ frame ∈ walk.stack, frame.ref ≠ self) :
    Untouched kernel (kernel.place key agent) walk where
  grown := by
    rw [place_allocated]
    omega
  fields := by
    intro ref live
    have same : SameFields ((kernel.place key agent).heap ref) (kernel.heap ref) :=
      place_sameFields hung (tree.live_lt live)
    exact ⟨same.id, same.parent⟩
  shrinks := by
    intro ref old live
    obtain ⟨other, found⟩ := live
    rw [place_get?] at found
    split at found
    · cases found
      omega
    · exact ⟨other, found⟩
  frames := by
    intro frame member
    obtain ⟨⟨other, found⟩, -⟩ :=
      (standing (List.ne_nil_of_mem member)).ascends frame member
    constructor
    · refine ⟨other, ?_⟩
      rw [place_get?, if_neg, found]
      intro same
      rw [same, fresh] at found
      contradiction
    · rw [place_heap_old hung (tree.registered found).1, if_neg (clear frame member)]

theorem patched_untouched {kernel : Kernel} {ref : Nat} {id : Value} {patch : Dict} {walk : Walk}
    (standing : walk.stack ≠ [] → kernel.Standing walk.target walk.stack) :
    Untouched kernel (kernel.patched ref id patch) walk where
  grown := Nat.le_refl _
  fields := by
    intro other _
    rw [patched_heap]
    split
    · exact ⟨rfl, rfl⟩
    · exact ⟨rfl, rfl⟩
  shrinks := fun _ _ live => live
  frames := by
    intro frame member
    refine ⟨((standing (List.ne_nil_of_mem member)).ascends frame member).1, ?_⟩
    rw [patched_heap]
    split
    · rfl
    · rfl

/-- A leaf below one cascade's target goes; a cascade elsewhere does not notice. -/
theorem removed_untouched {kernel : Kernel} {key : DictKey} {top parent elsewhere : Nat}
    {walk : Walk} (tree : kernel.Tree) (found : kernel.agents.get? key = some top)
    (below : kernel.Ascends top elsewhere) (up : kernel.Up top parent)
    (standing : walk.stack ≠ [] → kernel.Standing walk.target walk.stack)
    (apart : walk.stack ≠ [] → ¬ kernel.Ascends walk.target elsewhere ∧
      ¬ kernel.Ascends elsewhere walk.target) :
    Untouched kernel (kernel.removeOne top) walk where
  grown := by
    rw [removeOne_allocated]
  fields := by
    intro ref _
    have same := removeOne_sameFields (tree.registered found).2 up ref
    exact ⟨same.id, same.parent⟩
  shrinks := fun ref _ live => ((tree.live_removeOne_iff found).mp live).1
  frames := by
    intro frame member
    have active := List.ne_nil_of_mem member
    obtain ⟨live, ascends⟩ := (standing active).ascends frame member
    have separate (ref : Nat) (toTarget : kernel.Ascends ref walk.target)
        (toElsewhere : kernel.Ascends ref elsewhere) : False := by
      obtain first | second :=
        Relation.ReflTransGen.total_of_right_unique (up_rightUnique kernel) toTarget toElsewhere
      · exact (apart active).1 first
      · exact (apart active).2 second
    constructor
    · apply (tree.live_removeOne_iff found).mpr
      refine ⟨live, ?_⟩
      intro same
      rw [same] at ascends
      exact separate top ascends below
    · rw [removeOne_children (tree.registered found).2 up, if_neg]
      intro same
      -- the parent of the leaf is a frame of this cascade: then the leaf is below both
      apply separate top _ below
      rw [same] at ascends
      exact ascends.head up

/-! ### Steps of a careful run -/

theorem Orderly.request_step {request : Request} (orderly : plant.Orderly)
    (careful : Careful plant (.request request)) (verb : request.verb ≠ .deleteAgent) :
    Orderly { plant with kernel := plant.kernel.step runtime request } := by
  have tree : (plant.kernel.step runtime request).Tree := by
    apply orderly.tree.step
    intro deletes
    exact verb deletes.1
  apply orderly.kernel_step tree
  intro walk member
  obtain ⟨index, found⟩ := List.getElem?_of_mem member
  have standing := (orderly.fine found).standing
  have effect := step_effect runtime orderly.tree request
  generalize plant.kernel.step runtime request = after at effect ⊢
  cases effect with
  | refused =>
    exact ⟨Nat.le_refl _, fun _ _ => ⟨rfl, rfl⟩, fun _ _ live => live, fun frame within =>
      ⟨((standing (List.ne_nil_of_mem within)).ascends frame within).1, rfl⟩⟩
  | @created self id key address isCreate live targeted handled chosen placed hashed fresh _ =>
    simp only [Careful, isCreate] at careful
    exact placed_untouched orderly.tree rfl fresh standing (careful self targeted walk member)
  | updated isUpdate hashed hit unclashed => exact patched_untouched standing
  | deleted isDelete hashed hit unlocked => exact absurd isDelete verb

theorem admits_found {kernel : Kernel} {request : Request} {target : Nat}
    (admitted : kernel.admits request = some target) :
    ∃ key, kernel.agents.get? key = some target := by
  unfold admits at admitted
  simp only at admitted
  split at admitted
  · rename_i key _ _ _
    split at admitted
    · split at admitted
      · contradiction
      · rename_i other found
        split at admitted
        · cases admitted
          exact ⟨_, found⟩
        · contradiction
    · contradiction
  · contradiction

theorem begin_fine {kernel : Kernel} {target : Nat} (tree : kernel.Tree)
    (live : kernel.Live target) (notRoot : kernel.root ≠ some target) :
    WalkFine kernel (begin kernel target) where
  calm := rfl
  old := tree.live_lt live
  hung := by
    intro _
    cases parent : (kernel.heap target).parent with
    | none => exact absurd (tree.rootOnly live parent) notRoot
    | some above => exact ⟨above, parent⟩
  standing := fun _ => tree.enter_standing _ live (by omega) rfl
  gone := by
    intro finished
    have stands : kernel.Standing target (kernel.enter kernel.allocated target []) :=
      tree.enter_standing _ live (by omega) rfl
    obtain ⟨top, outer, nonempty, -⟩ := stands.waits
    rw [show kernel.enter kernel.allocated target [] = [] from finished] at nonempty
    contradiction
  covered := by
    intro ref member
    obtain ⟨refLive, ascends⟩ := (tree.mem_subtree_iff _ live (by omega)).mp member
    exact ⟨tree.live_lt refLive, fun _ => ascends⟩

theorem Orderly.admit_step {request : Request} {target : Nat} (orderly : plant.Orderly)
    (careful : Careful plant (.request request)) (verb : request.verb = .deleteAgent)
    (admitted : plant.kernel.admits request = some target) :
    Orderly { plant with walks := plant.walks ++ [begin plant.kernel target] } := by
  simp only [Careful, verb] at careful
  obtain ⟨notRoot, separate⟩ := careful target admitted
  have live := admits_found admitted
  have split {index : Nat} {walk : Walk}
      (found : (plant.walks ++ [begin plant.kernel target])[index]? = some walk) :
      plant.walks[index]? = some walk ∨
        (index = plant.walks.length ∧ walk = begin plant.kernel target) := by
    by_cases old : index < plant.walks.length
    · rw [List.getElem?_append_left old] at found
      exact Or.inl found
    · rw [List.getElem?_append_right (by omega)] at found
      have last : index = plant.walks.length := by
        have bound := (List.getElem?_eq_some_iff.mp found).1
        rw [List.length_singleton] at bound
        omega
      rw [last, Nat.sub_self] at found
      exact Or.inr ⟨last, (Option.some.inj found).symm⟩
  refine ⟨orderly.tree, ?_, ?_⟩
  · intro index walk found
    obtain old | ⟨-, rfl⟩ := split found
    · exact orderly.fine old
    · exact begin_fine orderly.tree live notRoot
  · intro index other walk otherWalk distinct found otherFound active otherActive
    obtain old | ⟨atEnd, rfl⟩ := split found
    · obtain otherOld | ⟨-, rfl⟩ := split otherFound
      · exact orderly.apart distinct old otherOld active otherActive
      · exact (separate walk (List.mem_of_getElem? old) active).2
    · obtain otherOld | ⟨otherAtEnd, -⟩ := split otherFound
      · exact (separate otherWalk (List.mem_of_getElem? otherOld) otherActive).1
      · exact absurd (atEnd.trans otherAtEnd.symm) distinct

theorem Orderly.resume_step {index : Nat} {walk : Walk} (orderly : plant.Orderly)
    (found : plant.walks[index]? = some walk) (active : walk.stack ≠ []) :
    Orderly ⟨(plant.kernel.resume walk).1, plant.walks.set index (plant.kernel.resume walk).2⟩ := by
  have fine := orderly.fine found
  obtain ⟨above, hung⟩ := fine.hung active
  have resumed := orderly.tree.resumed hung (fine.standing active)
  generalize plant.kernel.resume walk = result at resumed ⊢
  obtain ⟨after, later⟩ := result
  obtain ⟨top, key, parent, hit, below, up, leaf, same⟩ := resumed.removed
  have same : after = plant.kernel.removeOne top := same
  subst same
  have tree : (plant.kernel.removeOne top).Tree :=
    (LeafRemoval.remove hit leaf up).tree orderly.tree
  have untouched {other : Nat} {otherWalk : Walk} (distinct : other ≠ index)
      (otherFound : plant.walks[other]? = some otherWalk) :
      Untouched plant.kernel (plant.kernel.removeOne top) otherWalk := by
    apply removed_untouched orderly.tree hit below up (orderly.fine otherFound).standing
    intro otherActive
    exact ⟨orderly.apart distinct otherFound found otherActive active,
      orderly.apart distinct.symm found otherFound active otherActive⟩
  have targetLive : plant.kernel.Live walk.target := orderly.tree.live_of_ascends ⟨key, hit⟩ below
  have ascends_iff {lower upper : Nat} (live : plant.kernel.Live lower) :
      (plant.kernel.removeOne top).Ascends lower upper ↔ plant.kernel.Ascends lower upper :=
    orderly.tree.ascends_congr live
      fun ref _ => (removeOne_sameFields (orderly.tree.registered hit).2 up ref).parent
  have laterFine : WalkFine (plant.kernel.removeOne top) later := by
    refine ⟨resumed.calm.trans fine.calm, ?_, ?_, ?_, ?_, ?_⟩
    · rw [resumed.target, removeOne_allocated]
      exact fine.old
    · intro _
      refine ⟨above, ?_⟩
      rw [resumed.target]
      unfold Up
      rw [(removeOne_sameFields (orderly.tree.registered hit).2 up walk.target).parent]
      exact hung
    · intro stillActive
      rw [resumed.target]
      exact resumed.stands stillActive
    · intro finished
      rw [resumed.target]
      exact resumed.finished finished
    · intro ref member
      rw [resumed.admitted] at member
      obtain ⟨old, ascends⟩ := fine.covered ref member
      rw [removeOne_allocated, resumed.target]
      refine ⟨old, ?_⟩
      intro live
      have before := ((orderly.tree.live_removeOne_iff hit).mp live).1
      exact (ascends_iff before).mpr (ascends before)
  have split {other : Nat} {otherWalk : Walk}
      (otherFound : (plant.walks.set index later)[other]? = some otherWalk) :
      (other = index ∧ otherWalk = later) ∨
        (other ≠ index ∧ plant.walks[other]? = some otherWalk) := by
    rw [List.getElem?_set] at otherFound
    split at otherFound
    · rename_i same
      split at otherFound
      · exact Or.inl ⟨same.symm, (Option.some.inj otherFound).symm⟩
      · contradiction
    · rename_i distinct
      exact Or.inr ⟨fun same => distinct same.symm, otherFound⟩
  refine ⟨tree, ?_, ?_⟩
  · intro other otherWalk otherFound
    obtain ⟨-, rfl⟩ | ⟨distinct, old⟩ := split otherFound
    · exact laterFine
    · exact (orderly.fine old).untouched orderly.tree (untouched distinct old)
  · intro first second firstWalk secondWalk distinct firstFound secondFound firstActive secondActive
    obtain ⟨rfl, rfl⟩ | ⟨firstOther, firstOld⟩ := split firstFound
    · obtain ⟨rfl, -⟩ | ⟨secondOther, secondOld⟩ := split secondFound
      · exact absurd rfl distinct
      · rw [resumed.target, ascends_iff targetLive]
        exact orderly.apart distinct found secondOld active secondActive
    · obtain ⟨top', outer, -, live, -, path⟩ := ((orderly.fine firstOld).standing firstActive).waits
      have firstLive := orderly.tree.live_of_ascends live path.ascends.1
      rw [ascends_iff firstLive]
      obtain ⟨rfl, rfl⟩ | ⟨secondOther, secondOld⟩ := split secondFound
      · rw [resumed.target]
        exact orderly.apart distinct firstOld found firstActive active
      · exact orderly.apart distinct firstOld secondOld firstActive secondActive

theorem Orderly.step {action : Action} (orderly : plant.Orderly) (careful : Careful plant action) :
    (plant.step runtime action).Orderly := by
  cases action with
  | request request =>
    by_cases verb : request.verb = .deleteAgent
    · simp only [Plant.step, verb, if_true]
      cases admitted : plant.kernel.admits request with
      | none => exact orderly
      | some target => exact orderly.admit_step careful verb admitted
    · simp only [Plant.step, verb, if_false]
      exact orderly.request_step careful verb
  | resume index =>
    cases found : plant.walks[index]? with
    | none =>
      simp only [Plant.step, found]
      exact orderly
    | some walk =>
      simp only [Plant.step, found]
      by_cases active : walk.stack = []
      · have idle : plant.kernel.resume walk = (plant.kernel, walk) := by
          simp only [Kernel.resume, active]
        rw [idle]
        obtain ⟨bound, same⟩ := List.getElem?_eq_some_iff.mp found
        have kept : plant.walks.set index walk = plant.walks := by
          rw [← same]
          exact List.set_getElem_self bound
        simp only [kept]
        exact orderly
      · exact orderly.resume_step found active

theorem Orderly.run (orderly : plant.Orderly) (actions : List Action)
    (careful : CarefulRun runtime plant actions) : (plant.run runtime actions).Orderly := by
  induction actions generalizing plant with
  | nil => exact orderly
  | cons action rest ih => exact ih (orderly.step careful.1) careful.2

theorem Orderly.subtree_gone {walk : Walk} (orderly : plant.Orderly) (member : walk ∈ plant.walks)
    (finished : walk.stack = []) : ∀ ref ∈ walk.admitted, ¬ plant.kernel.Live ref := by
  obtain ⟨index, found⟩ := List.getElem?_of_mem member
  have fine := orderly.fine found
  intro ref within live
  have ascends := (fine.covered ref within).2 live
  exact fine.gone finished (orderly.tree.live_of_ascends live ascends)

/-- In every state a careful run reaches: no registered agent has an unregistered parent,
no request has failed half-way, and every cascade that is over has taken the whole
subtree it was admitted for. -/
theorem careful_cascades {start : Kernel} (fresh : FreshlyRooted start) (runtime : Runtime)
    (actions : List Action) (careful : CarefulRun runtime ⟨start, []⟩ actions) :
    let plant := Plant.run runtime ⟨start, []⟩ actions
    (∀ ref above, plant.kernel.Live ref → plant.kernel.Up ref above → plant.kernel.Live above) ∧
      (∀ walk ∈ plant.walks, walk.raised = false) ∧
      ∀ walk ∈ plant.walks, walk.stack = [] → ∀ ref ∈ walk.admitted, ¬ plant.kernel.Live ref := by
  intro plant
  have initial : Orderly ⟨start, []⟩ :=
    ⟨fresh.tree, fun found => by simp at found, fun _ found => by simp at found⟩
  have orderly : plant.Orderly := initial.run actions careful
  refine ⟨?_, ?_, ?_⟩
  · intro ref above live up
    exact orderly.tree.live_of_up live up
  · intro walk member
    obtain ⟨index, found⟩ := List.getElem?_of_mem member
    exact (orderly.fine found).calm
  · intro walk member finished
    exact orderly.subtree_gone member finished

/-! ### Two runs -/

def requestTo (target : String) (verb : SystemVerb) (payload : Dict) : Action :=
  .request
    { target := .str target
      verb := verb
      payload := payload
      token := "0a1b2c" }

def createPayload (id : String) : Dict :=
  (OrderedDict.empty.insert "handler_module" (Value.str "notes.tools")).insert "id" (.str id)

def deleteNotes : Action :=
  requestTo "kernel" .deleteAgent (OrderedDict.empty.insert "id" (Value.str "notes"))

/-- While the page's hook runs, an agent is created at the top. -/
def calmActions : List Action :=
  [requestTo "kernel" .createAgent (createPayload "notes"),
    requestTo "notes" .createAgent (createPayload "page"), deleteNotes,
    requestTo "kernel" .createAgent (createPayload "other"), .resume 0, .resume 0]

theorem calmActions_careful : CarefulRun permissive ⟨soleRoot, []⟩ calmActions := by
  refine ⟨?_, ?_, ?_, ?_, trivial, trivial, trivial⟩
  · intro self _ walk member
    cases member
  · intro self _ walk member
    cases member
  · intro target admitted
    have same : target = 1 := Option.some.inj (admitted.symm.trans (by decide))
    subst same
    refine ⟨by decide, ?_⟩
    intro walk member
    cases member
  · intro self resolved
    have same : self = 0 := Option.some.inj (Except.ok.inj (resolved.symm.trans rfl))
    subst same
    decide

theorem calm_cascade_completes :
    let plant := Plant.run permissive ⟨soleRoot, []⟩ calmActions
    (∀ ref above, plant.kernel.Live ref → plant.kernel.Up ref above → plant.kernel.Live above) ∧
      (∀ walk ∈ plant.walks, walk.raised = false) ∧
      ∀ walk ∈ plant.walks, walk.stack = [] → ∀ ref ∈ walk.admitted, ¬ plant.kernel.Live ref :=
  careful_cascades soleRoot_fresh permissive calmActions calmActions_careful

/-- While the hook of `notes` runs, an agent is created under it: the cascade has listed
the children already, and leaves the new one behind. -/
def orphanActions : List Action :=
  [requestTo "kernel" .createAgent (createPayload "notes"), deleteNotes,
    requestTo "notes" .createAgent (createPayload "page"), .resume 0]

theorem orphan_is_left_behind :
    FreshlyRooted soleRoot ∧
      (∀ walk ∈ (Plant.run permissive ⟨soleRoot, []⟩ orphanActions).walks, walk.stack = []) ∧
      ∃ ref above, (Plant.run permissive ⟨soleRoot, []⟩ orphanActions).kernel.Live ref ∧
        (Plant.run permissive ⟨soleRoot, []⟩ orphanActions).kernel.Up ref above ∧
        ¬ (Plant.run permissive ⟨soleRoot, []⟩ orphanActions).kernel.Live above := by
  refine ⟨soleRoot_fresh, by decide, 2, 1, ⟨.str "page", by decide⟩,
    by unfold Up; decide, ?_⟩
  intro live
  obtain ⟨key, found⟩ := live
  have others : ∀ entry ∈ (Plant.run permissive ⟨soleRoot, []⟩ orphanActions).kernel.agents.entries,
      entry.2 ≠ 1 := by decide
  exact others (key, 1) (OrderedDict.mem_entries_iff.mpr found) rfl

end Plant

end Fantastic.Python.Kernel

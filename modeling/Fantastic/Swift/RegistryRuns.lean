import Fantastic.Swift.RegistryTasks

/-!
# Runs of concurrent requests

What holds of the registry between any two steps: an agent that is not in its parent's child map
yet, or not any more, has a request that is about to put it there or to unregister it. Careful
steps keep that, and once no request is in progress it is what the registry is to be.
-/

namespace Fantastic.Swift.Registry

open NodeTables

variable {world : World} {index : Nat} {job : Job} {rest jobs : List Job}

/-! ### The invariant -/

/-- What a job relies on. -/
def Job.Fits (world : World) : Job → Prop
  | .lookup parent agent => parent < world.kernel.allocated ∧
      agent.parentId = some (world.kernel.heap parent).id ∧ agent.children = .empty
  | .register parent agent => parent < world.kernel.allocated ∧
      agent.parentId = some (world.kernel.heap parent).id ∧ agent.children = .empty
  | .insert parent ref => parent < world.kernel.allocated ∧
      (world.kernel.heap ref).parentId = some (world.kernel.heap parent).id ∧
        (world.kernel.agents.get? (world.kernel.heap ref).id = some ref →
          world.kernel.agents.get? (world.kernel.heap parent).id = some parent) ∧
            ∃ life, world.born ref = some life
  | .answer ref => ∃ life, world.born ref = some life
  | _ => True

/-- A request is about to list the agent, or to unregister it. -/
def Awaits (tasks : Nat → List Job) (above ref : Nat) : Prop :=
  (∃ index rest, tasks index = .insert above ref :: rest) ∨
    ∃ index rest, tasks index = .unregister ref :: rest

structure Inv (world : World) : Prop where
  named : ∀ {id ref}, world.kernel.agents.get? id = some ref →
    (world.kernel.heap ref).id = id ∧ ref < world.kernel.allocated
  rooted : ∃ root, world.kernel.root = some root ∧
    world.kernel.agents.get? (world.kernel.heap root).id = some root
  hung : ∀ {id ref}, world.kernel.agents.get? id = some ref → world.kernel.root ≠ some ref →
    ∃ upper above, (world.kernel.heap ref).parentId = some upper ∧
      world.kernel.agents.get? upper = some above ∧
        ((world.kernel.heap above).children.get? id = some ref ∨ Awaits world.tasks above ref)
  listed : ∀ {upper above id ref}, world.kernel.agents.get? upper = some above →
    (world.kernel.heap above).children.get? id = some ref → world.kernel.agents.get? id = some ref
  fits : ∀ {index job}, job ∈ world.tasks index → job.Fits world
  made : ∀ {ref life}, world.born ref = some life → ref < world.kernel.allocated ∧
    life ≤ world.lives (world.kernel.heap ref).id
  latest : ∀ {ref}, world.born ref = some (world.lives (world.kernel.heap ref).id) →
    world.kernel.agents.get? (world.kernel.heap ref).id = some ref
  once : ∀ {first second life}, world.born first = some life → world.born second = some life →
    (world.kernel.heap first).id = (world.kernel.heap second).id → first = second
  answered : ∀ {ref}, ref ∈ world.answered → ∃ life, world.born ref = some life

theorem Awaits.kept {tasks : Nat → List Job} {above ref : Nat}
    (silent : ∀ rest, tasks index ≠ .insert above ref :: rest ∧ tasks index ≠ .unregister ref :: rest)
    (awaits : Awaits tasks above ref) : Awaits (Function.update tasks index jobs) above ref := by
  rcases awaits with ⟨other, later, first⟩ | ⟨other, later, first⟩
  · have apart : other ≠ index := by
      rintro rfl
      exact (silent later).1 first
    exact .inl ⟨other, later, by rw [Function.update_of_ne apart, first]⟩
  · have apart : other ≠ index := by
      rintro rfl
      exact (silent later).2 first
    exact .inr ⟨other, later, by rw [Function.update_of_ne apart, first]⟩

theorem mem_assigned {tasks : Nat → List Job} {other : Nat} {job : Job}
    (inside : job ∈ Function.update tasks index jobs other) : job ∈ jobs ∨ job ∈ tasks other := by
  by_cases same : other = index
  · subst same
    rw [Function.update_self] at inside
    exact .inl inside
  · rw [Function.update_of_ne same] at inside
    exact .inr inside

/-- A request goes on, and nothing else changes. -/
theorem Inv.passed (inv : Inv world)
    (silent : ∀ above ref rest, world.tasks index ≠ .insert above ref :: rest ∧
      world.tasks index ≠ .unregister ref :: rest)
    (fits : ∀ job ∈ jobs, job.Fits world) : Inv (world.assign index jobs) := by
  refine ⟨inv.named, inv.rooted, ?_, inv.listed, ?_, inv.made, inv.latest, inv.once,
    inv.answered⟩
  · intro id ref found inner
    obtain ⟨upper, above, parent, aboveFound, place⟩ := inv.hung found inner
    refine ⟨upper, above, parent, aboveFound, place.imp_right ?_⟩
    exact Awaits.kept (silent above ref)
  · intro other job inside
    rcases mem_assigned inside with new | old
    · exact fits job new
    · exact inv.fits old

/-! ### One step of the registry -/

theorem Job.Fits.congr {before after : World} {job : Job} (fits : job.Fits before)
    (made : ∀ {ref life}, before.born ref = some life → ref < before.kernel.allocated ∧
      after.born ref = some life)
    (grown : before.kernel.allocated ≤ after.kernel.allocated)
    (same : ∀ {ref}, ref < before.kernel.allocated →
      (after.kernel.heap ref).id = (before.kernel.heap ref).id ∧
        (after.kernel.heap ref).parentId = (before.kernel.heap ref).parentId)
    (stays : ∀ {parent ref}, parent < before.kernel.allocated → ref < before.kernel.allocated →
      (before.kernel.heap ref).parentId = some (before.kernel.heap parent).id →
      after.kernel.agents.get? (before.kernel.heap ref).id = some ref →
        before.kernel.agents.get? (before.kernel.heap ref).id = some ref ∧
          (before.kernel.agents.get? (before.kernel.heap parent).id = some parent →
            after.kernel.agents.get? (before.kernel.heap parent).id = some parent)) :
    job.Fits after := by
  cases job with
  | lookup parent agent =>
    obtain ⟨known, named, bare⟩ := fits
    exact ⟨Nat.lt_of_lt_of_le known grown, by rw [(same known).1]; exact named, bare⟩
  | register parent agent =>
    obtain ⟨known, named, bare⟩ := fits
    exact ⟨Nat.lt_of_lt_of_le known grown, by rw [(same known).1]; exact named, bare⟩
  | insert parent ref =>
    obtain ⟨known, named, both, life, born⟩ := fits
    obtain ⟨old, later⟩ := made born
    refine ⟨Nat.lt_of_lt_of_le known grown, ?_, ?_, life, later⟩
    · rw [(same known).1, (same old).2]
      exact named
    · rw [(same known).1, (same old).1]
      intro found
      obtain ⟨earlier, kept⟩ := stays known old named found
      exact kept (both earlier)
  | answer ref =>
    obtain ⟨life, born⟩ := fits
    exact ⟨life, (made born).2⟩
  | _ => trivial

section Register

variable {parent : Nat} {agent : Agent}

theorem register_heap (ref : Nat) : (world.register agent).kernel.heap ref =
    if ref = world.kernel.allocated then agent else world.kernel.heap ref := by
  simp [World.register, Kernel.register, Kernel.allocate, Function.update_apply]

theorem register_get (id : String) : (world.register agent).kernel.agents.get? id =
    if id = agent.id then some world.kernel.allocated else world.kernel.agents.get? id := by
  simp [World.register, Kernel.register, Kernel.allocate, OrderedDict.get?_insert]

@[simp] theorem register_root : (world.register agent).kernel.root = world.kernel.root := by
  unfold World.register Kernel.register Kernel.ensureInbox
  simp only
  split <;> rfl

@[simp] theorem register_allocated :
    (world.register agent).kernel.allocated = world.kernel.allocated + 1 := by
  simp [World.register, Kernel.register, Kernel.allocate]

theorem register_born (ref : Nat) : (world.register agent).born ref =
    if ref = world.kernel.allocated then some (world.lives agent.id) else world.born ref := by
  simp [World.register, Function.update_apply]

/-- A new agent under a free id, its parent being registered. -/
theorem Inv.registered (inv : Inv world)
    (now : world.tasks index = .register parent agent :: rest)
    (free : world.kernel.agents.get? agent.id = none)
    (above : world.kernel.agents.get? (world.kernel.heap parent).id = some parent) :
    Inv ((world.register agent).assign index (.insert parent world.kernel.allocated :: rest)) := by
  obtain ⟨known, named, bare⟩ : Job.Fits world (.register parent agent) :=
    @Inv.fits _ inv index _ (by rw [now]; exact List.mem_cons_self)
  have old : ∀ {ref}, ref < world.kernel.allocated →
      (world.register agent).kernel.heap ref = world.kernel.heap ref := by
    intro ref older
    rw [register_heap, if_neg (by omega)]
  have new : (world.register agent).kernel.heap world.kernel.allocated = agent := by
    rw [register_heap, if_pos rfl]
  have taken : ∀ {id ref}, world.kernel.agents.get? id = some ref → id ≠ agent.id := by
    intro id ref found same
    rw [same, free] at found
    cases found
  have stays : ∀ {id ref}, world.kernel.agents.get? id = some ref →
      (world.register agent).kernel.agents.get? id = some ref := by
    intro id ref found
    rw [register_get, if_neg (taken found), found]
  have split : ∀ {id ref}, (world.register agent).kernel.agents.get? id = some ref →
      (id = agent.id ∧ ref = world.kernel.allocated) ∨ world.kernel.agents.get? id = some ref := by
    intro id ref found
    rw [register_get] at found
    split at found
    case isTrue same =>
      cases found
      exact .inl ⟨same, rfl⟩
    case isFalse => exact .inr found
  have silent : ∀ above ref later, world.tasks index ≠ .insert above ref :: later ∧
      world.tasks index ≠ .unregister ref :: later := by
    intro above ref later
    rw [now]
    simp
  have born : ∀ {ref life}, world.born ref = some life → ref ≠ world.kernel.allocated := by
    intro ref life made
    have older := (inv.made made).1
    omega
  have later : ∀ {ref life}, world.born ref = some life →
      ref < world.kernel.allocated ∧ (world.register agent).born ref = some life := by
    intro ref life made
    exact ⟨(inv.made made).1, by rw [register_born, if_neg (born made), made]⟩
  have congr : ∀ {job : Job}, job.Fits world → job.Fits (world.register agent) := by
    intro job fits
    apply fits.congr later
    · simp
    · intro ref older
      rw [old older]
      exact ⟨rfl, rfl⟩
    · intro upper ref _ older _ found
      rcases split found with ⟨_, same⟩ | before
      · omega
      · exact ⟨before, stays⟩
  refine ⟨?_, ?_, ?_, ?_, ?_, ?_, ?_, ?_, ?_⟩
  · intro id ref found
    change ((world.register agent).kernel.heap ref).id = id ∧
      ref < (world.register agent).kernel.allocated
    rw [register_allocated]
    rcases split found with ⟨rfl, rfl⟩ | before
    · rw [new]
      exact ⟨rfl, Nat.lt_succ_self _⟩
    · obtain ⟨own, older⟩ := inv.named before
      rw [old older]
      exact ⟨own, Nat.lt_succ_of_lt older⟩
  · obtain ⟨root, isRoot, rootFound⟩ := inv.rooted
    refine ⟨root, register_root.trans isRoot, ?_⟩
    change (world.register agent).kernel.agents.get?
      ((world.register agent).kernel.heap root).id = some root
    rw [old (inv.named rootFound).2]
    exact stays rootFound
  · intro id ref found inner
    rcases split found with ⟨rfl, rfl⟩ | before
    · refine ⟨(world.kernel.heap parent).id, parent, ?_, stays above, .inr (.inl ⟨index, rest, ?_⟩)⟩
      · change ((world.register agent).kernel.heap world.kernel.allocated).parentId = _
        rw [new, named]
      · exact Function.update_self ..
    · have inside : world.kernel.root ≠ some ref := by
        rw [← @register_root world agent]
        exact inner
      obtain ⟨upper, higher, parentId, higherFound, place⟩ := inv.hung before inside
      refine ⟨upper, higher, ?_, stays higherFound, ?_⟩
      · change ((world.register agent).kernel.heap ref).parentId = some upper
        rw [old (inv.named before).2]
        exact parentId
      · refine place.imp ?_ (Awaits.kept (silent higher ref))
        intro child
        change ((world.register agent).kernel.heap higher).children.get? id = some ref
        rw [old (inv.named higherFound).2]
        exact child
  · intro upper higher id ref higherFound child
    change ((world.register agent).kernel.heap higher).children.get? id = some ref at child
    rcases split higherFound with ⟨_, rfl⟩ | before
    · rw [new, bare] at child
      cases child
    · rw [old (inv.named before).2] at child
      exact stays (inv.listed before child)
  · intro other job inside
    rcases mem_assigned inside with added | earlier
    · rcases List.mem_cons.mp added with rfl | further
      · refine ⟨?_, ?_, fun _ => ?_, world.lives agent.id, ?_⟩
        · exact Nat.lt_of_lt_of_eq (Nat.lt_succ_of_lt known) register_allocated.symm
        · change ((world.register agent).kernel.heap world.kernel.allocated).parentId =
            some ((world.register agent).kernel.heap parent).id
          rw [new, old known, named]
        · change (world.register agent).kernel.agents.get?
            ((world.register agent).kernel.heap parent).id = some parent
          rw [old known]
          exact stays above
        · change (world.register agent).born world.kernel.allocated = _
          rw [register_born, if_pos rfl]
      · exact congr (@Inv.fits _ inv index _ (by rw [now]; exact List.mem_cons_of_mem _ further))
    · exact congr (inv.fits earlier)
  · intro ref life made
    change (world.register agent).born ref = some life at made
    change ref < (world.register agent).kernel.allocated ∧
      life ≤ world.lives ((world.register agent).kernel.heap ref).id
    rw [register_allocated]
    rw [register_born] at made
    split at made
    case isTrue same =>
      cases made
      rw [same, new]
      exact ⟨Nat.lt_succ_self _, Nat.le_refl _⟩
    case isFalse =>
      obtain ⟨older, bound⟩ := inv.made made
      rw [old older]
      exact ⟨Nat.lt_succ_of_lt older, bound⟩
  · intro ref made
    change (world.register agent).born ref =
      some (world.lives ((world.register agent).kernel.heap ref).id) at made
    change (world.register agent).kernel.agents.get?
      ((world.register agent).kernel.heap ref).id = some ref
    rw [register_born] at made
    split at made
    case isTrue same =>
      rw [same, new, register_get, if_pos rfl]
    case isFalse =>
      rw [old (inv.made made).1] at made ⊢
      exact stays (inv.latest made)
  · -- an earlier agent of the same life would still hold the id
    have clash : ∀ {ref}, world.born ref = some (world.lives agent.id) →
        (world.kernel.heap ref).id ≠ agent.id := by
      intro ref made same
      have found := @Inv.latest _ inv ref (by rw [same]; exact made)
      exact taken found same
    intro first second life firstMade secondMade same
    change (world.register agent).born first = some life at firstMade
    change (world.register agent).born second = some life at secondMade
    change ((world.register agent).kernel.heap first).id =
      ((world.register agent).kernel.heap second).id at same
    rw [register_born] at firstMade secondMade
    split at firstMade
    case isTrue firstNew =>
      split at secondMade
      case isTrue secondNew => rw [firstNew, secondNew]
      case isFalse =>
        rw [firstNew, new, old (inv.made secondMade).1] at same
        rw [← firstMade] at secondMade
        exact absurd same.symm (clash secondMade)
    case isFalse =>
      split at secondMade
      case isTrue secondNew =>
        rw [secondNew, new, old (inv.made firstMade).1] at same
        rw [← secondMade] at firstMade
        exact absurd same (clash firstMade)
      case isFalse =>
        rw [old (inv.made firstMade).1, old (inv.made secondMade).1] at same
        exact inv.once firstMade secondMade same
  · intro ref inside
    obtain ⟨life, made⟩ := inv.answered inside
    exact ⟨life, (later made).2⟩

end Register

/-! ### Changes of one agent -/

section Modify

variable {change : Agent → Agent} {target : Nat}

theorem modify_heap (kernel : Kernel) (ref : Nat) : (kernel.modify target change).heap ref =
    if ref = target then change (kernel.heap target) else kernel.heap ref := by
  simp [Kernel.modify, Function.update_apply]

/-- A change that leaves ids and parents alone, where the child maps still agree. -/
theorem Inv.modified (inv : Inv world)
    (same : ∀ agent, (change agent).id = agent.id ∧ (change agent).parentId = agent.parentId)
    (hung : ∀ {id ref upper above}, world.kernel.agents.get? id = some ref →
      world.kernel.root ≠ some ref → world.kernel.agents.get? upper = some above →
        ((world.kernel.heap above).children.get? id = some ref ∨ Awaits world.tasks above ref) →
          ((world.kernel.modify target change).heap above).children.get? id = some ref ∨
            Awaits (Function.update world.tasks index jobs) above ref)
    (listed : ∀ {upper above id ref}, world.kernel.agents.get? upper = some above →
      ((world.kernel.modify target change).heap above).children.get? id = some ref →
        world.kernel.agents.get? id = some ref)
    (fits : ∀ job ∈ jobs, job.Fits world) :
    Inv ({ world with kernel := world.kernel.modify target change }.assign index jobs) := by
  have kept : ∀ ref, ((world.kernel.modify target change).heap ref).id =
      (world.kernel.heap ref).id ∧ ((world.kernel.modify target change).heap ref).parentId =
        (world.kernel.heap ref).parentId := by
    intro ref
    rw [modify_heap]
    split
    case isTrue here =>
      rw [here]
      exact same _
    case isFalse => exact ⟨rfl, rfl⟩
  have congr : ∀ {job : Job}, job.Fits world →
      job.Fits { world with kernel := world.kernel.modify target change } := by
    intro job fits
    apply fits.congr
    · intro ref life born
      exact ⟨(inv.made born).1, born⟩
    · exact Nat.le_refl _
    · intro ref _
      exact kept ref
    · intro parent ref _ _ _ found
      exact ⟨found, id⟩
  refine ⟨?_, ?_, ?_, listed, ?_, ?_, ?_, ?_, inv.answered⟩
  · intro id ref found
    obtain ⟨own, known⟩ := inv.named found
    exact ⟨(kept ref).1.trans own, known⟩
  · obtain ⟨root, isRoot, found⟩ := inv.rooted
    refine ⟨root, isRoot, ?_⟩
    change world.kernel.agents.get? ((world.kernel.modify target change).heap root).id = some root
    rw [(kept root).1]
    exact found
  · intro id ref found inner
    obtain ⟨upper, above, parent, aboveFound, place⟩ := inv.hung found inner
    exact ⟨upper, above, (kept ref).2.trans parent, aboveFound, hung found inner aboveFound place⟩
  · intro other job inside
    rcases mem_assigned inside with new | old
    · exact congr (fits job new)
    · exact congr (inv.fits old)
  · intro ref life born
    obtain ⟨known, bound⟩ := inv.made born
    refine ⟨known, ?_⟩
    change life ≤ world.lives ((world.kernel.modify target change).heap ref).id
    rw [(kept ref).1]
    exact bound
  · intro ref born
    change world.born ref =
      some (world.lives ((world.kernel.modify target change).heap ref).id) at born
    change world.kernel.agents.get? ((world.kernel.modify target change).heap ref).id = some ref
    rw [(kept ref).1] at born ⊢
    exact inv.latest born
  · intro first second life firstBorn secondBorn together
    change ((world.kernel.modify target change).heap first).id =
      ((world.kernel.modify target change).heap second).id at together
    rw [(kept first).1, (kept second).1] at together
    exact inv.once firstBorn secondBorn together

end Modify

theorem Inv.tail_fits (inv : Inv world) (now : world.tasks index = job :: rest) :
    job.Fits world ∧ ∀ other ∈ rest, other.Fits world := by
  constructor
  · exact @Inv.fits _ inv index job (by rw [now]; exact List.mem_cons_self)
  · intro other inside
    exact @Inv.fits _ inv index other (by rw [now]; exact List.mem_cons_of_mem _ inside)

theorem Inv.patched (inv : Inv world) {target : Nat} {patch : Dict}
    (now : world.tasks index = .patch target patch :: rest) :
    Inv ((world.updateMeta target patch).assign index rest) := by
  have children : ∀ above, ((world.kernel.modify target fun agent =>
      agent.updateMeta patch).heap above).children = (world.kernel.heap above).children := by
    intro above
    rw [modify_heap]
    split
    case isTrue here =>
      rw [here]
      rfl
    case isFalse => rfl
  apply inv.modified
  · intro agent
    exact ⟨rfl, rfl⟩
  · intro id ref upper above _ _ _ place
    rw [children]
    apply place.imp_right
    apply Awaits.kept
    intro later
    rw [now]
    simp
  · intro upper above id ref found child
    rw [children] at child
    exact inv.listed found child
  · exact (inv.tail_fits now).2

/-- A registered child into the map of its parent. -/
theorem Inv.inserted (inv : Inv world) {parent child : Nat}
    (now : world.tasks index = .insert parent child :: rest)
    (alive : world.kernel.agents.get? (world.kernel.heap child).id = some child) :
    Inv ((world.insertChild parent child).assign index (.answer child :: rest)) := by
  have children : ∀ above key, ((world.kernel.modify parent fun upper =>
      upper.insertChild (world.kernel.heap child).id child).heap above).children.get? key =
        if above = parent ∧ key = (world.kernel.heap child).id then some child
        else (world.kernel.heap above).children.get? key := by
    intro above key
    rw [modify_heap]
    by_cases here : above = parent
    · rw [if_pos here, here]
      change ((world.kernel.heap parent).children.insert _ child).get? key = _
      rw [OrderedDict.get?_insert]
      simp
    · rw [if_neg here, if_neg fun both => here both.1]
  obtain ⟨⟨_, _, _, life, born⟩, later⟩ := inv.tail_fits now
  apply inv.modified
  · intro agent
    exact ⟨rfl, rfl⟩
  · intro id ref upper above found _ _ place
    rw [children]
    by_cases here : above = parent ∧ id = (world.kernel.heap child).id
    · left
      rw [if_pos here]
      rw [here.2, alive] at found
      exact found
    · rw [if_neg here]
      apply place.imp_right
      apply Awaits.kept
      intro further
      rw [now]
      refine ⟨?_, by simp⟩
      intro same
      cases same
      apply here
      exact ⟨rfl, (inv.named found).1.symm⟩
  · intro upper above id ref found held
    rw [children] at held
    split at held
    case isTrue both =>
      cases held
      rw [both.2]
      exact alive
    case isFalse => exact inv.listed found held
  · intro other inside
    rcases List.mem_cons.mp inside with rfl | further
    · exact ⟨life, born⟩
    · exact later other further

/-- A child that is to be unregistered out of the map of its parent. -/
theorem Inv.unhooked (inv : Inv world) {parent child : Nat}
    (now : world.tasks index = .unhook parent child :: rest)
    (own : ∀ other, (world.kernel.heap parent).children.get? (world.kernel.heap child).id =
      some other → other = child) :
    Inv ((world.removeChild parent child).assign index (.unregister child :: rest)) := by
  have children : ∀ above key, ((world.kernel.modify parent fun upper =>
      upper.removeChild (world.kernel.heap child).id).heap above).children.get? key =
        if above = parent ∧ key = (world.kernel.heap child).id then none
        else (world.kernel.heap above).children.get? key := by
    intro above key
    rw [modify_heap]
    by_cases here : above = parent
    · rw [if_pos here, here]
      change ((world.kernel.heap parent).children.erase _).get? key = _
      rw [OrderedDict.get?_erase]
      simp
    · rw [if_neg here, if_neg fun both => here both.1]
  apply inv.modified
  · intro agent
    exact ⟨rfl, rfl⟩
  · intro id ref upper above _ _ _ place
    rw [children]
    by_cases here : above = parent ∧ id = (world.kernel.heap child).id
    · rcases place with held | awaits
      · right
        rw [here.1, here.2] at held
        rw [own ref held]
        exact .inr ⟨index, rest, Function.update_self ..⟩
      · right
        apply Awaits.kept _ awaits
        intro further
        rw [now]
        simp
    · rw [if_neg here]
      apply place.imp_right
      apply Awaits.kept
      intro further
      rw [now]
      simp
  · intro upper above id ref found held
    rw [children] at held
    split at held
    case isTrue => cases held
    case isFalse => exact inv.listed found held
  · intro other inside
    rcases List.mem_cons.mp inside with rfl | further
    · trivial
    · exact (inv.tail_fits now).2 other further

/-! ### Unregistering -/

/-- The agent that is being deleted leaves the registry, if it has not left it already. -/
theorem Inv.unregistered (inv : Inv world) {target : Nat}
    (now : world.tasks index = .unregister target :: rest)
    (alone : ∀ other, world.kernel.agents.get? (world.kernel.heap target).id = some other →
      other = target ∧ world.kernel.root ≠ some target ∧
        ∀ id child, world.kernel.agents.get? id = some child →
          (world.kernel.heap child).parentId ≠ some (world.kernel.heap target).id ∧
            (world.kernel.heap child).children.get? (world.kernel.heap target).id = none) :
    Inv ((world.unregister target).assign index rest) := by
  have get : ∀ id, (world.unregister target).kernel.agents.get? id =
      if id = (world.kernel.heap target).id then none else world.kernel.agents.get? id := by
    intro id
    exact OrderedDict.get?_erase ..
  have earlier : ∀ {id ref}, (world.unregister target).kernel.agents.get? id = some ref →
      id ≠ (world.kernel.heap target).id ∧ world.kernel.agents.get? id = some ref := by
    intro id ref found
    rw [get] at found
    split at found
    · cases found
    case isFalse apart => exact ⟨apart, found⟩
  have stays : ∀ {id ref}, world.kernel.agents.get? id = some ref →
      id ≠ (world.kernel.heap target).id →
        (world.unregister target).kernel.agents.get? id = some ref := by
    intro id ref found apart
    rw [get, if_neg apart, found]
  -- a registered parent of a registered agent is not the one that leaves
  have parents : ∀ {id ref upper above}, world.kernel.agents.get? id = some ref →
      (world.kernel.heap ref).parentId = some upper → world.kernel.agents.get? upper = some above →
        upper ≠ (world.kernel.heap target).id := by
    intro id ref upper above found named aboveFound same
    rw [same] at named aboveFound
    exact ((alone above aboveFound).2.2 id ref found).1 named
  have lives : ∀ id, world.lives id ≤ (world.unregister target).lives id := by
    intro id
    simp only [World.unregister, Function.update_apply]
    split
    case isTrue same =>
      rw [same]
      exact Nat.le_succ _
    case isFalse => exact Nat.le_refl _
  have congr : ∀ {job : Job}, job.Fits world → job.Fits (world.unregister target) := by
    intro job fits
    apply fits.congr
    · intro ref life born
      exact ⟨(inv.made born).1, born⟩
    · exact Nat.le_refl _
    · intro ref _
      exact ⟨rfl, rfl⟩
    · intro parent ref _ _ named found
      obtain ⟨_, before⟩ := earlier found
      exact ⟨before, fun above => stays above (parents before named above)⟩
  refine ⟨?_, ?_, ?_, ?_, ?_, ?_, ?_, inv.once, inv.answered⟩
  · intro id ref found
    exact inv.named (earlier found).2
  · obtain ⟨root, isRoot, found⟩ := inv.rooted
    refine ⟨root, isRoot, stays found ?_⟩
    intro same
    change (world.kernel.heap root).id = (world.kernel.heap target).id at same
    have held := found
    rw [same] at held
    obtain ⟨rfl, inner, _⟩ := alone root held
    exact inner isRoot
  · intro id ref found inner
    obtain ⟨apart, before⟩ := earlier found
    obtain ⟨upper, above, named, aboveFound, place⟩ := inv.hung before inner
    refine ⟨upper, above, named, stays aboveFound (parents before named aboveFound), ?_⟩
    apply place.imp_right
    apply Awaits.kept
    intro further
    rw [now]
    refine ⟨by simp, ?_⟩
    intro same
    cases same
    exact apart (inv.named before).1.symm
  · intro upper above id ref found child
    obtain ⟨_, before⟩ := earlier found
    have entry := inv.listed before child
    apply stays entry
    intro same
    rw [same] at entry
    have bare := ((alone ref entry).2.2 upper above before).2
    rw [← same] at bare
    change (world.kernel.heap above).children.get? id = some ref at child
    rw [bare] at child
    cases child
  · intro other job inside
    rcases mem_assigned inside with new | old
    · exact congr ((inv.tail_fits now).2 job new)
    · exact congr (inv.fits old)
  · intro ref life born
    obtain ⟨known, bound⟩ := inv.made born
    exact ⟨known, Nat.le_trans bound (lives _)⟩
  · intro ref born
    have bound := (inv.made born).2
    have apart : (world.kernel.heap ref).id ≠ (world.kernel.heap target).id := by
      intro same
      have more : (world.unregister target).lives (world.kernel.heap ref).id =
          world.lives (world.kernel.heap ref).id + 1 := by
        simp [World.unregister, same]
      change world.born ref = some ((world.unregister target).lives (world.kernel.heap ref).id)
        at born
      change (world.unregister target).lives (world.kernel.heap ref).id ≤
        world.lives (world.kernel.heap ref).id at bound
      omega
    have current : (world.unregister target).lives (world.kernel.heap ref).id =
        world.lives (world.kernel.heap ref).id := by
      simp [World.unregister, apart]
    change world.born ref = some ((world.unregister target).lives (world.kernel.heap ref).id)
      at born
    rw [current] at born
    exact stays (inv.latest born) apart

/-! ### Runs -/

theorem opening_fits (inv : Inv world) (request : Kernel.Request) :
    ∀ job ∈ opening world.kernel request, job.Fits world := by
  unfold opening
  split
  · simp
  case h_2 target resolved =>
    have known : target < world.kernel.allocated := by
      unfold Kernel.resolve at resolved
      split at resolved
      · obtain ⟨root, isRoot, found⟩ := inv.rooted
        rw [isRoot] at resolved
        cases resolved
        exact (inv.named found).2
      · exact (inv.named resolved).2
    split
    · split
      · simp
      · intro job inside
        cases List.mem_singleton.mp inside
        exact ⟨known, rfl, rfl⟩
    · split
      · simp
      · intro job inside
        cases List.mem_singleton.mp inside
        trivial
    · split
      · simp
      · intro job inside
        cases List.mem_singleton.mp inside
        trivial
    · simp

theorem Inv.step (inv : Inv world) {move : Move} (careful : Careful world move) :
    Inv (world.step move) := by
  cases move with
  | begin index request =>
    unfold World.step
    simp only
    split
    case isFalse => exact inv
    case isTrue idle =>
      apply inv.passed _ (opening_fits inv request)
      intro above ref later
      rw [idle]
      simp
  | go index =>
    unfold World.step
    simp only
    split
    · exact inv
    case h_2 job rest now =>
      obtain ⟨fits, later⟩ := inv.tail_fits now
      rw [Careful, now] at careful
      -- a job that only looks leaves everything but the request as it is
      have looked : ∀ {jobs : List Job}, (∀ above ref, job ≠ .insert above ref ∧
          job ≠ .unregister ref) → (∀ other ∈ jobs, other.Fits world) →
            Inv (world.assign index jobs) := by
        intro jobs plain fine
        apply inv.passed _ fine
        intro above ref further
        rw [now]
        obtain ⟨first, second⟩ := plain above ref
        simp [first, second]
      have onward : ∀ {next : Job}, next.Fits world → ∀ other ∈ next :: rest, other.Fits world := by
        intro next fine other inside
        rcases List.mem_cons.mp inside with rfl | further
        · exact fine
        · exact later other further
      cases job with
      | lookup parent agent =>
        rw [World.advance]
        split
        · exact looked (by simp) later
        · exact looked (by simp) (onward fits)
      | register parent agent => exact inv.registered now careful.1 careful.2
      | insert parent ref => exact inv.inserted now careful
      | answer ref =>
        have told : Inv (world.assign index rest) := looked (by simp) later
        refine ⟨told.named, told.rooted, told.hung, told.listed, ?_, told.made, told.latest,
          told.once, ?_⟩
        · intro other job inside
          have fine : job.Fits world := told.fits inside
          cases job <;> exact fine
        · intro other inside
          rcases List.mem_cons.mp inside with rfl | earlier
          · exact fits
          · exact inv.answered earlier
      | find id patch =>
        rw [World.advance]
        split
        · exact looked (by simp) later
        · exact looked (by simp) (onward trivial)
      | patch target patch => exact inv.patched now
      | delete id =>
        rw [World.advance]
        split
        · exact looked (by simp) later
        · apply looked (by simp)
          intro other inside
          rcases List.mem_cons.mp inside with rfl | further
          · trivial
          · exact @onward (.cascade _) trivial other further
      | checkLock ref =>
        rw [World.advance]
        split
        · exact looked (by simp) (by simp)
        · exact looked (by simp) (onward trivial)
      | checkChildren ref =>
        apply looked (by simp)
        intro other inside
        rcases List.mem_append.mp inside with mapped | further
        · obtain ⟨id, _, rfl⟩ := List.mem_map.mp mapped
          trivial
        · exact later other further
      | checkChild id =>
        rw [World.advance]
        split
        · exact looked (by simp) later
        · exact looked (by simp) (onward trivial)
      | cascade ref =>
        apply looked (by simp)
        intro other inside
        rcases List.mem_append.mp inside with mapped | further
        · obtain ⟨id, _, rfl⟩ := List.mem_map.mp mapped
          trivial
        · exact @onward (.detach ref) trivial other further
      | visit id =>
        rw [World.advance]
        split
        · exact looked (by simp) later
        · exact looked (by simp) (onward trivial)
      | detach ref =>
        rw [World.advance]
        split
        · exact looked (by simp) (onward trivial)
        · exact looked (by simp) (onward trivial)
      | unhook above ref => exact inv.unhooked now careful
      | unregister ref => exact inv.unregistered now careful

theorem start_inv {kernel : Kernel} (tree : kernel.tables.Tree) : Inv (start kernel) := by
  refine ⟨?_, ?_, ?_, ?_, ?_, ?_, ?_, ?_, ?_⟩
  · intro id ref found
    exact tree.registered found
  · obtain ⟨root, isRoot, found, _⟩ := tree.rooted
    exact ⟨root, isRoot, found⟩
  · intro id ref found inner
    obtain ⟨upper, above, named, aboveFound, child, _⟩ := tree.hung found inner
    exact ⟨upper, above, named, aboveFound, .inl child⟩
  · intro upper above id ref found child
    exact (tree.listed found child).1
  · intro index job inside
    cases inside
  · intro ref life born
    cases born
  · intro ref born
    cases born
  · intro first second life born
    cases born
  · intro ref inside
    cases inside

theorem Inv.sound (inv : Inv world) (quiet : world.Quiet) : Sound world.kernel := by
  refine ⟨inv.rooted, ?_, fun _ _ found _ _ child => inv.listed found child⟩
  intro id ref found inner
  obtain ⟨upper, above, named, aboveFound, place⟩ := inv.hung found inner
  refine ⟨upper, above, named, aboveFound, ?_⟩
  rcases place with child | ⟨index, rest, waits⟩ | ⟨index, rest, waits⟩
  · exact child
  · rw [quiet index] at waits
    cases waits
  · rw [quiet index] at waits
    cases waits

theorem Inv.answers_once (inv : Inv world) : Once world := by
  intro first firstIn second secondIn same born
  obtain ⟨life, firstBorn⟩ := inv.answered firstIn
  rw [firstBorn] at born
  exact inv.once firstBorn born.symm same

/-- From a tree, requests whose steps do not cross where they must not leave a sound registry
behind, and answer one create at most in every life of an id. -/
theorem careful_requests_keep_the_registry (kernel : Kernel) (tree : kernel.tables.Tree)
    (moves : List Move) (careful : Runs.Along World.step Careful (start kernel) moves) :
    ((moves.foldl World.step (start kernel)).Quiet →
      Sound (moves.foldl World.step (start kernel)).kernel) ∧
      Once (moves.foldl World.step (start kernel)) := by
  have inv : Inv (moves.foldl World.step (start kernel)) := by
    apply careful.invariant _ moves (start_inv tree)
    intro world move before allowed
    exact before.step allowed
  exact ⟨inv.sound, inv.answers_once⟩

def hostKernel : Kernel :=
  .oneRoot none 256
    { id := "core", handlerModule := none, parentId := none, metadata := .empty }
    ["/work", ".fantastic"]

theorem hostKernel_tree : hostKernel.tables.Tree :=
  Kernel.oneRoot_tree none 256 ["/work", ".fantastic"] rfl

def createNotes : Kernel.Request where
  target := "core"
  payload := {
    entries := [("type", .str "create_agent"), ("handler_module", .str "notes.tools"),
      ("id", .str "notes")]
    nodup := by decide }
  token := "000000"

def titleCore : Kernel.Request where
  target := "core"
  payload := {
    entries := [("type", .str "update_agent"), ("id", .str "core"), ("title", .str "home")]
    nodup := by decide }
  token := "000000"

def Move.place : Move → Nat
  | .begin place _ => place
  | .go place => place

theorem World.advance_tasks (world : World) (job : Job) (rest : List Job) :
    (world.advance job rest).1.tasks = world.tasks := by
  cases job <;> unfold World.advance <;> dsimp only <;> (try split) <;> rfl

theorem World.step_other (world : World) (move : Move) {other : Nat} (apart : move.place ≠ other) :
    (world.step move).tasks other = world.tasks other := by
  cases move with
  | begin place request =>
    rw [World.step]
    split
    · exact Function.update_of_ne (fun same => apart same.symm) _ _
    · rfl
  | go place =>
    rw [World.step]
    split
    · rfl
    · rename_i job rest _
      exact (Function.update_of_ne (fun same => apart same.symm) _ _).trans
        (congrFun (world.advance_tasks job rest) other)

theorem World.run_other (moves : List Move) {other : Nat} :
    ∀ world : World, (∀ move ∈ moves, move.place ≠ other) →
      (moves.foldl World.step world).tasks other = world.tasks other := by
  induction moves with
  | nil =>
    intro world _
    rfl
  | cons move moves induction =>
    intro world apart
    rw [List.foldl_cons, induction _ fun later inside => apart later (by simp [inside])]
    exact world.step_other move (apart move (by simp))

/-- A create and an update of its parent in turns. -/
def createAndUpdate : List Move :=
  [.begin 0 createNotes, .begin 1 titleCore, .go 0, .go 1, .go 0, .go 1, .go 0, .go 0]

theorem create_and_update_keep_the_registry :
    ((createAndUpdate.foldl World.step (start hostKernel)).Quiet →
      Sound (createAndUpdate.foldl World.step (start hostKernel)).kernel) ∧
      Once (createAndUpdate.foldl World.step (start hostKernel)) := by
  apply careful_requests_keep_the_registry hostKernel hostKernel_tree createAndUpdate
  refine ⟨trivial, trivial, trivial, trivial, ?_, trivial, ?_, trivial, trivial⟩
  · constructor
    · rfl
    · rfl
  · change _ = _
    rfl

/-- Two creates of one id, step by step in turns. -/
def twoCreates : List Move :=
  [.begin 0 createNotes, .begin 1 createNotes, .go 0, .go 1, .go 0, .go 1, .go 0, .go 1,
    .go 0, .go 1]

def createBelowNotes : Kernel.Request where
  target := "notes"
  payload := {
    entries := [("type", .str "create_agent"), ("handler_module", .str "page.tools"),
      ("id", .str "page")]
    nodup := by decide }
  token := "000000"

def deleteNotes : Kernel.Request where
  target := "core"
  payload := {
    entries := [("type", .str "delete_agent"), ("id", .str "notes")]
    nodup := by decide }
  token := "000000"

/-- A create below an agent that is deleted between its lookup and its registration. -/
def createUnderDelete : List Move :=
  [.begin 0 createNotes, .go 0, .go 0, .go 0, .go 0, .begin 1 createBelowNotes, .go 1,
    .begin 2 deleteNotes, .go 2, .go 2, .go 2, .go 2, .go 2, .go 2, .go 2, .go 1, .go 1, .go 1]

theorem crossing_requests_break_the_registry :
    ¬ Once (twoCreates.foldl World.step (start hostKernel)) ∧
      (createUnderDelete.foldl World.step (start hostKernel)).Quiet ∧
        ¬ Sound (createUnderDelete.foldl World.step (start hostKernel)).kernel := by
  refine ⟨?_, ?_, ?_⟩
  · intro once
    have both : (twoCreates.foldl World.step (start hostKernel)).answered = [2, 1] :=
      rfl
    have same : ((twoCreates.foldl World.step (start hostKernel)).kernel.heap 1).id =
        ((twoCreates.foldl World.step (start hostKernel)).kernel.heap 2).id := rfl
    have born : (twoCreates.foldl World.step (start hostKernel)).born 1 =
        (twoCreates.foldl World.step (start hostKernel)).born 2 := rfl
    have clash := once 1 (by rw [both]; simp) 2 (by rw [both]; simp) same born
    omega
  · intro index
    rcases index with _ | _ | _ | later
    · decide +kernel
    · decide +kernel
    · decide +kernel
    · rw [World.run_other createUnderDelete]
      · rfl
      · intro move inside
        have small : ∀ move ∈ createUnderDelete, move.place < 3 := by
          intro move inside
          simp only [createUnderDelete, List.mem_cons, List.not_mem_nil, or_false] at inside
          rcases inside with rfl | rfl | rfl | rfl | rfl | rfl | rfl | rfl | rfl | rfl | rfl | rfl |
            rfl | rfl | rfl | rfl | rfl | rfl <;> decide
        have bound := small move inside
        omega
  · intro sound
    have page : (createUnderDelete.foldl World.step (start hostKernel)).kernel.agents.get? "page" =
        some 2 := by decide +kernel
    have root : (createUnderDelete.foldl World.step (start hostKernel)).kernel.root = some 0 := by
      decide +kernel
    have parent : ((createUnderDelete.foldl World.step (start hostKernel)).kernel.heap 2).parentId =
        some "notes" := by decide +kernel
    have gone : (createUnderDelete.foldl World.step (start hostKernel)).kernel.agents.get? "notes" =
        none := by decide +kernel
    obtain ⟨upper, above, named, aboveFound, _⟩ := sound.hung "page" 2 page (by rw [root]; simp)
    rw [parent] at named
    cases named
    rw [gone] at aboveFound
    cases aboveFound

end Fantastic.Swift.Registry

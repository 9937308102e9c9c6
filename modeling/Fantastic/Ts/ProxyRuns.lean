import Fantastic.Ts.ProxyLoader

/-!
# The host follows the frontend's tree

Between the events and the sends of any number of flushes: every record the host holds is at
the place of a live agent or is about to be forgotten, and every live agent is about to be
persisted or the host has its record. Registering an id again while the host still holds it
elsewhere breaks the first, because the loader then drops the removal it had noted; a flush
that sends an old removal after the id came back breaks the second. In a run without these
the host ends up with the local tree.
-/

namespace Fantastic.Ts

/-! ### What the tables promise -/

/-- The agent's record is still to be sent. -/
def Pending (world : World) (id : String) : Prop :=
  id ∈ world.loader.dirtyPersist.keys ∨ ∃ flight ∈ world.flights, id ∈ flight.persist

/-- A flush under way will forget the place. -/
def Recalled (flights : List Flight) (id parentId : String) : Prop :=
  ∃ flight ∈ flights, (id, parentId) ∈ flight.forget

/-- An agent is live at the place. -/
def LiveAt (world : World) (id parentId : String) : Prop :=
  ∃ agent, world.kernel.held id = some agent ∧
    world.loader.rewrittenParent agent.parentId = parentId

/-- A record without keys the agent does not have. -/
def Within (record : Dict) (sent : Dict) : Prop :=
  ∀ name, sent.get? name = none → record.get? name = none

structure Converging (rule : HostRule) (world : World) : Prop where
  filed : ∀ {id agent}, world.kernel.held id = some agent →
    agent.id = id ∧ agent.metadata.get? "id" = none
  cached : ∀ {id agent}, world.kernel.held id = some agent →
    world.loader.parents.get? id = some (world.loader.rewrittenParent agent.parentId)
  dead : ∀ {id parentId}, world.loader.dirtyForget.get? id = some parentId →
    world.kernel.held id = none
  covered : ∀ {place record}, world.host.get? place = some record →
    ∃ id parentId, place = (.str id, .str parentId) ∧
      (LiveAt world id parentId ∨ world.loader.dirtyForget.get? id = some parentId ∨
        Recalled world.flights id parentId)
  bounded : rule = .merge → ∀ {id agent record}, world.kernel.held id = some agent →
    world.host.get? (.str id, .str (world.loader.rewrittenParent agent.parentId)) = some record →
      Within record (world.loader.sentRecord agent)
  current : ∀ {id agent}, world.kernel.held id = some agent → Pending world id ∨
    ∃ record, world.host.get? (.str id, .str (world.loader.rewrittenParent agent.parentId)) =
      some record ∧ record.get? = (world.loader.sentRecord agent).get?

/-! ### The condition on a step -/

/-- The condition on a step. An operation on an id that is not registered meets it. -/
def Careful (rule : HostRule) (world : World) : Step → Prop
  | .register init =>
    world.loader.subscribed = true ∧ init.parentId ≠ none ∧ init.metadata.get? "id" = none ∧
    ∀ parentId record, world.host.get? (.str init.id, .str parentId) = some record →
      if parentId = world.loader.rewrittenParent init.parentId then
        rule = .merge → Within record (world.loader.sentRecord init)
      else Recalled world.flights init.id parentId
  | .updateMeta id patch =>
    world.kernel.held id ≠ none → world.loader.subscribed = true ∧ patch.get? "id" = none
  | .remove id => world.kernel.held id ≠ none → world.loader.subscribed = true
  | .advance index =>
    ∀ flight, world.flights[index]? = some flight →
      match flight.persist, flight.forget with
      | id :: _, _ =>
        world.kernel.held id ≠ none → world.kernel.forwards world.loader.hostLoaderId = true
      | [], (id, parentId) :: _ =>
        world.kernel.forwards world.loader.hostLoaderId = true ∧
          (LiveAt world id parentId → Pending world id)
      | [], [] => True
  | .flush => True
  | .fire => True
  | .stop => True

def CarefulRun (rule : HostRule) : World → List Step → Prop
  | _, [] => True
  | world, step :: steps => Careful rule world step ∧ CarefulRun rule (world.step rule step) steps

/-! ### Local operations -/

section Local

variable {rule : HostRule} {world : World} (converging : Converging rule world)

include converging

/-- An agent that was registered or changed is queued, wherever its record is. -/
theorem Converging.touched {kernel : Kernel} {id : String} {agent : AgentInit}
    (others : ∀ other, other ≠ id → kernel.held other = world.kernel.held other)
    (here : kernel.held id = some agent)
    (filed : agent.id = id ∧ agent.metadata.get? "id" = none)
    (released : ∀ parentId record, world.host.get? (.str id, .str parentId) = some record →
      if parentId = world.loader.rewrittenParent agent.parentId then
        rule = .merge → Within record (world.loader.sentRecord agent)
      else Recalled world.flights id parentId) :
    Converging rule { world with kernel := kernel, loader := world.loader.touched kernel id } := by
  have split {other : String} {found : AgentInit} (hit : kernel.held other = some found) :
      (other = id ∧ found = agent) ∨ (other ≠ id ∧ world.kernel.held other = some found) := by
    by_cases same : other = id
    · rw [same, here] at hit
      exact Or.inl ⟨same, (Option.some.inj hit).symm⟩
    · rw [others other same] at hit
      exact Or.inr ⟨same, hit⟩
  constructor
  · intro other found hit
    cases split hit with
    | inl same =>
      obtain ⟨rfl, rfl⟩ := same
      exact filed
    | inr old => exact converging.filed old.2
  · intro other found hit
    simp only [ProxyLoader.touched, here, OrderedDict.get?_insert]
    cases split hit with
    | inl same =>
      obtain ⟨rfl, rfl⟩ := same
      rw [if_pos rfl]
      rfl
    | inr old =>
      rw [if_neg old.1]
      exact converging.cached old.2
  · intro other parentId queued
    simp only [ProxyLoader.touched, OrderedDict.get?_erase] at queued
    split at queued
    case isTrue => cases queued
    case isFalse different =>
      simp only [others other different]
      exact converging.dead queued
  · intro place record there
    obtain ⟨other, parentId, rfl, cover⟩ := converging.covered there
    refine ⟨other, parentId, rfl, ?_⟩
    by_cases same : other = id
    · subst same
      have needed := released parentId record there
      split at needed
      case isTrue sameParent => exact Or.inl ⟨agent, here, sameParent.symm⟩
      case isFalse => exact Or.inr (Or.inr needed)
    · obtain ⟨found, hit, placed⟩ | queued | recalled := cover
      · exact Or.inl ⟨found, by rw [others other same]; exact hit, placed⟩
      · refine Or.inr (Or.inl ?_)
        simp only [ProxyLoader.touched, OrderedDict.get?_erase, if_neg same]
        exact queued
      · exact Or.inr (Or.inr recalled)
  · intro isMerge other found record hit there
    cases split hit with
    | inl same =>
      obtain ⟨rfl, rfl⟩ := same
      have needed := released (world.loader.rewrittenParent found.parentId) record there
      rw [if_pos rfl] at needed
      exact needed isMerge
    | inr old => exact converging.bounded isMerge old.2 there
  · intro other found hit
    cases split hit with
    | inl same =>
      refine Or.inl (Or.inl ?_)
      exact OrderedDict.mem_keys_insert.mpr (Or.inl same.1)
    | inr old =>
      cases converging.current old.2 with
      | inr stored => exact Or.inr stored
      | inl pending =>
        refine Or.inl ?_
        cases pending with
        | inl dirty => exact Or.inl (OrderedDict.mem_keys_insert.mpr (Or.inr dirty))
        | inr flying => exact Or.inr flying

/-- A patch leaves the agent where it is and only adds keys. -/
theorem Converging.patched {id : String} {agent : AgentInit} {patch : Dict}
    (was : world.kernel.held id = some agent) (noId : patch.get? "id" = none) :
    Converging rule
      { world with
        kernel := (world.kernel.updateMeta id patch).1
        loader := world.loader.touched (world.kernel.updateMeta id patch).1 id } := by
  have filed := converging.filed was
  have here : (world.kernel.updateMeta id patch).1.held id =
      some { agent with metadata := agent.metadata.update patch } := by
    rw [Kernel.held_updateMeta, if_pos rfl, was, Option.map_some]
  have others (other : String) (different : other ≠ id) :
      (world.kernel.updateMeta id patch).1.held other = world.kernel.held other := by
    rw [Kernel.held_updateMeta, if_neg different]
  have grows (name : String)
      (absent : (world.loader.sentRecord
        { agent with metadata := agent.metadata.update patch }).get? name = none) :
      (world.loader.sentRecord agent).get? name = none := by
    simp only [ProxyLoader.sentRecord, AgentInit.record, OrderedDict.get?_insert,
      OrderedDict.get?_update] at absent ⊢
    split at absent
    case isTrue => cases absent
    case isFalse different =>
      rw [if_neg different]
      rw [Option.or_eq_none_iff, Option.or_eq_none_iff] at absent
      rw [Option.or_eq_none_iff]
      exact ⟨absent.1.2, absent.2⟩
  apply converging.touched others here
  · refine ⟨filed.1, ?_⟩
    rw [OrderedDict.get?_update, noId, Option.none_or]
    exact filed.2
  · intro parentId record there
    split
    case isTrue same =>
      intro isMerge name absent
      rw [same] at there
      exact converging.bounded isMerge was there name (grows name absent)
    case isFalse different =>
      obtain ⟨other, otherParent, samePlace, cover⟩ := converging.covered there
      cases samePlace
      obtain ⟨found, hit, placed⟩ | dirty | recalled := cover
      · rw [was, Option.some.injEq] at hit
        rw [← hit] at placed
        exact absurd placed.symm different
      · rw [converging.dead dirty] at was
        cases was
      · exact recalled

/-- An agent that left is noted for removal at the place the loader remembers. -/
theorem Converging.lost {kernel : Kernel} {id : String} {agent : AgentInit}
    (others : ∀ other, kernel.held other = if other = id then none else world.kernel.held other)
    (was : world.kernel.held id = some agent) :
    Converging rule { world with kernel := kernel, loader := world.loader.lost id } := by
  have remembered : (world.loader.parents.get? id).getD world.loader.hostRootId =
      world.loader.rewrittenParent agent.parentId := by
    rw [converging.cached was, Option.getD_some]
  have old {other : String} {found : AgentInit} (hit : kernel.held other = some found) :
      other ≠ id ∧ world.kernel.held other = some found := by
    rw [others] at hit
    split at hit
    case isTrue => cases hit
    case isFalse different => exact ⟨different, hit⟩
  constructor
  · intro other found hit
    exact converging.filed (old hit).2
  · intro other found hit
    simp only [ProxyLoader.lost, OrderedDict.get?_erase, if_neg (old hit).1]
    exact converging.cached (old hit).2
  · intro other parentId queued
    simp only [ProxyLoader.lost, OrderedDict.get?_insert] at queued
    simp only [others]
    split at queued
    case isTrue same => rw [if_pos same]
    case isFalse different =>
      rw [if_neg different]
      exact converging.dead queued
  · intro place record there
    obtain ⟨other, parentId, rfl, cover⟩ := converging.covered there
    refine ⟨other, parentId, rfl, ?_⟩
    obtain ⟨found, hit, placed⟩ | queued | recalled := cover
    · by_cases same : other = id
      · rw [same, was, Option.some.injEq] at hit
        refine Or.inr (Or.inl ?_)
        simp only [ProxyLoader.lost, OrderedDict.get?_insert, if_pos same, remembered]
        rw [hit, placed]
      · exact Or.inl ⟨found, by rw [others, if_neg same]; exact hit, placed⟩
    · refine Or.inr (Or.inl ?_)
      have different : other ≠ id := by
        intro same
        rw [same] at queued
        rw [converging.dead queued] at was
        cases was
      simp only [ProxyLoader.lost, OrderedDict.get?_insert, if_neg different]
      exact queued
    · exact Or.inr (Or.inr recalled)
  · intro isMerge other found record hit there
    exact converging.bounded isMerge (old hit).2 there
  · intro other found hit
    cases converging.current (old hit).2 with
    | inr stored => exact Or.inr stored
    | inl pending =>
      refine Or.inl ?_
      cases pending with
      | inl dirty => exact Or.inl (OrderedDict.mem_keys_erase.mpr ⟨(old hit).1, dirty⟩)
      | inr flying => exact Or.inr flying

/-- A whole `remove`, as far as it got. The loader does not look at the kernel for it. -/
theorem Converging.removed (subscribed : world.loader.subscribed = true) (seen : Kernel)
    (fuel : Nat) (active : List String) (id : String) :
    (((Kernel.removeWithin fuel active world.kernel id).events.foldl
        (ProxyLoader.onState seen) world.loader).subscribed = true) ∧
      Converging rule
        { world with
          kernel := (Kernel.removeWithin fuel active world.kernel id).kernel
          loader := (Kernel.removeWithin fuel active world.kernel id).events.foldl
            (ProxyLoader.onState seen) world.loader } := by
  induction fuel generalizing world active id with
  | zero => exact ⟨subscribed, converging⟩
  | succ fuel ih =>
    unfold Kernel.removeWithin
    split
    case isTrue => exact ⟨subscribed, converging⟩
    case isFalse fresh =>
      split
      case h_1 => exact ⟨subscribed, converging⟩
      case h_2 agent found =>
        have turn (done : Kernel.Removal) (child : String)
            (before : done.kernel.held id = world.kernel.held id ∧
              (done.events.foldl (ProxyLoader.onState seen) world.loader).subscribed = true ∧
              Converging rule
                { world with
                  kernel := done.kernel
                  loader := done.events.foldl (ProxyLoader.onState seen) world.loader }) :
            (done.andThen (Kernel.removeWithin fuel (id :: active)) child).kernel.held id =
                world.kernel.held id ∧
              ((done.andThen (Kernel.removeWithin fuel (id :: active)) child).events.foldl
                (ProxyLoader.onState seen) world.loader).subscribed = true ∧
              Converging rule
                { world with
                  kernel := (done.andThen (Kernel.removeWithin fuel (id :: active)) child).kernel
                  loader :=
                    (done.andThen (Kernel.removeWithin fuel (id :: active)) child).events.foldl
                      (ProxyLoader.onState seen) world.loader } := by
          unfold Kernel.Removal.andThen
          split
          · obtain ⟨still, heard, fine⟩ := before
            have next := ih fine heard (id :: active) child
            simp only [List.foldl_append]
            exact ⟨(Kernel.held_removeWithin_active List.mem_cons_self).trans still, next.1, next.2⟩
          · exact before
        obtain ⟨still, heard, fine⟩ := @Kernel.andThen_foldl
          (Kernel.removeWithin fuel (id :: active)) _ turn agent.children ⟨world.kernel, [], true⟩
          ⟨rfl, subscribed, converging⟩
        simp only
        split
        · have was : world.kernel.held id = some agent.toAgentInit := by
            rw [Kernel.held, found, Option.map_some]
          have last := fine.lost (fun other => Kernel.held_removeOne _ id agent.parentId other)
            (still.trans was)
          simp only [List.foldl_append, List.foldl_cons, List.foldl_nil, ProxyLoader.onState,
            heard, Bool.not_true, Bool.false_eq_true, if_false]
          exact ⟨heard, last⟩
        · exact ⟨heard, fine⟩

end Local

/-! ### Flushes -/

section Flushes

variable {rule : HostRule} {world : World}

/-- Taking the dirty sets into a flush changes nothing about what is to come. -/
theorem Converging.beginFlush (converging : Converging rule world) :
    Converging rule world.beginFlush := by
  constructor
  · exact converging.filed
  · exact converging.cached
  · intro id parentId queued
    cases queued
  · intro place record there
    obtain ⟨id, parentId, rfl, cover⟩ := converging.covered there
    refine ⟨id, parentId, rfl, ?_⟩
    obtain live | queued | ⟨flight, member, listed⟩ := cover
    · exact Or.inl live
    · refine Or.inr (Or.inr ⟨_, List.mem_append_right _ (List.mem_singleton.mpr rfl), ?_⟩)
      exact OrderedDict.mem_entries_iff.mpr queued
    · exact Or.inr (Or.inr ⟨flight, List.mem_append_left _ member, listed⟩)
  · exact converging.bounded
  · intro id agent hit
    cases converging.current hit with
    | inr stored => exact Or.inr stored
    | inl pending =>
      refine Or.inl (Or.inr ?_)
      cases pending with
      | inl dirty => exact ⟨_, List.mem_append_right _ (List.mem_singleton.mpr rfl), dirty⟩
      | inr flying =>
        obtain ⟨flight, member, listed⟩ := flying
        exact ⟨flight, List.mem_append_left _ member, listed⟩

/-- The loader's flags play no part. -/
theorem Converging.flags (converging : Converging rule world) (subscribed scheduled : Bool) :
    Converging rule { world with
      loader := { world.loader with subscribed := subscribed, scheduled := scheduled } } :=
  ⟨converging.filed, converging.cached, converging.dead, converging.covered, converging.bounded,
    converging.current⟩

/-- What of a list of flushes is left when one of them has gone on. -/
theorem mem_set_of_mem {flights : List Flight} {index : Nat} {flight next other : Flight}
    (running : flights[index]? = some flight) (member : other ∈ flights) :
    other = flight ∨ other ∈ flights.set index next := by
  obtain ⟨place, found⟩ := List.mem_iff_getElem?.mp member
  by_cases here : index = place
  · left
    rw [← here, running] at found
    exact (Option.some.inj found).symm
  · right
    apply List.mem_iff_getElem?.mpr
    exact ⟨place, by rw [List.getElem?_set_ne here, found]⟩

theorem next_mem_set {flights : List Flight} {index : Nat} {flight next : Flight}
    (running : flights[index]? = some flight) : next ∈ flights.set index next := by
  obtain ⟨inside, -⟩ := List.getElem?_eq_some_iff.mp running
  exact List.mem_set inside next

/-- Going on with a flush leaves alone what other ids wait for. -/
theorem Recalled.set {flights : List Flight} {index : Nat} {flight next : Flight}
    {id parentId : String} (running : flights[index]? = some flight)
    (kept : (id, parentId) ∈ flight.forget → (id, parentId) ∈ next.forget)
    (recalled : Recalled flights id parentId) : Recalled (flights.set index next) id parentId := by
  obtain ⟨other, member, listed⟩ := recalled
  cases mem_set_of_mem running member with
  | inl same => exact ⟨next, next_mem_set running, kept (same ▸ listed)⟩
  | inr still => exact ⟨other, still, listed⟩

theorem Pending.set {index : Nat} {flight next : Flight} {host : HostStore} {id : String}
    (running : world.flights[index]? = some flight)
    (kept : id ∈ flight.persist → id ∈ next.persist) (pending : Pending world id) :
    Pending { world with flights := world.flights.set index next, host := host } id := by
  cases pending with
  | inl dirty => exact Or.inl dirty
  | inr flying =>
    right
    obtain ⟨other, member, listed⟩ := flying
    cases mem_set_of_mem running member with
    | inl same => exact ⟨next, next_mem_set running, kept (same ▸ listed)⟩
    | inr still => exact ⟨other, still, listed⟩

/-- The place a sent record goes to. -/
theorem location_sentRecord (loader : ProxyLoader) {agent : AgentInit}
    (noId : agent.metadata.get? "id" = none) :
    location (loader.sentRecord agent) =
      (.str agent.id, .str (loader.rewrittenParent agent.parentId)) := by
  unfold location ProxyLoader.sentRecord
  rw [OrderedDict.get?_insert_self, OrderedDict.get?_insert_of_ne _ _ (by decide),
    AgentInit.record_id noId]
  rfl

/-- A record merged over one without keys of its own reads as it was sent. -/
theorem HostRule.stored_get? (rule : HostRule) {there : Option Dict} {record : Dict}
    (within : rule = .merge → ∀ before, there = some before → Within before record) :
    (rule.stored there record).get? = record.get? := by
  cases rule with
  | replace => rfl
  | merge =>
    funext name
    simp only [HostRule.stored, OrderedDict.get?_update]
    cases shown : record.get? name with
    | some value => rfl
    | none =>
      rw [Option.none_or]
      cases there with
      | none => rfl
      | some before => exact within rfl before rfl name shown

theorem Converging.sentPersist (converging : Converging rule world) {index : Nat} {flight : Flight}
    {id : String} {rest : List String} (running : world.flights[index]? = some flight)
    (queued : flight.persist = id :: rest) {agent : AgentInit}
    (live : world.kernel.held id = some agent) :
    Converging rule { world with
      flights := world.flights.set index { flight with persist := rest }
      host := world.host.persistRecord rule (world.loader.sentRecord agent) } := by
  obtain ⟨isId, noId⟩ := converging.filed live
  have place := location_sentRecord world.loader noId
  rw [isId] at place
  have stored : (rule.stored (world.host.get? (location (world.loader.sentRecord agent)))
      (world.loader.sentRecord agent)).get? = (world.loader.sentRecord agent).get? := by
    apply rule.stored_get?
    intro isMerge before there
    rw [place] at there
    exact converging.bounded isMerge live there
  have lookup (other : Value × Value) :
      (world.host.persistRecord rule (world.loader.sentRecord agent)).get? other =
        if other = (.str id, .str (world.loader.rewrittenParent agent.parentId)) then
          some (rule.stored (world.host.get? (location (world.loader.sentRecord agent)))
            (world.loader.sentRecord agent))
        else world.host.get? other := by
    rw [HostStore.persistRecord, OrderedDict.get?_insert, place]
  have elsewhere {other : String} {found : AgentInit} (different : other ≠ id) :
      ((Value.str other, Value.str (world.loader.rewrittenParent found.parentId)) :
        Value × Value) ≠ (.str id, .str (world.loader.rewrittenParent agent.parentId)) := by
    intro same
    exact different (Value.str.inj (Prod.mk.inj same).1)
  constructor
  · exact converging.filed
  · exact converging.cached
  · exact converging.dead
  · intro other record there
    rw [lookup] at there
    split at there
    case isTrue same =>
      exact ⟨id, _, same, Or.inl ⟨agent, live, rfl⟩⟩
    case isFalse =>
      obtain ⟨otherId, parentId, rfl, cover⟩ := converging.covered there
      refine ⟨otherId, parentId, rfl, ?_⟩
      obtain held | queued | recalled := cover
      · exact Or.inl held
      · exact Or.inr (Or.inl queued)
      · exact Or.inr (Or.inr (recalled.set running fun listed => listed))
  · intro isMerge other found record hit there
    simp only [lookup] at there
    by_cases same : other = id
    · subst same
      rw [live, Option.some.injEq] at hit
      subst hit
      rw [if_pos rfl, Option.some.injEq] at there
      intro name absent
      rw [← there, stored]
      exact absent
    · rw [if_neg (elsewhere same)] at there
      exact converging.bounded isMerge hit there
  · intro other found hit
    by_cases same : other = id
    · subst same
      rw [live, Option.some.injEq] at hit
      subst hit
      refine Or.inr ⟨_, ?_, stored⟩
      simp only [lookup, if_true]
    · cases converging.current hit with
      | inl pending =>
        refine Or.inl (pending.set running ?_)
        intro listed
        rw [queued] at listed
        exact (List.mem_cons.mp listed).resolve_left same
      | inr there =>
        refine Or.inr ?_
        simp only [lookup, if_neg (elsewhere same)]
        exact there

theorem Converging.skippedPersist (converging : Converging rule world) {index : Nat}
    {flight : Flight} {id : String} {rest : List String}
    (running : world.flights[index]? = some flight) (queued : flight.persist = id :: rest)
    (gone : world.kernel.held id = none) :
    Converging rule { world with
      flights := world.flights.set index { flight with persist := rest } } := by
  constructor
  · exact converging.filed
  · exact converging.cached
  · exact converging.dead
  · intro place record there
    obtain ⟨other, parentId, rfl, cover⟩ := converging.covered there
    refine ⟨other, parentId, rfl, ?_⟩
    obtain held | queued | recalled := cover
    · exact Or.inl held
    · exact Or.inr (Or.inl queued)
    · exact Or.inr (Or.inr (recalled.set running fun listed => listed))
  · exact converging.bounded
  · intro other found hit
    cases converging.current hit with
    | inr stored => exact Or.inr stored
    | inl pending =>
      refine Or.inl (pending.set running ?_)
      intro listed
      rw [queued] at listed
      refine (List.mem_cons.mp listed).resolve_left ?_
      intro same
      rw [same, gone] at hit
      cases hit

theorem Converging.sentForget (converging : Converging rule world) {index : Nat} {flight : Flight}
    {id parentId : String} {rest : List (String × String)}
    (running : world.flights[index]? = some flight)
    (queued : flight.forget = (id, parentId) :: rest)
    (again : LiveAt world id parentId → Pending world id) :
    Converging rule { world with
      flights := world.flights.set index { flight with forget := rest }
      host := world.host.forgetRecord id parentId } := by
  have lookup (place : Value × Value) : (world.host.forgetRecord id parentId).get? place =
      if place = (.str id, .str parentId) then none else world.host.get? place := by
    rw [HostStore.forgetRecord, OrderedDict.get?_erase]
  constructor
  · exact converging.filed
  · exact converging.cached
  · exact converging.dead
  · intro place record there
    rw [lookup] at there
    split at there
    case isTrue => cases there
    case isFalse away =>
      obtain ⟨other, otherParent, rfl, cover⟩ := converging.covered there
      refine ⟨other, otherParent, rfl, ?_⟩
      obtain held | dirty | recalled := cover
      · exact Or.inl held
      · exact Or.inr (Or.inl dirty)
      · refine Or.inr (Or.inr (recalled.set running ?_))
        intro listed
        rw [queued] at listed
        refine (List.mem_cons.mp listed).resolve_left ?_
        intro same
        cases same
        exact away rfl
  · intro isMerge other found record hit there
    simp only [lookup] at there
    split at there
    case isTrue => cases there
    case isFalse => exact converging.bounded isMerge hit there
  · intro other found hit
    by_cases here : ((Value.str other, Value.str (world.loader.rewrittenParent found.parentId)) :
        Value × Value) = (.str id, .str parentId)
    · have sameId := Value.str.inj (Prod.mk.inj here).1
      have sameParent := Value.str.inj (Prod.mk.inj here).2
      subst sameId
      exact Or.inl ((again ⟨found, hit, sameParent⟩).set running fun listed => listed)
    · cases converging.current hit with
      | inl pending => exact Or.inl (pending.set running fun listed => listed)
      | inr stored =>
        refine Or.inr ?_
        simp only [lookup, if_neg here]
        exact stored

end Flushes

/-! ### Every step, and a run -/

section Runs

variable {rule : HostRule} {world : World}

theorem Converging.advanced (converging : Converging rule world) {index : Nat}
    (careful : Careful rule world (.advance index)) :
    Converging rule (world.step rule (.advance index)) := by
  simp only [World.step]
  cases running : world.flights[index]? with
  | none => exact converging
  | some flight =>
    have allowed := careful flight running
    simp only [World.advanceFlight]
    split
    case h_1 forgets id rest queued =>
      simp only [queued] at allowed
      cases live : world.kernel.held id with
      | none => exact converging.skippedPersist running queued live
      | some agent =>
        have reaches := allowed (by simp [live])
        simp only [reaches, if_true]
        exact converging.sentPersist running queued live
    case h_2 id parentId rest drained queued =>
      simp only [drained, queued] at allowed
      simp only [allowed.1, if_true]
      exact converging.sentForget running queued allowed.2
    case h_3 => exact converging

theorem Converging.step (converging : Converging rule world) {step : Step}
    (careful : Careful rule world step) : Converging rule (world.step rule step) := by
  cases step with
  | register init =>
    obtain ⟨subscribed, parented, noId, released⟩ := careful
    obtain ⟨parentId, isParent⟩ := Option.ne_none_iff_exists'.mp parented
    have others (other : String) (different : other ≠ init.id) :
        (world.kernel.register init).1.held other = world.kernel.held other := by
      rw [Kernel.held_register, if_neg different]
    have here : (world.kernel.register init).1.held init.id = some init := by
      rw [Kernel.held_register, if_pos rfl]
    have events : (world.kernel.register init).2 =
        [.added init.id init.displayName parentId] := by
      simp only [Kernel.register, isParent]
    have next := converging.touched others here ⟨rfl, noId⟩ released
    simpa [World.step, World.heard, events, ProxyLoader.onState, subscribed] using next
  | updateMeta id patch =>
    cases found : world.kernel.agents.get? id with
    | none => simpa [World.step, World.heard, Kernel.updateMeta, found] using converging
    | some agent =>
      have was : world.kernel.held id = some agent.toAgentInit := by
        rw [Kernel.held, found, Option.map_some]
      obtain ⟨subscribed, noId⟩ := careful (by simp [was])
      have next := converging.patched was noId
      have updated : (world.kernel.updateMeta id patch).2 = [.updated id patch.keys] := by
        simp only [Kernel.updateMeta, found]
      simpa [World.step, World.heard, updated, ProxyLoader.onState, subscribed] using next
  | remove id =>
    cases found : world.kernel.agents.get? id with
    | none =>
      have nothing : world.kernel.remove id = ⟨world.kernel, [], true⟩ := by
        simp [Kernel.remove, Kernel.removeWithin, found]
      simpa [World.step, World.heard, nothing] using converging
    | some agent =>
      have subscribed := careful (by simp [Kernel.held, found])
      exact (converging.removed subscribed _ _ [] id).2
  | flush => exact converging.beginFlush
  | fire =>
    simp only [World.step]
    split
    · exact (converging.flags world.loader.subscribed false).beginFlush
    · exact converging
  | stop => exact (converging.flags false false).beginFlush
  | advance index => exact converging.advanced careful

theorem Converging.run (converging : Converging rule world) {steps : List Step}
    (careful : CarefulRun rule world steps) : Converging rule (world.run rule steps) := by
  induction steps generalizing world with
  | nil => exact converging
  | cons step steps ih => exact ih (converging.step careful.1) careful.2

end Runs

/-! ### The start -/

/-- A kernel and a host a loader can start from: every agent is registered under its id, and
the host holds nothing but records of this tree, if any. -/
structure Startable (rule : HostRule) (kernel : Kernel) (loader : ProxyLoader)
    (host : HostStore) : Prop where
  filed : ∀ {id agent}, kernel.held id = some agent →
    agent.id = id ∧ agent.metadata.get? "id" = none
  known : ∀ {place record}, host.get? place = some record →
    ∃ id agent, kernel.held id = some agent ∧
      place = (.str id, .str (loader.rewrittenParent agent.parentId)) ∧
      (rule = .merge → Within record (loader.sentRecord agent))

/-- The world in which a new loader has started. -/
def World.started (kernel : Kernel) (hostLoaderId hostRootId : String) (host : HostStore) :
    World where
  kernel := kernel
  loader := (ProxyLoader.create hostLoaderId hostRootId).start kernel
  flights := []
  host := host

section Start

/-- The loop of `start`: every agent of the list is queued, and remembered under its id if no
later one has the same. -/
theorem enqueue_foldl (agents : List Agent) (loader : ProxyLoader) :
    (agents.foldl (fun loader agent => loader.enqueue agent.toAgentInit) loader).hostRootId =
        loader.hostRootId ∧
      (agents.foldl (fun loader agent => loader.enqueue agent.toAgentInit) loader).dirtyForget =
        loader.dirtyForget ∧
      (∀ id, id ∈ loader.dirtyPersist.keys ∨ (∃ agent ∈ agents, agent.id = id) →
        id ∈ (agents.foldl (fun loader agent => loader.enqueue agent.toAgentInit)
          loader).dirtyPersist.keys) ∧
      (∀ id, (∀ agent ∈ agents, agent.id ≠ id) →
        (agents.foldl (fun loader agent => loader.enqueue agent.toAgentInit)
          loader).parents.get? id = loader.parents.get? id) ∧
      ((agents.map fun agent => agent.id).Nodup → ∀ agent ∈ agents,
        (agents.foldl (fun loader agent => loader.enqueue agent.toAgentInit)
          loader).parents.get? agent.id = some (loader.rewrittenParent agent.parentId)) := by
  induction agents generalizing loader with
  | nil => simp
  | cons first agents ih =>
    obtain ⟨sameRoot, sameForget, queued, others, remembered⟩ := ih (loader.enqueue first.toAgentInit)
    rw [List.foldl_cons]
    refine ⟨sameRoot, sameForget, ?_, ?_, ?_⟩
    · intro id known
      apply queued
      obtain before | ⟨agent, member, isId⟩ := known
      · exact Or.inl (OrderedDict.mem_keys_insert.mpr (Or.inr before))
      · cases List.mem_cons.mp member with
        | inl isFirst =>
          rw [isFirst] at isId
          exact Or.inl (OrderedDict.mem_keys_insert.mpr (Or.inl isId.symm))
        | inr later => exact Or.inr ⟨agent, later, isId⟩
    · intro id none
      rw [others id fun agent member => none agent (List.mem_cons_of_mem _ member)]
      exact OrderedDict.get?_insert_of_ne _ _ (none first List.mem_cons_self).symm
    · intro distinct agent member
      rw [List.map_cons, List.nodup_cons] at distinct
      cases List.mem_cons.mp member with
      | inl isFirst =>
        subst isFirst
        rw [others agent.id]
        · exact OrderedDict.get?_insert_self _ _ _
        · intro other otherIn same
          exact distinct.1 (same ▸ List.mem_map_of_mem otherIn)
      | inr later => exact remembered distinct.2 agent later

theorem Startable.converging {rule : HostRule} {kernel : Kernel} {hostLoaderId hostRootId : String}
    {host : HostStore}
    (startable : Startable rule kernel (.create hostLoaderId hostRootId) host) :
    Converging rule (.started kernel hostLoaderId hostRootId host) := by
  obtain ⟨sameRoot, sameForget, queued, -, remembered⟩ :=
    enqueue_foldl kernel.agents.items (.create hostLoaderId hostRootId)
  have distinct : (kernel.agents.items.map fun agent => agent.id).Nodup := by
    have names : kernel.agents.items.map (fun agent => agent.id) = kernel.agents.keys := by
      unfold OrderedDict.items OrderedDict.keys
      rw [List.map_map]
      apply List.map_congr_left
      intro entry member
      have hit := OrderedDict.mem_entries_iff.mp member
      exact (startable.filed (by rw [Kernel.held, hit, Option.map_some])).1
    rw [names]
    exact kernel.agents.keys_nodup
  have listed {id : String} {agent : AgentInit} (held : kernel.held id = some agent) :
      ∃ found ∈ kernel.agents.items, found.toAgentInit = agent := by
    unfold Kernel.held at held
    obtain ⟨found, hit, same⟩ := Option.map_eq_some_iff.mp held
    exact ⟨found, List.mem_map.mpr ⟨(id, found), OrderedDict.mem_entries_iff.mpr hit, rfl⟩, same⟩
  have started : (World.started kernel hostLoaderId hostRootId host).loader.hostRootId =
      hostRootId := sameRoot
  have rewritten (parentId : Option String) :
      (World.started kernel hostLoaderId hostRootId host).loader.rewrittenParent parentId =
        (ProxyLoader.create hostLoaderId hostRootId).rewrittenParent parentId := by
    unfold ProxyLoader.rewrittenParent
    rw [started]
    rfl
  have sent (agent : AgentInit) :
      (World.started kernel hostLoaderId hostRootId host).loader.sentRecord agent =
        (ProxyLoader.create hostLoaderId hostRootId).sentRecord agent := by
    unfold ProxyLoader.sentRecord
    rw [rewritten]
  constructor
  · exact startable.filed
  · intro id agent held
    obtain ⟨found, member, same⟩ := listed held
    have there := remembered distinct found member
    rw [rewritten, ← (startable.filed held).1, ← same]
    exact there
  · intro id parentId dirty
    have empty : (World.started kernel hostLoaderId hostRootId host).loader.dirtyForget = .empty :=
      sameForget
    rw [empty] at dirty
    cases dirty
  · intro place record there
    obtain ⟨id, agent, held, isPlace, -⟩ := startable.known there
    exact ⟨id, _, isPlace, Or.inl ⟨agent, held, rewritten _⟩⟩
  · intro isMerge id agent record held there
    obtain ⟨other, found, hit, isPlace, within⟩ := startable.known there
    have sameId := Value.str.inj (Prod.mk.inj isPlace).1
    have sameHeld : kernel.held id = some agent := held
    rw [← sameId, sameHeld, Option.some.injEq] at hit
    rw [sent, hit]
    exact within isMerge
  · intro id agent held
    left
    left
    obtain ⟨found, member, same⟩ := listed held
    apply queued
    right
    refine ⟨found, member, ?_⟩
    rw [same]
    exact (startable.filed held).1

end Start

/-! ### Convergence -/

/-- The local tree re-rooted at the host loader: the record at a place, if an agent is live
there. -/
def World.rerooted (world : World) : Value × Value → Option Dict
  | (.str id, .str parentId) =>
    match world.kernel.held id with
    | none => none
    | some agent =>
      if world.loader.rewrittenParent agent.parentId = parentId then
        some (world.loader.sentRecord agent)
      else none
  | _ => none

/-- Once a careful run is quiet, the host holds the local tree and nothing else. -/
theorem careful_run_converges {rule : HostRule} {kernel : Kernel}
    {hostLoaderId hostRootId : String} {host : HostStore}
    (startable : Startable rule kernel (.create hostLoaderId hostRootId) host) (steps : List Step)
    (careful : CarefulRun rule (.started kernel hostLoaderId hostRootId host) steps)
    (quiet : (World.run rule (.started kernel hostLoaderId hostRootId host) steps).Quiet) :
    ∀ place,
      ((World.run rule (.started kernel hostLoaderId hostRootId host) steps).host.get? place).map
          OrderedDict.get? =
        ((World.run rule (.started kernel hostLoaderId hostRootId host) steps).rerooted place).map
          OrderedDict.get? := by
  have converging := startable.converging.run careful
  generalize World.run rule (.started kernel hostLoaderId hostRootId host) steps = world at *
  obtain ⟨noPersist, noForget, drained⟩ := quiet
  have live {place : Value × Value} {record : Dict} (there : world.host.get? place = some record) :
      ∃ id agent, place = (.str id, .str (world.loader.rewrittenParent agent.parentId)) ∧
        world.kernel.held id = some agent := by
    obtain ⟨id, parentId, isPlace, cover⟩ := converging.covered there
    obtain ⟨agent, held, placed⟩ | dirty | ⟨flight, member, listed⟩ := cover
    · exact ⟨id, agent, by rw [isPlace, placed], held⟩
    · rw [noForget] at dirty
      cases dirty
    · rw [(drained flight member).2] at listed
      cases listed
  have stored {id : String} {agent : AgentInit} (held : world.kernel.held id = some agent) :
      ∃ record, world.host.get? (.str id, .str (world.loader.rewrittenParent agent.parentId)) =
        some record ∧ record.get? = (world.loader.sentRecord agent).get? := by
    cases converging.current held with
    | inr there => exact there
    | inl pending =>
      obtain dirty | ⟨flight, member, listed⟩ := pending
      · rw [noPersist] at dirty
        cases dirty
      · rw [(drained flight member).1] at listed
        cases listed
  intro place
  cases there : world.host.get? place with
  | some record =>
    obtain ⟨id, agent, rfl, held⟩ := live there
    obtain ⟨other, otherThere, same⟩ := stored held
    rw [there, Option.some.injEq] at otherThere
    simp [World.rerooted, held, otherThere, same]
  | none =>
    cases shown : world.rerooted place with
    | none => rfl
    | some record =>
      unfold World.rerooted at shown
      split at shown
      case h_2 => cases shown
      case h_1 id parentId =>
        split at shown
        case h_1 => cases shown
        case h_2 agent held =>
          split at shown
          case isFalse => cases shown
          case isTrue placed =>
            obtain ⟨other, otherThere, -⟩ := stored held
            rw [placed, there] at otherThere
            cases otherThere

/-! ### A note that moves -/

/-- An agent with nothing but its place. -/
def bareInit (id : String) (parentId : Option String) : AgentInit where
  id := id
  handlerModule := none
  parentId := parentId
  metadata := .empty

/-- A canvas with a box and a note on it. -/
def canvasKernel : Kernel :=
  ((((Kernel.register { agents := .empty, rootId := some "canvas" } (bareInit "canvas" none)).1.register
    (bareInit "box" (some "canvas"))).1).register (bareInit "note" (some "canvas"))).1

def canvasWorld : World :=
  .started canvasKernel "web_loader" "session" .empty

theorem canvas_startable (rule : HostRule) :
    Startable rule canvasKernel (.create "web_loader" "session") .empty := by
  constructor
  · intro id agent held
    simp only [canvasKernel, Kernel.held_register] at held
    split at held
    case isTrue same =>
      cases held
      exact ⟨same.symm, rfl⟩
    case isFalse =>
      split at held
      case isTrue same =>
        cases held
        exact ⟨same.symm, rfl⟩
      case isFalse =>
        split at held
        case isTrue same =>
          cases held
          exact ⟨same.symm, rfl⟩
        case isFalse => cases held
  · intro place record there
    cases there

/-- The first flush sends the whole tree. -/
def firstFlush : List Step :=
  [.flush, .advance 0, .advance 0, .advance 0]

/-- The note is taken off the canvas and put in the box, and then flushed. -/
def movedAtOnce : List Step :=
  firstFlush ++ [.remove "note", .register (bareInit "note" (some "box")), .flush, .advance 1]

/-- The same with a flush in between. -/
def movedSlowly : List Step :=
  firstFlush ++ [.remove "note", .fire, .advance 1, .register (bareInit "note" (some "box")),
    .fire, .advance 2]

/-- The host keeps the note at its old place for good. -/
theorem moved_note_stays_behind :
    Startable .replace canvasKernel (.create "web_loader" "session") .empty ∧
      (canvasWorld.run .replace movedAtOnce).Quiet ∧
      ¬∀ place, ((canvasWorld.run .replace movedAtOnce).host.get? place).map OrderedDict.get? =
        ((canvasWorld.run .replace movedAtOnce).rerooted place).map OrderedDict.get? := by
  refine ⟨canvas_startable _, ⟨?_, ?_, ?_⟩, ?_⟩
  · exact OrderedDict.ext_entries rfl
  · exact OrderedDict.ext_entries rfl
  · decide
  · intro same
    have shown := congrArg Option.isSome (same (.str "note", .str "canvas"))
    revert shown
    simp only [Option.isSome_map]
    decide

theorem movedSlowly_careful : CarefulRun .merge canvasWorld movedSlowly := by
  refine ⟨trivial, ?_, ?_, ?_, ?_, trivial, ?_, ?_, trivial, ?_, trivial⟩
  · intro flight running
    cases running
    exact fun _ => rfl
  · intro flight running
    cases running
    exact fun _ => rfl
  · intro flight running
    cases running
    exact fun _ => rfl
  · exact fun _ => rfl
  · intro flight running
    cases running
    refine ⟨rfl, ?_⟩
    intro live
    obtain ⟨agent, held, -⟩ := live
    cases held
  · refine ⟨rfl, by decide, rfl, ?_⟩
    intro parentId record there
    have places : (canvasWorld.run .merge (firstFlush ++ [.remove "note", .fire,
        .advance 1])).host.keys =
        [(.str "canvas", .str "session"), (.str "box", .str "canvas")] :=
      rfl
    have listed : ((Value.str "note", Value.str parentId) : Value × Value) ∈
        (canvasWorld.run .merge (firstFlush ++ [.remove "note", .fire, .advance 1])).host.keys :=
      OrderedDict.mem_keys_iff.mpr ⟨record, there⟩
    rw [places] at listed
    simp at listed
  · intro flight running
    cases running
    exact fun _ => rfl

theorem moved_note_arrives :
    Startable .merge canvasKernel (.create "web_loader" "session") .empty ∧
      CarefulRun .merge canvasWorld movedSlowly ∧ (canvasWorld.run .merge movedSlowly).Quiet ∧
      ∀ place, ((canvasWorld.run .merge movedSlowly).host.get? place).map OrderedDict.get? =
        ((canvasWorld.run .merge movedSlowly).rerooted place).map OrderedDict.get? := by
  have quiet : (canvasWorld.run .merge movedSlowly).Quiet := by
    refine ⟨?_, ?_, ?_⟩
    · exact OrderedDict.ext_entries rfl
    · exact OrderedDict.ext_entries rfl
    · decide
  exact ⟨canvas_startable _, movedSlowly_careful, quiet,
    careful_run_converges (canvas_startable _) movedSlowly movedSlowly_careful quiet⟩

end Fantastic.Ts

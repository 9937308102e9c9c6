import Fantastic.Foundation.Value

/-!
# The frontend kernel's registry

The tree half of `ts/src/kernel/kernel.ts` and `agent.ts`: `register`, `updateMeta`,
`remove` and the lifecycle events they publish. Agents are new objects when they are
registered. An agent's children are kept as ids: `remove` looks every child up in the
registry again. Handlers, inboxes and watchers are left out: no function here reads them.
-/

namespace Fantastic.Ts

/-- What `new Agent(init)` keeps of its argument. -/
structure AgentInit where
  id : String
  handlerModule : Option String
  parentId : Option String
  metadata : Dict

structure Agent extends AgentInit where
  /-- The keys of the `children` map, in order of insertion. -/
  children : List String

inductive StateEvent where
  | added (agentId name parentId : String)
  | updated (agentId : String) (changed : List String)
  | removed (agentId name : String)
  deriving DecidableEq

namespace AgentInit

def displayName (agent : AgentInit) : String :=
  match agent.metadata.get? "display_name" with
  | some (.str text) => text
  | _ => agent.id

/-- `record()`: the meta is assigned last. -/
def record (agent : AgentInit) : Dict :=
  let named : Dict := OrderedDict.empty.insert "id" (.str agent.id)
  let handled :=
    match agent.handlerModule with
    | none => named
    | some handlerModule => named.insert "handler_module" (.str handlerModule)
  let placed :=
    match agent.parentId with
    | none => handled
    | some parentId => handled.insert "parent_id" (.str parentId)
  placed.update agent.metadata

theorem record_id {agent : AgentInit} (noId : agent.metadata.get? "id" = none) :
    agent.record.get? "id" = some (.str agent.id) := by
  unfold record
  rw [OrderedDict.get?_update, noId, Option.none_or]
  cases agent.handlerModule <;> cases agent.parentId <;> simp [OrderedDict.get?_insert]

end AgentInit

structure Kernel where
  agents : OrderedDict String Agent
  rootId : Option String

namespace Kernel

/-- The registered agent of an id, without its children. -/
def held (kernel : Kernel) (id : String) : Option AgentInit :=
  (kernel.agents.get? id).map Agent.toAgentInit

/-- Change the children of a registered agent. -/
def withChildren (kernel : Kernel) (id : String) (change : List String → List String) : Kernel :=
  match kernel.agents.get? id with
  | none => kernel
  | some agent =>
    { kernel with
      agents := kernel.agents.insert id { agent with children := change agent.children } }

theorem held_withChildren (kernel : Kernel) (id : String) (change : List String → List String)
    (other : String) : (kernel.withChildren id change).held other = kernel.held other := by
  unfold withChildren held
  cases found : kernel.agents.get? id with
  | none => rfl
  | some agent =>
    simp only [OrderedDict.get?_insert]
    by_cases same : other = id
    · simp [same, found]
    · simp [same]

/-- `register(new Agent(init))`. The root, without a parent, publishes nothing. -/
def register (kernel : Kernel) (init : AgentInit) : Kernel × List StateEvent :=
  let added : Kernel :=
    { kernel with agents := kernel.agents.insert init.id { init with children := [] } }
  match init.parentId with
  | none => (added, [])
  | some parentId =>
    (added.withChildren parentId fun children =>
      if init.id ∈ children then children else children ++ [init.id],
      [.added init.id init.displayName parentId])

theorem held_register (kernel : Kernel) (init : AgentInit) (id : String) :
    (kernel.register init).1.held id = if id = init.id then some init else kernel.held id := by
  have added : Kernel.held { kernel with
      agents := kernel.agents.insert init.id { init with children := [] } } id =
        if id = init.id then some init else kernel.held id := by
    unfold held
    simp only [OrderedDict.get?_insert]
    split <;> rfl
  unfold register
  cases init.parentId with
  | none => exact added
  | some parentId =>
    simp only [held_withChildren]
    exact added

/-- `updateMeta(id, patch)`. -/
def updateMeta (kernel : Kernel) (id : String) (patch : Dict) : Kernel × List StateEvent :=
  match kernel.agents.get? id with
  | none => (kernel, [])
  | some agent =>
    ({ kernel with
        agents := kernel.agents.insert id
          { agent with metadata := agent.metadata.update patch } },
      [.updated id patch.keys])

theorem held_updateMeta (kernel : Kernel) (id : String) (patch : Dict) (other : String) :
    (kernel.updateMeta id patch).1.held other =
      if other = id then
        (kernel.held id).map fun agent =>
          { agent with metadata := agent.metadata.update patch }
      else kernel.held other := by
  unfold updateMeta held
  cases found : kernel.agents.get? id with
  | none =>
    simp only [Option.map_none]
    split
    case isTrue same => rw [same, found, Option.map_none]
    case isFalse => rfl
  | some agent =>
    simp only [OrderedDict.get?_insert]
    by_cases same : other = id <;> simp [same]

/-- The last lines of `remove`, once the children are gone. -/
def removeOne (kernel : Kernel) (id : String) (parentId : Option String) : Kernel :=
  let gone : Kernel := { kernel with agents := kernel.agents.erase id }
  match parentId with
  | none => gone
  | some above => gone.withChildren above fun children => children.erase id

theorem held_removeOne (kernel : Kernel) (id : String) (parentId : Option String)
    (other : String) :
    (kernel.removeOne id parentId).held other = if other = id then none else kernel.held other := by
  have gone : Kernel.held { kernel with agents := kernel.agents.erase id } other =
      if other = id then none else kernel.held other := by
    unfold held
    simp only [OrderedDict.get?_erase]
    split <;> rfl
  unfold removeOne
  cases parentId with
  | none => exact gone
  | some above =>
    simp only [held_withChildren]
    exact gone

/-- What a `remove` has done so far, and whether it comes back. -/
structure Removal where
  kernel : Kernel
  events : List StateEvent
  returns : Bool

/-- One more child, unless an earlier one threw. -/
def Removal.andThen (done : Removal) (call : Kernel → String → Removal) (child : String) :
    Removal :=
  if done.returns then
    let next := call done.kernel child
    ⟨next.kernel, done.events ++ next.events, next.returns⟩
  else done

/-- `remove(id)`, children first. `active` are the ids whose removal is under way further up:
a call on one of them comes round to itself for ever and ends in an exception, so that what
was removed before stays removed and nothing else is. A call that comes back goes no deeper
than there are agents. -/
def removeWithin : Nat → List String → Kernel → String → Removal
  | 0, _, kernel, _ => ⟨kernel, [], false⟩
  | fuel + 1, active, kernel, id =>
    if id ∈ active then ⟨kernel, [], false⟩
    else
      match kernel.agents.get? id with
      | none => ⟨kernel, [], true⟩
      | some agent =>
        let below := agent.children.foldl
          (fun done child => Removal.andThen done (removeWithin fuel (id :: active)) child)
          ⟨kernel, [], true⟩
        if below.returns then
          ⟨below.kernel.removeOne id agent.parentId,
            below.events ++ [.removed id agent.displayName], true⟩
        else below

def remove (kernel : Kernel) (id : String) : Removal :=
  removeWithin (kernel.agents.keys.length + 1) [] kernel id

/-- What holds before the loop over the children and is kept by every turn of it holds
after it. -/
theorem andThen_foldl {call : Kernel → String → Removal} {Holds : Removal → Prop}
    (turn : ∀ done child, Holds done → Holds (done.andThen call child)) (children : List String)
    {done : Removal} (before : Holds done) :
    Holds (children.foldl (fun done child => done.andThen call child) done) := by
  induction children generalizing done with
  | nil => exact before
  | cons child children ih => exact ih (turn done child before)

/-- An agent whose removal is under way is still there. -/
theorem held_removeWithin_active {fuel : Nat} {active : List String} {kernel : Kernel}
    {id other : String} (running : other ∈ active) :
    (removeWithin fuel active kernel id).kernel.held other = kernel.held other := by
  induction fuel generalizing active kernel id with
  | zero => rfl
  | succ fuel ih =>
    unfold removeWithin
    split
    case isTrue => rfl
    case isFalse fresh =>
      split
      case h_1 => rfl
      case h_2 agent found =>
        have turn (done : Removal) (child : String)
            (before : done.kernel.held other = kernel.held other) :
            (done.andThen (removeWithin fuel (id :: active)) child).kernel.held other =
              kernel.held other := by
          unfold Removal.andThen
          split
          · exact (ih (List.mem_cons_of_mem _ running)).trans before
          · exact before
        have below := @andThen_foldl (removeWithin fuel (id :: active))
          (fun done => done.kernel.held other = kernel.held other) turn agent.children
          ⟨kernel, [], true⟩ rfl
        simp only
        split
        · have different : other ≠ id := by
            intro same
            exact fresh (same ▸ running)
          rw [held_removeOne, if_neg different]
          exact below
        · exact below

/-- The `"kernel"` alias. -/
def resolve (kernel : Kernel) (targetId : String) : String :=
  if targetId = "kernel" then kernel.rootId.getD targetId else targetId

/-- Whether `send` takes a target over the bridge. -/
def forwards (kernel : Kernel) (targetId : String) : Bool :=
  !kernel.agents.contains (kernel.resolve targetId)

end Kernel

end Fantastic.Ts

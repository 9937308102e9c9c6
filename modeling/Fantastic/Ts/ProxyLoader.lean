import Fantastic.Ts.Kernel

/-!
# The proxy loader

`ts/src/bundles/loader/proxy_loader.ts`: the frontend kernel's loader, which keeps the host's
copy of the local tree up to date over the bridge. A flush takes the two dirty sets, clears
them, and sends one message after the other; between two sends anything can happen, another
flush included.

The host applies the messages in the order they are sent, each to the location its id and
its parent name. A host either keeps the record it is given or, like `kernel_state`, merges
it over the one it has.
-/

namespace Fantastic.Ts

/-! ### The loader's tables -/

structure ProxyLoader where
  hostLoaderId : String
  hostRootId : String
  dirtyPersist : OrderedDict String Unit
  dirtyForget : OrderedDict String String
  parents : OrderedDict String String
  subscribed : Bool
  /-- A flush is due when the debounce timer fires. -/
  scheduled : Bool

namespace ProxyLoader

/-- The constructor, with the host loader's real id as `loadTree` learned it. -/
def create (hostLoaderId hostRootId : String) : ProxyLoader where
  hostLoaderId := hostLoaderId
  hostRootId := hostRootId
  dirtyPersist := .empty
  dirtyForget := .empty
  parents := .empty
  subscribed := false
  scheduled := false

def rewrittenParent (loader : ProxyLoader) (parentId : Option String) : String :=
  parentId.getD loader.hostRootId

/-- The loop of `start` over the registered agents. -/
def enqueue (loader : ProxyLoader) (agent : AgentInit) : ProxyLoader :=
  { loader with
    parents := loader.parents.insert agent.id (loader.rewrittenParent agent.parentId)
    dirtyPersist := loader.dirtyPersist.insert agent.id () }

def start (loader : ProxyLoader) (kernel : Kernel) : ProxyLoader :=
  if loader.subscribed then loader
  else
    let queued := kernel.agents.items.foldl (fun loader agent => loader.enqueue agent.toAgentInit)
      loader
    { queued with
      subscribed := true
      scheduled := loader.scheduled || decide (queued.dirtyPersist.keys ≠ []) }

/-- `onState` for `added` and `updated`. -/
def touched (loader : ProxyLoader) (kernel : Kernel) (id : String) : ProxyLoader :=
  { loader with
    dirtyForget := loader.dirtyForget.erase id
    dirtyPersist := loader.dirtyPersist.insert id ()
    parents :=
      match kernel.held id with
      | none => loader.parents
      | some agent => loader.parents.insert id (loader.rewrittenParent agent.parentId)
    scheduled := true }

/-- `onState` for `removed`. -/
def lost (loader : ProxyLoader) (id : String) : ProxyLoader :=
  { loader with
    dirtyPersist := loader.dirtyPersist.erase id
    dirtyForget := loader.dirtyForget.insert id ((loader.parents.get? id).getD loader.hostRootId)
    parents := loader.parents.erase id
    scheduled := true }

/-- One event of the local state stream, heard while subscribed. -/
def onState (kernel : Kernel) (loader : ProxyLoader) (event : StateEvent) : ProxyLoader :=
  if !loader.subscribed then loader
  else
    match event with
    | .added id _ _ => loader.touched kernel id
    | .updated id _ => loader.touched kernel id
    | .removed id _ => loader.lost id

/-- The record a flush sends for an agent. -/
def sentRecord (loader : ProxyLoader) (agent : AgentInit) : Dict :=
  agent.record.insert "parent_id" (.str (loader.rewrittenParent agent.parentId))

end ProxyLoader

/-! ### The host -/

inductive HostRule where
  | replace
  | merge
  deriving DecidableEq

/-- What the host keeps when a record comes in. -/
def HostRule.stored (rule : HostRule) (there : Option Dict) (record : Dict) : Dict :=
  match rule with
  | .replace => record
  | .merge => (there.getD .empty).update record

/-- The records of the host, each at the place its id and parent name. -/
abbrev HostStore := OrderedDict (Value × Value) Dict

def location (record : Dict) : Value × Value :=
  ((record.get? "id").getD .null, (record.get? "parent_id").getD .null)

def HostStore.persistRecord (rule : HostRule) (host : HostStore) (record : Dict) : HostStore :=
  OrderedDict.insert host (location record) (rule.stored (host.get? (location record)) record)

def HostStore.forgetRecord (host : HostStore) (id parentId : String) : HostStore :=
  OrderedDict.erase host (.str id, .str parentId)

/-! ### Runs -/

/-- A `flush` that has not finished: what it has still to send. -/
structure Flight where
  persist : List String
  forget : List (String × String)

structure World where
  kernel : Kernel
  loader : ProxyLoader
  flights : List Flight
  host : HostStore

inductive Step where
  | register (init : AgentInit)
  | updateMeta (id : String) (patch : Dict)
  | remove (id : String)
  /-- `flush()` is called. -/
  | flush
  /-- The debounce timer fires. -/
  | fire
  | stop
  /-- A flush goes on to its next id. -/
  | advance (index : Nat)

namespace World

/-- The world after a change of the kernel and the events it published. -/
def heard (world : World) (kernel : Kernel) (events : List StateEvent) : World :=
  { world with
    kernel := kernel
    loader := events.foldl (ProxyLoader.onState kernel) world.loader }

/-- The first lines of `flush`. -/
def beginFlush (world : World) : World :=
  { world with
    loader := { world.loader with dirtyPersist := .empty, dirtyForget := .empty }
    flights := world.flights ++
      [⟨world.loader.dirtyPersist.keys, world.loader.dirtyForget.entries⟩] }

/-- One turn of a flush's loops. A message to a loader id that is local never leaves. -/
def advanceFlight (rule : HostRule) (world : World) (index : Nat) (flight : Flight) : World :=
  match flight.persist, flight.forget with
  | id :: rest, _ =>
    { world with
      flights := world.flights.set index { flight with persist := rest }
      host :=
        match world.kernel.held id with
        | none => world.host
        | some agent =>
          if world.kernel.forwards world.loader.hostLoaderId then
            world.host.persistRecord rule (world.loader.sentRecord agent)
          else world.host }
  | [], (id, parentId) :: rest =>
    { world with
      flights := world.flights.set index { flight with forget := rest }
      host :=
        if world.kernel.forwards world.loader.hostLoaderId then
          world.host.forgetRecord id parentId
        else world.host }
  | [], [] => world

def step (rule : HostRule) (world : World) : Step → World
  | .register init =>
    let registered := world.kernel.register init
    world.heard registered.1 registered.2
  | .updateMeta id patch =>
    let updated := world.kernel.updateMeta id patch
    world.heard updated.1 updated.2
  | .remove id =>
    let removal := world.kernel.remove id
    world.heard removal.kernel removal.events
  | .flush => world.beginFlush
  | .fire =>
    if world.loader.scheduled then
      beginFlush { world with loader := { world.loader with scheduled := false } }
    else world
  | .stop =>
    beginFlush { world with
      loader := { world.loader with subscribed := false, scheduled := false } }
  | .advance index =>
    match world.flights[index]? with
    | none => world
    | some flight => world.advanceFlight rule index flight

def run (rule : HostRule) (world : World) (steps : List Step) : World :=
  steps.foldl (step rule) world

/-- Nothing is dirty and no flush has anything left to send. -/
def Quiet (world : World) : Prop :=
  world.loader.dirtyPersist = .empty ∧ world.loader.dirtyForget = .empty ∧
    ∀ flight ∈ world.flights, flight.persist = [] ∧ flight.forget = []

end World

end Fantastic.Ts

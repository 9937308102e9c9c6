import Fantastic.Ts.Snapshot
import Mathlib.Logic.Function.Basic

/-!
# Watchers and the connections they stand for

The watcher sets of `ts/src/kernel/kernel.ts` and the connection table of
`ts/src/transport/bridge.ts`. `watch` and `unwatch` ask the bridge for the first and the last
watcher of a remote source only, and `register`, `remove` and `load` change the sets, or
which sources are remote, without a word to the bridge. The control endpoint keeps its
socket for calls.

A connection is a number in order of dialing. Of a call this keeps the connection it rides
until it is settled, and of a lifecycle listener the connection it listens on; of an agent,
whether it has a handler. The `Set` of a source is a list without repetitions, empty when
the source has none.
-/

namespace Fantastic.Ts

structure Federation where
  kernel : Kernel
  handled : String → Bool
  watchers : String → List String
  conns : OrderedDict String Nat
  dialed : Nat
  shut : Nat → Bool
  riding : Nat → Option Nat
  calls : Nat
  listening : Nat → Option Nat
  listeners : Nat

/-- `own`: the agent comes with a handler. `settle` and `release` are the end of a call and
of a lifecycle subscription. -/
inductive Operation where
  | register (init : AgentInit) (own : Bool)
  | updateMeta (id : String) (patch : Dict)
  | remove (id : String)
  | load (records : List Dict) (version : Int)
  | watch (src watcher : String)
  | unwatch (src watcher : String)
  | forward (target : String)
  | settle (call : Nat)
  | onLifecycle (endpoint : String)
  | release (listener : Nat)

/-- The ids that a removal took out. -/
def removedIds (events : List StateEvent) : List String :=
  events.filterMap fun event =>
    match event with
    | .removed agentId _ => some agentId
    | _ => none

/-- `handler` of an agent once it is registered. -/
def AgentInit.handledBy (init : AgentInit) (bundles : List String) (own : Bool) : Bool :=
  own ||
    match init.handlerModule with
    | none => false
    | some handlerModule => decide (handlerModule ∈ bundles)

namespace Federation

/-- A kernel with any tree, and a bridge that has dialed nothing. -/
def start (kernel : Kernel) (handled : String → Bool) : Federation where
  kernel := kernel
  handled := handled
  watchers := fun _ => []
  conns := .empty
  dialed := 0
  shut := fun _ => false
  riding := fun _ => none
  calls := 0
  listening := fun _ => none
  listeners := 0

variable (bundles : List String) (control : String)

/-- `local === undefined || local.handler === null`. -/
def isRemote (state : Federation) (id : String) : Bool :=
  match state.kernel.held id with
  | none => true
  | some _ => !state.handled id

/-! ### The bridge -/

def connFor (state : Federation) (endpoint : String) : Federation :=
  match state.conns.get? endpoint with
  | some _ => state
  | none =>
    { state with
      conns := state.conns.insert endpoint state.dialed
      dialed := state.dialed + 1 }

def watchRemote (state : Federation) (src : String) : Federation :=
  state.connFor src

/-- `Conn.close()`: a call that rides the connection is lost. -/
def closeConn (state : Federation) (conn : Nat) : Federation :=
  { state with
    shut := Function.update state.shut conn true
    riding := fun call => if state.riding call = some conn then none else state.riding call }

def unwatchRemote (state : Federation) (src : String) : Federation :=
  if src = control then state
  else
    match state.conns.get? src with
    | none => state
    | some conn => { state.closeConn conn with conns := state.conns.erase src }

/-- A call rides the connection of its target if there is one, else the control one. -/
def forward (state : Federation) (target : String) : Federation :=
  let dialed := if state.conns.contains target then state else state.connFor control
  { dialed with
    riding := Function.update state.riding state.calls
      ((state.conns.get? target).or (dialed.conns.get? control))
    calls := state.calls + 1 }

def onLifecycle (state : Federation) (endpoint : String) : Federation :=
  let dialed := state.connFor endpoint
  { dialed with
    listening := Function.update state.listening state.listeners (dialed.conns.get? endpoint)
    listeners := state.listeners + 1 }

/-! ### The kernel -/

def setWatchers (state : Federation) (id : String) (watchers : List String) : Federation :=
  { state with watchers := Function.update state.watchers id watchers }

def register (state : Federation) (init : AgentInit) (own : Bool) : Federation :=
  { state with
    kernel := (state.kernel.register init).1
    handled := Function.update state.handled init.id (init.handledBy bundles own) }

def remove (state : Federation) (id : String) : Federation :=
  let removal := state.kernel.remove id
  { state with
    kernel := removal.kernel
    watchers := fun src => if src ∈ removedIds removal.events then [] else state.watchers src }

/-- A loaded agent has a handler when it names a bundle. -/
def load (state : Federation) (records : List Dict) (version : Int) : Federation :=
  match Kernel.load bundles records version with
  | .error _ => state
  | .ok loaded =>
    { state with
      kernel := loaded
      handled := fun id => (loaded.held id).any fun agent => agent.handlerModule.isSome
      watchers := fun _ => [] }

def watch (state : Federation) (src watcher : String) : Federation :=
  let id := state.kernel.resolve src
  let present := state.watchers id
  let added :=
    state.setWatchers id (if watcher ∈ present then present else present ++ [watcher])
  if state.isRemote id = true ∧ present = [] then added.watchRemote id else added

def unwatch (state : Federation) (src watcher : String) : Federation :=
  let id := state.kernel.resolve src
  let present := state.watchers id
  if present = [] then state
  else
    let left := present.filter fun other => decide (other ≠ watcher)
    let dropped := state.setWatchers id left
    if left = [] ∧ state.isRemote id = true then dropped.unwatchRemote control id else dropped

def step (state : Federation) : Operation → Federation
  | .register init own => state.register bundles init own
  | .updateMeta id patch => { state with kernel := (state.kernel.updateMeta id patch).1 }
  | .remove id => state.remove id
  | .load records version => state.load bundles records version
  | .watch src watcher => state.watch src watcher
  | .unwatch src watcher => state.unwatch control src watcher
  | .forward target => state.forward control target
  | .settle call => { state with riding := Function.update state.riding call none }
  | .onLifecycle endpoint => state.onLifecycle (state.kernel.resolve endpoint)
  | .release listener => { state with listening := Function.update state.listening listener none }

/-! ### The property and the condition -/

/-- A remote source has a connection exactly when it is watched, and no other source has
one. The control endpoint may keep its own. -/
structure Balanced (state : Federation) : Prop where
  opened : ∀ {src}, state.isRemote src = true → state.watchers src ≠ [] →
    state.conns.contains src = true
  needed : ∀ {src}, src ≠ control → state.conns.contains src = true →
    state.isRemote src = true ∧ state.watchers src ≠ []

/-- No pending call is lost, and no connection that is listened on is closed. -/
def Spares (before after : Federation) : Prop :=
  (∀ call conn, before.riding call = some conn → after.riding call = some conn) ∧
    ∀ listener conn, before.listening listener = some conn → before.shut conn = false →
      after.shut conn = false

/-- The tables agree in every state of the run, and no `unwatch` of it takes anything from
anyone else. -/
def Sound : Federation → List Operation → Prop
  | state, [] => state.Balanced control
  | state, operation :: operations =>
    state.Balanced control ∧
      (∀ src watcher, operation = .unwatch src watcher →
        state.Spares (state.step bundles control operation)) ∧
      Sound (state.step bundles control operation) operations

/-- The watcher is the only one the source has. -/
def isLast (state : Federation) (id watcher : String) : Prop :=
  state.watchers id ≠ [] ∧ (state.watchers id).filter (fun other => decide (other ≠ watcher)) = []

/-- Nobody rides the connection or listens on it. -/
def Idle (state : Federation) (conn : Nat) : Prop :=
  (∀ call, state.riding call ≠ some conn) ∧
    ∀ listener, state.listening listener = some conn → state.shut conn = true

/-- The condition on an operation. A watched source stays remote, or stays local, and is
neither removed nor dropped by a `load` while it has a connection; its last watcher leaves
when nobody else uses the connection; a lifecycle listener joins a connection that is
there. -/
def Careful (state : Federation) : Operation → Prop
  | .register init own => state.watchers init.id ≠ [] →
      if init.handledBy bundles own then init.id = control ∨ state.isRemote init.id = false
      else state.isRemote init.id = true ∨ state.conns.contains init.id = true
  | .remove id => ∀ src ∈ removedIds (state.kernel.remove id).events,
      src = control ∨ state.watchers src = [] ∨ state.isRemote src = false
  | .load records version => (∃ rootId, validateRecords records version = .ok rootId) →
      ∀ src, src ≠ control → state.watchers src = [] ∨ state.isRemote src = false
  | .unwatch src watcher => state.isLast (state.kernel.resolve src) watcher →
      state.isRemote (state.kernel.resolve src) = true → state.kernel.resolve src ≠ control →
        ∀ conn, state.conns.get? (state.kernel.resolve src) = some conn → state.Idle conn
  | .onLifecycle endpoint => state.kernel.resolve endpoint = control ∨
      state.conns.contains (state.kernel.resolve endpoint) = true
  | _ => True

def CarefulRun : Federation → List Operation → Prop
  | _, [] => True
  | state, operation :: operations =>
    state.Careful bundles control operation ∧
      CarefulRun (state.step bundles control operation) operations

end Federation

end Fantastic.Ts

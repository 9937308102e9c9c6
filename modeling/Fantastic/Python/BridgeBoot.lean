import Mathlib.Logic.Function.Basic

/-!
# Boots and teardowns of one Python bridge

`boot`, `_teardown` and `on_delete` of `io_bridge/_engine.py` with the `build_transport` of
`ws_bridge`, cut at their awaits. The state object of a bridge id has one transport, one read
task and one cleanup, and every request works on these three fields. The boots that come past
the check are numbered; the transport, the ssh tunnel and the read loop of a boot carry its
number. Frames, pending calls and rules are left out, and so is what follows the last await
of a boot. A read loop leaves for any reason: its transport, a frame, a cancellation.
-/

namespace Fantastic.Python.Boot

/-- Where a boot is suspended in `build_transport`: in `_open_tunnel`, or in the dial. -/
inductive Build where
  | unborn
  | tunnelling
  | connecting (tunnelled : Bool)
  | built
  | failed
  deriving DecidableEq

/-- `leaving` is the `finally` block up to its `emit`. -/
inductive ReadLoop where
  | unborn
  | spawned
  | reading
  | leaving
  | done
  deriving DecidableEq

def ReadLoop.Running : ReadLoop → Prop
  | .unborn | .done => False
  | .spawned | .reading | .leaving => True

instance : DecidablePred ReadLoop.Running := fun phase =>
  match phase with
  | .unborn | .done => .isFalse id
  | .spawned | .reading | .leaving => .isTrue trivial

/-- What the record makes of a boot: `build_transport` raises before it awaits anything, dials
(`ws`, a relay), or opens a tunnel first (`ssh+ws`). -/
inductive Config where
  | refused
  | plain
  | tunnelled
  deriving DecidableEq

/-- What a teardown is part of: `reconnect`, `on_delete`, or a boot with a bad rule. -/
inductive Purpose where
  | reconnect (config : Config)
  | delete
  | badRule
  deriving DecidableEq

/-- Where a teardown is suspended. -/
inductive Waiting where
  | joining (loop : Nat)
  | closing (transport : Nat)
  | done
  deriving DecidableEq

structure Teardown where
  purpose : Purpose
  waiting : Waiting
  deriving DecidableEq

/-- `transport`, `readTask` and `cleanup` are the fields of `_BridgeState`. `opened` and
`tunnels` say which transports and which ssh processes are there; `deleted` that the cascade
has unregistered the agent. -/
structure State where
  builds : Nat → Build
  begun : Nat
  opened : Nat → Bool
  tunnels : Nat → Bool
  loops : Nat → ReadLoop
  teardowns : Nat → Teardown
  torn : Nat
  transport : Option Nat
  readTask : Option Nat
  cleanup : Option Nat
  deleted : Bool

/-- Requests come in, and suspended tasks go on. `closed` is what the property of an installed
transport says to the check of a boot. -/
inductive Move where
  | boot (config : Config) (closed : Bool)
  | reconnect (config : Config)
  | delete
  | tunnelReady (boot : Nat)
  | tunnelFailed (boot : Nat)
  | dialed (boot : Nat) (validRules : Bool)
  | dialFailed (boot : Nat)
  | loopStarts (loop : Nat)
  | loopLeaves (loop : Nat)
  | loopEnds (loop : Nat)
  | joined (teardown : Nat)
  | closed (teardown : Nat)
  | dropped (transport : Nat)
  deriving DecidableEq

namespace State

def fresh : State where
  builds := fun _ => .unborn
  begun := 0
  opened := fun _ => false
  tunnels := fun _ => false
  loops := fun _ => .unborn
  teardowns := fun _ => { purpose := .badRule, waiting := .done }
  torn := 0
  transport := none
  readTask := none
  cleanup := none
  deleted := false

variable (state : State)

/-- `_kill_tunnel`. -/
def killTunnel (boot : Nat) : State :=
  { state with tunnels := Function.update state.tunnels boot false }

def setBuild (boot : Nat) (build : Build) : State :=
  { state with builds := Function.update state.builds boot build }

def setTeardown (teardown : Nat) (next : Teardown) : State :=
  { state with teardowns := Function.update state.teardowns teardown next }

def setLoop (loop : Nat) (phase : ReadLoop) : State :=
  { state with loops := Function.update state.loops loop phase }

/-- `st.cleanup()` if there is one, and the field is cleared. -/
def runCleanup : State :=
  match state.cleanup with
  | some boot => { state.killTunnel boot with cleanup := none }
  | none => state

/-- A boot up to its first await. The record of an unregistered agent is empty, and no
`build_transport` takes that. -/
def beginBoot (config : Config) (closed : Bool) : State :=
  if state.transport.isSome && !closed then state
  else match config, state.deleted with
    | .plain, false =>
      { state.setBuild state.begun (.connecting false) with begun := state.begun + 1 }
    | .tunnelled, false =>
      { state.setBuild state.begun .tunnelling with
        tunnels := Function.update state.tunnels state.begun true
        begun := state.begun + 1 }
    | _, _ => state.runCleanup

/-- The end of `_teardown`, and what comes after it. -/
def finish (purpose : Purpose) : State :=
  let torn := { state.runCleanup with transport := none, readTask := none }
  match purpose with
  | .reconnect config => torn.beginBoot config false
  | .delete => { torn with deleted := true }
  | .badRule => torn

/-- `_teardown` after the read loop: it closes the transport if there is one. -/
def goOn (teardown : Nat) (purpose : Purpose) : State :=
  match state.transport with
  | some transport =>
    state.setTeardown teardown { purpose := purpose, waiting := .closing transport }
  | none => (state.setTeardown teardown { purpose := purpose, waiting := .done }).finish purpose

/-- The start of `_teardown`: a read task that runs is cancelled and awaited. -/
def beginTeardown (purpose : Purpose) : State :=
  let opened := { state with torn := state.torn + 1 }
  match state.readTask.filter fun loop => decide (state.loops loop).Running with
  | some loop => opened.setTeardown state.torn { purpose := purpose, waiting := .joining loop }
  | none => opened.goOn state.torn purpose

/-- The transport of a boot is installed. With good rules its read loop is spawned, with a bad
one it is torn down. -/
def install (boot : Nat) (validRules : Bool) : State :=
  let placed := { state.setBuild boot .built with
    opened := Function.update state.opened boot true
    transport := some boot }
  if validRules then { placed.setLoop boot .spawned with readTask := some boot }
  else placed.beginTeardown .badRule

/-- The except blocks of a failing boot: that of `build_transport` kills its own tunnel and
clears the field, that of `boot` runs the cleanup it finds. -/
def dialFailed (boot : Nat) : State :=
  match state.builds boot with
  | .connecting true =>
    { (state.setBuild boot .failed).killTunnel boot with cleanup := none }
  | .connecting false => (state.setBuild boot .failed).runCleanup
  | _ => state

def step (state : State) : Move → State
  | .boot config closed => if state.deleted then state else state.beginBoot config closed
  | .reconnect config =>
    if state.deleted then state else state.beginTeardown (.reconnect config)
  | .delete => if state.deleted then state else state.beginTeardown .delete
  | .tunnelReady boot =>
    if state.builds boot = .tunnelling then
      { state.setBuild boot (.connecting true) with cleanup := some boot }
    else state
  | .tunnelFailed boot =>
    if state.builds boot = .tunnelling then
      ((state.setBuild boot .failed).killTunnel boot).runCleanup
    else state
  | .dialed boot validRules =>
    match state.builds boot with
    | .connecting _ => state.install boot validRules
    | _ => state
  | .dialFailed boot => state.dialFailed boot
  | .loopStarts loop =>
    if state.loops loop = .spawned then
      state.setLoop loop (if state.transport.isSome then .reading else .done)
    else state
  | .loopLeaves loop =>
    if state.loops loop = .reading then state.setLoop loop .leaving else state
  | .loopEnds loop =>
    if state.loops loop = .spawned ∨ state.loops loop = .leaving then state.setLoop loop .done
    else state
  | .joined teardown =>
    match (state.teardowns teardown).waiting with
    | .joining loop =>
      if (state.loops loop).Running then state
      else state.goOn teardown (state.teardowns teardown).purpose
    | _ => state
  | .closed teardown =>
    match (state.teardowns teardown).waiting with
    | .closing transport =>
      let closed := state.setTeardown teardown
        { purpose := (state.teardowns teardown).purpose, waiting := .done }
      { closed with opened := Function.update state.opened transport false }.finish
        (state.teardowns teardown).purpose
    | _ => state
  | .dropped transport =>
    { state with opened := Function.update state.opened transport false }

end State

end Fantastic.Python.Boot

import Mathlib.Logic.Function.Basic

/-!
# The lives of a bridge's read loops

`boot_reply`, `shutdown_reply`, `forward_core` and `read_loop` of `fantastic-bridge` for one
agent id, cut wherever another task can run; `reconnect_reply` is a shutdown and then a boot.
A generation is one `BridgeState` with the task of its read loop. The entry of `BRIDGES`, the
loop and the teardown are three separate facts here as in the code. What the frames say is
left out, and a transport may fail a receive or a send at any time: a receive also fails on a
frame that cannot be decoded, which leaves the socket open.
-/

namespace Fantastic.Rust.Life

/-- `closing` is the emit of `bridge_down` between the loop and its drain. -/
inductive Loop where
  | running
  | closing
  | ended
  deriving DecidableEq

/-- How far the `shutdown_reply` that took this state has come. -/
inductive Teardown where
  | idle
  | removed
  | aborted
  | drained
  deriving DecidableEq

structure Generation where
  loop : Loop
  teardown : Teardown
  pending : List Nat

/-- `held` has looked the state up, `inserted` is in its table, `waiting` has sent. -/
inductive Phase where
  | held
  | inserted
  | waiting
  | returned
  deriving DecidableEq

/-- `late` records that the loop of the state was no longer running at the lookup. -/
structure Forward where
  generation : Nat
  phase : Phase
  late : Bool

/-- `dialing` counts the boots between their check and their transport. `misled` records
that a boot has answered `already` for a state whose loop was not running. -/
structure State where
  generations : Nat → Generation
  built : Nat
  dialing : Nat
  unpublished : List Nat
  current : Option Nat
  forwards : Nat → Option Forward
  begun : Nat
  misled : Bool

def State.fresh : State where
  generations := fun _ => { loop := .ended, teardown := .idle, pending := [] }
  built := 0
  dialing := 0
  unpublished := []
  current := none
  forwards := fun _ => none
  begun := 0
  misled := false

inductive Step where
  | bootCheck
  | bootFail
  | bootBuild
  | publish (generation : Nat)
  | shutdown
  | abort (generation : Nat)
  | drain (generation : Nat)
  | loopClosed (generation : Nat)
  | loopDrained (generation : Nat)
  | loopAborted (generation : Nat)
  | start
  | insert (index : Nat)
  | sent (index : Nat)
  | sendFailed (index : Nat)
  | deliver (index : Nat)
  | returned (index : Nat)

namespace State

variable (state : State)

def setGeneration (generation : Nat) (next : Generation) : State :=
  { state with generations := Function.update state.generations generation next }

def setForward (index : Nat) (next : Forward) : State :=
  { state with forwards := Function.update state.forwards index (some next) }

/-- The slot of a forward is taken out of the table of its state. -/
def removePending (generation index : Nat) : State :=
  state.setGeneration generation
    { state.generations generation with
      pending := (state.generations generation).pending.filter (· ≠ index) }

/-- The check of `boot_reply`: an entry answers `already`. -/
def bootCheck : State :=
  match state.current with
  | some generation =>
    { state with
      misled := state.misled || decide ((state.generations generation).loop ≠ .running) }
  | none => { state with dialing := state.dialing + 1 }

/-- The transport is there: the state is made and its loop spawned. -/
def bootBuild : State :=
  if state.dialing = 0 then state
  else
    { state with
      dialing := state.dialing - 1
      generations := Function.update state.generations state.built
        { loop := .running, teardown := .idle, pending := [] }
      built := state.built + 1
      unpublished := state.unpublished ++ [state.built] }

def publish (generation : Nat) : State :=
  if generation ∈ state.unpublished then
    { state with
      unpublished := state.unpublished.filter (· ≠ generation)
      current := some generation }
  else state

/-- `shutdown_reply` takes the entry. -/
def shutdown : State :=
  match state.current with
  | some generation =>
    { state.setGeneration generation
        { state.generations generation with teardown := .removed } with current := none }
  | none => state

/-- `task.abort()`: the task is dropped when it is next scheduled. -/
def abort (generation : Nat) : State :=
  if (state.generations generation).teardown = .removed then
    state.setGeneration generation { state.generations generation with teardown := .aborted }
  else state

/-- The end of `shutdown_reply`, after the transport was closed. -/
def drain (generation : Nat) : State :=
  if (state.generations generation).teardown = .aborted then
    state.setGeneration generation
      { state.generations generation with teardown := .drained, pending := [] }
  else state

/-- `recv_frame` has failed. -/
def loopClosed (generation : Nat) : State :=
  if (state.generations generation).loop = .running then
    state.setGeneration generation { state.generations generation with loop := .closing }
  else state

/-- The end of `read_loop`. -/
def loopDrained (generation : Nat) : State :=
  if (state.generations generation).loop = .closing then
    state.setGeneration generation
      { state.generations generation with loop := .ended, pending := [] }
  else state

/-- An aborted task is dropped where it waits. -/
def loopAborted (generation : Nat) : State :=
  match (state.generations generation).teardown with
  | .aborted | .drained =>
    state.setGeneration generation { state.generations generation with loop := .ended }
  | _ => state

/-- `forward_core` looks the state up; without one it returns an error. -/
def start : State :=
  let forward : Forward := match state.current with
    | some generation =>
      { generation := generation
        phase := .held
        late := decide ((state.generations generation).loop ≠ .running) }
    | none => { generation := 0, phase := .returned, late := true }
  { state.setForward state.begun forward with begun := state.begun + 1 }

def insert (index : Nat) : State :=
  match state.forwards index with
  | some forward =>
    if forward.phase = .held then
      (state.setGeneration forward.generation
        { state.generations forward.generation with
          pending := index :: (state.generations forward.generation).pending }).setForward index
            { forward with phase := .inserted }
    else state
  | none => state

def sent (index : Nat) : State :=
  match state.forwards index with
  | some forward =>
    if forward.phase = .inserted then state.setForward index { forward with phase := .waiting }
    else state
  | none => state

def sendFailed (index : Nat) : State :=
  match state.forwards index with
  | some forward =>
    if forward.phase = .inserted then
      (state.removePending forward.generation index).setForward index
        { forward with phase := .returned }
    else state
  | none => state

/-- The running loop of its state has a reply or an error for the forward. -/
def deliver (index : Nat) : State :=
  match state.forwards index with
  | some forward =>
    if (state.generations forward.generation).loop = .running then
      state.removePending forward.generation index
    else state
  | none => state

/-- A waiting forward returns: it was answered, or its time is up and it takes its slot. -/
def returned (index : Nat) : State :=
  match state.forwards index with
  | some forward =>
    if forward.phase = .waiting then
      (state.removePending forward.generation index).setForward index
        { forward with phase := .returned }
    else state
  | none => state

def step : Step → State
  | .bootCheck => state.bootCheck
  | .bootFail => { state with dialing := state.dialing - 1 }
  | .bootBuild => state.bootBuild
  | .publish generation => state.publish generation
  | .shutdown => state.shutdown
  | .abort generation => state.abort generation
  | .drain generation => state.drain generation
  | .loopClosed generation => state.loopClosed generation
  | .loopDrained generation => state.loopDrained generation
  | .loopAborted generation => state.loopAborted generation
  | .start => state.start
  | .insert index => state.insert index
  | .sent index => state.sent index
  | .sendFailed index => state.sendFailed index
  | .deliver index => state.deliver index
  | .returned index => state.returned index

def run : List Step → State → State
  | [], state => state
  | step :: rest, state => run rest (state.step step)

end State

end Fantastic.Rust.Life

import Fantastic.Foundation.OrderedDict
import Mathlib.Logic.Function.Basic

/-!
# The bridge engine, step by step

`io_bridge/_engine.py`: `boot`, `_teardown`, `_read_loop` and `_forward`, cut at the
points where another task can run. One bridge id has one state object, and that object
outlives its transports: the pending table and the counter go from one transport to the
next. A read loop holds the transport it found when it started.

A correlation id is the bridge's id and a number; the number stands for it. A frame keeps
of its content what the loop branches on. A transport has a flag `ended`, from when on its
`recv` and `send` raise, and a flag `closed`, the property of that name, which may say so
later.
-/

namespace Fantastic.Python.Engine

structure Transport where
  ended : Bool
  closed : Bool
  deriving DecidableEq

/-- Where a read loop stands. `leaving` is the `finally` block, up to its `emit`. -/
inductive LoopPhase where
  | spawned
  | reading (transport : Nat)
  | dispatching (transport : Nat)
  | replying (transport : Nat)
  | emitting (transport : Nat)
  | leaving (transport : Nat)
  | done
  deriving DecidableEq

/-- The transport a loop holds. -/
def LoopPhase.holds : LoopPhase → Option Nat
  | .spawned | .done => none
  | .reading transport | .dispatching transport | .replying transport | .emitting transport
  | .leaving transport => some transport

/-- `cancelled`: `task.cancel()` was called and the exception is not delivered yet. -/
structure ReadLoop where
  phase : LoopPhase
  cancelled : Bool
  deriving DecidableEq

inductive Future where
  | unsettled
  | settled
  deriving DecidableEq

/-- Where a `forward` stands; `abandoned` when its caller was cancelled. -/
inductive ForwardPhase where
  | sending
  | waiting
  | returned
  | abandoned
  deriving DecidableEq

structure Forward where
  transport : Nat
  corr : Nat
  phase : ForwardPhase
  future : Future
  deriving DecidableEq

/-- Where a `_teardown` stands: waiting for the cancelled loop, before `close()`, after. -/
inductive TeardownPhase where
  | joining (loop : Nat)
  | closing
  | finishing
  | done
  deriving DecidableEq

/-- `target` is the transport the teardown began with, which no code reads. -/
structure Teardown where
  target : Option Nat
  phase : TeardownPhase
  deriving DecidableEq

/-- What the loop branches on. A malformed frame is no dictionary, or has an id that
cannot be a key; the loop dies of it. -/
inductive Frame where
  | call (allowed : Bool)
  | reply (corr : Nat)
  | error (corr : Nat)
  | event
  | other
  | malformed
  deriving DecidableEq

/-- The state object of one bridge, with every task that works on it. -/
structure State where
  transports : Nat → Transport
  built : Nat
  loops : Nat → ReadLoop
  spawned : Nat
  forwards : Nat → Forward
  begun : Nat
  teardowns : Nat → Teardown
  torn : Nat
  dialing : Nat
  transport : Option Nat
  readTask : Option Nat
  pending : OrderedDict Nat Nat
  corrCounter : Nat

/-- Every place where a task of the bridge, its peer or its callers moves on. -/
inductive Move where
  | bootCheck
  | bootFail
  | publish (validRules : Bool)
  | start (loop : Nat)
  | receive (loop : Nat) (frame : Frame)
  | recvClosed (loop : Nat)
  | dispatched (loop : Nat)
  | replied (loop : Nat)
  | replyFailed (loop : Nat)
  | emitted (loop : Nat)
  | drain (loop : Nat)
  | cancel (loop : Nat)
  | peerEnd (transport : Nat)
  | notice (transport : Nat)
  | teardown
  | join (teardown : Nat)
  | close (teardown : Nat)
  | finish (teardown : Nat)
  | forward
  | sent (forward : Nat)
  | sendFail (forward : Nat)
  | timeout (forward : Nat)
  | collect (forward : Nat)
  | abandon (forward : Nat)
  deriving DecidableEq

namespace State

def fresh : State where
  transports := fun _ => { ended := false, closed := false }
  built := 0
  loops := fun _ => { phase := .done, cancelled := false }
  spawned := 0
  forwards := fun _ => { transport := 0, corr := 0, phase := .returned, future := .unsettled }
  begun := 0
  teardowns := fun _ => { target := none, phase := .done }
  torn := 0
  dialing := 0
  transport := none
  readTask := none
  pending := .empty
  corrCounter := 0

def setLoop (state : State) (loop : Nat) (next : ReadLoop) : State :=
  { state with loops := Function.update state.loops loop next }

/-- The loop goes on, with nothing delivered to it. -/
def moveLoop (state : State) (loop : Nat) (phase : LoopPhase) : State :=
  state.setLoop loop { phase := phase, cancelled := false }

def setTransport (state : State) (transport : Nat) (next : Transport) : State :=
  { state with transports := Function.update state.transports transport next }

def setForward (state : State) (forward : Nat) (next : Forward) : State :=
  { state with forwards := Function.update state.forwards forward next }

def setTeardown (state : State) (teardown : Nat) (next : Teardown) : State :=
  { state with teardowns := Function.update state.teardowns teardown next }

/-- `st.transport is not None and not st.transport.closed`. -/
def connected (state : State) : Option Nat :=
  state.transport.filter fun transport => !(state.transports transport).closed

/-- `fut.set_result` or `fut.set_exception`, unless the future is done. An abandoned
forward has cancelled its future. -/
def settle (forward : Forward) : Forward :=
  if forward.phase = .abandoned then forward else { forward with future := .settled }

/-- Fail every pending future and clear the table. -/
def failPending (state : State) : State :=
  { state with
    forwards := fun forward =>
      if forward ∈ state.pending.items then settle (state.forwards forward)
      else state.forwards forward
    pending := .empty }

/-- `st.pending.pop(id, None)`, and the result for its future. -/
def resolve (state : State) (corr : Nat) : State :=
  match state.pending.get? corr with
  | none => state
  | some forward =>
    { state.setForward forward (settle (state.forwards forward)) with
      pending := state.pending.erase corr }

/-- The start of `_teardown`: cancel the read task if it runs. -/
def beginTeardown (state : State) : State :=
  let opened (phase : TeardownPhase) : State :=
    { state.setTeardown state.torn { target := state.transport, phase := phase } with
      torn := state.torn + 1 }
  match state.readTask with
  | none => opened .closing
  | some loop =>
    if (state.loops loop).phase = .done then opened .closing
    else (opened (.joining loop)).setLoop loop { state.loops loop with cancelled := true }

/-- The end of `boot`: the transport is in place, and its read loop is spawned. With a bad
rule it is torn down instead. -/
def publish (state : State) (validRules : Bool) : State :=
  let placed : State :=
    { state.setTransport state.built { ended := false, closed := false } with
      dialing := state.dialing - 1
      built := state.built + 1
      transport := some state.built }
  if validRules then
    { placed.setLoop placed.spawned { phase := .spawned, cancelled := false } with
      spawned := placed.spawned + 1
      readTask := some placed.spawned }
  else placed.beginTeardown

/-- One frame in a read loop. -/
def receive (state : State) (loop transport : Nat) : Frame → State
  | .call true => state.moveLoop loop (.dispatching transport)
  | .call false => state.moveLoop loop (.replying transport)
  | .reply corr => state.resolve corr
  | .error corr => state.resolve corr
  | .event => state.moveLoop loop (.emitting transport)
  | .other => state
  | .malformed => state.moveLoop loop (.leaving transport)

/-- A `forward` up to its `send`. -/
def forward (state : State) : State :=
  match state.connected with
  | none => state
  | some transport =>
    let corr := state.corrCounter + 1
    { state.setForward state.begun
        { transport := transport, corr := corr, phase := .sending, future := .unsettled } with
      begun := state.begun + 1
      corrCounter := corr
      pending := state.pending.insert corr state.begun }

/-- The phase of a loop that nothing was delivered to. -/
def running (state : State) (loop : Nat) : LoopPhase :=
  if (state.loops loop).cancelled then .done else (state.loops loop).phase

/-- The cancellation arrives: before the first step, in the body, or in the `finally`. -/
def deliverCancel (state : State) (loop : Nat) : State :=
  if (state.loops loop).cancelled then
    match (state.loops loop).phase with
    | .done => state
    | .spawned | .leaving _ => state.moveLoop loop .done
    | .reading transport | .dispatching transport | .replying transport | .emitting transport =>
      state.moveLoop loop (.leaving transport)
  else state

def step (state : State) : Move → State
  | .bootCheck =>
    if state.connected.isSome then state else { state with dialing := state.dialing + 1 }
  | .bootFail => { state with dialing := state.dialing - 1 }
  | .publish validRules => if state.dialing = 0 then state else state.publish validRules
  | .start loop =>
    match state.running loop with
    | .spawned =>
      match state.transport with
      | none => state.moveLoop loop .done
      | some transport => state.moveLoop loop (.reading transport)
    | _ => state
  | .receive loop frame =>
    match state.running loop with
    | .reading transport => state.receive loop transport frame
    | _ => state
  | .recvClosed loop =>
    match state.running loop with
    | .reading transport =>
      if (state.transports transport).ended then state.moveLoop loop (.leaving transport)
      else state
    | _ => state
  | .dispatched loop =>
    match state.running loop with
    | .dispatching transport => state.moveLoop loop (.replying transport)
    | _ => state
  | .replied loop =>
    match state.running loop with
    | .replying transport => state.moveLoop loop (.reading transport)
    | _ => state
  | .replyFailed loop =>
    match state.running loop with
    | .replying transport => state.moveLoop loop (.leaving transport)
    | _ => state
  | .emitted loop =>
    match state.running loop with
    | .emitting transport => state.moveLoop loop (.reading transport)
    | _ => state
  | .drain loop =>
    match state.running loop with
    | .leaving _ => (state.moveLoop loop .done).failPending
    | _ => state
  | .cancel loop => state.deliverCancel loop
  | .peerEnd transport =>
    state.setTransport transport { state.transports transport with ended := true }
  | .notice transport =>
    if (state.transports transport).ended then
      state.setTransport transport { state.transports transport with closed := true }
    else state
  | .teardown => state.beginTeardown
  | .join teardown =>
    match (state.teardowns teardown).phase with
    | .joining loop =>
      if (state.loops loop).phase = .done then
        state.setTeardown teardown { state.teardowns teardown with phase := .closing }
      else state
    | _ => state
  | .close teardown =>
    if (state.teardowns teardown).phase = .closing then
      let next := state.setTeardown teardown { state.teardowns teardown with phase := .finishing }
      match state.transport with
      | none => next
      | some transport =>
        next.setTransport transport { state.transports transport with ended := true }
    else state
  | .finish teardown =>
    if (state.teardowns teardown).phase = .finishing then
      { (state.setTeardown teardown
          { state.teardowns teardown with phase := .done }).failPending with
        transport := none
        readTask := none }
    else state
  | .forward => state.forward
  | .sent forward =>
    if (state.forwards forward).phase = .sending then
      state.setForward forward { state.forwards forward with phase := .waiting }
    else state
  | .sendFail forward =>
    if (state.forwards forward).phase = .sending then
      { state.setForward forward { state.forwards forward with phase := .returned } with
        pending := state.pending.erase (state.forwards forward).corr }
    else state
  | .timeout forward =>
    if (state.forwards forward).phase = .waiting ∧
        (state.forwards forward).future = .unsettled then
      { state.setForward forward { state.forwards forward with phase := .returned } with
        pending := state.pending.erase (state.forwards forward).corr }
    else state
  | .collect forward =>
    if (state.forwards forward).phase = .waiting ∧
        (state.forwards forward).future = .settled then
      state.setForward forward { state.forwards forward with phase := .returned }
    else state
  | .abandon forward =>
    if (state.forwards forward).phase = .sending ∨ (state.forwards forward).phase = .waiting then
      state.setForward forward { state.forwards forward with phase := .abandoned }
    else state

def run (state : State) (moves : List Move) : State :=
  moves.foldl step state

end State

end Fantastic.Python.Engine

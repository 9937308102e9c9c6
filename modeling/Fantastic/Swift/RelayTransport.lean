import Mathlib.Logic.Function.Basic

/-!
# The Swift relay transport and its socket

`RelayTransport` of `Relay.swift`, from the moment `finishBoot` has started its tasks. A
step is what the actor runs between two `await`s. The one field `client` is set by the
receive loop after a dial and cleared by the loop, by every failing sender and by `close`.
Sockets are numbered in the order they were dialed. What travels on them is left out, and
so are the sends that clear nothing (heartbeats, `setIdentity`, `unwatchDirectory`); a
request is in one of the three pending tables while it waits.
-/

namespace Fantastic.Swift.Relay

/-- What sends: `forward`, `binaryForward`, `relayRequest`, and the senders that wait for
nothing (a reply to an inbound call, `watchRemote`, `unwatchRemote`). -/
inductive Kind where
  | forward
  | binaryForward
  | directory
  | plain
  deriving DecidableEq

inductive Phase where
  | sending
  | waiting
  | done
  deriving DecidableEq

/-- One send under way or answered, with the socket it took from `client`. -/
structure Request where
  kind : Kind
  socket : Nat
  phase : Phase
  deriving DecidableEq

/-- Where `receiveLoop` is suspended. `trapped` is the unwrapping of a nil `client`. -/
inductive Loop where
  | created
  | sleeping
  | dialing
  | announcing
  | receiving (socket : Nat)
  | handling
  | ended
  | trapped
  deriving DecidableEq

/-- `heals` is `reconnectSecs > 0`, `dialer` that there is one, and `identity` that there is
something to announce. `clobbered` records that a failing send cleared a socket other than
its own, and `returned` that a call of `close` has returned. -/
structure State where
  heals : Bool
  dialer : Bool
  identity : Bool
  open' : Bool
  client : Option Nat
  dialed : Nat
  loop : Loop
  requests : Nat → Option Request
  count : Nat
  closing : Bool
  clobbered : Bool
  returned : Bool

/-- After `finishBoot`; the first dial may have failed. -/
def State.booted (heals dialer identity connected : Bool) : State where
  heals := heals
  dialer := dialer
  identity := identity
  open' := true
  client := if connected then some 0 else none
  dialed := 1
  loop := .created
  requests := fun _ => none
  count := 0
  closing := false
  clobbered := false
  returned := false

inductive Step where
  | loopStarted
  | slept
  | dialFailed
  | dialed
  | announced
  | received (resolved : Option Nat) (suspends : Bool)
  | handled
  | receiveFailed
  | request (kind : Kind)
  | sent (index : Nat)
  | sendFailed (index : Nat)
  | timeout (index : Nat)
  | setIdentity (identity : Bool)
  | close
  | closeDone

namespace State

variable (state : State)

/-- `failAllPending`. -/
def failAllPending : State :=
  { state with
    requests := fun index => (state.requests index).map fun request =>
      if request.phase = .waiting then { request with phase := .done } else request }

/-- The loop is left. -/
def finish : State :=
  { state.failAllPending with loop := .ended }

/-- The head of the loop, up to the next `await`: into `reconnect` without a client, else
into `receive`. -/
def turn : State :=
  if state.open' then
    match state.client with
    | some socket => { state with loop := .receiving socket }
    | none => if state.heals && state.dialer then { state with loop := .sleeping } else state.finish
  else state.finish

/-- The rest of an iteration after `announce`: `client!.receive()`. -/
def receive : State :=
  match state.client with
  | some socket => { state with loop := .receiving socket }
  | none => { state with loop := .trapped }

def loopStarted : State :=
  if state.loop = .created then state.turn else state

/-- The backoff is over. -/
def slept : State :=
  if state.loop = .sleeping then
    if state.open' then { state with loop := .dialing } else state.finish
  else state

def dialFailed : State :=
  if state.loop = .dialing then
    if state.open' then { state with loop := .sleeping } else state.finish
  else state

/-- A dial returns a socket, which is installed without another look at `open`. -/
def dialSucceeded : State :=
  if state.loop = .dialing then
    let installed := { state with client := some state.dialed, dialed := state.dialed + 1 }
    if state.identity then { installed with loop := .announcing } else installed.receive
  else state

/-- The send of `announce` has ended, one way or the other. -/
def announced : State :=
  if state.loop = .announcing then state.receive else state

/-- A waiting request is resumed. -/
def resume (index : Nat) : State :=
  match state.requests index with
  | some request =>
    if request.phase = .waiting then
      { state with
        requests := Function.update state.requests index (some { request with phase := .done }) }
    else state
  | none => state

/-- A message: it may resolve a request, and its handling may suspend. -/
def received (resolved : Option Nat) (suspends : Bool) : State :=
  match state.loop with
  | .receiving _ =>
    let resumed := (resolved.map state.resume).getD state
    if suspends then { resumed with loop := .handling } else resumed.turn
  | _ => state

def handled : State :=
  if state.loop = .handling then state.turn else state

/-- `receive` has thrown: the client is cleared, and a healing loop goes on. -/
def receiveFailed : State :=
  match state.loop with
  | .receiving _ =>
    let cleared := { state with client := none }
    if state.heals then cleared.turn else cleared.finish
  | _ => state

/-- A sender takes the client and suspends in its send; without one it returns at once. -/
def request (kind : Kind) : State :=
  match state.open', state.client with
  | true, some socket =>
    { state with
      requests := Function.update state.requests state.count
        (some { kind := kind, socket := socket, phase := .sending })
      count := state.count + 1 }
  | _, _ => state

/-- The send has returned: a request that expects a reply stores its continuation. -/
def sent (index : Nat) : State :=
  match state.requests index with
  | some request =>
    if request.phase = .sending then
      { state with
        requests := Function.update state.requests index (some { request with
          phase := if request.kind = .plain then .done else .waiting }) }
    else state
  | none => state

/-- The send has thrown: `self.client = nil`, whatever is installed by now. -/
def sendFailed (index : Nat) : State :=
  match state.requests index with
  | some request =>
    if request.phase = .sending then
      { state with
        requests := Function.update state.requests index (some { request with phase := .done })
        client := none
        clobbered := state.clobbered ||
          (match state.client with
          | some socket => decide (socket ≠ request.socket)
          | none => false) }
    else state
  | none => state

/-- The tail of `close`. -/
def closed : State :=
  { { state with client := none, closing := false }.failAllPending with returned := true }

/-- `close`: it suspends only if there is a socket to close. A second call returns at once. -/
def close : State :=
  if state.open' then
    match state.client with
    | some _ => { state with open' := false, closing := true }
    | none => { state with open' := false }.closed
  else { state with returned := true }

def closeDone : State :=
  if state.closing then state.closed else state

def step : Step → State
  | .loopStarted => state.loopStarted
  | .slept => state.slept
  | .dialFailed => state.dialFailed
  | .dialed => state.dialSucceeded
  | .announced => state.announced
  | .received resolved suspends => state.received resolved suspends
  | .handled => state.handled
  | .receiveFailed => state.receiveFailed
  | .request kind => state.request kind
  | .sent index => state.sent index
  | .sendFailed index => state.sendFailed index
  | .timeout index => state.resume index
  | .setIdentity identity => { state with identity := identity }
  | .close => state.close
  | .closeDone => state.closeDone

def run : List Step → State → State
  | [], state => state
  | step :: rest, state => run rest (state.step step)

end State

end Fantastic.Swift.Relay

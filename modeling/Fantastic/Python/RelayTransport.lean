import Mathlib.Logic.Function.Basic

/-!
# The Python relay transport and its socket

`RelayTransport` of `relay_connector/_relay.py`, from the moment `connect` has returned it.
A step is what runs between two `await`s. Sockets are numbered in the order they were
dialed, and one is open until its connection drops or it is closed. The one field `_ws` is
set by `recv` after a dial and cleared by whatever fails while it holds a socket. What
travels on the sockets is left out; a directory request has its future `answered` by a
reply, by its timeout or by `close`.
-/

namespace Fantastic.Python.Relay

/-- What sends: `send`, `_relay_request`, `unwatch_directory`, and the `_announce` of
`set_identity`. -/
inductive Kind where
  | forward
  | directory
  | unwatch
  | announce
  deriving DecidableEq

inductive Phase where
  | sending
  | waiting
  | done
  deriving DecidableEq

/-- One send under way or returned, with the socket it took from `_ws`. -/
structure Request where
  kind : Kind
  socket : Nat
  phase : Phase
  answered : Bool
  deriving DecidableEq

/-- Where the reader of the transport is suspended: outside `recv`, in a dial, in the
announcement on a new socket, in the pause of `_reconnect_ws`, in `ws.recv()`, or in the
pause after a drop. -/
inductive Receiver where
  | outside
  | dialing
  | announcing (socket : Nat)
  | retrying
  | receiving (socket : Nat)
  | pausing
  deriving DecidableEq

/-- Where `_heartbeat_loop` is suspended. -/
inductive Heartbeat where
  | off
  | sleeping
  | sending (socket : Nat)
  deriving DecidableEq

/-- `reconnects` is `reconnect > 0`, `beats` is `heartbeat > 0`, and `identity` that there
is something to announce. `closes` holds the socket of every `close` under way.
`clobbered` records that an operation which failed on one socket cleared another, and
`returned` that a call of `close` has returned. -/
structure State where
  reconnects : Bool
  beats : Bool
  identity : Bool
  closed : Bool
  ws : Option Nat
  dialed : Nat
  opened : Nat → Bool
  receiver : Receiver
  heartbeat : Heartbeat
  requests : Nat → Option Request
  count : Nat
  closes : List Nat
  clobbered : Bool
  returned : Bool

/-- After `connect`; the first dial may have failed. -/
def State.connected (reconnects beats identity first : Bool) : State where
  reconnects := reconnects
  beats := beats
  identity := identity
  closed := false
  ws := if first then some 0 else none
  dialed := 1
  opened := fun socket => first && decide (socket = 0)
  receiver := .outside
  heartbeat := if first && beats then .sleeping else .off
  requests := fun _ => none
  count := 0
  closes := []
  clobbered := false
  returned := false

/-- What `recv` makes of a frame: it returns it to the engine, resolves a directory request,
or skips it. -/
inductive Inbound where
  | delivery
  | reply (index : Nat)
  | skipped

inductive Step where
  | recv
  | received (frame : Inbound)
  | receiveFailed
  | slept
  | dialSucceeded
  | dialFailed
  | announced
  | announceFailed
  | request (kind : Kind)
  | sent (index : Nat)
  | sendFailed (index : Nat)
  | timeout (index : Nat)
  | setIdentity (identity : Bool)
  | beat
  | beatSent
  | beatFailed
  | close
  | socketClosed (socket : Nat)
  | dropped (socket : Nat)

namespace State

variable (state : State)

def setRequest (index : Nat) (request : Request) : State :=
  { state with requests := Function.update state.requests index (some request) }

/-- `self._ws = None` where an operation has failed on `socket`. -/
def clear (socket : Nat) : State :=
  { state with
    ws := none
    clobbered := state.clobbered || decide (state.ws ≠ none ∧ state.ws ≠ some socket) }

/-- The head of the loop of `recv`, into a dial or into `ws.recv()`. -/
def turn : State :=
  if state.closed then { state with receiver := .outside }
  else match state.ws with
    | some socket => { state with receiver := .receiving socket }
    | none => { state with receiver := .dialing }

/-- The end of `_reconnect_ws`: without a socket `recv` leaves its loop and raises. -/
def reconnected : State :=
  match state.ws with
  | some _ => state.turn
  | none => { state with receiver := .outside }

def recv : State :=
  if state.receiver = .outside then state.turn else state

/-- The result of a future that is not done yet. -/
def answer (index : Nat) : State :=
  match state.requests index with
  | some request =>
    if request.kind = .directory ∧ request.phase ≠ .done then
      state.setRequest index { request with
        answered := true
        phase := if request.phase = .waiting then .done else request.phase }
    else state
  | none => state

def received (frame : Inbound) : State :=
  match state.receiver with
  | .receiving _ =>
    match frame with
    | .delivery => { state with receiver := .outside }
    | .reply index => (state.answer index).turn
    | .skipped => state.turn
  | _ => state

/-- `ws.recv()` has raised. -/
def receiveFailed : State :=
  match state.receiver with
  | .receiving socket =>
    { state.clear socket with receiver := if state.reconnects then .pausing else .outside }
  | _ => state

/-- A pause is over: the one in `_reconnect_ws`, or the one after a drop. -/
def slept : State :=
  match state.receiver with
  | .retrying => { state with receiver := if state.closed then .outside else .dialing }
  | .pausing => state.turn
  | _ => state

/-- `_start_heartbeat`. -/
def startHeartbeat : State :=
  { state with heartbeat := if state.beats then .sleeping else .off }

/-- A dial returns a socket, which is installed without another look at `_closed`. -/
def dialSucceeded : State :=
  if state.receiver = .dialing then
    let installed := { state with
      ws := some state.dialed
      opened := Function.update state.opened state.dialed true
      dialed := state.dialed + 1 }.startHeartbeat
    if state.identity then { installed with receiver := .announcing state.dialed }
    else installed.reconnected
  else state

def dialFailed : State :=
  if state.receiver = .dialing then
    { state with ws := none, receiver := if state.reconnects then .retrying else .outside }
  else state

def announced : State :=
  match state.receiver with
  | .announcing _ => state.reconnected
  | _ => state

def announceFailed : State :=
  match state.receiver with
  | .announcing socket => (state.clear socket).reconnected
  | _ => state

/-- A sender takes the socket and suspends in its send; without one it returns at once. -/
def request (kind : Kind) : State :=
  match state.ws with
  | some socket =>
    { state.setRequest state.count
        { kind := kind, socket := socket, phase := .sending, answered := false } with
      count := state.count + 1 }
  | none => state

/-- The send has returned: a directory request goes on to wait for its future. -/
def sent (index : Nat) : State :=
  match state.requests index with
  | some request =>
    if request.phase = .sending then
      state.setRequest index { request with
        phase := if request.kind = .directory ∧ request.answered = false then .waiting
          else .done }
    else state
  | none => state

/-- The send has raised: `self._ws = None`, whatever is installed by now. -/
def sendFailed (index : Nat) : State :=
  match state.requests index with
  | some request =>
    if request.phase = .sending then
      (state.setRequest index { request with phase := .done }).clear request.socket
    else state
  | none => state

def timeout (index : Nat) : State :=
  match state.requests index with
  | some request =>
    if request.phase = .waiting then state.setRequest index { request with phase := .done }
    else state
  | none => state

/-- `set_identity`, up to the send of its announcement. -/
def setIdentity (identity : Bool) : State :=
  let changed := { state with identity := identity }
  if identity then changed.request .announce else changed

/-- The heartbeat has slept. -/
def beat : State :=
  if state.heartbeat = .sleeping then
    match state.ws with
    | some socket => { state with heartbeat := .sending socket }
    | none => { state with heartbeat := .off }
  else state

def beatSent : State :=
  match state.heartbeat with
  | .sending _ => { state with heartbeat := if state.closed then .off else .sleeping }
  | _ => state

def beatFailed : State :=
  match state.heartbeat with
  | .sending _ => { state with heartbeat := .off }
  | _ => state

/-- Every directory request that is not answered yet gets its error. -/
def answerAll : State :=
  { state with
    requests := fun index => (state.requests index).map fun request =>
      if request.kind = .directory ∧ request.phase ≠ .done then
        { request with
          answered := true
          phase := if request.phase = .waiting then .done else request.phase }
      else request }

/-- `close`: it suspends only if there is a socket to close. -/
def close : State :=
  let shut := { state with closed := true, heartbeat := .off }.answerAll
  match state.ws with
  | some socket => { shut with closes := socket :: state.closes }
  | none => { shut with returned := true }

/-- A `close` goes on after its socket is closed: `self._ws = None`. -/
def socketClosed (socket : Nat) : State :=
  if socket ∈ state.closes then
    { state with
      opened := Function.update state.opened socket false
      closes := state.closes.erase socket
      ws := none
      returned := true }
  else state

def step (state : State) : Step → State
  | .recv => state.recv
  | .received frame => state.received frame
  | .receiveFailed => state.receiveFailed
  | .slept => state.slept
  | .dialSucceeded => state.dialSucceeded
  | .dialFailed => state.dialFailed
  | .announced => state.announced
  | .announceFailed => state.announceFailed
  | .request kind => state.request kind
  | .sent index => state.sent index
  | .sendFailed index => state.sendFailed index
  | .timeout index => state.timeout index
  | .setIdentity identity => state.setIdentity identity
  | .beat => state.beat
  | .beatSent => state.beatSent
  | .beatFailed => state.beatFailed
  | .close => state.close
  | .socketClosed socket => state.socketClosed socket
  | .dropped socket => { state with opened := Function.update state.opened socket false }

end State

end Fantastic.Python.Relay

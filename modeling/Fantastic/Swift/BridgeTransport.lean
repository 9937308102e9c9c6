import Fantastic.Swift.Frame
import Mathlib.Logic.Function.Basic

/-!
# The Swift WebSocket transport of a bridge

`WebSocketTransport` of `Transports.swift`, from the moment its one `connect` has returned
and the transport is attached. An actor runs one piece of code at a time between its
`await`s, so a step is what runs between two of them: the beginning of a forward, its
continuation after the send, a timer, a message of the receive loop, the end of the loop,
and `close`. `pending false` is the table `pending` and `pending true` is `binaryPending`.
A continuation is the number of its forward.
-/

namespace Fantastic.Swift.Transport

/-- What a forward returns. -/
inductive Outcome where
  | answer (data : Value) (body : Bytes)
  | remoteError (text : String)
  | timeout
  | closed
  | dropped
  | sendFailed (text : String)
  deriving DecidableEq

/-- The texts of a failure, for a text forward and for a binary one. -/
def failure (text reason : String) : Value :=
  .dict [("error", .str text), ("reason", .str reason)]

def verb (binary : Bool) : String :=
  if binary then "kernel_bridge.binaryForward" else "kernel_bridge.forward"

def Outcome.reply (binary : Bool) : Outcome → Value × Bytes
  | .answer data body => (data, if binary then body else [])
  | .remoteError text => (.dict [("error", .str ("remote error: " ++ text))], [])
  | .timeout => (failure (verb binary ++ ": timeout after 30s") "timeout", [])
  | .closed => (failure "websocket closed" "transport_closed", [])
  | .dropped => (failure "websocket connection dropped" "transport_dropped", [])
  | .sendFailed text => (failure ("send failed: " ++ text) "transport_error", [])

/-- Where a forward is: in its send, suspended on its continuation, failed before it had
one, or resumed. -/
inductive Phase where
  | sending
  | waiting
  | failed (outcome : Outcome)
  | resumed (outcome : Outcome)
  deriving DecidableEq

/-- One `forward` or `binaryForward` that found a client. `resumptions` counts the calls of
`resume` on its continuation, `timer` tells whether its timeout task still sleeps, and
`answered` is the first reply or error frame with its id that the open connection has
brought. -/
structure Forward where
  id : String
  binary : Bool
  phase : Phase
  resumptions : Nat
  timer : Bool
  answered : Option Outcome
  deriving DecidableEq

/-- The task of `receiveLoop`. -/
inductive Loop where
  | created
  | receiving
  | emitting
  | ended
  deriving DecidableEq

inductive Message where
  | text (text : String)
  | binary (data : Bytes)

structure State where
  client : Bool
  sink : Bool
  loop : Loop
  nextId : UInt64
  pending : Bool → OrderedDict String Nat
  forwards : Nat → Option Forward
  count : Nat

/-- After `connect`; the dial may have failed. -/
def State.connected (dialed sink : Bool) : State where
  client := dialed
  sink := sink
  loop := if dialed then .created else .ended
  nextId := 1
  pending := fun _ => .empty
  forwards := fun _ => none
  count := 0

inductive Step where
  | forward (binary : Bool)
  | sent (index : Nat)
  | unsent (index : Nat) (text : String)
  | timeout (index : Nat)
  | loopStarted
  | received (message : Message)
  | emitted
  | connectionDied
  | close

namespace State

variable (reader : Reader) (state : State)

def change (index : Nat) (edit : Forward → Forward) : State :=
  { state with
    forwards := Function.update state.forwards index ((state.forwards index).map edit) }

/-- `cont.resume(returning:)`. -/
def resume (outcome : Outcome) (index : Nat) : State :=
  state.change index fun forward =>
    { forward with phase := .resumed outcome, resumptions := forward.resumptions + 1 }

def setPending (binary : Bool) (table : OrderedDict String Nat) : State :=
  { state with pending := Function.update state.pending binary table }

/-- `mintId`: the counter wraps. -/
def mintId : String :=
  "br_" ++ toString (state.nextId + 1).toNat

/-- Up to the `await` of the send; without a client it returns at once. -/
def forward (binary : Bool) : State :=
  if state.client then
    { state with
      nextId := state.nextId + 1
      forwards := Function.update state.forwards state.count (some
        { id := state.mintId, binary := binary, phase := .sending, resumptions := 0
          timer := false, answered := none })
      count := state.count + 1 }
  else state

/-- The send has returned: the continuation is stored and its timeout task started. -/
def sent (index : Nat) : State :=
  match state.forwards index with
  | some forward =>
    if forward.phase = .sending then
      (state.setPending forward.binary ((state.pending forward.binary).insert forward.id index)).change
        index fun forward => { forward with phase := .waiting, timer := true }
    else state
  | none => state

/-- The send has thrown. -/
def unsent (index : Nat) (text : String) : State :=
  match state.forwards index with
  | some forward =>
    if forward.phase = .sending then
      state.change index fun forward => { forward with phase := .failed (.sendFailed text) }
    else state
  | none => state

/-- `pending.removeValue(forKey:)` and the resumption of what was there. -/
def settle (binary : Bool) (id : String) (outcome : Outcome) : State :=
  match (state.pending binary).get? id with
  | some index =>
    (state.setPending binary ((state.pending binary).erase id)).resume outcome index
  | none => state

/-- `timeoutPending` and `timeoutBinaryPending` after their sleep. -/
def timeout (index : Nat) : State :=
  match state.forwards index with
  | some forward =>
    if forward.timer then
      (state.change index fun forward => { forward with timer := false }).settle
        forward.binary forward.id .timeout
    else state
  | none => state

/-- All continuations of one table are resumed and the table is emptied. -/
def drainTable (outcome : Outcome) (binary : Bool) : State :=
  ((state.pending binary).items.foldl (fun state index => state.resume outcome index)
    state).setPending binary .empty

def drain (outcome : Outcome) : State :=
  (state.drainTable outcome false).drainTable outcome true

/-- The id and the outcome a reply or error frame carries. -/
def answerOf (parsed : Value) (body : Bytes) : Option (String × Outcome) :=
  match asString (member parsed "type"), asString (member parsed "id") with
  | some "reply", some id => some (id, .answer (member parsed "data") body)
  | some "error", some id =>
    some (id, .remoteError ((asString (member parsed "error")).getD "unknown"))
  | _, _ => none

/-- The open connection has brought a frame for the id. -/
def note (id : String) (outcome : Outcome) : State :=
  if state.client then
    { state with
      forwards := fun index => (state.forwards index).map fun forward =>
        if forward.id = id ∧ forward.answered = none then { forward with answered := some outcome }
        else forward }
  else state

/-- The text table is looked up first, then the binary one. -/
def settleEither (id : String) (outcome : Outcome) : State :=
  if (state.pending false).contains id then state.settle false id outcome
  else state.settle true id outcome

/-- `handleInboundFrame`, up to the `await` of an emit. -/
def handleInboundFrame (parsed : Value) (body : Bytes) : State :=
  match answerOf parsed body with
  | some (id, outcome) => (state.note id outcome).settleEither id outcome
  | none =>
    if asString (member parsed "type") = some "event" ∧ state.sink then
      { state with loop := .emitting }
    else state

/-- What `receiveLoop` makes of a message. -/
def decoded : Message → Option (Value × Bytes)
  | .text text => (reader.parse text).map fun parsed => (parsed, [])
  | .binary data =>
    (reader.decodeBinaryFrame data).or
      (((reader.decode data).bind reader.parse).map fun parsed => (parsed, []))

def received (message : Message) : State :=
  if state.loop = .receiving then
    match decoded reader message with
    | some (parsed, body) => state.handleInboundFrame parsed body
    | none => state
  else state

/-- The loop's first turn: a transport closed by then has no client for it. -/
def loopStarted : State :=
  if state.loop = .created then
    { state with loop := if state.client then .receiving else .ended }
  else state

def emitted : State :=
  if state.loop = .emitting then { state with loop := .receiving } else state

/-- `receive` has thrown. -/
def connectionDied : State :=
  if state.loop = .receiving then { state.drain .dropped with loop := .ended } else state

def close : State :=
  { state with client := false }.drain .closed

def step : Step → State
  | .forward binary => state.forward binary
  | .sent index => state.sent index
  | .unsent index text => state.unsent index text
  | .timeout index => state.timeout index
  | .loopStarted => state.loopStarted
  | .received message => state.received reader message
  | .emitted => state.emitted
  | .connectionDied => state.connectionDied
  | .close => state.close

def run : List Step → State → State
  | [], state => state
  | step :: rest, state => run rest (state.step reader step)

end State

end Fantastic.Swift.Transport

import Fantastic.Bridge.IngressRules
import Mathlib.Logic.Function.Basic

/-!
# The WebSocket proxy

`web_ws/_proxy.py`: one connection (`run`), cut at the points where another task can run,
with the kernel tables it writes to (`Agent.watch`, `unwatch`, the inboxes and the state
subscribers) and with what the rest of the kernel does to them meanwhile. A frame is what
`decode_inbound` made of it. An inbox is the queue under an id; the drain of a connection
reads the one under its client id. The environment and the interpreter stay parameters.
-/

namespace Fantastic.Python.Socket

open Fantastic.Bridge (Action ActionKind Environment)
open Fantastic.Bridge.Python (Decision IngressRule authorize resolveIngress)

/-! ### The kernel tables -/

/-- `record` is that of the web_ws agent; `subscribers` are the callbacks of the one
connection. -/
structure Hub where
  record : Option Dict
  agents : String → Bool
  watchers : String → List String
  inboxes : String → Option (List Value)
  subscribers : List Nat

def inboxBound : Nat := 256

namespace Hub

def ensureInbox (hub : Hub) (id : String) : Hub :=
  match hub.inboxes id with
  | some _ => hub
  | none => { hub with inboxes := Function.update hub.inboxes id (some []) }

/-- `Agent.watch`. -/
def watch (hub : Hub) (src tgt : String) : Hub :=
  if hub.agents src then
    ({ hub with
      watchers := Function.update hub.watchers src
        (if tgt ∈ hub.watchers src then hub.watchers src else tgt :: hub.watchers src) } : Hub)
      |>.ensureInbox tgt
  else hub

/-- `Agent.unwatch`. -/
def unwatch (hub : Hub) (src tgt : String) : Hub :=
  if hub.agents src then
    { hub with
      watchers := Function.update hub.watchers src
        ((hub.watchers src).filter fun id => decide (id ≠ tgt)) }
  else hub

/-- `_put_drop_oldest`, into the queue of an id that has one. -/
def put (hub : Hub) (payload : Value) (id : String) : Hub :=
  match hub.inboxes id with
  | none => hub
  | some queue =>
    { hub with
      inboxes := Function.update hub.inboxes id
        (some ((if queue.length < inboxBound then queue else queue.drop 1) ++ [payload])) }

/-- `_fanout`: the agent's own inbox, then those of its watchers. -/
def fanout (hub : Hub) (agent : String) (payload : Value) : Hub :=
  (agent :: hub.watchers agent).foldl (put · payload) hub

end Hub

theorem ensureInbox_record (hub : Hub) (id : String) :
    (hub.ensureInbox id).record = hub.record := by
  unfold Hub.ensureInbox
  split <;> rfl

/-! ### The gate -/

def field (members : List (String × Value)) (name : String) (default : Value) : Value :=
  (members.lookup name).getD default

def textOf : Value → String
  | .str text => text
  | _ => ""

/-- The `Action` that `gate_inbound` makes of a frame. A verb or an address that is no text
is read by no rule. -/
def inboundAction (kind : ActionKind) (kindName : String) (frame : List (String × Value)) : Action :=
  let inner : Dict :=
    match field frame "payload" .null with
    | .dict members => members.foldl (fun dict member => dict.insert member.1 member.2) .empty
    | _ => .empty
  let target := field frame "target" .null
  { kind := kind
    target := textOf (if truthy target then target else field frame "src" .null)
    verb := if kind = .call then textOf ((inner.get? "type").getD (.str "")) else kindName
    payload := inner
    token :=
      match field frame "auth_token" .null with
      | .str token => some token
      | _ => none }

section

variable (runtime : Runtime) (env : Environment)

/-- `_gate`: the rule is resolved from the record as it is now. -/
def gate (record : Option Dict) (kind : ActionKind) (kindName : String)
    (frame : List (String × Value)) : Except PyError Decision := do
  let rule ← resolveIngress runtime (record.getD .empty)
  authorize env rule (inboundAction kind kindName frame)

end

/-! ### The connection -/

inductive LoopPhase where
  | reading
  | subscribing
  | closing
  | ended
  | failed
  | aborted
  deriving DecidableEq

/-- How a call task ended: with a frame sent, with a frame that the socket did not take, with
the gate raising, or cancelled before there was a frame. -/
inductive Ending where
  | answered
  | unsent
  | raised
  | cancelled
  deriving DecidableEq

inductive CallPhase where
  | spawned
  | dispatching
  | sending (envelope : Value)
  | finished (ending : Ending)
  deriving DecidableEq

structure Call where
  frame : List (String × Value)
  phase : CallPhase
  answers : Nat
  deriving DecidableEq

/-- What a handler came to: a reply, one that cannot be encoded, or an exception. -/
inductive Handled where
  | returned (reply : Value)
  | unencodable (text : String)
  | raised (text : String)
  deriving DecidableEq

/-- What the connection does to the kernel and to its peer. -/
inductive Effect where
  | dispatched (target payload : Value)
  | emitted (target payload : Value)
  | watched (src : String)
  | subscribed
  | sent (envelope : Value)
  deriving DecidableEq

/-- `link`: the socket is in the state `CONNECTED`. `watching` keeps the sources that are
texts; no other source names an agent. -/
structure Session where
  phase : LoopPhase
  draining : Bool
  link : Bool
  watching : List String
  unsubs : List Nat
  tokens : Nat
  calls : Nat → Call
  spawned : Nat
  effects : List Effect

structure State where
  hub : Hub
  session : Session

def Session.fresh : Session where
  phase := .reading
  draining := true
  link := true
  watching := []
  unsubs := []
  tokens := 0
  calls := fun _ => { frame := [], phase := .finished .cancelled, answers := 0 }
  spawned := 0
  effects := []

/-- What can happen next: to the connection, and then to the tables from elsewhere. -/
inductive Move where
  | receive (frame : Option Value)
  | disconnect
  | snapshotSent (agents : Value)
  | snapshotRaised
  | callStart (call : Nat)
  | handled (call : Nat) (outcome : Handled)
  | sent (call : Nat)
  | sendFailed (call : Nat)
  | callCancelled (call : Nat)
  | drained
  | linkLost
  | gathered
  | cancelRun
  | telemetry (event : Value)
  | traffic (agent : String) (payload : Value)
  | create (agent : String)
  | delete (agent : String)
  | update (record : Option Dict)
  | otherWatch (src tgt : String)
  | otherUnwatch (src tgt : String)

def object (members : List (String × Value)) : Value :=
  .dict members

def replyEnvelope (id data : Value) : Value :=
  object [("type", .str "reply"), ("id", id), ("data", data)]

def errorEnvelope (id : Value) (text : String) : Value :=
  object [("type", .str "error"), ("id", id), ("error", .str text)]

def eventEnvelope (payload : Value) : Value :=
  object [("type", .str "event"), ("payload", payload)]

def snapshotEnvelope (agents : Value) : Value :=
  object [("type", .str "state_snapshot"), ("agents", agents)]

/-- The teaching denial. -/
def denialData (decision : Decision) : Value :=
  object ([("error", .str decision.reason), ("reason", .str "unauthorized")] ++
    (if decision.hint = "" then [] else [("hint", .str decision.hint)]) ++
    (if decision.see = "" then [] else [("see", .str decision.see)]))

def Call.id (call : Call) : Value :=
  field call.frame "id" (.str "")

def Session.log (session : Session) (effect : Effect) : Session :=
  { session with effects := session.effects ++ [effect] }

def Session.setCall (session : Session) (number : Nat) (call : Call) : Session :=
  { session with calls := Function.update session.calls number call }

def Session.endCall (session : Session) (number : Nat) (ending : Ending) : Session :=
  session.setCall number { session.calls number with phase := .finished ending }

/-- `call` frames become tasks. -/
def Session.spawnCall (session : Session) (frame : List (String × Value)) : Session :=
  { session.setCall session.spawned { frame := frame, phase := .spawned, answers := 0 } with
    spawned := session.spawned + 1 }

/-- `_send_envelope` up to its `send`: nothing when the socket is not connected. -/
def Session.beginSend (session : Session) (number : Nat) (envelope : Value) : Session :=
  if session.link then
    session.setCall number { session.calls number with phase := .sending envelope }
  else session.endCall number .unsent

/-- The frame of a call is out. -/
def Session.finishSend (session : Session) (number : Nat) (envelope : Value) : Session :=
  (session.log (.sent envelope)).setCall number
    { session.calls number with
      phase := .finished .answered
      answers := (session.calls number).answers + 1 }

def CallPhase.isOver : CallPhase → Bool
  | .finished _ => true
  | _ => false

/-- What a call comes to when its task is cancelled. -/
def CallPhase.cut : CallPhase → Ending
  | .sending _ => .unsent
  | _ => .cancelled

/-- No call task is under way. -/
def Session.settled (session : Session) : Bool :=
  (List.range session.spawned).all fun number => (session.calls number).phase.isOver

namespace State

/-- The tail of the `finally` block. -/
def cleanup (client : String) (state : State) : State :=
  let unwatched := state.session.watching.foldl (fun hub src => hub.unwatch src client) state.hub
  { hub :=
      { unwatched with
        subscribers := unwatched.subscribers.filter fun token => token ∉ state.session.unsubs
        inboxes := Function.update unwatched.inboxes client none }
    session := { state.session with phase := .ended, unsubs := [] } }

/-- The loop is left: the drain and the call tasks are cancelled, and joined when there are
any. -/
def leave (client : String) (state : State) : State :=
  let closing : State :=
    { state with session := { state.session with phase := .closing, draining := false } }
  if state.session.settled then closing.cleanup client else closing


section

variable (runtime : Runtime) (env : Environment) (client : String)

/-- An inline handler behind its gate: a gate that raises ends the loop. -/
def gated (state : State) (kind : ActionKind) (kindName : String)
    (frame : List (String × Value)) (allowed : State → State) : State :=
  match gate runtime env state.hub.record kind kindName frame with
  | .error _ => state.leave client
  | .ok decision => if decision.allowed then allowed state else state

/-- `_on_emit`: `kernel.emit` looks the target up, which needs a hash. -/
def onEmit (frame : List (String × Value)) (state : State) : State :=
  let target := field frame "target" (.str "")
  let payload := field frame "payload" (object [])
  let emitted : State :=
    { state with session := state.session.log (.emitted target payload) }
  match hashKey target with
  | .error _ => emitted.leave client
  | .ok _ =>
    match target, state.hub.agents (textOf target) with
    | .str agent, true => { emitted with hub := emitted.hub.fanout agent payload }
    | _, _ => emitted

def onWatch (frame : List (String × Value)) (state : State) : State :=
  let src := field frame "src" (.str "")
  if !truthy src then state
  else
    match hashKey src, src with
    | .error _, _ => state.leave client
    | .ok _, .str src =>
      if src ∈ state.session.watching then state
      else
        { hub := state.hub.watch src client
          session :=
            { state.session.log (.watched src) with
              watching := src :: state.session.watching } }
    | .ok _, _ => state

def onUnwatch (frame : List (String × Value)) (state : State) : State :=
  let src := field frame "src" (.str "")
  match hashKey src, src with
  | .error _, _ => state.leave client
  | .ok _, .str src =>
    if src ∈ state.session.watching then
      { hub := state.hub.unwatch src client
        session :=
          { state.session with
            watching := state.session.watching.filter fun other => decide (other ≠ src) } }
    else state
  | .ok _, _ => state

/-- The callback is registered. -/
def subscribe (state : State) : State :=
  { hub := { state.hub with subscribers := state.session.tokens :: state.hub.subscribers }
    session :=
      { state.session.log .subscribed with
        phase := .reading
        unsubs := state.session.tokens :: state.session.unsubs
        tokens := state.session.tokens + 1 } }

/-- The snapshot goes out first. -/
def onStateSubscribe (state : State) : State :=
  if state.session.link then
    { state with session := { state.session with phase := .subscribing } }
  else state.subscribe

def onStateUnsubscribe (state : State) : State :=
  { hub :=
      { state.hub with
        subscribers := state.hub.subscribers.filter fun token => token ∉ state.session.unsubs }
    session := { state.session with unsubs := [] } }

/-- One frame in the loop. A frame that is no dictionary, or whose type has no hash, raises. -/
def onFrame (state : State) : Value → State
  | .dict frame =>
    match field frame "type" .null with
    | .str "call" => { state with session := state.session.spawnCall frame }
    | .str "emit" => state.gated runtime env client .emit "emit" frame (onEmit client frame)
    | .str "watch" => state.gated runtime env client .watch "watch" frame (onWatch client frame)
    | .str "unwatch" => onUnwatch client frame state
    | .str "state_subscribe" =>
      state.gated runtime env client .stateSubscribe "state_subscribe" frame onStateSubscribe
    | .str "state_unsubscribe" => state.onStateUnsubscribe
    | .list _ => state.leave client
    | .dict _ => state.leave client
    | _ => state
  | _ => state.leave client

/-- The start of a call task: the gate, and then a denial or the dispatch. -/
def callStart (state : State) (number : Nat) : State :=
  let call := state.session.calls number
  match gate runtime env state.hub.record .call "call" call.frame with
  | .error _ => { state with session := state.session.endCall number .raised }
  | .ok decision =>
    if decision.allowed then
      { state with
        session :=
          (state.session.log (.dispatched (field call.frame "target" (.str ""))
            (field call.frame "payload" (object [])))).setCall number
              { call with phase := .dispatching } }
    else
      { state with
        session := state.session.beginSend number (replyEnvelope call.id (denialData decision)) }

def handled (state : State) (number : Nat) (outcome : Handled) : State :=
  let id := (state.session.calls number).id
  { state with
    session := state.session.beginSend number
      (match outcome with
      | .returned reply => replyEnvelope id reply
      | .unencodable text => errorEnvelope id text
      | .raised text => errorEnvelope id text) }

/-- The drain takes an event from the queue under the client id and sends it. -/
def drain (state : State) : State :=
  if state.session.draining && state.session.link then
    match state.hub.inboxes client with
    | some (payload :: rest) =>
      { hub := { state.hub with inboxes := Function.update state.hub.inboxes client (some rest) }
        session := state.session.log (.sent (eventEnvelope payload)) }
    | _ => state
  else state

/-- A move of the rest of the kernel. -/
def outside (hub : Hub) : Move → Hub
  | .traffic agent payload => if hub.agents agent then hub.fanout agent payload else hub
  | .create agent =>
    if hub.agents agent then hub
    else
      ({ hub with
        agents := Function.update hub.agents agent true
        watchers := Function.update hub.watchers agent [] } : Hub).ensureInbox agent
  | .delete agent =>
    if hub.agents agent then
      { hub with
        agents := Function.update hub.agents agent false
        watchers := Function.update hub.watchers agent []
        inboxes := Function.update hub.inboxes agent none }
    else hub
  | .update record => { hub with record := record }
  | .otherWatch src tgt => hub.watch src tgt
  | .otherUnwatch src tgt => hub.unwatch src tgt
  | _ => hub

def step (state : State) : Move → State
  | .receive frame =>
    if state.session.phase = .reading then
      match frame with
      | none => state.leave client
      | some value => state.onFrame runtime env client value
    else state
  | .disconnect => if state.session.phase = .reading then state.leave client else state
  | .snapshotSent agents =>
    if state.session.phase = .subscribing then
      ({ state with session := state.session.log (.sent (snapshotEnvelope agents)) } :
        State).subscribe
    else state
  | .snapshotRaised =>
    if state.session.phase = .subscribing then
      ({ state with session := { state.session with link := false } } : State).leave client
    else state
  | .callStart number =>
    if (state.session.calls number).phase = .spawned ∧ state.session.phase ≠ .closing then
      state.callStart runtime env number
    else state
  | .handled number outcome =>
    if (state.session.calls number).phase = .dispatching then state.handled number outcome
    else state
  | .sent number =>
    match (state.session.calls number).phase with
    | .sending envelope => { state with session := state.session.finishSend number envelope }
    | _ => state
  | .sendFailed number =>
    match (state.session.calls number).phase with
    | .sending _ =>
      { state with
        session := ({ state.session with link := false } : Session).endCall number .unsent }
    | _ => state
  | .callCancelled number =>
    if state.session.phase = .closing ∧ (state.session.calls number).phase.isOver = false then
      { state with
        session := state.session.endCall number (state.session.calls number).phase.cut }
    else state
  | .drained => state.drain client
  | .linkLost => { state with session := { state.session with link := false } }
  | .gathered =>
    if state.session.phase = .closing ∧ state.session.settled = true then state.cleanup client
    else state
  | .cancelRun =>
    match state.session.phase with
    | .reading | .subscribing => state.leave client
    | .closing => { state with session := { state.session with phase := .aborted } }
    | _ => state
  | .telemetry event =>
    if state.session.link then
      { state with
        session := state.hub.subscribers.foldl (fun session _ => session.log (.sent event))
          state.session }
    else state
  | move => { state with hub := outside state.hub move }

/-- Up to the loop: the inbox, the gate of the auto-watch, the watch. What raises here is
before the `try`. -/
def connect (host : String) (hub : Hub) : State :=
  let opened := { hub.ensureInbox client with subscribers := [] }
  match gate runtime env hub.record .watch "watch" [("src", .str host)] with
  | .error _ => { hub := opened, session := { Session.fresh with phase := .failed, draining := false } }
  | .ok decision =>
    if decision.allowed then
      { hub := opened.watch host client
        session := { Session.fresh.log (.watched host) with watching := [host] } }
    else { hub := opened, session := Session.fresh }

def run (state : State) (moves : List Move) : State :=
  moves.foldl (step runtime env client) state

end

end State

end Fantastic.Python.Socket

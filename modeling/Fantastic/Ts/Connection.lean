import Fantastic.Foundation.Value
import Mathlib.Logic.Function.Basic

/-!
# One reconnecting socket

`Conn` of `ts/src/transport/bridge.ts`, cut where the event loop can run something else:
a `call` waits for the ready promise, and what follows the wait is a turn of its own. A
ready promise and a socket are numbers in order of creation. The id of a call is a number
and the id of a frame is the number it spells. The lifecycle listeners, the state stream and
the retry delays are left out: no call depends on them. The constructor of a socket does
not throw for an address it has once accepted.
-/

namespace Fantastic.Ts

/-- `closing` is after `ws.close()`, up to the close event. -/
inductive SocketPhase where
  | dialing
  | opened
  | closing
  | closed
  deriving DecidableEq

inductive Outcome where
  | resolved (data : Value)
  | rejected (message : String)

/-- `failed`: rejected on the way, without an entry in the table. -/
inductive Stage where
  | awaiting (ready : Nat)
  | sent (id socket : Nat)
  | failed
  deriving DecidableEq

/-- `outcomes` are the calls of the promise's `resolve` and `reject`, in order. -/
structure Call where
  stage : Stage
  outcomes : List Outcome

/-- `text` is `String(msg["error"] ?? "error")`. -/
inductive InboundFrame where
  | reply (id : Nat) (data : Option Value)
  | error (id : Nat) (text : String)
  | other

/-- What `encodeFrame` and `ws.send` do with the frame of a call. -/
inductive Attempt where
  | sends
  | encodeThrows (message : String)
  | sendThrows (message : String)

structure Conn where
  sockets : Nat → SocketPhase
  made : Nat
  ws : Option Nat
  connected : Bool
  closedByUs : Bool
  nextId : Nat
  reconnectTimer : Bool
  pending : OrderedDict Nat Nat
  ready : Nat
  resolveReady : Option Nat
  resolved : Nat → Bool
  calls : Nat → Call
  begun : Nat

/-- `goOn` is the continuation of a `call` after its wait; `ended` is the close event of a
socket and `reconnect` the timer. -/
inductive ConnEvent where
  | call
  | goOn (call : Nat) (attempt : Attempt)
  | opened (socket : Nat)
  | message (socket : Nat) (frame : InboundFrame)
  | errored (socket : Nat)
  | ended (socket : Nat)
  | reconnect
  | close

namespace Conn

/-- The constructor: `arm()` and the first `connect()`. -/
def fresh : Conn where
  sockets := Function.update (fun _ => .closed) 0 .dialing
  made := 1
  ws := some 0
  connected := false
  closedByUs := false
  nextId := 1
  reconnectTimer := false
  pending := .empty
  ready := 0
  resolveReady := some 0
  resolved := fun _ => false
  calls := fun _ => { stage := .failed, outcomes := [] }
  begun := 0

def arm (conn : Conn) : Conn :=
  { conn with ready := conn.ready + 1, resolveReady := some (conn.ready + 1) }

def connect (conn : Conn) : Conn :=
  if conn.closedByUs then conn
  else
    { conn with
      sockets := Function.update conn.sockets conn.made .dialing
      made := conn.made + 1
      ws := some conn.made }

def setSocket (conn : Conn) (socket : Nat) (phase : SocketPhase) : Conn :=
  { conn with sockets := Function.update conn.sockets socket phase }

def setCall (conn : Conn) (call : Nat) (next : Call) : Conn :=
  { conn with calls := Function.update conn.calls call next }

def settled (call : Call) (outcome : Outcome) : Call :=
  { call with outcomes := call.outcomes ++ [outcome] }

/-- The call is rejected with no entry in the table. -/
def fail (conn : Conn) (call : Nat) (message : String) : Conn :=
  conn.setCall call (settled { conn.calls call with stage := .failed } (.rejected message))

def rejectAll (conn : Conn) (message : String) : Conn :=
  { conn with
    calls := fun call =>
      if call ∈ conn.pending.items then settled (conn.calls call) (.rejected message)
      else conn.calls call
    pending := .empty }

/-- `onMessage`, for a frame with an id. -/
def settle (conn : Conn) (id : Nat) (outcome : Outcome) : Conn :=
  match conn.pending.get? id with
  | none => conn
  | some call =>
    { conn.setCall call (settled (conn.calls call) outcome) with
      pending := conn.pending.erase id }

def onMessage (conn : Conn) : InboundFrame → Conn
  | .reply id data => conn.settle id (.resolved (data.getD .null))
  | .error id text => conn.settle id (.rejected text)
  | .other => conn

/-- `call`, up to its wait. -/
def call (conn : Conn) : Conn :=
  { conn.setCall conn.begun { stage := .awaiting conn.ready, outcomes := [] } with
    begun := conn.begun + 1 }

/-- `call`, after its wait. -/
def goOn (conn : Conn) (call : Nat) (attempt : Attempt) : Conn :=
  match conn.connected, conn.ws with
  | true, some socket =>
    let counted : Conn := { conn with nextId := conn.nextId + 1 }
    match attempt with
    | .sends =>
      { counted.setCall call { conn.calls call with stage := .sent conn.nextId socket } with
        pending := conn.pending.insert conn.nextId call }
    | .encodeThrows message | .sendThrows message => counted.fail call message
  | _, _ => conn.fail call "disconnected"

def onopen (conn : Conn) (socket : Nat) : Conn :=
  let linked : Conn :=
    { conn.setSocket socket .opened with connected := true, resolveReady := none }
  match conn.resolveReady with
  | none => linked
  | some ready => { linked with resolved := Function.update conn.resolved ready true }

def onclose (conn : Conn) (socket : Nat) : Conn :=
  let dropped :=
    ({ conn.setSocket socket .closed with connected := false } : Conn).rejectAll "disconnected"
  if conn.closedByUs then dropped else { dropped.arm with reconnectTimer := true }

def close (conn : Conn) : Conn :=
  let shut : Conn := { conn with closedByUs := true, reconnectTimer := false }
  let closed := shut.rejectAll "closed"
  match conn.ws with
  | none => closed
  | some socket =>
    if conn.sockets socket = .closed then closed else closed.setSocket socket .closing

def next (conn : Conn) : ConnEvent → Conn
  | .call => conn.call
  | .goOn call attempt =>
    match (conn.calls call).stage with
    | .awaiting ready => if conn.resolved ready then conn.goOn call attempt else conn
    | _ => conn
  | .opened socket => if conn.sockets socket = .dialing then conn.onopen socket else conn
  | .message socket frame =>
    if conn.sockets socket = .opened ∨ conn.sockets socket = .closing then conn.onMessage frame
    else conn
  | .errored _ => conn
  | .ended socket => if conn.sockets socket = .closed then conn else conn.onclose socket
  | .reconnect =>
    if conn.reconnectTimer then { conn with reconnectTimer := false }.connect else conn
  | .close => conn.close

/-! ### The property and the condition -/

/-- An unsettled call is in the table of the socket it was sent on, which has not closed; or
it waits for the promise that the next open resolves, on a connection that has not been
closed; or the promise it waited for is resolved, and it is about to go on. -/
def Served (name : Nat) (conn : Conn) : Prop :=
  name < conn.begun → (conn.calls name).outcomes = [] →
    (∃ id socket, (conn.calls name).stage = .sent id socket ∧
      conn.pending.get? id = some name ∧ conn.sockets socket ≠ .closed) ∨
    ∃ ready, (conn.calls name).stage = .awaiting ready ∧
      (conn.resolveReady = some ready ∧ conn.closedByUs = false ∨ conn.resolved ready = true)

/-- Where an outcome comes from: a frame that bears the id of the call and arrives on the
socket the call was sent on, or no frame at all. -/
inductive Source (name : Nat) (conn : Conn) (event : ConnEvent) : Outcome → Prop where
  | reply (id socket : Nat) (data : Option Value)
      (same : event = .message socket (.reply id data))
      (own : (conn.calls name).stage = .sent id socket) : Source name conn event
        (.resolved (data.getD .null))
  | error (id socket : Nat) (text : String) (same : event = .message socket (.error id text))
      (own : (conn.calls name).stage = .sent id socket) : Source name conn event (.rejected text)
  | inside (message : String) (quiet : ∀ socket frame, event ≠ .message socket frame) :
      Source name conn event (.rejected message)

/-- The event leaves the promise of the call alone, or settles it for the first time. -/
def SettlesOnce (name : Nat) (conn : Conn) (event : ConnEvent) : Prop :=
  name < conn.begun →
    ((conn.next event).calls name).outcomes = (conn.calls name).outcomes ∨
    (conn.calls name).outcomes = [] ∧
      ∃ outcome, ((conn.next event).calls name).outcomes = [outcome] ∧
        Source name conn event outcome

/-- In every state of the run the call is served, and every event settles it once at most. -/
def Sound (name : Nat) : Conn → List ConnEvent → Prop
  | conn, [] => conn.Served name
  | conn, event :: events =>
    conn.Served name ∧ conn.SettlesOnce name event ∧ Sound name (conn.next event) events

/-- The call waits for a promise that is not resolved. -/
def Waits (name : Nat) (conn : Conn) : Prop :=
  name < conn.begun ∧
    ∃ ready, (conn.calls name).stage = .awaiting ready ∧ conn.resolved ready = false

/-- The connection ends or is closed under a waiting call, or the call is made on a closed
connection whose ready promise is not resolved. -/
def Strands (name : Nat) (conn : Conn) : ConnEvent → Prop
  | .ended socket => conn.sockets socket ≠ .closed ∧ conn.closedByUs = false ∧ conn.Waits name
  | .close => conn.Waits name
  | .call => name = conn.begun ∧ conn.closedByUs = true ∧ conn.resolveReady.isSome = true
  | _ => False

def Careful (name : Nat) : Conn → List ConnEvent → Prop
  | _, [] => True
  | conn, event :: events => ¬ conn.Strands name event ∧ Careful name (conn.next event) events

end Conn

end Fantastic.Ts

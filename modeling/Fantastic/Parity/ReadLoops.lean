import Fantastic.Python.ReadLoop
import Fantastic.Python.SocketLoop
import Fantastic.Rust.ReadLoop

/-!
# What a bad peer can do to a read loop

Three loops that take frames from a socket: that of a Python web leg, that of a Python bridge
and that of a Rust bridge. None of them catches what the decoding of a message raises, so one
message that does not decode ends each of them; the Python loops end on further shapes.

A scene is a loop that runs, with a good call, and with a forward and its reply where there
are forwards.
-/

namespace Fantastic.Parity

open Bridge (Environment)
open Python (Runtime)

structure SocketScene where
  runtime : Runtime
  env : Environment
  client : String
  decoder : Python.Decoder
  agents : Value
  record : Option Dict
  start : Python.Socket.State
  receiving : Python.Socket.Receiving record start
  call : Python.Message
  frame : List (String × Value)
  good : Python.Socket.GoodCall runtime env decoder record call frame

structure EngineScene where
  leg : Python.ReadLoop.Leg
  start : Python.ReadLoop.State
  living : start.alive = true
  corr : String
  forward : Nat
  waits : Python.ReadLoop.Waits start corr forward
  call : Python.ReadLoop.Arrival
  callFrame : List (String × Value)
  good : Python.ReadLoop.GoodCall leg call callFrame
  reply : Python.ReadLoop.Arrival
  replyFrame : List (String × Value)
  answer : Python.ReadLoop.GoodReply leg reply replyFrame corr

structure RustScene where
  leg : Rust.ReadLoop.Leg
  start : Rust.ReadLoop.State
  living : start.alive = true
  corr : String
  forward : Nat
  waits : Rust.ReadLoop.Waits start corr forward
  call : Rust.ReadLoop.Arrival
  callFrame : Value
  callBody : Bytes
  good : Rust.ReadLoop.GoodCall leg call callFrame callBody
  reply : Rust.ReadLoop.Arrival
  replyFrame : Value
  replyBody : Bytes
  answer : Rust.ReadLoop.GoodReply leg reply replyFrame replyBody corr

/-- After the bad messages each loop dispatches its good call, and each bridge completes its
forward with the reply. -/
structure Unbroken (socket : SocketScene) (engine : EngineScene) (rust : RustScene)
    (toSocket : List Python.Message) (toEngine : List Python.ReadLoop.Arrival)
    (toRust : List Rust.ReadLoop.Arrival) : Prop where
  socketCall : Python.Socket.Dispatches socket.runtime socket.env socket.client socket.decoder
    socket.agents socket.start toSocket socket.call socket.frame
  engineCall : Python.ReadLoop.Dispatches engine.leg engine.start toEngine engine.call
    engine.callFrame
  engineForward : Python.ReadLoop.Completes engine.leg engine.start toEngine engine.reply
    engine.replyFrame engine.forward
  rustCall : Rust.ReadLoop.Dispatches rust.leg rust.start toRust rust.call rust.callFrame
    rust.callBody
  rustForward : Rust.ReadLoop.Completes rust.leg rust.start toRust rust.reply rust.replyFrame
    rust.replyBody rust.forward

/-- No message is harmful to its loop, and none answers the forward before its reply does. -/
structure Bearable (socket : SocketScene) (engine : EngineScene) (rust : RustScene)
    (toSocket : List Python.Message) (toEngine : List Python.ReadLoop.Arrival)
    (toRust : List Rust.ReadLoop.Arrival) : Prop where
  socket : ∀ message ∈ toSocket,
    Python.Socket.Harmless socket.runtime socket.env socket.decoder socket.record message
  engine : ∀ arrival ∈ toEngine, ∃ frame, Python.ReadLoop.Harmless engine.leg arrival frame ∧
    ¬ Python.ReadLoop.Takes frame engine.corr
  rust : ∀ arrival ∈ toRust, Rust.ReadLoop.Harmless rust.leg arrival ∧
    ¬ Rust.ReadLoop.Takes rust.leg arrival rust.corr

def pingFrame : List (String × Value) :=
  [("type", .str "call"), ("target", .str "clock")]

def pongFrame : List (String × Value) :=
  [("type", .str "reply"), ("id", .str "bridge:1"), ("data", .null)]

def twoTexts : Python.Decoder where
  loads := fun text =>
    if text = "ping" then some (.dict pingFrame)
    else if text = "pong" then some (.dict pongFrame)
    else none
  toInt := fun _ => none

def openRecord : Dict :=
  OrderedDict.empty.insert "ingress_rule" (.str "allow_all")

def openSocket : SocketScene where
  runtime :=
    { importable := fun _ => true
      repr := fun _ => ""
      str := fun _ => "" }
  env := fun _ => none
  client := "_ws_1"
  decoder := twoTexts
  agents := .list []
  record := some openRecord
  start :=
    { hub :=
        { record := some openRecord
          agents := fun _ => false
          watchers := fun _ => []
          inboxes := fun _ => none
          subscribers := [] }
      session := .fresh }
  receiving := ⟨rfl, rfl, rfl, fun _ _ same => Python.Socket.CallPhase.noConfusion same⟩
  call := .text "ping"
  frame := pingFrame
  good := ⟨rfl, rfl, .allow, rfl, rfl⟩

def quiet (text : String) : Python.ReadLoop.Arrival where
  message := .text text
  handled := .returned .null

def openEngine : EngineScene where
  leg :=
    { env := fun _ => none
      ingress := .allowAll
      decoder := twoTexts
      str := fun _ => "" }
  start :=
    { alive := true
      pending := OrderedDict.empty.insert "bridge:1" 0
      done := fun _ => false
      results := []
      dispatched := []
      sent := []
      events := [] }
  living := rfl
  corr := "bridge:1"
  forward := 0
  waits := by
    constructor
    · rfl
    · intro other held
      rw [OrderedDict.get?_insert] at held
      split at held
      case isTrue same => exact same
      case isFalse => cases held
    · rfl
  call := quiet "ping"
  callFrame := pingFrame
  good := ⟨rfl, rfl, .allow, rfl, rfl⟩
  reply := quiet "pong"
  replyFrame := pongFrame
  answer := ⟨rfl, rfl, rfl⟩

/-- Headers of one byte each. -/
def twoHeaders : Rust.Serde where
  toVec := fun _ => []
  fromSlice := fun bytes =>
    if bytes = [1] then some (.dict pingFrame)
    else if bytes = [2] then some (.dict pongFrame)
    else none

def framed (bytes : Bytes) : Rust.ReadLoop.Arrival where
  message := .binary bytes
  data := .null
  body := []

theorem decode_ping : Rust.ReadLoop.decode twoHeaders (.binary [0, 0, 0, 1, 1]) =
    some (.dict pingFrame, [], true) := by
  simp [Rust.ReadLoop.decode, Rust.decodeBinaryFrame, beValue, twoHeaders]

theorem decode_pong : Rust.ReadLoop.decode twoHeaders (.binary [0, 0, 0, 1, 2]) =
    some (.dict pongFrame, [], true) := by
  simp [Rust.ReadLoop.decode, Rust.decodeBinaryFrame, beValue, twoHeaders]

def openBridge : RustScene where
  leg :=
    { env := fun _ => none
      ingress := .allowAll
      serde := twoHeaders }
  start :=
    { alive := true
      pending := OrderedDict.empty.insert "bridge:1" 0
      listens := fun _ => true
      posted := []
      dispatched := []
      sent := []
      events := [] }
  living := rfl
  corr := "bridge:1"
  forward := 0
  waits := ⟨rfl, rfl⟩
  call := framed [0, 0, 0, 1, 1]
  callFrame := .dict pingFrame
  callBody := []
  good := ⟨⟨true, decode_ping⟩, rfl, by decide, rfl⟩
  reply := framed [0, 0, 0, 1, 2]
  replyFrame := .dict pongFrame
  replyBody := []
  answer := ⟨⟨true, decode_pong⟩, rfl, rfl⟩

end Fantastic.Parity

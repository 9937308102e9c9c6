import Fantastic.Swift.Gate

/-!
# The Swift WebSocket proxy

`WebSocketProxyHandler` of `WebSocket.swift`, one connection of it. Frames are read on the
event loop; a call or an emit becomes a task that runs later, and a drain task turns what
lies in the client's inbox into event frames. The gate is asked by the two kinds of call
only. In between the rest of the process may do to the kernel what it likes. Reading JSON,
UTF-8 and the kernel's dispatch are parameters.
-/

namespace Fantastic.Swift.Proxy

/-- What the handler takes from elsewhere: the readers, the environment, and `send` and
`sendWithBinary` of the kernel. -/
structure Host extends Reader where
  environment : String → Option String
  send : Kernel → String → Value → Kernel × Value
  sendWithBinary : Kernel → String → Value → Bytes → Kernel × Value × Bytes

/-- A `Task` a frame has started. -/
inductive PeerTask where
  | call (target : String) (payload : Value) (id : String) (token : Option String)
  | emit (target : String) (payload : Value)
  | binaryCall (target : String) (inner : Value) (id : String) (token : Option String)
      (blob : Bytes)

/-- What the handler does to the kernel and to the channel for the peer. -/
inductive Effect where
  | send (target : String) (payload : Value)
  | sendWithBinary (target : String) (payload : Value) (blob : Bytes)
  | emit (target : String) (payload : Value)
  | watch (src : String)
  | event (payload : Value)
  | reply (id : String) (data : Value)
  | binaryReply (id : String) (data : Value) (body : Bytes)

structure Connection where
  kernel : Kernel
  hostId : String
  legId : String
  clientId : String
  watching : List String
  tasks : List PeerTask
  draining : Bool
  effects : List Effect

/-- A handler that is not in its pipeline yet. -/
def Connection.fresh (kernel : Kernel) (hostId legId clientId : String) : Connection where
  kernel := kernel
  hostId := hostId
  legId := legId
  clientId := clientId
  watching := []
  tasks := []
  draining := false
  effects := []

inductive Step where
  | handlerAdded
  | text (text : String)
  | binary (data : Bytes)
  | runTask (index : Nat)
  | drain
  | teardown
  /-- Somebody else emits. -/
  | emitted (target : String) (payload : Value)
  /-- Somebody else's send fans out. -/
  | fannedOut (target : String) (payload : Value)
  | watched (src watcher : String)
  | unwatched (src watcher : String)
  | registered (record : AgentRecord) (rootPath : FileUrl)
  | unregistered (id : String)
  | patched (id : String) (patch : Dict)

namespace Connection

variable (host : Host) (connection : Connection)

/-- `kernel.watch(src:watcher:)` for the client; it registers nothing for an unknown agent. -/
def watchFor (src : String) : Connection :=
  { connection with
    kernel := connection.kernel.watch src connection.clientId
    watching := src :: connection.watching
    effects := if (connection.kernel.agent src).isSome then connection.effects ++ [.watch src]
      else connection.effects }

def handlerAdded : Connection :=
  let ensured : Connection :=
    { connection with
      kernel := connection.kernel.ensureInbox connection.clientId
      draining := true }
  if (ensured.kernel.agent connection.hostId).isSome then ensured.watchFor connection.hostId
  else ensured

def start (task : PeerTask) : Connection :=
  { connection with tasks := connection.tasks ++ [task] }

/-- `handleText`. -/
def handleText (text : String) : Connection :=
  match host.parse text with
  | none => connection
  | some parsed =>
    let target := (asString (member parsed "target")).getD connection.hostId
    let payload := member parsed "payload"
    match asString (member parsed "type") with
    | some "call" =>
      connection.start (.call target payload ((asString (member parsed "id")).getD "")
        (asString (member parsed "auth_token")))
    | some "emit" => connection.start (.emit target payload)
    | some "watch" =>
      match asString (member parsed "src") with
      | none => connection
      | some src => if src ∈ connection.watching then connection else connection.watchFor src
    | some "unwatch" =>
      match asString (member parsed "src") with
      | none => connection
      | some src =>
        if src ∈ connection.watching then
          { connection with
            kernel := connection.kernel.unwatch src connection.clientId
            watching := connection.watching.filter (· ≠ src) }
        else connection
    | _ => connection

/-- `handleBinary`. -/
def handleBinary (data : Bytes) : Connection :=
  match host.decodeBinaryFrame data with
  | none => connection
  | some (header, blob) =>
    connection.start (.binaryCall ((asString (member header "target")).getD connection.hostId)
      (member header "payload") ((asString (member header "id")).getD "")
      (asString (member header "auth_token")) blob)

def gate (target : String) (payload : Value) (token : Option String) : Option Value :=
  gateWebLeg host.environment connection.kernel connection.legId target
    ((asString (member payload "type")).getD "") token

def perform (effects : List Effect) : Connection :=
  { connection with effects := connection.effects ++ effects }

/-- The body of a task. -/
def execute : PeerTask → Connection
  | .call target payload id token =>
    match connection.gate host target payload token with
    | some denied => connection.perform [.reply id denied]
    | none =>
      let (kernel, reply) := host.send connection.kernel target payload
      { connection with kernel := kernel }.perform [.send target payload, .reply id reply]
  | .emit target payload =>
    { connection with kernel := connection.kernel.emit target payload }.perform
      [.emit target payload]
  | .binaryCall target inner id token blob =>
    match connection.gate host target inner token with
    | some denied => connection.perform [.reply id denied]
    | none =>
      let (kernel, reply, body) := host.sendWithBinary connection.kernel target inner blob
      { connection with kernel := kernel }.perform [.sendWithBinary target inner blob,
        if body.isEmpty then .reply id reply else .binaryReply id reply body]

def runTask (index : Nat) : Connection :=
  match connection.tasks[index]? with
  | none => connection
  | some task => { connection with tasks := connection.tasks.eraseIdx index }.execute host task

/-- One turn of the drain task. -/
def drain : Connection :=
  match connection.draining, (connection.kernel.inboxes.get? connection.clientId).getD [] with
  | true, payload :: rest =>
    { connection with
      kernel := { connection.kernel with
        inboxes := connection.kernel.inboxes.insert connection.clientId rest } }.perform
      [.event payload]
  | _, _ => connection

def teardown : Connection :=
  { connection with
    kernel := connection.watching.foldl
      (fun kernel src => kernel.unwatch src connection.clientId) connection.kernel
    watching := []
    draining := false }

/-- What the rest of the process does to the kernel. -/
def elsewhere (change : Kernel → Kernel) : Connection :=
  { connection with kernel := change connection.kernel }

def step : Step → Connection
  | .handlerAdded => connection.handlerAdded
  | .text text => connection.handleText host text
  | .binary data => connection.handleBinary host data
  | .runTask index => connection.runTask host index
  | .drain => connection.drain
  | .teardown => connection.teardown
  | .emitted target payload => connection.elsewhere fun kernel => kernel.emit target payload
  | .fannedOut target payload => connection.elsewhere fun kernel =>
    match kernel.agent target with
    | none => kernel
    | some agent => kernel.fanoutToWatchers agent payload
  | .watched src watcher => connection.elsewhere fun kernel => kernel.watch src watcher
  | .unwatched src watcher => connection.elsewhere fun kernel => kernel.unwatch src watcher
  | .registered record rootPath => connection.elsewhere fun kernel =>
    (kernel.allocate (Agent.new record rootPath)).register kernel.allocated
  | .unregistered id => connection.elsewhere fun kernel => kernel.unregister id
  | .patched id patch => connection.elsewhere fun kernel =>
    match kernel.agents.get? id with
    | none => kernel
    | some ref => kernel.modify ref fun agent =>
      { agent with metadata := agent.metadata.update patch }

def run : List Step → Connection → Connection
  | [], connection => connection
  | step :: rest, connection => run rest (connection.step host step)

end Connection

end Fantastic.Swift.Proxy

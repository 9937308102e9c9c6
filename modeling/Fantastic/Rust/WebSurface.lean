import Fantastic.Bridge.IngressRules
import Fantastic.Foundation.Utf8
import Fantastic.Rust.Codec

/-!
# The Rust web surface

`ws_loop`, `handle_binary_frame`, `handle_chunked_frame` and the three REST handlers
of `fantastic-web`, as one machine: inputs are what peers send and what the kernel
fans out to watchers and state subscribers, effects are what the surface does to the
kernel or hands to a peer. The extractors of the HTTP framework are parameters. An
event for a full inbox is dropped by the kernel; here every event is handed on.
-/

namespace Fantastic.Rust

def maxChunkSize : Nat := 1048576

def maxUploadSize : Nat := 100 * 1048576

def maxConcurrentUploads : Nat := 16

def object (members : List (String × Value)) : Value :=
  .dict members

/-- `obj.remove(name)` for each of the names. -/
def withoutFields (names : List String) : Value → Value
  | .dict members => .dict (members.filter fun member => member.1 ∉ names)
  | other => other

/-- What the surface does for or to a peer; a client is known by its number. -/
inductive Effect where
  | send (sender target : String) (payload : Value)
  | sendWithBinary (sender target : String) (header : Value) (blob : Bytes)
  | emit (sender target : String) (payload : Value)
  | watch (src : String) (client : Nat)
  | unwatch (src : String) (client : Nat)
  | subscribeState (client : Nat)
  | unsubscribeState (client : Nat)
  | stateSnapshot (client : Nat)
  | event (client : Nat) (payload : Value)
  | stateEvent (client : Nat) (payload : Value)
  | notice (client : Nat) (frame : Value)
  deriving DecidableEq

/-! ### Chunked uploads -/

structure ChunkBuffer where
  chunks : List (Nat × Bytes)
  total : Nat
  cumulativeBytes : Nat
  baseHeader : Value

/-- `BTreeMap::insert`: sorted by index, an equal index is replaced. -/
def insertChunk (index : Nat) (blob : Bytes) : List (Nat × Bytes) → List (Nat × Bytes)
  | [] => [(index, blob)]
  | (other, held) :: rest =>
    if index < other then (index, blob) :: (other, held) :: rest
    else if index = other then (index, blob) :: rest
    else (other, held) :: insertChunk index blob rest

abbrev Uploads := OrderedDict String ChunkBuffer

/-- `ingest_chunk`: the map afterwards, and the assembled upload if it is complete. -/
def ingestChunk (uploads : Uploads) (uploadId : String) (index total : Nat) (blob : Bytes)
    (baseHeader : Value) : Uploads × Except String (Option (Value × Bytes)) :=
  if !uploads.contains uploadId && decide (maxConcurrentUploads ≤ uploads.entries.length) then
    (uploads, .error ("chunked upload: concurrent upload cap " ++ toString maxConcurrentUploads ++
      " reached"))
  else
    let buffer := (uploads.get? uploadId).getD
      { chunks := []
        total := total
        cumulativeBytes := 0
        baseHeader := baseHeader }
    if buffer.total ≠ total then
      (uploads.erase uploadId, .error ("chunked upload: total_chunks mismatch (saw " ++
        toString buffer.total ++ ", now " ++ toString total ++ ")"))
    else
      let projected := buffer.cumulativeBytes + blob.length
      if projected > maxUploadSize then
        (uploads.erase uploadId, .error ("chunked upload: projected " ++ toString projected ++
          " bytes exceeds total cap " ++ toString maxUploadSize))
      else
        let chunks := insertChunk index blob buffer.chunks
        if chunks.length % 2 ^ 32 = buffer.total then
          (uploads.erase uploadId, .ok (some (buffer.baseHeader, chunks.flatMap Prod.snd)))
        else
          (uploads.insert uploadId
            { buffer with chunks := chunks, cumulativeBytes := projected }, .ok none)

/-! ### One WebSocket connection -/

/-- `watching` starts with the host; `subscriptions` counts the state tokens held. -/
structure Connection where
  host : String
  watching : List String
  subscriptions : Nat
  uploads : Uploads

/-- `_ws_{n:06x}`. -/
def clientId (client : Nat) : String :=
  let digits := Nat.toDigits 16 client
  "_ws_" ++ String.ofList (List.replicate (6 - digits.length) '0' ++ digits)

def errorFrame (id : Value) (text : String) : Value :=
  object [("type", .str "error"), ("id", id), ("error", .str text)]

/-- The frame a `send_with_binary` dispatches, if the header names a target. -/
def dispatchBinary (client : Nat) (header : Value) (blob : Bytes) : Option Effect :=
  (asStr (field header "target")).map fun target =>
    .sendWithBinary (clientId client) target header blob

/-- `handle_chunked_frame`. -/
def handleChunkedFrame (client : Nat) (connection : Connection) (uploadId : String)
    (header id : Value) (blob : Bytes) : Connection × List Effect :=
  match asU64 (field header "chunk_index") with
  | none => (connection, [.notice client (errorFrame id
      "chunked upload: chunk_index required (u32)")])
  | some index =>
    if 2 ^ 32 ≤ index then
      (connection, [.notice client (errorFrame id
        "chunked upload: chunk_index required (u32)")])
    else
      match asU64 (field header "total_chunks") with
      | none => (connection, [.notice client (errorFrame id
          "chunked upload: total_chunks required (u32 ≥ 1)")])
      | some total =>
        if total < 1 ∨ 2 ^ 32 ≤ total then
          (connection, [.notice client (errorFrame id
            "chunked upload: total_chunks required (u32 ≥ 1)")])
        else if total ≤ index then
          (connection, [.notice client (errorFrame id ("chunked upload: chunk_index " ++
            toString index ++ " >= total_chunks " ++ toString total))])
        else
          let base := withoutFields ["upload_id", "chunk_index", "total_chunks", "final"] header
          let (uploads, outcome) :=
            ingestChunk connection.uploads uploadId index total blob base
          let connection := { connection with uploads := uploads }
          match outcome with
          | .error text => (connection, [.notice client (errorFrame id text)])
          | .ok none => (connection, [.notice client (object [("type", .str "chunk_ack"),
              ("upload_id", .str uploadId), ("chunk_index", .int index)])])
          | .ok (some (assembled, full)) =>
            match dispatchBinary client assembled full with
            | some effect => (connection, [effect])
            | none => (connection, [.notice client (errorFrame id
                "chunked upload: assembled header missing target")])

/-- `handle_binary_frame`. The whole header is what a frame dispatches. -/
def handleBinaryFrame (serde : Serde) (client : Nat) (connection : Connection) (bytes : Bytes) :
    Connection × List Effect :=
  match beValue bytes with
  | none => (connection, [])
  | some size =>
    if bytes.length < 4 + size then (connection, [])
    else
      match serde.fromSlice ((bytes.drop 4).take size) with
      | none => (connection, [])
      | some header =>
        let blob := bytes.drop (4 + size)
        let id := (field header "id").getD .null
        if blob.length > maxChunkSize then
          (connection, [.notice client (errorFrame id ("binary frame: blob " ++
            toString blob.length ++ " bytes exceeds chunk cap " ++ toString maxChunkSize))])
        else
          match asStr (field header "upload_id") with
          | some uploadId => handleChunkedFrame client connection uploadId header id blob
          | none => (connection, (dispatchBinary client header blob).toList)

/-- The text branch of the inbound loop of `ws_loop`. -/
def handleTextFrame (serde : Serde) (client : Nat) (connection : Connection) (text : String) :
    Connection × List Effect :=
  match serde.fromSlice (utf8 text) with
  | none => (connection, [])
  | some env =>
    let target := asStr (field env "target")
    let payload := (field env "payload").getD .null
    let src := asStr (field env "src")
    match (asStr (field env "type")).getD "" with
    | "call" =>
      match target, asStr (field env "id") with
      | some target, _ => (connection, [.send connection.host target payload])
      | none, some id =>
        (connection, [.notice client (errorFrame (.str id) "call requires target")])
      | none, none => (connection, [])
    | "emit" =>
      match target with
      | some target => (connection, [.emit connection.host target payload])
      | none => (connection, [])
    | "watch" =>
      match src with
      | none => (connection, [])
      | some src =>
        if src ∈ connection.watching then (connection, [])
        else ({ connection with watching := connection.watching ++ [src] },
          [.watch src client])
    | "unwatch" =>
      match src with
      | none => (connection, [])
      | some src =>
        if src ∈ connection.watching then
          ({ connection with watching := connection.watching.filter (· ≠ src) },
            [.unwatch src client])
        else (connection, [])
    | "state_subscribe" =>
      ({ connection with subscriptions := connection.subscriptions + 1 },
        [.stateSnapshot client, .subscribeState client])
    | "state_unsubscribe" =>
      ({ connection with subscriptions := 0 },
        List.replicate connection.subscriptions (.unsubscribeState client))
    | _ => (connection, [])

/-! ### The whole surface -/

/-- The extractors of the HTTP framework: a rejected request never reaches a handler. -/
structure Extractors where
  json : Bytes → Option Value
  readme : String → Option (Option UInt8)

inductive Input where
  | connect (host : String)
  | text (client : Nat) (text : String)
  | binary (client : Nat) (bytes : Bytes)
  | disconnect (client : Nat)
  | restPost (owner target : String) (body : Bytes)
  | restReflectRoot (owner query : String)
  | restReflect (owner target query : String)
  /-- A payload the kernel fans out to the watchers of `src`. -/
  | traffic (src : String) (payload : Value)
  /-- An event of the state stream. -/
  | telemetry (payload : Value)

structure Surface where
  nextClient : Nat
  connections : OrderedDict Nat Connection

def Surface.fresh : Surface where
  nextClient := 0
  connections := .empty

def reflectPayload (readme : Option UInt8) : Value :=
  object [("type", .str "reflect"), ("readme", .bool (readme.getD 0 ≠ 0))]

/-- The clean-up block of `ws_loop`. -/
def closeConnection (client : Nat) (connection : Connection) : List Effect :=
  connection.watching.map (.unwatch · client) ++
    List.replicate connection.subscriptions (.unsubscribeState client)

/-- A frame for one connection; a client that is not connected sends none. -/
def Surface.onConnection (surface : Surface) (client : Nat)
    (handle : Connection → Connection × List Effect) : Surface × List Effect :=
  match surface.connections.get? client with
  | none => (surface, [])
  | some connection =>
    let (next, effects) := handle connection
    ({ surface with connections := surface.connections.insert client next }, effects)

def Surface.step (serde : Serde) (extractors : Extractors) (surface : Surface) :
    Input → Surface × List Effect
  | .connect host =>
    let client := surface.nextClient
    ({ nextClient := client + 1
       connections := surface.connections.insert client
         { host := host
           watching := [host]
           subscriptions := 0
           uploads := .empty } }, [.watch host client])
  | .text client text => surface.onConnection client fun connection =>
    handleTextFrame serde client connection text
  | .binary client bytes => surface.onConnection client fun connection =>
    handleBinaryFrame serde client connection bytes
  | .disconnect client =>
    match surface.connections.get? client with
    | none => (surface, [])
    | some connection =>
      ({ surface with connections := surface.connections.erase client },
        closeConnection client connection)
  | .restPost owner target body =>
    match extractors.json body with
    | none => (surface, [])
    | some payload => (surface, [.send owner target payload])
  | .restReflectRoot owner query =>
    match extractors.readme query with
    | none => (surface, [])
    | some readme => (surface, [.send owner "kernel" (reflectPayload readme)])
  | .restReflect owner target query =>
    match extractors.readme query with
    | none => (surface, [])
    | some readme => (surface, [.send owner target (reflectPayload readme)])
  | .traffic src payload =>
    (surface, surface.connections.entries.filterMap fun entry =>
      if src ∈ entry.2.watching then some (.event entry.1 payload) else none)
  | .telemetry payload =>
    (surface, surface.connections.entries.flatMap fun entry =>
      List.replicate entry.2.subscriptions (.stateEvent entry.1 payload))

/-- Everything the surface does on a sequence of inputs, in order. -/
def Surface.run (serde : Serde) (extractors : Extractors) :
    Surface → List Input → Surface × List Effect
  | surface, [] => (surface, [])
  | surface, input :: rest =>
    let (next, effects) := surface.step serde extractors input
    let (last, later) := next.run serde extractors rest
    (last, effects ++ later)

end Fantastic.Rust

import Fantastic.Swift.Transcript

/-!
# The agents of one backend bundle

One `AIBackend` serves all agents of its bundle (`AIBackend.swift`). What it keeps under an
agent's id is that agent's `Seat`; the interrupt epoch, the set of cancelled streams and the
in-flight counter are kept once, and so is the store behind the file bridge.
-/

namespace Fantastic.Swift.Ai.Sharing

open Fantastic.Ai
open Fantastic.Rust.Ai (ChatFile Reading)
open Transcript (Config Chats Writing)
open Coordination (Backend Stage)

/-- `AIBackendConfig`, with what agents have in their meta. -/
structure BundleConfig (Character : Type) where
  strings : Strings String Character
  stateless : Bool
  emitInterruptedError : Bool
  includeAccumulatedOnError : Bool
  sendTimeoutSeconds : Nat
  wired : String → Bool

variable {Character : Type} [DecidableEq Character] (config : BundleConfig Character)

def BundleConfig.forAgent (agent : String) : Config Character where
  strings := config.strings
  agentId := agent
  stateless := config.stateless
  wired := config.wired agent

/-- How far `runStream` is with its provider: it reads chunks, it is out of the loop, it has
returned. -/
inductive StreamPhase where
  | reading
  | finishing
  | over
  deriving DecidableEq

structure Stream where
  streamId : String
  messageId : String
  accumulated : String
  passText : String
  toolCalls : List Value
  phase : StreamPhase

/-- What a stream emits: its tokens and its terminal event. -/
inductive Event where
  | token (client streamId messageId delta accumulated : String)
  | done (client streamId messageId : String) (accumulated error : Option String)

/-- What a provider streams. -/
inductive Chunk where
  | token (delta : String)
  | toolCall (call : Value)

/-- How the projection seam leaves the messages of a run: as they are, compacted with a cursor,
or not at all. -/
inductive Projection where
  | unfired
  | fired (summary : Value) (mark : Nat × String)
  | failed (summary : Option Value) (error : String)

/-- What is kept under an agent's id. `startedAt` are the epochs that its streams recorded. -/
structure Seat where
  backend : Backend
  runs : Nat → Writing
  streams : Nat → Option Stream
  startedAt : Nat → UInt64
  menuCache : Option (List Value)
  projectionCache : Option Value
  compactionMark : Option (Nat × String)
  events : List Event

def Seat.fresh : Seat where
  backend := .fresh
  runs := fun _ => .starting
  streams := fun _ => none
  startedAt := fun _ => 0
  menuCache := none
  projectionCache := none
  compactionMark := none
  events := []

/-- `AIBackend`, and the store. -/
structure Bundle where
  seats : String → Seat
  interruptEpoch : UInt64
  cancelledStreams : List String
  inFlight : Nat
  files : String → ChatFile

def Bundle.fresh (files : String → ChatFile) : Bundle where
  seats := fun _ => .fresh
  interruptEpoch := 0
  cancelledStreams := []
  inFlight := 0
  files := files

/-- What is done for one agent next. `late` tells that the deadline has passed. -/
inductive Move where
  | coordinate (move : Backend.Move)
  | begin (number : Nat) (streamId messageId : String)
  | load (number : Nat) (reading : Reading)
  | saveBase (number : Nat) (messageId : String) (written : Bool)
  | assemble (menu : List Value)
  | project (number : Nat) (outcome : Projection)
  | chunk (number : Nat) (chunk : Chunk) (late : Bool)
  | endPass (number : Nat) (results : List Value)
  | fail (number : Nat) (error : String)
  | finish (number : Nat) (written : Bool)
  | interrupt
  | refreshMenu

namespace Seat

variable (seat : Seat)

def setStream (number : Nat) (stream : Stream) : Seat :=
  { seat with streams := Function.update seat.streams number (some stream) }

def client (number : Nat) : String :=
  (seat.backend.entries[number]?.map QueueEntry.client).getD ""

/-- The chat files as the agent's runs see them. -/
def chats (files : String → ChatFile) : Chats where
  backend := seat.backend
  files := files
  runs := seat.runs

/-- The stream of a run that has its user turn saved and reads from its provider. -/
def reading (number : Nat) : Option Stream :=
  match seat.backend.stage number, seat.runs number, seat.streams number with
  | .running _, .generating _, some stream =>
    if stream.phase = .reading then some stream else none
  | _, _, _ => none

/-- `clearCurrent` comes after `runStream`. -/
def returned : Backend.Move → Bool
  | .clear number => (seat.streams number).any fun stream => stream.phase = .over
  | _ => true

/-- The terminal event, after which `runStream` returns. -/
def emitDone (number : Nat) (stream : Stream) (error : Option String) : Seat :=
  let accumulated :=
    if error = none ∨ config.includeAccumulatedOnError then some stream.accumulated else none
  { seat.setStream number { stream with phase := .over } with
    events := seat.events ++
      [.done (seat.client number) stream.streamId stream.messageId accumulated error] }

def token (number : Nat) (stream : Stream) (delta : String) : Seat :=
  let accumulated := stream.accumulated ++ delta
  { seat.setStream number
      { stream with accumulated := accumulated, passText := stream.passText ++ delta } with
    events := seat.events ++
      [.token (seat.client number) stream.streamId stream.messageId delta accumulated] }

/-- One turn of `for try await chunk in stream`, with whether the stream is to bail. -/
def chunk (number : Nat) (stream : Stream) (chunk : Chunk) (late cancelled : Bool) : Seat :=
  if late then
    seat.emitDone config number stream
      (some ("send: timeout after " ++ toString config.sendTimeoutSeconds ++ "s"))
  else if cancelled then
    if config.emitInterruptedError then seat.emitDone config number stream (some "interrupted")
    else seat.setStream number { stream with phase := .finishing }
  else
    match chunk with
    | .token delta => seat.token number stream delta
    | .toolCall call =>
      seat.setStream number { stream with toolCalls := stream.toolCalls ++ [call] }

/-- The pass is over: the loop ends, or goes on with the replies to the tool calls. -/
def endPass (agent : String) (number : Nat) (stream : Stream) (results : List Value) : Seat :=
  if stream.toolCalls = [] then seat.setStream number { stream with phase := .finishing }
  else
    let passed := (seat.chats fun _ => .missing).step (config.forAgent agent)
      (.pass number stream.passText stream.toolCalls results)
    { seat.setStream number { stream with passText := "", toolCalls := [] } with
      runs := passed.runs
      menuCache := none }

/-- `projectContext`, with what it notes for the agent. -/
def project (number : Nat) (stream : Stream) (outcome : Projection) : Seat :=
  match outcome with
  | .unfired => { seat with projectionCache := some (.dict [("fired", .bool false)]) }
  | .fired summary mark =>
    { seat with
      projectionCache := some summary
      compactionMark := some mark }
  | .failed (some summary) error =>
    { seat.emitDone config number stream (some error) with
      projectionCache := some summary
      compactionMark := none }
  | .failed none error => seat.emitDone config number stream (some error)

end Seat

namespace Bundle

def putSeat (bundle : Bundle) (agent : String) (seat : Seat) : Bundle :=
  { bundle with seats := Function.update bundle.seats agent seat }

def isStreamCancelled (bundle : Bundle) (streamId : String) (startedAt : UInt64) : Bool :=
  decide (streamId ∈ bundle.cancelledStreams ∨ startedAt < bundle.interruptEpoch)

/-- The `defer` block of `runStream`, for a stream that has returned. -/
def leave (bundle : Bundle) (agent : String) (number : Nat) : Bundle :=
  match (bundle.seats agent).streams number with
  | some stream =>
    if stream.phase = .over then
      { bundle with
        cancelledStreams := bundle.cancelledStreams.erase stream.streamId
        inFlight := bundle.inFlight - 1 }
    else bundle
  | none => bundle

/-- The history part of a run, on the store. -/
def history (bundle : Bundle) (agent : String) (seat : Seat) (move : Transcript.Move) : Bundle :=
  let after := (seat.chats bundle.files).step (config.forAgent agent) move
  { bundle.putSeat agent { seat with backend := after.backend, runs := after.runs } with
    files := after.files }

/-- `bumpInFlight(+1)` when `sendVerb` has announced and starts the task. -/
def starts (backend : Backend) : Backend.Move → Bool
  | .probe number => backend.stage number = .probing ∧ backend.state.fifo.locked = false
  | .announce number => backend.stage number = .announcing
  | _ => false

def step (bundle : Bundle) (agent : String) (move : Move) : Bundle :=
  let seat := bundle.seats agent
  match move with
  | .coordinate move =>
    if seat.returned move then
      { bundle.history config agent seat (.coordinate move) with
        inFlight := bundle.inFlight + (starts seat.backend move).toNat }
    else bundle
  | .begin number streamId messageId =>
    match seat.backend.stage number, seat.streams number with
    | .running _, none =>
      bundle.putSeat agent
        { seat.setStream number
            { streamId := streamId
              messageId := messageId
              accumulated := ""
              passText := ""
              toolCalls := []
              phase := .reading } with
          startedAt := Function.update seat.startedAt number bundle.interruptEpoch }
    | _, _ => bundle
  | .load number reading =>
    match seat.streams number with
    | some _ => bundle.history config agent seat (.load number reading)
    | none => bundle
  | .saveBase number messageId written =>
    match seat.streams number with
    | some _ => bundle.history config agent seat (.saveBase number messageId written)
    | none => bundle
  | .assemble menu =>
    bundle.putSeat agent { seat with menuCache := some (seat.menuCache.getD menu) }
  | .project number outcome =>
    match seat.reading number with
    | some stream =>
      (bundle.putSeat agent (seat.project config number stream outcome)).leave agent number
    | none => bundle
  | .chunk number chunk late =>
    match seat.reading number with
    | some stream =>
      let cancelled := bundle.isStreamCancelled stream.streamId (seat.startedAt number)
      (bundle.putSeat agent
        (seat.chunk config number stream chunk late cancelled)).leave agent number
    | none => bundle
  | .endPass number results =>
    match seat.reading number with
    | some stream => bundle.putSeat agent (seat.endPass config agent number stream results)
    | none => bundle
  | .fail number error =>
    match seat.reading number with
    | some stream =>
      (bundle.putSeat agent
        (seat.emitDone config number stream (some error))).leave agent number
    | none => bundle
  | .finish number written =>
    match seat.backend.stage number, seat.streams number with
    | .running _, some stream =>
      if stream.phase = .finishing then
        let done := seat.emitDone config number stream none
        (bundle.history config agent done
          (.saveFinal number stream.messageId stream.passText written)).leave agent number
      else bundle
    | _, _ => bundle
  | .interrupt => { bundle with interruptEpoch := bundle.interruptEpoch + 1 }
  | .refreshMenu => bundle.putSeat agent { seat with menuCache := none }

/-- Moves come with the agent that they are made for. -/
def run (bundle : Bundle) (moves : List (String × Move)) : Bundle :=
  moves.foldl (fun bundle move => bundle.step config move.1 move.2) bundle

/-- What is stored for a client of an agent. -/
def transcript (bundle : Bundle) (agent client : String) : List Value :=
  (bundle.files (Transcript.chatPath (config.forAgent agent) client)).turns

end Bundle

end Fantastic.Swift.Ai.Sharing

import Fantastic.Foundation.OrderedDict
import Mathlib.Algebra.Group.Nat.Defs
import Mathlib.Logic.Function.Basic

/-!
# Calls over a bridge, step by step

The correlation of calls and replies in `fantastic-bridge`: `boot_reply`,
`shutdown_reply`, `forward_core` and `read_loop`, cut at the points where another task
can run. A generation is one `BridgeState`: its counter starts at zero on every boot.
The correlation id of a call is the agent's id and a number; the agent is fixed here,
so the number stands for it. A frame remembers the call it was made for, which no code
reads; a relay may keep frames on the way for as long as it likes and deliver a reply
to any read loop of the agent.
-/

namespace Fantastic.Rust

/-- What a `forward` hands its caller: the data of a reply, or an error. -/
inductive Outcome where
  | reply (call : Nat)
  | error
  deriving DecidableEq

/-- Where a `forward` stands in `forward_core`. -/
inductive Phase where
  | held (generation : Nat)
  | numbered (generation number : Nat)
  | inserted (generation number : Nat)
  | waiting (generation number : Nat)
  | expired (generation number : Nat)
  | returned (outcome : Outcome)
  deriving DecidableEq

/-- `inbox` is the oneshot channel; `origin` records the id once it is issued. -/
structure CallState where
  phase : Phase
  origin : Option (Nat × Nat)
  inbox : Option Outcome
  deriving DecidableEq

/-- The receiver of the oneshot is still there. -/
def CallState.listens (call : CallState) : Bool :=
  match call.phase with
  | .inserted _ _ | .waiting _ _ => call.inbox.isNone
  | _ => false

/-- `tx.send(outcome)`: lost when nobody listens. -/
def CallState.post (call : CallState) (outcome : Outcome) : CallState :=
  if call.listens then { call with inbox := some outcome } else call

/-- One `BridgeState`. `issued` counts the ids taken from `corr_counter`. -/
structure Generation where
  issued : Nat
  pending : OrderedDict Nat Nat
  running : Bool

structure Frame where
  number : Nat
  call : Nat
  deriving DecidableEq

structure Bridge where
  generations : Nat → Generation
  built : Nat
  dialing : Nat
  unpublished : List Nat
  current : Option Nat
  calls : Nat → CallState
  begun : Nat
  callFrames : List Frame
  replyFrames : List (Frame × Bool)

namespace Bridge

def fresh : Bridge where
  generations := fun _ => { issued := 0, pending := .empty, running := false }
  built := 0
  dialing := 0
  unpublished := []
  current := none
  calls := fun _ => { phase := .returned .error, origin := none, inbox := none }
  begun := 0
  callFrames := []
  replyFrames := []

/-- Every place where a task of the bridge, the peer or the relay moves on. -/
inductive Move where
  | bootCheck
  | bootFail
  | bootBuild
  | publish (generation : Nat)
  | shutdown
  | stop (generation : Nat)
  | drain (generation : Nat)
  | start
  | issue (call : Nat)
  | insert (call : Nat)
  | send (call : Nat)
  | sendFail (call : Nat)
  | timeout (call : Nat)
  | receive (call : Nat)
  | cleanup (call : Nat)
  | answer (index : Nat) (failed : Bool)
  | loseCall (index : Nat)
  | loseReply (index : Nat)
  | deliver (generation index : Nat)
  deriving DecidableEq

def setCall (bridge : Bridge) (call : Nat) (state : CallState) : Bridge :=
  { bridge with calls := Function.update bridge.calls call state }

def setPhase (bridge : Bridge) (call : Nat) (phase : Phase) : Bridge :=
  bridge.setCall call { bridge.calls call with phase := phase }

def post (bridge : Bridge) (call : Nat) (outcome : Outcome) : Bridge :=
  bridge.setCall call ((bridge.calls call).post outcome)

def setPending (bridge : Bridge) (generation : Nat) (pending : OrderedDict Nat Nat) : Bridge :=
  { bridge with
    generations := Function.update bridge.generations generation
      { bridge.generations generation with pending := pending } }

def setRunning (bridge : Bridge) (generation : Nat) (running : Bool) : Bridge :=
  { bridge with
    generations := Function.update bridge.generations generation
      { bridge.generations generation with running := running } }

/-- The earlier channel of a number is dropped when the number is taken again. -/
def dropped (bridge : Bridge) (generation number : Nat) : Bridge :=
  match (bridge.generations generation).pending.get? number with
  | none => bridge
  | some call => bridge.post call .error

/-- `fetch_add(1)` and the id made of it, on a 64-bit counter. -/
def issueNumber (bridge : Bridge) (call generation : Nat) : Bridge :=
  let state := bridge.generations generation
  let number := (state.issued + 1) % 2 ^ 64
  ({ bridge with
    generations := Function.update bridge.generations generation
      { state with issued := state.issued + 1 } }).setCall call
    { bridge.calls call with
      phase := .numbered generation number
      origin := some (generation, number) }

/-- One reply frame in the read loop of a generation. -/
def deliverFrame (bridge : Bridge) (generation : Nat) (frame : Frame) (failed : Bool) : Bridge :=
  match (bridge.generations generation).pending.get? frame.number with
  | none => bridge
  | some call =>
    (bridge.setPending generation
      ((bridge.generations generation).pending.erase frame.number)).post call
        (if failed then .error else .reply frame.call)

def step (bridge : Bridge) : Move → Bridge
  | .bootCheck =>
    if bridge.current.isNone then { bridge with dialing := bridge.dialing + 1 } else bridge
  | .bootFail => { bridge with dialing := bridge.dialing - 1 }
  | .bootBuild =>
    if bridge.dialing = 0 then bridge
    else
      { bridge with
        dialing := bridge.dialing - 1
        generations := Function.update bridge.generations bridge.built
          { issued := 0, pending := .empty, running := true }
        built := bridge.built + 1
        unpublished := bridge.unpublished ++ [bridge.built] }
  | .publish generation =>
    if generation ∈ bridge.unpublished then
      { bridge with
        unpublished := bridge.unpublished.filter (· ≠ generation)
        current := some generation }
    else bridge
  | .shutdown => { bridge with current := none }
  | .stop generation => bridge.setRunning generation false
  | .drain generation =>
    let held := (bridge.generations generation).pending.items
    { bridge.setPending generation .empty with
      calls := fun call =>
        if call ∈ held then (bridge.calls call).post .error else bridge.calls call }
  | .start =>
    let phase := match bridge.current with
      | none => .returned .error
      | some generation => .held generation
    { bridge.setCall bridge.begun { phase := phase, origin := none, inbox := none } with
      begun := bridge.begun + 1 }
  | .issue call =>
    match (bridge.calls call).phase with
    | .held generation => bridge.issueNumber call generation
    | _ => bridge
  | .insert call =>
    match (bridge.calls call).phase with
    | .numbered generation number =>
      let replaced := bridge.dropped generation number
      (replaced.setPending generation
        ((bridge.generations generation).pending.insert number call)).setPhase call
          (.inserted generation number)
    | _ => bridge
  | .send call =>
    match (bridge.calls call).phase with
    | .inserted generation number =>
      { bridge.setPhase call (.waiting generation number) with
        callFrames := bridge.callFrames ++ [⟨number, call⟩] }
    | _ => bridge
  | .sendFail call =>
    match (bridge.calls call).phase with
    | .inserted generation number =>
      (bridge.setPending generation
        ((bridge.generations generation).pending.erase number)).setPhase call (.returned .error)
    | _ => bridge
  | .timeout call =>
    match (bridge.calls call).phase, (bridge.calls call).inbox with
    | .waiting generation number, none => bridge.setPhase call (.expired generation number)
    | _, _ => bridge
  | .receive call =>
    match (bridge.calls call).phase, (bridge.calls call).inbox with
    | .waiting _ _, some (.reply origin) => bridge.setPhase call (.returned (.reply origin))
    | .waiting generation number, some .error => bridge.setPhase call (.expired generation number)
    | _, _ => bridge
  | .cleanup call =>
    match (bridge.calls call).phase with
    | .expired generation number =>
      (bridge.setPending generation
        ((bridge.generations generation).pending.erase number)).setPhase call (.returned .error)
    | _ => bridge
  | .answer index failed =>
    match bridge.callFrames[index]? with
    | none => bridge
    | some frame => { bridge with replyFrames := bridge.replyFrames ++ [(frame, failed)] }
  | .loseCall index => { bridge with callFrames := bridge.callFrames.eraseIdx index }
  | .loseReply index => { bridge with replyFrames := bridge.replyFrames.eraseIdx index }
  | .deliver generation index =>
    match bridge.replyFrames[index]? with
    | none => bridge
    | some (frame, failed) =>
      if (bridge.generations generation).running then
        { bridge with replyFrames := bridge.replyFrames.eraseIdx index }.deliverFrame
          generation frame failed
      else bridge

def run (bridge : Bridge) (moves : List Move) : Bridge :=
  moves.foldl step bridge

end Bridge

end Fantastic.Rust

import Fantastic.Foundation.Runs
import Fantastic.Foundation.Value
import Fantastic.Python.BackendSend

/-!
# The run of a send, and its last events

`_run` of `ai_core/core.py` as a machine: the provider streams text and tool calls, a round of
tool calls is gathered, and a stream without tool calls is the last. It is put into the sends of
a backend, with the final events that the run and the `except` branches of its send emit: a
`status` of phase `done`, and `done`. The events before them are left out.
-/

namespace Fantastic.Python.Ai.Sending

/-! ### `_run` -/

/-- `chunk["tool_call"]`. -/
structure ToolCall where
  id : Value
  name : Value
  arguments : Value

/-- What of a backend's configuration the turns depend on; `dumps` is `json.dumps`. -/
structure TurnFormat where
  toolArgsAsJson : Bool
  dumps : Value → String

namespace TurnFormat

variable (format : TurnFormat)

def userTurn (text : Value) : Value :=
  .dict [("role", .str "user"), ("content", text)]

def callEntry (call : ToolCall) : Value :=
  .dict [("id", call.id), ("type", .str "function"),
    ("function", .dict [("name", call.name),
      ("arguments",
        if format.toolArgsAsJson then .str (format.dumps call.arguments) else call.arguments)])]

/-- The assistant turn that carries tool calls. -/
def assistantTurn (text : String) (calls : List ToolCall) : Value :=
  .dict [("role", .str "assistant"), ("content", .str text),
    ("tool_calls", .list (calls.map format.callEntry))]

/-- What `_exec_one` returns; the reply is an error object where the tool raised. -/
def toolTurn (call : ToolCall) (reply : Value) : Value :=
  .dict [("role", .str "tool"), ("tool_call_id", call.id), ("name", call.name),
    ("content", .str (format.dumps reply))]

def finalTurn (text : String) : Value :=
  .dict [("role", .str "assistant"), ("content", .str text)]

end TurnFormat

/-- JSON of no matter what. -/
def plainFormat : TurnFormat where
  toolArgsAsJson := false
  dumps := fun _ => "{}"

/-- Where a run is: before its loop, in a stream with what has come of it, in `gather` with the
replies there are, in the two final events, in `_save_history`. -/
inductive Stage where
  | preparing
  | streaming (parts : List String) (calls : List ToolCall)
  | calling (calls : List ToolCall) (replies : List (Option Value))
  | finishing (text : String)
  | saving

def Stage.isPreparing : Stage → Bool
  | .preparing => true
  | _ => false

/-- The run has not begun its final events. -/
def Stage.quiet : Stage → Bool
  | .finishing _ | .saving => false
  | _ => true

/-- A send as its run sees it. A `stateless` send brings its own messages. -/
structure Work where
  client : String
  text : Value
  stateless : Bool
  newTurns : List Value
  stage : Stage

inductive RunMove where
  | begin
  | chunk (text : String)
  | toolCall (call : ToolCall)
  | endStream
  | reply (slot : Nat) (reply : Value)
  | gathered
  | sayDone

namespace Work

variable (format : TurnFormat)

def start (client : String) (text : Value) (stateless : Bool) : Work where
  client := client
  text := text
  stateless := stateless
  newTurns := []
  stage := .preparing

/-- The next piece of the run, where it is the run's turn. A tool's turn is kept in the order of
the calls, whatever the order of the replies. -/
def advance (work : Work) (move : RunMove) : Option Work :=
  match move, work.stage with
  | .begin, .preparing =>
    some { work with newTurns := [TurnFormat.userTurn work.text], stage := .streaming [] [] }
  | .chunk text, .streaming parts calls =>
    some { work with stage := .streaming (parts ++ [text]) calls }
  | .toolCall call, .streaming parts calls =>
    some { work with stage := .streaming parts (calls ++ [call]) }
  | .endStream, .streaming parts [] => some { work with stage := .finishing (String.join parts) }
  | .endStream, .streaming parts (call :: calls) =>
    some { work with
      newTurns :=
        work.newTurns ++ [format.assistantTurn (String.join parts) (call :: calls)]
      stage := .calling (call :: calls) ((call :: calls).map fun _ => none) }
  | .reply slot reply, .calling calls replies =>
    match replies[slot]? with
    | some none => some { work with stage := .calling calls (replies.set slot (some reply)) }
    | _ => none
  | .gathered, .calling calls replies =>
    if replies.all Option.isSome then
      some { work with
        newTurns :=
          work.newTurns ++ (calls.zip (replies.filterMap id)).map fun done =>
            format.toolTurn done.1 done.2
        stage := .streaming [] [] }
    else none
  | .sayDone, .finishing text =>
    some { work with
      newTurns := work.newTurns ++ [TurnFormat.finalTurn text]
      stage := .saving }
  | _, _ => none

end Work

/-! ### The final events -/

inductive Reason where
  | ok
  | timeout
  | interrupted
  | error
  deriving DecidableEq

inductive Final where
  | status (reason : Reason)
  | done
  deriving DecidableEq

/-- A final event on its way to `client`. `send` is the send whose code emits it, and
`current` the entry that `_emit_status` takes its `send_id` from. -/
structure Event where
  send : Nat
  client : String
  current : Option Nat
  final : Final
  deriving DecidableEq

/-- What a piece of the run emits. -/
def Work.emits (work : Work) (move : RunMove) : List Final :=
  match move, work.stage with
  | .endStream, .streaming _ [] => [.status .ok]
  | .sayDone, .finishing _ => [.done]
  | _, _ => []

def Exit.reason : Exit → Reason
  | .timeout => .timeout
  | .interrupted => .interrupted
  | .error => .error

/-- One backend with its runs. `told` is about a send in an `except` branch: its `done` event
is out, and `admitted` lists the sends in the order in which they took the lock. -/
structure Session where
  backend : Backend
  works : Nat → Work
  told : Nat → Bool
  admitted : List Nat
  log : List Event

namespace Session

variable (format : TurnFormat)

def fresh (id : String) : Session where
  backend := .fresh id
  works := fun _ => .start "" .null false
  told := fun _ => false
  admitted := []
  log := []

inductive Move where
  | send (client : String) (text : Value) (stateless : Bool) (callStack : List String)
  | announced (number : Nat)
  | wake (number : Nat)
  | launch (number : Nat)
  | advance (number : Nat) (move : RunMove)
  | endRun (number : Nat) (outcome : RunEnd)
  | deliver (number : Nat)
  | timeout (number : Nat)
  | cancel (number : Nat)
  | interrupt
  | tell (number : Nat)
  | close (number : Nat)

def say (session : Session) (number : Nat) (finals : List Final) : Session :=
  { session with
    log := session.log ++ finals.map fun final =>
      { send := number
        client := (session.works number).client
        current := session.backend.current
        final := final } }

/-- The backend moves on; who holds the lock then has been admitted. -/
def moved (session : Session) (move : Backend.Move) : Session :=
  let backend := session.backend.step move
  { session with
    backend := backend
    admitted :=
      match backend.holder with
      | some number =>
        if number ∈ session.admitted then session.admitted else session.admitted ++ [number]
      | none => session.admitted }

/-- A run returns before its loop, with an error for the caller, or after its append. -/
def mayEnd (session : Session) (number : Nat) (outcome : RunEnd) : Bool :=
  match outcome, (session.works number).stage with
  | .returned, .preparing | .returned, .saving => true
  | .returned, _ => false
  | _, _ => true

/-- The send enters an `except` branch, whose first event is the status. -/
def except (session : Session) (number : Nat) (reason : Reason) (move : Backend.Move) : Session :=
  (session.say number [.status reason]).moved move

def step (session : Session) (move : Move) : Session :=
  match move with
  | .send client text stateless callStack =>
    { session.moved (.call callStack) with
      works := Function.update session.works session.backend.begun
        (.start client text stateless) }
  | .announced number => session.moved (.announced number)
  | .wake number => session.moved (.wake number)
  | .launch number => session.moved (.launch number)
  | .advance number move =>
    match (session.backend.sends number).run, (session.works number).advance format move with
    | .executing _, some work =>
      { session.say number ((session.works number).emits move) with
        works := Function.update session.works number work }
    | _, _ => session
  | .endRun number outcome =>
    if session.mayEnd number outcome then session.moved (.endRun number outcome) else session
  | .deliver number =>
    match (session.backend.sends number).phase, (session.backend.sends number).run with
    | .awaiting, .ended .returned => session.moved (.deliver number)
    | .awaiting, .ended .raised => session.except number .error (.deliver number)
    | .awaiting, .ended .timedOut => session.except number .timeout (.deliver number)
    | .awaiting, .ended .cancelled => session.except number .interrupted (.deliver number)
    | _, _ => session
  | .timeout number =>
    match (session.backend.sends number).phase with
    | .awaiting => session.except number .timeout (.timeout number)
    | _ => session
  | .cancel number =>
    match (session.backend.sends number).phase with
    | .awaiting => session.except number .interrupted (.cancel number)
    | _ => session.moved (.cancel number)
  | .interrupt => session.moved .interrupt
  | .tell number =>
    match (session.backend.sends number).phase, session.told number with
    | .closing _, false =>
      { session.say number [.done] with told := Function.update session.told number true }
    | _, _ => session
  | .close number => if session.told number then session.moved (.close number) else session

def run (session : Session) (moves : List Move) : Session :=
  moves.foldl (step format) session

/-- The final events that the code of a send has emitted. -/
def finals (session : Session) (number : Nat) : List Event :=
  session.log.filter fun event => event.send = number

/-- Nothing comes between the final events of a send: a run returns without them, or begins
them, only while its send waits and only once; no timeout, error or cancellation reaches the
send after them, and no cancellation reaches it before its run or between its own two. -/
def Careful (session : Session) : Move → Prop
  | .advance number move =>
    (session.works number).emits move ≠ [] →
      (session.backend.sends number).phase = .awaiting
  | .endRun number outcome =>
    if outcome = .returned then
      (session.works number).stage.isPreparing = true →
        (session.backend.sends number).phase ≠ .awaiting
    else (session.works number).stage.quiet = true
  | .timeout number =>
    (session.backend.sends number).phase = .awaiting →
      (session.works number).stage.quiet = true
  | .cancel number =>
    match (session.backend.sends number).phase with
    | .thinking => False
    | .awaiting => (session.works number).stage.quiet = true
    | .closing _ => session.told number = true
    | _ => True
  | _ => True

instance (session : Session) (move : Move) : Decidable (session.Careful move) := by
  unfold Careful
  split
  case h_2 => split <;> infer_instance
  case h_4 => split <;> infer_instance
  all_goals infer_instance

/-- The backend of a session takes a step of its own, or none. -/
theorem step_backend (session : Session) (move : Move) :
    (session.step format move).backend = session.backend ∨
      ∃ inner, (session.step format move).backend = session.backend.step inner ∧
        ∀ number, inner = .cancel number → move = .cancel number := by
  cases move with
  | send client text stateless callStack => exact Or.inr ⟨.call callStack, rfl, by simp⟩
  | announced number => exact Or.inr ⟨.announced number, rfl, by simp⟩
  | wake number => exact Or.inr ⟨.wake number, rfl, by simp⟩
  | launch number => exact Or.inr ⟨.launch number, rfl, by simp⟩
  | interrupt => exact Or.inr ⟨.interrupt, rfl, by simp⟩
  | advance number piece =>
    simp only [step]
    split <;> exact Or.inl rfl
  | tell number =>
    simp only [step]
    split <;> exact Or.inl rfl
  | endRun number outcome =>
    simp only [step]
    split
    · exact Or.inr ⟨.endRun number outcome, rfl, by simp⟩
    · exact Or.inl rfl
  | close number =>
    simp only [step]
    split
    · exact Or.inr ⟨.close number, rfl, by simp⟩
    · exact Or.inl rfl
  | deliver number =>
    simp only [step]
    split
    case h_5 => exact Or.inl rfl
    all_goals exact Or.inr ⟨.deliver number, rfl, by simp⟩
  | timeout number =>
    simp only [step]
    split
    · exact Or.inr ⟨.timeout number, rfl, by simp⟩
    · exact Or.inl rfl
  | cancel number =>
    simp only [step]
    split <;> exact Or.inr ⟨.cancel number, rfl, by simp⟩

end Session

end Fantastic.Python.Ai.Sending

import Fantastic.Foundation.Value
import Mathlib.Logic.Function.Basic

/-!
# The send of a backend

`fantastic-ai-core`: `send` (`verbs.rs`), `interrupt` (`state.rs`), `run_generation`
(`agent_loop.rs`) and the chat files (`history.rs`), cut at their await points. A run is a
spawned task whose handle is in `current_task`; `send` polls that handle. A caller can be
dropped wherever it awaits: the lock guard goes with it, and nothing else does. An abort is
a request, and a task that is being polled goes on to its next await.

Sends are told apart by a number, which stands for the send id. A chat file is kept as the
list that is in it.
-/

namespace Fantastic.Rust.Ai

/-- The `Result` of a run. -/
inductive Outcome where
  | ok
  | error
  deriving DecidableEq

/-- How far a run is. `messages` is the system block, the history and the turns so far. -/
inductive Stage where
  | assembling
  | generating (messages : List Value)
  | saved
  deriving DecidableEq

/-- `result` is what the task wrote before it was over. -/
inductive Task where
  | unborn
  | running (stage : Stage) (aborted : Bool)
  | ended (result : Option Outcome)
  deriving DecidableEq

namespace Task

/-- Neither finished nor aborted. -/
def active : Task → Bool
  | .running _ aborted => !aborted
  | _ => false

def isFinished : Task → Bool
  | .ended _ => true
  | _ => false

def abort : Task → Task
  | .running stage _ => .running stage true
  | task => task

end Task

inductive Exit where
  | error
  | interrupted
  | timeout
  deriving DecidableEq

/-- Where a `send` awaits: its `queued` events, the lock, the `thinking` event, the sleeps
of the polling loop, the result, the sleep after the deadline, the `done` events. -/
inductive SendPhase where
  | announcing
  | waiting
  | thinking
  | polling
  | collecting
  | expiring
  | closing (exit : Exit)
  | left
  deriving DecidableEq

namespace SendPhase

/-- The phases with the lock guard. -/
def inside : SendPhase → Bool
  | .announcing | .waiting | .left => false
  | _ => true

/-- The phases before the lock. -/
def inLine : SendPhase → Bool
  | .announcing | .waiting => true
  | _ => false

/-- The phases that look at the task slot. -/
def watching : SendPhase → Bool
  | .polling | .collecting | .expiring => true
  | _ => false

end SendPhase

structure Send where
  client : String
  text : String
  phase : SendPhase
  task : Task
  deriving DecidableEq

/-- What is in `chat_<client>.json`. -/
inductive ChatFile where
  | missing
  | unparseable
  | list (turns : List Value)
  deriving DecidableEq

def ChatFile.turns : ChatFile → List Value
  | .list turns => turns
  | _ => []

/-- The answer to a read of a chat file: its content, or an error. -/
inductive Reading where
  | served
  | denied
  deriving DecidableEq

/-- `load_history`: no content and no list are both an empty history. -/
def loadHistory (file : ChatFile) : Reading → List Value
  | .served =>
    match file with
    | .missing => []
    | .unparseable => []
    | .list turns => turns
  | .denied => []

/-- `BackendState`, with the sends on it and the chat files. `holder` and `waiters` are the
lock: a free lock with waiters has been handed to the first of them. -/
structure Backend where
  sends : Nat → Send
  begun : Nat
  holder : Option Nat
  waiters : List Nat
  queue : List Nat
  currentMeta : Option Nat
  currentTask : Option Nat
  chats : String → ChatFile

namespace Backend

def fresh (chats : String → ChatFile) : Backend where
  sends := fun _ => { client := "", text := "", phase := .left, task := .unborn }
  begun := 0
  holder := none
  waiters := []
  queue := []
  currentMeta := none
  currentTask := none
  chats := chats

/-- What the callers, the runtime and the runs can do next. -/
inductive Move where
  | call (client text : String)
  | announced (number : Nat)
  | wake (number : Nat)
  | launch (number : Nat)
  | poll (number : Nat)
  | expire (number : Nat)
  | collect (number : Nat)
  | expired (number : Nat)
  | close (number : Nat)
  | drop (number : Nat)
  | interrupt
  | load (number : Nat) (system : String) (reading : Reading)
  | pass (number : Nat) (content : String) (calls results : List Value)
  | save (number : Nat) (content : String) (written : Bool)
  | finish (number : Nat)
  | fail (number : Nat)
  | die (number : Nat)
  deriving DecidableEq

def setPhase (backend : Backend) (number : Nat) (phase : SendPhase) : Backend :=
  { backend with
    sends := Function.update backend.sends number { backend.sends number with phase := phase } }

def setTask (backend : Backend) (number : Nat) (task : Task) : Backend :=
  { backend with
    sends := Function.update backend.sends number { backend.sends number with task := task } }

def abortTask (backend : Backend) (number : Nat) : Backend :=
  backend.setTask number (backend.sends number).task.abort

/-- The lock is taken: the entry leaves the queue and is what `status` shows. -/
def take (backend : Backend) (number : Nat) : Backend :=
  { backend.setPhase number .thinking with
    holder := some number
    queue := backend.queue.erase number
    currentMeta := some number }

def lockFree (backend : Backend) : Bool :=
  backend.holder.isNone && backend.waiters.isEmpty

/-- `lock_owned().await`. -/
def acquire (backend : Backend) (number : Nat) : Backend :=
  if backend.lockFree then backend.take number
  else { backend.setPhase number .waiting with waiters := backend.waiters ++ [number] }

/-- The end of `send`. -/
def leave (backend : Backend) (number : Nat) : Backend :=
  { backend.setPhase number .left with
    holder := none
    currentMeta := none }

def call (backend : Backend) (client text : String) : Backend :=
  let number := backend.begun
  let entered (phase : SendPhase) : Backend :=
    { backend with
      begun := number + 1
      queue := backend.queue ++ [number]
      sends := Function.update backend.sends number
        { client := client, text := text, phase := phase, task := .unborn } }
  if backend.lockFree then (entered .left).take number else entered .announcing

/-- Spawn the run; a handle that is still in the slot is aborted. -/
def launch (backend : Backend) (number : Nat) : Backend :=
  let cleared : Backend :=
    match backend.currentTask with
    | none => backend
    | some previous => backend.abortTask previous
  { (cleared.setTask number (.running .assembling false)).setPhase number .polling with
    currentTask := some number }

/-- `finished` of the polling loop. -/
def slotFinished (backend : Backend) : Bool :=
  match backend.currentTask with
  | none => true
  | some number => (backend.sends number).task.isFinished

/-- The result is in, or there is none: the slot is cleared and the reply made. -/
def collect (backend : Backend) (number : Nat) : Backend :=
  let cleared : Backend := { backend with currentTask := none }
  match (backend.sends number).task with
  | .ended (some .ok) => cleared.leave number
  | .ended (some .error) => cleared.setPhase number (.closing .error)
  | _ => cleared.setPhase number (.closing .interrupted)

/-- The caller's future is dropped where it awaits. -/
def drop (backend : Backend) (number : Nat) : Backend :=
  match (backend.sends number).phase with
  | .left => backend
  | .announcing => backend.setPhase number .left
  | .waiting =>
    { backend.setPhase number .left with waiters := backend.waiters.erase number }
  | _ => { backend.setPhase number .left with holder := none }

/-- `interrupt`: take the handle, and abort a task that is not finished. -/
def interrupt (backend : Backend) : Backend :=
  match backend.currentTask with
  | none => backend
  | some number => { backend.abortTask number with currentTask := none }

def turn (role content : String) : Value :=
  .dict [("role", .str role), ("content", .str content)]

/-- An assistant turn with its tool calls. -/
def callTurn (content : String) (calls : List Value) : Value :=
  .dict [("role", .str "assistant"), ("content", .str content), ("tool_calls", .list calls)]

/-- `assemble_messages`. -/
def assembleMessages (system text : String) (history : List Value) : List Value :=
  turn "system" system :: (history ++ [turn "user" text])

/-- A step of a run, which an abort does not stop at once. -/
def runStep (backend : Backend) (number : Nat)
    (next : Send → Stage → Option Stage) : Backend :=
  match (backend.sends number).task with
  | .running stage aborted =>
    match next (backend.sends number) stage with
    | none => backend
    | some later => backend.setTask number (.running later aborted)
  | _ => backend

/-- `save_history`: the list without the system block goes over the file. -/
def save (backend : Backend) (number : Nat) (content : String) (written : Bool) : Backend :=
  match (backend.sends number).task with
  | .running (.generating messages) aborted =>
    let toPersist := (messages ++ [turn "assistant" content]).drop 1
    let saved := backend.setTask number (.running .saved aborted)
    if written then
      { saved with
        chats := Function.update backend.chats (backend.sends number).client
          (.list toPersist) }
    else saved
  | _ => backend

/-- The task is over, with what it wrote. -/
def endTask (backend : Backend) (number : Nat) (result : Option Outcome) : Backend :=
  match (backend.sends number).task with
  | .running _ _ => backend.setTask number (.ended result)
  | _ => backend

def step (backend : Backend) : Move → Backend
  | .call client text => backend.call client text
  | .announced number =>
    if (backend.sends number).phase = .announcing then backend.acquire number else backend
  | .wake number =>
    if backend.holder = none ∧ backend.waiters.head? = some number then
      { backend.take number with waiters := backend.waiters.tail }
    else backend
  | .launch number =>
    if (backend.sends number).phase = .thinking then backend.launch number else backend
  | .poll number =>
    if (backend.sends number).phase = .polling ∧ backend.slotFinished = true then
      backend.setPhase number .collecting
    else backend
  | .expire number =>
    if (backend.sends number).phase = .polling ∧ backend.slotFinished = false then
      (backend.abortTask number).setPhase number .expiring
    else backend
  | .collect number =>
    if (backend.sends number).phase = .collecting then backend.collect number else backend
  | .expired number =>
    if (backend.sends number).phase = .expiring then
      { backend.setPhase number (.closing .timeout) with currentTask := none }
    else backend
  | .close number =>
    match (backend.sends number).phase with
    | .closing _ => backend.leave number
    | _ => backend
  | .drop number => backend.drop number
  | .interrupt => backend.interrupt
  | .load number system reading =>
    backend.runStep number fun send stage =>
      match stage with
      | .assembling => some (.generating (assembleMessages system send.text
          (loadHistory (backend.chats send.client) reading)))
      | _ => none
  | .pass number content calls results =>
    backend.runStep number fun _ stage =>
      match stage with
      | .generating messages =>
        some (.generating (messages ++ (callTurn content calls :: results)))
      | _ => none
  | .save number content written => backend.save number content written
  | .finish number =>
    match (backend.sends number).task with
    | .running .saved _ => backend.endTask number (some .ok)
    | _ => backend
  | .fail number =>
    match (backend.sends number).task with
    | .running .saved _ => backend
    | _ => backend.endTask number (some .error)
  | .die number => backend.endTask number none

def run (backend : Backend) (moves : List Move) : Backend :=
  moves.foldl step backend

end Backend

end Fantastic.Rust.Ai

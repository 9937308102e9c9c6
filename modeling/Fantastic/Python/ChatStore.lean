import Fantastic.Foundation.Runs
import Fantastic.Python.AiStatus
import Fantastic.Python.YamlRuns

/-!
# The chat store of a backend

`_ensure_chat_agent`, `_load_history` and `_save_history` of `ai_core/core.py`: the turns of a
backend's clients are kept by a `yaml_state` child of the backend in mode `chat`, found among
the agents or created, and remembered in `_chat_agent`. Everything these functions await is
answered without giving way to another task: `list_agents` and `create_agent` are answered by
the agents themselves, the boot of a `yaml_state` does nothing, and the file bridge behind the
loader reads and writes in place. So a search and the creation after it are one move, and so
are a load and the write after it.
-/

namespace Fantastic.Python.Ai.Chat

open YamlState (Yaml Answer Verdict Memory Alike listAt appended docOf sortKeys)

/-- What a record says of an agent here. No agent has an empty id. -/
structure Agent where
  id : String
  named : id ≠ ""
  parentId : String
  handlerModule : String
  mode : Value

/-- The id that `create_agent` makes up: the bundle, and six random digits. -/
def mintedId (token : String) : String :=
  "yaml_state_" ++ token

theorem mintedId_ne_empty (token : String) : mintedId token ≠ "" := by
  intro empty
  have lengths := congrArg String.length empty
  simp [mintedId] at lengths

/-- The agent that `_ensure_chat_agent` asks for. -/
def chatAgent (backend token : String) : Agent where
  id := mintedId token
  named := mintedId_ne_empty token
  parentId := backend
  handlerModule := "yaml_state.tools"
  mode := .str "chat"

/-- A chat store of the backend. -/
def isChat (backend : String) (agent : Agent) : Bool :=
  decide (agent.parentId = backend) && decide (agent.handlerModule = "yaml_state.tools") &&
    agent.mode == Value.str "chat"

/-- The registry, `_chat_agent` under the backend's id, and the files of the agents. The root,
`kernel_state`, is always there and is not listed. -/
structure World where
  agents : List Agent
  cached : Option String
  memories : String → Memory

variable (runtime : Runtime) (yaml : Yaml) (table : CharTable) (backend : String)

namespace World

/-- `kernel.get`. -/
def live (world : World) (id : String) : Bool :=
  world.agents.any fun agent => agent.id = id

/-- `_ensure_chat_agent`. An id that is taken already is refused by `create_agent`. -/
def ensureChatAgent (world : World) (token : String) : World × Option String :=
  match world.cached.filter world.live with
  | some id => (world, some id)
  | none =>
    match world.agents.find? (isChat backend) with
    | some agent => ({ world with cached := some agent.id }, some agent.id)
    | none =>
      if world.live (mintedId token) then ({ world with cached := none }, none)
      else
        ({ world with
            agents := world.agents ++ [chatAgent backend token]
            cached := some (mintedId token) },
          some (mintedId token))

/-- The key of a client: the verbs sanitise its id, and so do the two functions below. -/
def chatKey (client : String) : String :=
  safeClient table (safeClient table client)

def readPayload (key : String) : Dict :=
  (OrderedDict.empty.insert "type" (Value.str "read")).insert "key" (.str key)

def appendPayload (key : String) (turns : List Value) : Dict :=
  ((OrderedDict.empty.insert "type" (Value.str "append")).insert "key" (.str key)).insert
    "value" (.list turns)

/-- A call to the agent `id`, which may load and store its file. -/
def ask (world : World) (id : String) (move : YamlState.Move) : World :=
  { world with
    memories := Function.update world.memories id ((world.memories id).step runtime yaml move) }

def readMove (key : String) (answer : Answer) : YamlState.Move where
  payload := readPayload key
  answer := answer
  verdict := .silent none

def appendMove (key : String) (turns : List Value) (answer : Answer) (verdict : Verdict) :
    YamlState.Move where
  payload := appendPayload key turns
  answer := answer
  verdict := verdict

/-- `_load_history`, which the assembly of a send, `history`, `recall` and the reaction of
`context_status` all rest on. -/
def loadHistory (world : World) (client token : String) (answer : Answer) :
    World × Except PyError (List Value) :=
  match world.ensureChatAgent backend token with
  | (ready, none) => (ready, .ok [])
  | (ready, some id) =>
    let move := readMove (chatKey table client) answer
    (ready.ask runtime yaml id move,
      ((ready.memories id).reply runtime yaml move).map fun reply => listAt (reply.get? "value"))

/-- `_save_history`, with whether the append was acknowledged. -/
def saveHistory (world : World) (client : String) (turns : List Value) (token : String)
    (answer : Answer) (verdict : Verdict) : World × Bool :=
  if turns = [] then (world, false)
  else
    match world.ensureChatAgent backend token with
    | (ready, none) => (ready, false)
    | (ready, some id) =>
      let move := appendMove (chatKey table client) turns answer verdict
      (ready.ask runtime yaml id move,
        YamlState.acknowledged ((ready.memories id).reply runtime yaml move))

/-- The live chat store, if there is one. -/
def store (world : World) : Option String :=
  (world.agents.find? (isChat backend)).map Agent.id

/-- The acknowledged turns of a client, as long as the store they went to lives. -/
def turns (world : World) (client : String) : List Value :=
  match world.store backend with
  | some id => listAt ((world.memories id).ledger (chatKey table client))
  | none => []

end World

/-- What happens next: one of the backend's verbs comes to its load or its append, an agent is
deleted with its file, the process is restarted with the agents that had been flushed. -/
inductive Move where
  | load (client token : String) (answer : Answer)
  | append (client : String) (turns : List Value) (token : String) (answer : Answer)
      (verdict : Verdict)
  | delete (id : String)
  | restart (flushed : List String)

namespace World

def opened (agents : List Agent) (files : String → Option String) : World where
  agents := agents
  cached := none
  memories := fun id => .opened yaml (files id)

def step (world : World) : Move → World
  | .load client token answer =>
    (world.loadHistory runtime yaml table backend client token answer).1
  | .append client turns token answer verdict =>
    (world.saveHistory runtime yaml table backend client turns token answer verdict).1
  | .delete id =>
    { world with
      agents := world.agents.filter fun agent => agent.id ≠ id
      memories := Function.update world.memories id (.opened yaml none) }
  | .restart flushed =>
    { world with
      agents := world.agents.filter fun agent => agent.id ∈ flushed
      cached := none }

def run (world : World) (moves : List Move) : World :=
  moves.foldl (step runtime yaml table backend) world

/-- The load of a call gets the file itself, and what it writes comes back. -/
def Careful (world : World) : Move → Prop
  | .load client token answer => ∀ id, (world.ensureChatAgent backend token).2 = some id →
      (world.memories id).Careful runtime yaml (readMove (chatKey table client) answer)
  | .append client turns token answer verdict =>
    turns ≠ [] → ∀ id, (world.ensureChatAgent backend token).2 = some id →
      (world.memories id).Careful runtime yaml
        (appendMove (chatKey table client) turns answer verdict)
  | _ => True

/-- The store is `id` after the move. -/
def Stays (id : String) (world : World) (move : Move) : Prop :=
  (world.step runtime yaml table backend move).store backend = some id

end World

end Fantastic.Python.Ai.Chat

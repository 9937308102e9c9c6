import Mathlib.Algebra.GroupWithZero.Nat
import Mathlib.Data.List.Basic

/-!
# Calls that cross a bridge and come back

Two kernels joined by one pair of bridges of `io_bridge/_engine.py`. The read loop of a side
takes one frame at a time and awaits `kernel.send` for a call inline, so the handler it serves
runs inside the loop. A handler is a finite tree: it forwards its calls over the bridge one
after the other and answers from the replies. Any number of tasks outside the loops run such
handlers on either side.

Both sides admit the other's calls, neither transport closes, and no timeout fires: what is
asked is whether the forwards complete without one. A forward enters its future in the pending
table and sends its frame in one step.
-/

namespace Fantastic.Python.Reentry

/-- A handler: the calls it forwards, and its reply from theirs. -/
inductive Call (Reply : Type) where
  | mk (answer : List Reply → Reply) (calls : List (Call Reply))

variable {Reply : Type}

def Call.answer : Call Reply → List Reply → Reply
  | .mk answer _ => answer

def Call.calls : Call Reply → List (Call Reply)
  | .mk _ calls => calls

mutual

/-- The reply of a handler whose forwards all return their callees' replies. -/
def Call.reply : Call Reply → Reply
  | .mk answer calls => answer (replies calls)

def replies : List (Call Reply) → List Reply
  | [] => []
  | call :: rest => call.reply :: replies rest

end

mutual

/-- The forwards that serving a call takes. -/
def Call.forwards : Call Reply → Nat
  | .mk _ calls => forwardsOf calls

/-- The forwards of a list of calls, their own included. -/
def forwardsOf : List (Call Reply) → Nat
  | [] => 0
  | call :: rest => 1 + call.forwards + forwardsOf rest

end

/-- A handler under way; `waiting` is the id of the forward it awaits. -/
structure Task (Reply : Type) where
  answer : List Reply → Reply
  got : List Reply
  rest : List (Call Reply)
  waiting : Option Nat

def Call.task (call : Call Reply) : Task Reply where
  answer := call.answer
  got := []
  rest := call.calls
  waiting := none

inductive Frame (Reply : Type) where
  | call (id : Nat) (call : Call Reply)
  | reply (id : Nat) (data : Reply)

/-- One kernel with its bridge. The counter of ids is the length of `issued`; `inbox` is what
its transport has not delivered yet, and `settled` what the loop has given to futures. -/
structure Side (Reply : Type) where
  tasks : List (Task Reply)
  loop : Option (Nat × Task Reply)
  inbox : List (Frame Reply)
  issued : List (Call Reply)
  settled : List (Nat × Reply)

inductive Which where
  | left
  | right
  deriving DecidableEq

def Which.other : Which → Which
  | .left => .right
  | .right => .left

abbrev State (Reply : Type) := Which → Side Reply

def Side.start (calls : List (Call Reply)) : Side Reply where
  tasks := calls.map Call.task
  loop := none
  inbox := []
  issued := []
  settled := []

/-- The handlers that run outside the loops, on each side. -/
def start (left right : List (Call Reply)) : State Reply
  | .left => .start left
  | .right => .start right

inductive Step where
  | task (which : Which) (index : Nat)
  | loop (which : Which)
  deriving DecidableEq

/-- `fut.set_result`: the task that awaits this id goes on. -/
def Task.resume (id : Nat) (data : Reply) (task : Task Reply) : Task Reply :=
  if task.waiting = some id then { task with got := task.got ++ [data], waiting := none } else task

/-- `_forward` up to its `await`: a new id, and the call on its way. -/
def Side.forward (self peer : Side Reply) (call : Call Reply) : Side Reply × Side Reply :=
  ({ self with issued := self.issued ++ [call] },
    { peer with inbox := peer.inbox ++ [.call self.issued.length call] })

/-- A task outside the loops runs to its next `await`. -/
def taskStep (self peer : Side Reply) (index : Nat) : Option (Side Reply × Side Reply) :=
  match self.tasks[index]? with
  | none => none
  | some task =>
    match task.waiting, task.rest with
    | none, call :: more =>
      let (self', peer') := self.forward peer call
      some ({ self' with
        tasks := self.tasks.set index
          { task with rest := more, waiting := some self.issued.length } }, peer')
    | _, _ => none

/-- `_read_loop` runs to its next `await`: it takes a frame, or goes on with the handler it
serves, which is blocked while its own forward has no reply. -/
def loopStep (self peer : Side Reply) : Option (Side Reply × Side Reply) :=
  match self.loop with
  | none =>
    match self.inbox with
    | [] => none
    | .call id call :: more =>
      some ({ self with loop := some (id, call.task), inbox := more }, peer)
    | .reply id data :: more =>
      some ({ self with
        tasks := self.tasks.map (Task.resume id data)
        settled := self.settled ++ [(id, data)]
        inbox := more }, peer)
  | some (id, task) =>
    match task.waiting, task.rest with
    | some _, _ => none
    | none, call :: more =>
      let (self', peer') := self.forward peer call
      some ({ self' with
        loop := some (id, { task with rest := more, waiting := some self.issued.length }) },
        peer')
    | none, [] =>
      some ({ self with loop := none },
        { peer with inbox := peer.inbox ++ [.reply id (task.answer task.got)] })

/-- The two sides, seen from one of them. -/
def both (which : Which) (sides : Side Reply × Side Reply) : State Reply :=
  fun side => if side = which then sides.1 else sides.2

def step (state : State Reply) : Step → Option (State Reply)
  | .task which index => (taskStep (state which) (state which.other) index).map (both which)
  | .loop which => (loopStep (state which) (state which.other)).map (both which)

/-- Every step of a run moves something. -/
def run : List Step → State Reply → Option (State Reply)
  | [], state => some state
  | next :: rest, state => (step state next).bind (run rest)

/-- Some forward is pending: a task, or the handler a loop serves, awaits its reply. -/
def Pending (state : State Reply) : Prop :=
  ∃ which, (∃ task ∈ (state which).tasks, task.waiting.isSome) ∨
    ∃ id task, (state which).loop = some (id, task) ∧ task.waiting.isSome

/-- A read loop can make progress. -/
def LoopMoves (state : State Reply) : Prop :=
  ∃ which, (step state (.loop which)).isSome

/-- Every task outside the loops has made its forwards, and every forward made has returned
its callee's reply. -/
def Completed (state : State Reply) : Prop :=
  ∀ which, (∀ task ∈ (state which).tasks, task.rest = [] ∧ task.waiting = none) ∧
    ∀ id call, (state which).issued[id]? = some call → (id, call.reply) ∈ (state which).settled

/-- No run is longer than four steps for each forward, in every state reached a pending forward
leaves a read loop that can move, and a run that cannot go on has completed. -/
def Completes (left right : List (Call Reply)) : Prop :=
  ∀ steps state, run steps (start left right) = some state →
    steps.length ≤ 4 * ((left.map Call.forwards).sum + (right.map Call.forwards).sum) ∧
    (Pending state → LoopMoves state) ∧
    ((∀ next, step state next = none) → Completed state)

/-- No handler that serves a call from the bridge forwards over the bridge. -/
def Flat (calls : List (Call Reply)) : Prop :=
  ∀ handler ∈ calls, ∀ call ∈ handler.calls, call.calls = []

end Fantastic.Python.Reentry

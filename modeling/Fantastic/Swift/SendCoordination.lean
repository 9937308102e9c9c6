import Fantastic.Ai.Status
import Fantastic.Foundation.FifoLock
import Fantastic.Foundation.Runs
import Mathlib.Logic.Function.Basic

/-!
# The sends of a Swift backend agent

`AIFifoLock` and `AIAgentRunState` of `RunState.swift`, with the parts of `sendVerb`,
`runStream` and `emitStatus` of `AIBackend.swift` that reach them, cut at their awaits. A
`send` enters the queue, tells its caller when it has to wait, and leaves the rest to a task
that asks for the lock. The backend and its kernel live on while its sends do.
-/

namespace Fantastic.Swift.Ai.Coordination

open Fantastic.Ai

inductive Phase where
  | thinking
  | streaming
  | toolCalling
  | done
  deriving DecidableEq

/-- The phase as status events spell it. -/
def Phase.text : Phase → String
  | .thinking => "thinking"
  | .streaming => "streaming"
  | .toolCalling => "tool_calling"
  | .done => "done"

/-- `AIAgentRunState`; the threads of its lock are the sends by number. -/
structure RunState where
  fifo : FifoLock Nat
  queue : List (QueueEntry String String)
  current : Option (Current String String)

namespace RunState

def enqueue (state : RunState) (entry : QueueEntry String String) : RunState :=
  { state with queue := state.queue ++ [entry] }

def popToCurrent (state : RunState) (sendId : String) (startedAt : Value) (phase : String) :
    RunState :=
  match state.queue.find? fun entry => decide (entry.sendId = sendId) with
  | none => state
  | some entry =>
    { state with
      queue := state.queue.eraseP fun entry => decide (entry.sendId = sendId)
      current := some
        { toQueueEntry := entry
          startedAt := startedAt
          phase := phase
          textSoFar := ""
          lastTool := none } }

def updateCurrent (state : RunState) (body : Current String String → Current String String) :
    RunState :=
  { state with current := state.current.map body }

def clearCurrent (state : RunState) : RunState :=
  { state with current := none }

/-- What `emitStatus` does to the entry in flight. -/
def emitStatus (state : RunState) (phase : String) : RunState :=
  state.updateCurrent fun current => { current with phase := phase }

end RunState

/-- Where a send is: about to ask whether the lock is busy, in its `queued` events, with its
task started, in line, with the lock granted, in `runStream` in the phase it last announced,
after `clearCurrent`, after `release`. -/
inductive Stage where
  | absent
  | probing
  | announcing
  | spawned
  | waiting
  | granted
  | running (phase : Phase)
  | cleared
  | finished
  deriving DecidableEq

/-- Between `acquire` and `release`. -/
def Stage.holds : Stage → Bool
  | .granted | .running _ | .cleared => true
  | _ => false

/-- Before `popToCurrent`. -/
def Stage.queued : Stage → Bool
  | .probing | .announcing | .spawned | .waiting | .granted => true
  | _ => false

/-- Before `acquire`. -/
def Stage.early : Stage → Bool
  | .absent | .probing | .announcing | .spawned => true
  | _ => false

/-- The sends of one agent. `entries` are those accepted so far, by number; `asked` and
`granted` are those that called `acquire` and that the lock was given to; `finished` are those
whose task came to `clearCurrent`. -/
structure Backend where
  state : RunState
  entries : List (QueueEntry String String)
  stage : Nat → Stage
  asked : List Nat
  granted : List Nat
  finished : List (QueueEntry String String)

namespace Backend

def fresh : Backend where
  state := { fifo := .free, queue := [], current := none }
  entries := []
  stage := fun _ => .absent
  asked := []
  granted := []
  finished := []

/-- What callers and tasks do next. In `runStream` a send announces phases, streams text and
notes tool calls in any order; an interrupt touches nothing that is kept here, it and a timeout
only end a run earlier. -/
inductive Move where
  | call (entry : QueueEntry String String)
  | probe (number : Nat)
  | announce (number : Nat)
  | acquire (number : Nat)
  | pop (number : Nat) (startedAt : Value)
  | emit (number : Nat) (phase : Phase)
  | token (number : Nat) (delta : String)
  | tool (number : Nat) (lastTool : Option Value)
  | clear (number : Nat)
  | release (number : Nat)
  | interrupt
  | status

def setStage (backend : Backend) (number : Nat) (stage : Stage) : Backend :=
  { backend with stage := Function.update backend.stage number stage }

/-- The send id that the task of a send captured. -/
def sendId (backend : Backend) (number : Nat) : String :=
  (backend.entries[number]?.map QueueEntry.sendId).getD ""

def call (backend : Backend) (entry : QueueEntry String String) : Backend :=
  { backend.setStage backend.entries.length .probing with
    state := backend.state.enqueue entry
    entries := backend.entries ++ [entry] }

def acquire (backend : Backend) (number : Nat) : Backend :=
  let taken := backend.state.fifo.acquire number
  { backend.setStage number (if taken.2 then .granted else .waiting) with
    state := { backend.state with fifo := taken.1 }
    asked := backend.asked ++ [number]
    granted := if taken.2 then backend.granted ++ [number] else backend.granted }

/-- `release` resumes the oldest waiter, which has the lock from then on. -/
def release (backend : Backend) (number : Nat) : Backend :=
  let handed := backend.state.fifo.release
  let left := { backend.setStage number .finished with
    state := { backend.state with fifo := handed.1 }
    granted := backend.granted ++ handed.2.toList }
  match handed.2 with
  | none => left
  | some next => left.setStage next .granted

def step (backend : Backend) (move : Move) : Backend :=
  match move with
  | .call entry => backend.call entry
  | .probe number =>
    match backend.stage number with
    | .probing =>
      backend.setStage number (if backend.state.fifo.locked then .announcing else .spawned)
    | _ => backend
  | .announce number =>
    match backend.stage number with
    | .announcing =>
      { backend.setStage number .spawned with state := backend.state.emitStatus "queued" }
    | _ => backend
  | .acquire number =>
    match backend.stage number with
    | .spawned => backend.acquire number
    | _ => backend
  | .pop number startedAt =>
    match backend.stage number with
    | .granted =>
      { backend.setStage number (.running .thinking) with
        state := backend.state.popToCurrent (backend.sendId number) startedAt
          Phase.thinking.text }
    | _ => backend
  | .emit number phase =>
    match backend.stage number with
    | .running _ =>
      { backend.setStage number (.running phase) with
        state := backend.state.emitStatus phase.text }
    | _ => backend
  | .token number delta =>
    match backend.stage number with
    | .running _ =>
      { backend with
        state := backend.state.updateCurrent fun current =>
          { current with textSoFar := current.textSoFar ++ delta } }
    | _ => backend
  | .tool number lastTool =>
    match backend.stage number with
    | .running _ =>
      { backend with
        state := backend.state.updateCurrent fun current =>
          { current with lastTool := lastTool } }
    | _ => backend
  | .clear number =>
    match backend.stage number with
    | .running _ =>
      { backend.setStage number .cleared with
        state := backend.state.clearCurrent
        finished := backend.finished ++ backend.entries[number]?.toList }
    | _ => backend
  | .release number =>
    match backend.stage number with
    | .cleared => backend.release number
    | _ => backend
  | .interrupt => backend
  | .status => backend

def run (backend : Backend) (moves : List Move) : Backend :=
  moves.foldl step backend

/-- One holder at most; the lock is given in the order of the calls and once to each, and
nobody is left in line when it is free. -/
structure InTurn (backend : Backend) : Prop where
  single : ∀ first second, (backend.stage first).holds = true →
    (backend.stage second).holds = true → first = second
  order : backend.granted ++ backend.state.fifo.waiters = backend.asked
  once : backend.asked.Nodup
  idle : backend.state.fifo.locked = false → backend.state.fifo.waiters = []

/-- In turn; every accepted send is in one of the queue, the entry in flight and the finished
ones; and the entry in flight is the lock holder's, in the phase that the holder announced. -/
structure Coordinated (backend : Backend) : Prop extends backend.InTurn where
  places : (backend.state.queue ++ backend.state.current.toList.map Current.toQueueEntry ++
    backend.finished).Perm backend.entries
  distinct : (backend.entries.map QueueEntry.sendId).Nodup
  current : ∀ current, backend.state.current = some current → ∃ number phase,
    backend.stage number = .running phase ∧
      backend.entries[number]? = some current.toQueueEntry ∧ current.phase = phase.text

/-- Ids are new, and no send announces that it is queued while an entry is in flight. -/
def Careful (backend : Backend) : Move → Prop
  | .call entry => entry.sendId ∉ backend.entries.map QueueEntry.sendId
  | .announce number => backend.stage number = .announcing → backend.state.current = none
  | _ => True

instance (backend : Backend) (move : Move) : Decidable (backend.Careful move) := by
  unfold Careful
  split <;> infer_instance

def CarefulRun : Backend → List Move → Prop :=
  Runs.Along step Careful

variable {backend next : Backend} {holder : Option Nat} {number : Nat}

/-! ### The lock, whatever is announced -/

/-- The stages of the sends agree with the lock. -/
structure Locking (backend : Backend) (holder : Option Nat) : Prop where
  fair : backend.state.fifo.Fair holder backend.asked backend.granted
  holds : ∀ number, (backend.stage number).holds = true ↔ holder = some number
  waits : ∀ number, number ∈ backend.state.fifo.waiters ↔ backend.stage number = .waiting
  late : ∀ number ∈ backend.asked, (backend.stage number).early = false
  absent : ∀ number, backend.entries.length ≤ number → backend.stage number = .absent

theorem fresh_locking : fresh.Locking none where
  fair := FifoLock.free_fair
  holds := by simp [fresh, Stage.holds]
  waits := by simp [fresh, FifoLock.free]
  late := by simp [fresh]
  absent := by simp [fresh]

theorem Locking.inTurn (fine : backend.Locking holder) : backend.InTurn where
  single := by
    intro first second one two
    rw [fine.holds] at one two
    exact Option.some.inj (one.symm.trans two)
  order := fine.fair.order
  once := fine.fair.once
  idle := by
    intro unlocked
    apply fine.fair.idle
    rw [fine.fair.locked] at unlocked
    simpa using unlocked

/-- A send that is known has its entry. -/
theorem Locking.entry (fine : backend.Locking holder) (known : backend.stage number ≠ .absent) :
    ∃ entry, backend.entries[number]? = some entry := by
  have bound : number < backend.entries.length := by
    by_contra late
    exact known (fine.absent number (by omega))
  exact ⟨_, List.getElem?_eq_getElem bound⟩

/-- A send moves on without touching the lock. -/
theorem Locking.within {stage : Stage} (fine : backend.Locking holder)
    (fifo : next.state.fifo = backend.state.fifo) (asked : next.asked = backend.asked)
    (granted : next.granted = backend.granted)
    (stages : next.stage = Function.update backend.stage number stage)
    (holds : stage.holds = (backend.stage number).holds)
    (here : backend.stage number ≠ .waiting) (there : stage ≠ .waiting)
    (early : stage.early = true → (backend.stage number).early = true)
    (known : ∀ other, next.entries.length ≤ other →
      backend.entries.length ≤ other ∧ other ≠ number) :
    next.Locking holder := by
  have same : next.stage number = stage := by simp [stages]
  have elsewhere : ∀ other, other ≠ number → next.stage other = backend.stage other := by
    intro other apart
    simp [stages, apart]
  constructor
  · rw [fifo, asked, granted]
    exact fine.fair
  · intro other
    rw [← fine.holds]
    by_cases equal : other = number
    · rw [equal, same, holds]
    · rw [elsewhere other equal]
  · intro other
    rw [fifo, fine.waits]
    by_cases equal : other = number
    · rw [equal, same]
      simp [here, there]
    · rw [elsewhere other equal]
  · intro other listed
    rw [asked] at listed
    by_cases equal : other = number
    · subst equal
      rw [same]
      cases soon : stage.early with
      | false => rfl
      | true =>
        have before := fine.late other listed
        rw [early soon] at before
        exact before
    · rw [elsewhere other equal]
      exact fine.late other listed
  · intro other outside
    obtain ⟨far, apart⟩ := known other outside
    rw [elsewhere other apart]
    exact fine.absent other far

/-- Only the entry in flight changes. -/
theorem Locking.same (fine : backend.Locking holder)
    (fifo : next.state.fifo = backend.state.fifo) (asked : next.asked = backend.asked)
    (granted : next.granted = backend.granted) (stages : next.stage = backend.stage)
    (entries : next.entries = backend.entries) : next.Locking holder := by
  constructor
  · rw [fifo, asked, granted]
    exact fine.fair
  · rw [stages]
    exact fine.holds
  · rw [fifo, stages]
    exact fine.waits
  · rw [asked, stages]
    exact fine.late
  · rw [entries, stages]
    exact fine.absent

theorem Locking.known (fine : backend.Locking holder) {other : Nat}
    (here : backend.stage number ≠ .absent) (outside : backend.entries.length ≤ other) :
    backend.entries.length ≤ other ∧ other ≠ number := by
  refine ⟨outside, ?_⟩
  intro same
  exact here (same ▸ fine.absent other outside)

theorem Locking.call (fine : backend.Locking holder) (entry : QueueEntry String String) :
    (backend.call entry).Locking holder := by
  have absent := fine.absent backend.entries.length (Nat.le_refl _)
  have fifo : (backend.call entry).state.fifo = backend.state.fifo := rfl
  have stages : (backend.call entry).stage =
      Function.update backend.stage backend.entries.length .probing := rfl
  apply fine.within fifo rfl rfl stages
  · rw [absent]
    rfl
  · rw [absent]
    exact Stage.noConfusion
  · exact Stage.noConfusion
  · intro _
    rw [absent]
    rfl
  · intro other outside
    have length : (backend.entries ++ [entry]).length ≤ other := outside
    rw [List.length_append, List.length_singleton] at length
    omega

theorem Locking.acquire (fine : backend.Locking holder)
    (spawned : backend.stage number = .spawned) :
    ∃ after, (backend.acquire number).Locking after := by
  have new : number ∉ backend.asked := by
    intro listed
    have late := fine.late number listed
    rw [spawned] at late
    exact absurd late (by decide)
  have known : backend.stage number ≠ .absent := by
    rw [spawned]
    exact Stage.noConfusion
  have late : ∀ other ∈ (backend.acquire number).asked,
      ((backend.acquire number).stage other).early = false := by
    intro other listed
    by_cases same : other = number
    · simp only [Backend.acquire, setStage, same, Function.update_self]
      split <;> rfl
    · have before : other ∈ backend.asked := by
        simpa [Backend.acquire, same] using listed
      simpa [Backend.acquire, setStage, same] using fine.late other before
  have absent : ∀ other, (backend.acquire number).entries.length ≤ other →
      (backend.acquire number).stage other = .absent := by
    intro other outside
    obtain ⟨far, apart⟩ := fine.known known outside
    simpa [Backend.acquire, setStage, apart] using fine.absent other far
  cases holder with
  | none =>
    have taken : backend.state.fifo.acquire number =
        ({ backend.state.fifo with locked := true }, true) :=
      FifoLock.acquire_free fine.fair.locked_eq_false
    refine ⟨some number, ?_, ?_, ?_, late, absent⟩
    · simpa [Backend.acquire, taken] using fine.fair.take new
    · intro other
      by_cases same : other = number
      · simp [Backend.acquire, taken, setStage, same, Stage.holds]
      · have before := fine.holds other
        simp only [Backend.acquire, taken, setStage, Function.update_of_ne same, before]
        simp [Ne.symm same]
    · intro other
      by_cases same : other = number
      · have before := fine.waits number
        simp [spawned] at before
        simp [Backend.acquire, taken, setStage, same, before]
      · simpa [Backend.acquire, taken, setStage, same] using fine.waits other
  | some holding =>
    have taken : backend.state.fifo.acquire number =
        ({ backend.state.fifo with waiters := backend.state.fifo.waiters ++ [number] }, false) :=
      FifoLock.acquire_locked fine.fair.locked_eq_true
    refine ⟨some holding, ?_, ?_, ?_, late, absent⟩
    · simpa [Backend.acquire, taken] using fine.fair.wait new
    · intro other
      by_cases same : other = number
      · have before := fine.holds number
        simp [spawned, Stage.holds] at before
        simp [Backend.acquire, taken, setStage, same, Stage.holds, before]
      · simpa [Backend.acquire, taken, setStage, same] using fine.holds other
    · intro other
      by_cases same : other = number
      · simp [Backend.acquire, taken, setStage, same]
      · simpa [Backend.acquire, taken, setStage, same] using fine.waits other

theorem release_of_none (alone : backend.state.fifo.release.2 = none) :
    backend.release number =
      { backend.setStage number .finished with
        state := { backend.state with fifo := backend.state.fifo.release.1 }
        granted := backend.granted ++ (none : Option Nat).toList } := by
  simp only [Backend.release, alone]

theorem release_of_some {heir : Nat} (handed : backend.state.fifo.release.2 = some heir) :
    backend.release number =
      Backend.setStage { backend.setStage number .finished with
        state := { backend.state with fifo := backend.state.fifo.release.1 }
        granted := backend.granted ++ (some heir).toList } heir .granted := by
  simp only [Backend.release, handed]

theorem Locking.release (fine : backend.Locking holder) (cleared : backend.stage number = .cleared) :
    ∃ after, (backend.release number).Locking after := by
  have holding : holder = some number := by
    rw [← fine.holds, cleared]
    rfl
  subst holding
  have known : backend.stage number ≠ .absent := by
    rw [cleared]
    exact Stage.noConfusion
  have alone : ∀ other, other ≠ number → (backend.stage other).holds = false := by
    intro other apart
    rw [Bool.eq_false_iff]
    intro held
    exact apart (Option.some.inj ((fine.holds other).mp held)).symm
  have handed := fine.fair.release
  have line : ∀ other, other ∈ backend.state.fifo.release.1.waiters ↔
      other ∈ backend.state.fifo.waiters ∧ backend.state.fifo.release.2 ≠ some other :=
    fun other => fine.fair.mem_release_waiters
  cases next : backend.state.fifo.release.2 with
  | none =>
    have stages : (backend.release number).stage =
        Function.update backend.stage number .finished := by
      simp [Backend.release, next, setStage]
    rw [next] at handed
    refine ⟨none, ?_, ?_, ?_, ?_, ?_⟩
    · simpa [Backend.release, next, setStage] using handed
    · intro other
      rw [stages]
      by_cases same : other = number
      · simp [same, Stage.holds]
      · simp [same, alone other same]
    · intro other
      have fifo : (backend.release number).state.fifo = backend.state.fifo.release.1 := by
        simp [Backend.release, next, setStage]
      rw [fifo, line, fine.waits, stages, next]
      by_cases same : other = number
      · simp [same, cleared]
      · simp [same]
    · intro other listed
      have before : other ∈ backend.asked := by
        simpa [Backend.release, next, setStage] using listed
      rw [stages]
      by_cases same : other = number
      · simp [same, Stage.early]
      · simpa [same] using fine.late other before
    · intro other outside
      have far : backend.entries.length ≤ other := by
        simpa [Backend.release, next, setStage] using outside
      rw [stages]
      simpa [(fine.known known far).2] using fine.absent other far
  | some heir =>
    have waits := FifoLock.Fair.mem_of_next next
    have waiting := (fine.waits heir).mp waits
    have apart : heir ≠ number := fine.fair.ne_of_waits waits
    have stages : (backend.release number).stage =
        Function.update (Function.update backend.stage number .finished) heir .granted := by
      simp [Backend.release, next, setStage]
    have atHeir : (backend.release number).stage heir = .granted := by
      simp [stages]
    have atNumber : (backend.release number).stage number = .finished := by
      simp [stages, apart.symm]
    have elsewhere : ∀ other, other ≠ heir → other ≠ number →
        (backend.release number).stage other = backend.stage other := by
      intro other one two
      simp [stages, one, two]
    rw [next] at handed
    refine ⟨some heir, ?_, ?_, ?_, ?_, ?_⟩
    · simpa [Backend.release, next, setStage] using handed
    · intro other
      by_cases chosen : other = heir
      · rw [chosen, atHeir]
        simp [Stage.holds]
      · by_cases same : other = number
        · rw [same, atNumber]
          simp [Stage.holds, apart]
        · rw [elsewhere other chosen same]
          simp [alone other same, Ne.symm chosen]
    · intro other
      have fifo : (backend.release number).state.fifo = backend.state.fifo.release.1 := by
        simp [Backend.release, next, setStage]
      rw [fifo, line, fine.waits, next]
      by_cases chosen : other = heir
      · rw [chosen, atHeir]
        simp
      · by_cases same : other = number
        · rw [same, atNumber, cleared]
          simp
        · rw [elsewhere other chosen same]
          simp [Ne.symm chosen]
    · intro other listed
      have before : other ∈ backend.asked := by
        simpa [Backend.release, next, setStage] using listed
      by_cases chosen : other = heir
      · rw [chosen, atHeir]
        rfl
      · by_cases same : other = number
        · rw [same, atNumber]
          rfl
        · rw [elsewhere other chosen same]
          exact fine.late other before
    · intro other outside
      have far : backend.entries.length ≤ other := by
        simpa [Backend.release, next, setStage] using outside
      have heard : backend.stage heir ≠ .absent := by
        rw [waiting]
        exact Stage.noConfusion
      rw [elsewhere other (fine.known heard far).2 (fine.known known far).2]
      exact fine.absent other far

theorem popToCurrent_fifo (state : RunState) (sendId : String) (startedAt : Value)
    (phase : String) : (state.popToCurrent sendId startedAt phase).fifo = state.fifo := by
  unfold RunState.popToCurrent
  split <;> rfl

/-- What a move does, with what it finds. -/
inductive Effect (backend : Backend) : Move → Backend → Prop where
  | idle (move : Move) : Effect backend move backend
  | call (entry : QueueEntry String String) : Effect backend (.call entry) (backend.call entry)
  | probe (number : Nat) (stage : Stage) (here : backend.stage number = .probing)
      (there : stage = .announcing ∨ stage = .spawned) :
      Effect backend (.probe number) (backend.setStage number stage)
  | announce (number : Nat) (here : backend.stage number = .announcing) :
      Effect backend (.announce number)
        { backend.setStage number .spawned with state := backend.state.emitStatus "queued" }
  | acquire (number : Nat) (here : backend.stage number = .spawned) :
      Effect backend (.acquire number) (backend.acquire number)
  | pop (number : Nat) (startedAt : Value) (here : backend.stage number = .granted) :
      Effect backend (.pop number startedAt)
        { backend.setStage number (.running .thinking) with
          state := backend.state.popToCurrent (backend.sendId number) startedAt
            Phase.thinking.text }
  | emit (number : Nat) (phase before : Phase) (here : backend.stage number = .running before) :
      Effect backend (.emit number phase)
        { backend.setStage number (.running phase) with
          state := backend.state.emitStatus phase.text }
  | update (move : Move) (body : Current String String → Current String String)
      (kept : ∀ current, (body current).toQueueEntry = current.toQueueEntry ∧
        (body current).phase = current.phase) :
      Effect backend move { backend with state := backend.state.updateCurrent body }
  | clear (number : Nat) (phase : Phase) (here : backend.stage number = .running phase) :
      Effect backend (.clear number)
        { backend.setStage number .cleared with
          state := backend.state.clearCurrent
          finished := backend.finished ++ backend.entries[number]?.toList }
  | release (number : Nat) (here : backend.stage number = .cleared) :
      Effect backend (.release number) (backend.release number)

theorem step_effect (backend : Backend) (move : Move) :
    Effect backend move (backend.step move) := by
  cases move with
  | call entry => exact .call entry
  | probe number =>
    simp only [Backend.step]
    split
    · rename_i here
      apply Effect.probe number _ here
      split
      · exact Or.inl rfl
      · exact Or.inr rfl
    · exact .idle _
  | announce number =>
    simp only [Backend.step]
    split
    · rename_i here
      exact .announce number here
    · exact .idle _
  | acquire number =>
    simp only [Backend.step]
    split
    · rename_i here
      exact .acquire number here
    · exact .idle _
  | pop number startedAt =>
    simp only [Backend.step]
    split
    · rename_i here
      exact .pop number startedAt here
    · exact .idle _
  | emit number phase =>
    simp only [Backend.step]
    split
    · rename_i before here
      exact .emit number phase before here
    · exact .idle _
  | token number delta =>
    simp only [Backend.step]
    split
    · exact .update _ _ fun _ => ⟨rfl, rfl⟩
    · exact .idle _
  | tool number lastTool =>
    simp only [Backend.step]
    split
    · exact .update _ _ fun _ => ⟨rfl, rfl⟩
    · exact .idle _
  | clear number =>
    simp only [Backend.step]
    split
    · rename_i phase here
      exact .clear number phase here
    · exact .idle _
  | release number =>
    simp only [Backend.step]
    split
    · rename_i here
      exact .release number here
    · exact .idle _
  | interrupt => exact .idle _
  | status => exact .idle _

/-- `within` for a send that is known. -/
theorem Locking.moved {stage : Stage} (fine : backend.Locking holder)
    (fifo : next.state.fifo = backend.state.fifo) (asked : next.asked = backend.asked)
    (granted : next.granted = backend.granted) (entries : next.entries = backend.entries)
    (stages : next.stage = Function.update backend.stage number stage)
    (holds : stage.holds = (backend.stage number).holds)
    (here : backend.stage number ≠ .waiting ∧ backend.stage number ≠ .absent)
    (there : stage ≠ .waiting)
    (early : stage.early = true → (backend.stage number).early = true) :
    next.Locking holder := by
  apply fine.within fifo asked granted stages holds here.1 there early
  intro other outside
  rw [entries] at outside
  exact fine.known here.2 outside

theorem Locking.step (fine : backend.Locking holder) (move : Move) :
    ∃ after, (backend.step move).Locking after := by
  have effect := step_effect backend move
  generalize backend.step move = next at effect ⊢
  cases effect with
  | idle => exact ⟨holder, fine⟩
  | call entry => exact ⟨holder, fine.call entry⟩
  | probe number stage here there =>
    refine ⟨holder, fine.moved rfl rfl rfl rfl rfl ?_ ?_ ?_ ?_⟩
    all_goals
      cases there with
      | inl announcing => simp [announcing, here, Stage.holds, Stage.early]
      | inr spawned => simp [spawned, here, Stage.holds, Stage.early]
  | announce number here =>
    refine ⟨holder, fine.moved rfl rfl rfl rfl rfl ?_ ?_ ?_ ?_⟩
    all_goals simp [here, Stage.holds, Stage.early]
  | acquire number here => exact fine.acquire here
  | pop number startedAt here =>
    refine ⟨holder, fine.moved (popToCurrent_fifo ..) rfl rfl rfl rfl ?_ ?_ ?_ ?_⟩
    all_goals simp [here, Stage.holds, Stage.early]
  | emit number phase before here =>
    refine ⟨holder, fine.moved rfl rfl rfl rfl rfl ?_ ?_ ?_ ?_⟩
    all_goals simp [here, Stage.holds, Stage.early]
  | update _ body => exact ⟨holder, fine.same rfl rfl rfl rfl rfl⟩
  | clear number phase here =>
    refine ⟨holder, fine.moved rfl rfl rfl rfl rfl ?_ ?_ ?_ ?_⟩
    all_goals simp [here, Stage.holds, Stage.early]
  | release number here => exact fine.release here

/-- The lock is fair in every run. -/
theorem run_inTurn (moves : List Move) : (fresh.run moves).InTurn := by
  have kept : ∀ backend move, (∃ holder, Locking backend holder) →
      ∃ holder, (backend.step move).Locking holder := by
    intro backend move before
    obtain ⟨_, fine⟩ := before
    exact fine.step move
  obtain ⟨_, fine⟩ := Runs.invariant kept moves ⟨none, fresh_locking⟩
  exact fine.inTurn

/-! ### The queue and the entry in flight -/

/-- A send before `popToCurrent` is in the queue, and the one in `runStream` is in flight. -/
structure Placed (backend : Backend) : Prop where
  places : (backend.state.queue ++ backend.state.current.toList.map Current.toQueueEntry ++
    backend.finished).Perm backend.entries
  distinct : (backend.entries.map QueueEntry.sendId).Nodup
  queued : ∀ number entry, (backend.stage number).queued = true →
    backend.entries[number]? = some entry → entry ∈ backend.state.queue
  running : ∀ number phase, backend.stage number = .running phase → ∃ current,
    backend.state.current = some current ∧
      backend.entries[number]? = some current.toQueueEntry ∧ current.phase = phase.text
  current : ∀ current, backend.state.current = some current → ∃ number phase,
    backend.stage number = .running phase ∧
      backend.entries[number]? = some current.toQueueEntry ∧ current.phase = phase.text

theorem fresh_placed : fresh.Placed where
  places := List.Perm.refl []
  distinct := List.nodup_nil
  queued := by simp [fresh]
  running := by simp [fresh]
  current := by simp [fresh]

/-- Sends change their stage, and no entry its place. -/
theorem Placed.moved (fine : backend.Placed) (queue : next.state.queue = backend.state.queue)
    (current : next.state.current = backend.state.current)
    (entries : next.entries = backend.entries) (finished : next.finished = backend.finished)
    (queued : ∀ number, (next.stage number).queued = true →
      (backend.stage number).queued = true)
    (running : ∀ number phase, next.stage number = .running phase ↔
      backend.stage number = .running phase) : next.Placed := by
  constructor
  · rw [queue, current, finished, entries]
    exact fine.places
  · rw [entries]
    exact fine.distinct
  · intro number entry waits
    rw [queue, entries]
    exact fine.queued number entry (queued number waits)
  · intro number phase runs
    rw [current, entries]
    exact fine.running number phase ((running number phase).mp runs)
  · intro flying here
    rw [current] at here
    obtain ⟨number, phase, runs, known, same⟩ := fine.current flying here
    rw [entries]
    exact ⟨number, phase, (running number phase).mpr runs, known, same⟩

/-- One send goes from a stage to another with its entry in the queue. -/
theorem Placed.update {stage : Stage} (fine : backend.Placed)
    (queue : next.state.queue = backend.state.queue)
    (current : next.state.current = backend.state.current)
    (entries : next.entries = backend.entries) (finished : next.finished = backend.finished)
    (stages : next.stage = Function.update backend.stage number stage)
    (here : ∀ phase, backend.stage number ≠ .running phase)
    (there : ∀ phase, stage ≠ .running phase)
    (queued : stage.queued = true → (backend.stage number).queued = true) : next.Placed := by
  apply fine.moved queue current entries finished
  · intro other waits
    rw [stages] at waits
    by_cases same : other = number
    · rw [same, Function.update_self] at waits
      rw [same]
      exact queued waits
    · rwa [Function.update_of_ne same] at waits
  · intro other phase
    rw [stages]
    by_cases same : other = number
    · rw [same, Function.update_self]
      constructor
      · intro absurd
        exact (there phase absurd).elim
      · intro absurd
        exact (here phase absurd).elim
    · rw [Function.update_of_ne same]

theorem Placed.call (fine : backend.Placed) (locking : backend.Locking holder)
    {entry : QueueEntry String String} (new : entry.sendId ∉ backend.entries.map QueueEntry.sendId) :
    (backend.call entry).Placed := by
  have absent := locking.absent backend.entries.length (Nat.le_refl _)
  have here : (backend.call entry).stage backend.entries.length = .probing := by
    simp [Backend.call, setStage]
  have elsewhere : ∀ other, other ≠ backend.entries.length →
      (backend.call entry).stage other = backend.stage other := by
    intro other apart
    simp [Backend.call, setStage, apart]
  have grown : ∀ (number : Nat) (other : QueueEntry String String),
      backend.entries[number]? = some other →
      (backend.entries ++ [entry])[number]? = some other := by
    intro number other known
    rw [List.getElem?_append_left (List.getElem?_eq_some_iff.mp known).1]
    exact known
  constructor
  · have moved : (backend.state.queue ++ [entry] ++
        backend.state.current.toList.map Current.toQueueEntry ++ backend.finished).Perm
          (backend.state.queue ++ backend.state.current.toList.map Current.toQueueEntry ++
            backend.finished ++ [entry]) := by
      simp only [List.append_assoc]
      apply List.Perm.append_left
      rw [← List.append_assoc (List.map _ _)]
      exact List.perm_append_comm
    exact moved.trans (fine.places.append_right [entry])
  · have ids : ((backend.entries ++ [entry]).map QueueEntry.sendId).Nodup := by
      rw [List.map_append, List.map_singleton, List.nodup_append_comm]
      exact List.nodup_cons.mpr ⟨new, fine.distinct⟩
    exact ids
  · intro number other waits known
    apply List.mem_append.mpr
    have before : (backend.entries ++ [entry])[number]? = some other := known
    by_cases last : number = backend.entries.length
    · have same : (backend.entries ++ [entry])[number]? = some entry := by simp [last]
      rw [Option.some.inj (before.symm.trans same)]
      exact Or.inr List.mem_cons_self
    · rw [elsewhere number last] at waits
      have bound : number < backend.entries.length := by
        by_contra late
        rw [locking.absent number (by omega)] at waits
        exact absurd waits (by decide)
      rw [List.getElem?_append_left bound] at before
      exact Or.inl (fine.queued number other waits before)
  · intro number phase runs
    have old : backend.stage number = .running phase := by
      by_cases last : number = backend.entries.length
      · rw [last, here] at runs
        exact Stage.noConfusion runs
      · rwa [elsewhere number last] at runs
    obtain ⟨current, flying, known, same⟩ := fine.running number phase old
    exact ⟨current, flying, grown number current.toQueueEntry known, same⟩
  · intro current flying
    obtain ⟨number, phase, runs, known, same⟩ := fine.current current flying
    refine ⟨number, phase, ?_, grown number current.toQueueEntry known, same⟩
    rw [elsewhere number, runs]
    intro last
    rw [last, absent] at runs
    exact Stage.noConfusion runs

/-- Nobody is in flight while the lock is with a send outside `runStream`. -/
theorem Placed.current_eq_none (fine : backend.Placed) (locking : backend.Locking holder)
    (holds : (backend.stage number).holds = true)
    (outside : ∀ phase, backend.stage number ≠ .running phase) :
    backend.state.current = none := by
  cases flying : backend.state.current with
  | none => rfl
  | some current =>
    obtain ⟨other, phase, runs, _, _⟩ := fine.current current flying
    have same : other = number := by
      apply locking.inTurn.single other number _ holds
      rw [runs]
      rfl
    exact (outside phase (same ▸ runs)).elim

/-- In the queue the send id finds the entry of the send. -/
theorem Placed.find (fine : backend.Placed) {entry : QueueEntry String String}
    (member : entry ∈ backend.state.queue) :
    backend.state.queue.find? (fun other => decide (other.sendId = entry.sendId)) =
      some entry := by
  have ids : (backend.state.queue.map QueueEntry.sendId).Nodup := by
    have all := (fine.places.map QueueEntry.sendId).nodup_iff.mpr fine.distinct
    rw [List.map_append, List.map_append, List.nodup_append, List.nodup_append] at all
    exact all.1.1
  cases found : backend.state.queue.find? (fun other => decide (other.sendId = entry.sendId)) with
  | none =>
    have missing := List.find?_eq_none.mp found entry member
    simp at missing
  | some other =>
    have named : other.sendId = entry.sendId := by
      simpa using List.find?_some found
    rw [List.inj_on_of_nodup_map ids (List.mem_of_find?_eq_some found) member named]

theorem popToCurrent_found {state : RunState} {entry : QueueEntry String String} {sendId phase : String}
    (startedAt : Value)
    (found : state.queue.find? (fun other => decide (other.sendId = sendId)) = some entry) :
    state.popToCurrent sendId startedAt phase =
      { state with
        queue := state.queue.eraseP fun entry => decide (entry.sendId = sendId)
        current := some
          { toQueueEntry := entry
            startedAt := startedAt
            phase := phase
            textSoFar := ""
            lastTool := none } } := by
  unfold RunState.popToCurrent
  rw [found]

/-- Taking out the entry that is found leaves the others. -/
theorem perm_cons_eraseP {entries : List (QueueEntry String String)} {entry : QueueEntry String String}
    {wanted : QueueEntry String String → Bool} (found : entries.find? wanted = some entry) :
    (entry :: entries.eraseP wanted).Perm entries := by
  obtain ⟨suits, before, after, rfl, none⟩ := List.find?_eq_some_iff_append.mp found
  have kept : ∀ other ∈ before, ¬ wanted other = true := by
    intro other member
    simpa using none other member
  rw [List.eraseP_append_right _ kept, List.eraseP_cons_of_pos suits]
  exact List.perm_middle.symm

/-- Sends with one id are one send. -/
theorem Placed.same_number (fine : backend.Placed) {first second : Nat}
    {one two : QueueEntry String String} (left : backend.entries[first]? = some one)
    (right : backend.entries[second]? = some two) (ids : one.sendId = two.sendId) :
    first = second := by
  have bound : first < (backend.entries.map QueueEntry.sendId).length := by
    rw [List.length_map]
    exact (List.getElem?_eq_some_iff.mp left).1
  apply (List.getElem?_inj bound fine.distinct).mp
  rw [List.getElem?_map, List.getElem?_map, left, right, Option.map_some, Option.map_some, ids]

theorem Placed.pop (fine : backend.Placed) (locking : backend.Locking holder)
    (granted : backend.stage number = .granted) (startedAt : Value) :
    Placed { backend.setStage number (.running .thinking) with
      state := backend.state.popToCurrent (backend.sendId number) startedAt
        Phase.thinking.text } := by
  have heard : backend.stage number ≠ .absent := by
    rw [granted]
    exact Stage.noConfusion
  obtain ⟨entry, known⟩ := locking.entry heard
  have member : entry ∈ backend.state.queue := by
    apply fine.queued number entry _ known
    rw [granted]
    rfl
  have idle : backend.state.current = none := by
    refine fine.current_eq_none locking (?_ : (backend.stage number).holds = true) ?_
    · rw [granted]
      rfl
    · intro phase
      rw [granted]
      exact Stage.noConfusion
  have named : backend.sendId number = entry.sendId := by
    simp [Backend.sendId, known]
  have found := fine.find member
  have alone : ∀ other, (backend.stage other).holds = true → other = number := by
    intro other holds
    apply locking.inTurn.single other number holds
    rw [granted]
    rfl
  rw [named, popToCurrent_found startedAt found]
  constructor
  · have places := fine.places
    rw [idle] at places
    have moved : (backend.state.queue.eraseP (fun other => decide (other.sendId = entry.sendId))
        ++ [entry] ++ backend.finished).Perm (backend.state.queue ++ backend.finished) := by
      apply List.Perm.append_right
      exact List.perm_append_comm.trans (perm_cons_eraseP found)
    simp only [Option.toList_none, List.map_nil, List.append_nil] at places
    exact moved.trans places
  · exact fine.distinct
  · intro other waiting waits there
    by_cases same : other = number
    · rw [same] at waits
      simp [setStage, Stage.queued] at waits
    · have before : (backend.stage other).queued = true := by
        simpa [setStage, same] using waits
      have inside := fine.queued other waiting before there
      apply (List.mem_eraseP_of_neg _).mpr inside
      intro equal
      exact same (fine.same_number there known (of_decide_eq_true equal))
  · intro other phase runs
    by_cases same : other = number
    · subst same
      have begun : Phase.thinking = phase := by
        simpa [setStage] using runs
      subst begun
      exact ⟨_, rfl, known, rfl⟩
    · have before : backend.stage other = .running phase := by
        simpa [setStage, same] using runs
      have holds : (backend.stage other).holds = true := by
        rw [before]
        rfl
      exact (same (alone other holds)).elim
  · intro current flying
    have popped := Option.some.inj flying
    subst popped
    exact ⟨number, .thinking, by simp [setStage], known, rfl⟩

/-- The send in `runStream` changes the entry in flight, which is its own. -/
theorem Placed.change (fine : backend.Placed) (locking : backend.Locking holder)
    {phase before : Phase} (here : backend.stage number = .running before)
    (stages : next.stage = Function.update backend.stage number (.running phase))
    {body : Current String String → Current String String}
    (state : next.state = backend.state.updateCurrent body)
    (entries : next.entries = backend.entries) (finished : next.finished = backend.finished)
    (kept : ∀ current, (body current).toQueueEntry = current.toQueueEntry)
    (shown : ∀ current, current.phase = before.text → (body current).phase = phase.text) :
    next.Placed := by
  obtain ⟨flying, inFlight, known, same⟩ := fine.running number before here
  have after : next.state.current = some (body flying) := by
    rw [state]
    simp [RunState.updateCurrent, inFlight]
  have queue : next.state.queue = backend.state.queue := by
    rw [state]
    rfl
  have atNumber : next.stage number = .running phase := by
    simp [stages]
  have alone : ∀ other phase, next.stage other = .running phase → other = number := by
    intro other phase runs
    by_contra apart
    rw [stages, Function.update_of_ne apart] at runs
    apply apart
    apply locking.inTurn.single other number
    · rw [runs]
      rfl
    · rw [here]
      rfl
  constructor
  · have places := fine.places
    rw [inFlight] at places
    rw [queue, after, finished, entries]
    simpa [kept] using places
  · rw [entries]
    exact fine.distinct
  · intro other entry waits there
    have apart : other ≠ number := by
      intro equal
      rw [equal, atNumber] at waits
      exact Bool.false_ne_true waits
    rw [stages, Function.update_of_ne apart] at waits
    rw [entries] at there
    rw [queue]
    exact fine.queued other entry waits there
  · intro other now runs
    have equal := alone other now runs
    subst equal
    have phases := Stage.running.inj (atNumber.symm.trans runs)
    subst phases
    refine ⟨body flying, after, ?_, shown flying same⟩
    rw [entries, kept]
    exact known
  · intro current there
    have equal := Option.some.inj (after.symm.trans there)
    subst equal
    refine ⟨number, phase, atNumber, ?_, shown flying same⟩
    rw [entries, kept]
    exact known

theorem Placed.clear (fine : backend.Placed) (locking : backend.Locking holder) {phase : Phase}
    (here : backend.stage number = .running phase) :
    Placed { backend.setStage number .cleared with
      state := backend.state.clearCurrent
      finished := backend.finished ++ backend.entries[number]?.toList } := by
  obtain ⟨flying, inFlight, known, same⟩ := fine.running number phase here
  have idle : ∀ other phase, (backend.setStage number .cleared).stage other ≠ .running phase := by
    intro other phase runs
    by_cases apart : other = number
    · rw [apart] at runs
      simp [setStage] at runs
    · have before : backend.stage other = .running phase := by
        simpa [setStage, apart] using runs
      apply apart
      apply locking.inTurn.single other number
      · rw [before]
        rfl
      · rw [here]
        rfl
  constructor
  · have places := fine.places
    rw [inFlight] at places
    have moved : (backend.state.queue ++ (backend.finished ++ [flying.toQueueEntry])).Perm
        (backend.state.queue ++ [flying.toQueueEntry] ++ backend.finished) := by
      rw [List.append_assoc]
      exact List.perm_append_comm.append_left _
    simpa [RunState.clearCurrent, known, setStage] using moved.trans places
  · exact fine.distinct
  · intro other entry waits there
    have apart : other ≠ number := by
      intro equal
      rw [equal] at waits
      simp [setStage, Stage.queued] at waits
    have before : (backend.stage other).queued = true := by
      simpa [setStage, apart] using waits
    exact fine.queued other entry before there
  · intro other now runs
    exact (idle other now runs).elim
  · intro current absurd
    exact (Option.some_ne_none _ absurd.symm).elim

/-- The text or the last tool call of the entry in flight changes. -/
theorem Placed.touch (fine : backend.Placed)
    {body : Current String String → Current String String}
    (kept : ∀ current, (body current).toQueueEntry = current.toQueueEntry ∧
      (body current).phase = current.phase) :
    Placed { backend with state := backend.state.updateCurrent body } := by
  constructor
  · have entries : (backend.state.current.map body).toList.map Current.toQueueEntry =
        backend.state.current.toList.map Current.toQueueEntry := by
      cases backend.state.current with
      | none => rfl
      | some current => simp [(kept current).1]
    have places := fine.places
    rw [← entries] at places
    exact places
  · exact fine.distinct
  · exact fine.queued
  · intro number phase runs
    obtain ⟨current, flying, known, same⟩ := fine.running number phase runs
    refine ⟨body current, ?_, ?_, ?_⟩
    · simp [RunState.updateCurrent, flying]
    · rw [(kept current).1]
      exact known
    · rw [(kept current).2]
      exact same
  · intro after flying
    obtain ⟨current, before, rfl⟩ := Option.map_eq_some_iff.mp flying
    obtain ⟨number, phase, runs, known, same⟩ := fine.current current before
    refine ⟨number, phase, runs, ?_, ?_⟩
    · rw [(kept current).1]
      exact known
    · rw [(kept current).2]
      exact same

theorem Placed.acquire (fine : backend.Placed) (spawned : backend.stage number = .spawned) :
    (backend.acquire number).Placed := by
  refine fine.update rfl rfl rfl rfl rfl ?_ ?_ ?_
  · simp [spawned]
  · intro phase
    split <;> exact Stage.noConfusion
  · simp [spawned, Stage.queued]

theorem Placed.release (fine : backend.Placed) (locking : backend.Locking holder)
    (cleared : backend.stage number = .cleared) : (backend.release number).Placed := by
  have left : Placed { backend.setStage number .finished with
      state := { backend.state with fifo := backend.state.fifo.release.1 }
      granted := backend.granted ++ backend.state.fifo.release.2.toList } := by
    refine fine.update rfl rfl rfl rfl rfl ?_ ?_ ?_
    · simp [cleared]
    · simp
    · simp [Stage.queued]
  cases next : backend.state.fifo.release.2 with
  | none =>
    rw [release_of_none next]
    rwa [next] at left
  | some heir =>
    rw [release_of_some next]
    rw [next] at left
    have waiting := (locking.waits heir).mp (FifoLock.Fair.mem_of_next next)
    have apart : heir ≠ number := by
      intro same
      rw [same, cleared] at waiting
      exact Stage.noConfusion waiting
    refine left.update rfl rfl rfl rfl rfl ?_ ?_ ?_
    · simp [setStage, apart, waiting]
    · simp
    · simp [setStage, apart, waiting, Stage.queued]

theorem Placed.step (fine : backend.Placed) (locking : backend.Locking holder) {move : Move}
    (careful : backend.Careful move) : (backend.step move).Placed := by
  have effect := step_effect backend move
  generalize backend.step move = next at effect ⊢
  cases effect with
  | idle => exact fine
  | call entry => exact fine.call locking careful
  | probe number stage here there =>
    refine fine.update rfl rfl rfl rfl rfl ?_ ?_ ?_
    · simp [here]
    · intro phase
      cases there with
      | inl announcing => simp [announcing]
      | inr spawned => simp [spawned]
    · simp [here, Stage.queued]
  | announce number here =>
    have idle : backend.state.current = none := careful here
    refine fine.update rfl ?_ rfl rfl rfl ?_ ?_ ?_
    · simp [RunState.emitStatus, RunState.updateCurrent, idle]
    · simp [here]
    · simp
    · simp [here, Stage.queued]
  | acquire number here => exact fine.acquire here
  | pop number startedAt here => exact fine.pop locking here startedAt
  | emit number phase before here =>
    exact fine.change locking here rfl rfl rfl rfl (fun _ => rfl) (fun _ _ => rfl)
  | update _ body kept => exact fine.touch kept
  | clear number phase here => exact fine.clear locking here
  | release number here => exact fine.release locking here

/-- The lock and the places together. -/
def Steady (backend : Backend) : Prop :=
  (∃ holder, backend.Locking holder) ∧ backend.Placed

theorem fresh_steady : fresh.Steady :=
  ⟨⟨none, fresh_locking⟩, fresh_placed⟩

theorem Steady.step (steady : backend.Steady) {move : Move} (careful : backend.Careful move) :
    (backend.step move).Steady := by
  obtain ⟨⟨holder, locking⟩, placed⟩ := steady
  exact ⟨locking.step move, placed.step locking careful⟩

theorem careful_sends_coordinated (moves : List Move) (careful : CarefulRun fresh moves) :
    (fresh.run moves).Coordinated := by
  have steady : (fresh.run moves).Steady :=
    careful.invariant (fun _ _ steady allowed => steady.step allowed) moves fresh_steady
  have placed := steady.2
  constructor
  · exact run_inTurn moves
  · exact placed.places
  · exact placed.distinct
  · exact placed.current

/-- The second send announces itself before the first is in flight, and is handed the lock. -/
theorem handover_coordinated :
    (fresh.run [.call ⟨"a", "one", "s0", .null⟩, .probe 0, .acquire 0,
      .call ⟨"b", "two", "s1", .null⟩, .probe 1, .announce 1, .pop 0 .null, .acquire 1,
      .emit 0 .streaming, .token 0 "x", .clear 0, .release 0, .pop 1 .null]).Coordinated := by
  apply careful_sends_coordinated
  repeat
    first
    | exact trivial
    | apply And.intro (by decide)

/-- A send that announces itself gives the entry in flight a phase that no holder announced. -/
theorem announced_phase_uncoordinated :
    ¬ ∀ moves : List Move, (fresh.run moves).Coordinated := by
  intro always
  have coordinated := always [.call ⟨"a", "one", "s0", .null⟩, .probe 0, .acquire 0,
    .pop 0 .null, .call ⟨"b", "two", "s1", .null⟩, .probe 1, .announce 1]
  obtain ⟨number, phase, _, _, shown⟩ := coordinated.current _ rfl
  cases phase with
  | thinking => exact absurd shown (by decide)
  | streaming => exact absurd shown (by decide)
  | toolCalling => exact absurd shown (by decide)
  | done => exact absurd shown (by decide)

end Backend

end Fantastic.Swift.Ai.Coordination

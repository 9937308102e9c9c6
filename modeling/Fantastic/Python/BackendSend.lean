import Fantastic.Foundation.OrderedDict
import Mathlib.Logic.Function.Basic

/-!
# One generation at a time

The `send` verb of an AI backend (`ai_core/core.py`, `_make_send`), cut at its awaits: the
queue entry, the per-backend lock, the `_run` task that is awaited through
`asyncio.shield`, and the ways out of that wait. A run is a task of its own. Cancelling
the caller cancels the wait and not the run; a timeout and the `interrupt` verb cancel
the run, which ends when it gets to it.
-/

namespace Fantastic.Python.Ai.Sending

/-- Recursion guard: chains of backends refuse past this depth. -/
def maxCallDepth : Nat := 8

/-- How a `_run` task ends. `timedOut` is a `TimeoutError` of its own. -/
inductive RunEnd where
  | returned
  | raised
  | timedOut
  | cancelled
  deriving DecidableEq

inductive Run where
  | unborn
  | executing (cancelRequested : Bool)
  | ended (outcome : RunEnd)
  deriving DecidableEq

def Run.isExecuting : Run → Bool
  | .executing _ => true
  | _ => false

/-- `task.cancel()`: a request, heeded by a task that is not done. -/
def Run.cancel : Run → Run
  | .executing _ => .executing true
  | run => run

/-- The `except` branch a `_send` leaves through. -/
inductive Exit where
  | timeout
  | interrupted
  | error
  deriving DecidableEq

/-- Where a `_send` waits: in its `queued` events, in `lock.acquire`, in the `thinking`
event with the lock held, for the shielded run, in the `done` events of an `except`
branch; or it has left. -/
inductive SendPhase where
  | announcing
  | waiting
  | thinking
  | awaiting
  | closing (exit : Exit)
  | left
  deriving DecidableEq

structure Send where
  phase : SendPhase
  run : Run
  deriving DecidableEq

/-- The phases inside `async with lock`. -/
def SendPhase.inside : SendPhase → Bool
  | .thinking | .awaiting | .closing _ => true
  | _ => false

/-- One backend agent and the module state kept under its id. `holder` and `waiters` are
its `asyncio.Lock`: a free lock with waiters has woken the first of them. -/
structure Backend where
  id : String
  sends : Nat → Send
  begun : Nat
  holder : Option Nat
  waiters : List Nat
  queue : List Nat
  current : Option Nat
  task : Option Nat

namespace Backend

def fresh (id : String) : Backend where
  id := id
  sends := fun _ => { phase := .left, run := .unborn }
  begun := 0
  holder := none
  waiters := []
  queue := []
  current := none
  task := none

/-- What callers, the event loop and the runs can do next. -/
inductive Move where
  | call (callStack : List String)
  | announced (number : Nat)
  | wake (number : Nat)
  | launch (number : Nat)
  | endRun (number : Nat) (outcome : RunEnd)
  | deliver (number : Nat)
  | timeout (number : Nat)
  | cancel (number : Nat)
  | interrupt
  | close (number : Nat)
  deriving DecidableEq

def setPhase (backend : Backend) (number : Nat) (phase : SendPhase) : Backend :=
  { backend with
    sends := Function.update backend.sends number { backend.sends number with phase := phase } }

def setRun (backend : Backend) (number : Nat) (run : Run) : Backend :=
  { backend with
    sends := Function.update backend.sends number { backend.sends number with run := run } }

/-- The lock is taken: the entry leaves the queue and becomes the current one. -/
def take (backend : Backend) (number : Nat) : Backend :=
  { backend.setPhase number .thinking with
    holder := some number
    queue := backend.queue.erase number
    current := some number }

/-- `lock.acquire()`: at once when the lock is free and nobody waits. -/
def acquire (backend : Backend) (number : Nat) : Backend :=
  if backend.holder.isNone && backend.waiters.isEmpty then backend.take number
  else { backend.setPhase number .waiting with waiters := backend.waiters ++ [number] }

/-- The end of the `async with` block. -/
def release (backend : Backend) (number : Nat) : Backend :=
  { backend.setPhase number .left with holder := none }

/-- The `finally` clause, and the end of the block. -/
def leave (backend : Backend) (number : Nat) : Backend :=
  { backend.release number with
    task := none
    current := none }

/-- A `send` passes the guards, enters the queue, and tells its caller when it has to wait. -/
def call (backend : Backend) (callStack : List String) : Backend :=
  if backend.id ∈ callStack ∨ maxCallDepth ≤ callStack.length then backend
  else
    let number := backend.begun
    let entered := { backend with begun := number + 1, queue := backend.queue ++ [number] }
    if backend.holder.isSome then
      { entered with
        sends := Function.update backend.sends number { phase := .announcing, run := .unborn } }
    else
      { entered with
        sends := Function.update backend.sends number { phase := .left, run := .unborn } }.acquire
        number

/-- The wait for the shielded run is over: the branch for what the run came to. -/
def deliver (backend : Backend) (number : Nat) (outcome : RunEnd) : Backend :=
  match outcome with
  | .returned => backend.leave number
  | .raised => backend.setPhase number (.closing .error)
  | .timedOut => backend.setPhase number (.closing .timeout)
  | .cancelled => backend.setPhase number (.closing .interrupted)

/-- `CancelledError` in the caller's task, at the await it is in. In the wait for the run
the error is caught; before that wait there is no `finally`. -/
def cancel (backend : Backend) (number : Nat) : Backend :=
  match (backend.sends number).phase with
  | .announcing => backend.setPhase number .left
  | .waiting =>
    { backend.setPhase number .left with waiters := backend.waiters.erase number }
  | .thinking => backend.release number
  | .awaiting => backend.setPhase number (.closing .interrupted)
  | .closing _ => backend.leave number
  | .left => backend

def step (backend : Backend) (move : Move) : Backend :=
  match move with
  | .call callStack => backend.call callStack
  | .announced number =>
    match (backend.sends number).phase with
    | .announcing => backend.acquire number
    | _ => backend
  | .wake number =>
    if backend.holder = none ∧ backend.waiters.head? = some number then
      { backend.take number with waiters := backend.waiters.tail }
    else backend
  | .launch number =>
    match (backend.sends number).phase with
    | .thinking =>
      { (backend.setRun number (.executing false)).setPhase number .awaiting with
        task := some number }
    | _ => backend
  | .endRun number outcome =>
    match (backend.sends number).run with
    | .executing _ => backend.setRun number (.ended outcome)
    | _ => backend
  | .deliver number =>
    match (backend.sends number).phase, (backend.sends number).run with
    | .awaiting, .ended outcome => backend.deliver number outcome
    | _, _ => backend
  | .timeout number =>
    match (backend.sends number).phase with
    | .awaiting =>
      (backend.setRun number (backend.sends number).run.cancel).setPhase number
        (.closing .timeout)
    | _ => backend
  | .cancel number => backend.cancel number
  | .interrupt =>
    match backend.task with
    | some number => backend.setRun number (backend.sends number).run.cancel
    | none => backend
  | .close number =>
    match (backend.sends number).phase with
    | .closing _ => backend.leave number
    | _ => backend

def run (backend : Backend) (moves : List Move) : Backend :=
  moves.foldl step backend

/-- The `_run` task of the send has started and is not done. -/
def Executing (backend : Backend) (number : Nat) : Prop :=
  (backend.sends number).run.isExecuting = true

instance (backend : Backend) (number : Nat) : Decidable (backend.Executing number) :=
  inferInstanceAs (Decidable ((backend.sends number).run.isExecuting = true))

/-- One run at most, and the lock is with the send that admitted it. -/
structure Exclusive (backend : Backend) : Prop where
  single : ∀ first second, backend.Executing first → backend.Executing second → first = second
  held : ∀ number, backend.Executing number → backend.holder = some number

/-- No caller is cancelled while its run executes, and the run of a send that timed out
has ended by the time the send has sent its `done` events. -/
def Careful (backend : Backend) : Move → Prop
  | .cancel number => ¬ backend.Executing number
  | .close number =>
    (backend.sends number).phase = .closing .timeout → ¬ backend.Executing number
  | _ => True

instance (backend : Backend) (move : Move) : Decidable (backend.Careful move) := by
  unfold Careful
  split <;> infer_instance

def CarefulRun : Backend → List Move → Prop
  | _, [] => True
  | backend, move :: rest => backend.Careful move ∧ CarefulRun (backend.step move) rest

def decideCarefulRun :
    (backend : Backend) → (moves : List Move) → Decidable (CarefulRun backend moves)
  | _, [] => .isTrue True.intro
  | backend, move :: rest =>
    have := decideCarefulRun (backend.step move) rest
    inferInstanceAs (Decidable (backend.Careful move ∧ CarefulRun (backend.step move) rest))

instance (backend : Backend) (moves : List Move) : Decidable (CarefulRun backend moves) :=
  decideCarefulRun backend moves

variable {backend next : Backend} {number other : Nat}

/-- A send is inside the `async with` block exactly when it holds the lock, and a run
executes only while its send awaits it or has given up on it. -/
structure Orderly (backend : Backend) : Prop where
  inside : ∀ number, (backend.sends number).phase.inside = true ↔ backend.holder = some number
  waits : ∀ number ∈ backend.waiters, (backend.sends number).phase = .waiting
  distinct : backend.waiters.Nodup
  watched : ∀ number, backend.Executing number →
    (backend.sends number).phase = .awaiting ∨
      (backend.sends number).phase = .closing .timeout
  unused : ∀ number, backend.begun ≤ number →
    backend.sends number = { phase := .left, run := .unborn }

theorem Orderly.inside_of_executing (fine : backend.Orderly)
    (executing : backend.Executing number) : (backend.sends number).phase.inside = true := by
  cases fine.watched number executing with
  | inl awaiting => simp [awaiting, SendPhase.inside]
  | inr closing => simp [closing, SendPhase.inside]

theorem Orderly.exclusive (fine : backend.Orderly) : backend.Exclusive := by
  have held : ∀ number, backend.Executing number → backend.holder = some number := by
    intro number executing
    rw [← fine.inside]
    exact fine.inside_of_executing executing
  constructor
  · intro first second one two
    have same := (held first one).symm.trans (held second two)
    exact Option.some.inj same
  · exact held

/-! ### The lock, whatever becomes of the runs -/

structure Locking (backend : Backend) : Prop where
  inside : ∀ number, (backend.sends number).phase.inside = true ↔ backend.holder = some number
  waits : ∀ number ∈ backend.waiters, (backend.sends number).phase = .waiting
  distinct : backend.waiters.Nodup
  unused : ∀ number, backend.begun ≤ number →
    backend.sends number = { phase := .left, run := .unborn }

theorem fresh_locking (id : String) : (fresh id).Locking where
  inside := by simp [fresh, SendPhase.inside]
  waits := by simp [fresh]
  distinct := List.nodup_nil
  unused := by simp [fresh]

/-- One send changes: the lock and its waiters change with it. -/
theorem Locking.put (fine : backend.Locking) {send : Send}
    (sends : next.sends = Function.update backend.sends number send)
    (bound : number < next.begun) (begun : backend.begun ≤ next.begun)
    (inside : send.phase.inside = true ↔ next.holder = some number)
    (others : ∀ other, other ≠ number →
      (backend.holder = some other ↔ next.holder = some other))
    (waits : ∀ other ∈ next.waiters,
      (other = number ∧ send.phase = .waiting) ∨ (other ≠ number ∧ other ∈ backend.waiters))
    (distinct : next.waiters.Nodup) : next.Locking := by
  have here : next.sends number = send := by simp [sends]
  have elsewhere : ∀ other, other ≠ number → next.sends other = backend.sends other := by
    intro other apart
    simp [sends, apart]
  constructor
  · intro other
    by_cases same : other = number
    · rw [same, here]
      exact inside
    · rw [elsewhere other same, fine.inside, others other same]
  · intro other listed
    cases waits other listed with
    | inl new =>
      rw [new.1, here]
      exact new.2
    | inr old =>
      rw [elsewhere other old.1]
      exact fine.waits other old.2
  · exact distinct
  · intro other late
    have apart : other ≠ number := by omega
    rw [elsewhere other apart]
    exact fine.unused other (Nat.le_trans begun late)

/-- A send that is not `left` has a number. -/
theorem Locking.bound (fine : backend.Locking) (here : (backend.sends number).phase ≠ .left) :
    number < backend.begun := by
  by_contra late
  exact here (by rw [fine.unused number (by omega)])

theorem Locking.not_waiting (fine : backend.Locking)
    (busy : (backend.sends number).phase ≠ .waiting) : number ∉ backend.waiters := by
  intro listed
  exact busy (fine.waits number listed)

/-- A send changes without entering or leaving the block or the line for it. -/
theorem Locking.within (fine : backend.Locking) {send : Send}
    (sends : next.sends = Function.update backend.sends number send)
    (begun : next.begun = backend.begun) (holder : next.holder = backend.holder)
    (waiters : next.waiters = backend.waiters)
    (inside : (backend.sends number).phase.inside = true) (stays : send.phase.inside = true) :
    next.Locking := by
  have bound : number < backend.begun := by
    apply fine.bound
    intro left
    simp [left, SendPhase.inside] at inside
  have absent : number ∉ backend.waiters := by
    apply fine.not_waiting
    intro waiting
    simp [waiting, SendPhase.inside] at inside
  apply fine.put sends
  · omega
  · omega
  · rw [holder, ← fine.inside]
    simp [inside, stays]
  · intro other _
    rw [holder]
  · intro other listed
    rw [waiters] at listed
    refine Or.inr ⟨?_, listed⟩
    intro same
    exact absent (same ▸ listed)
  · rw [waiters]
    exact fine.distinct

/-- The run of a send goes on or ends. -/
theorem Locking.setRun (fine : backend.Locking) (bound : number < backend.begun) (run : Run) :
    (backend.setRun number run).Locking := by
  have sends : (backend.setRun number run).sends =
      Function.update backend.sends number { backend.sends number with run := run } := rfl
  apply fine.put sends bound (Nat.le_refl _) (fine.inside number)
  · intro other _
    exact Iff.rfl
  · intro other listed
    by_cases same : other = number
    · exact Or.inl ⟨same, same ▸ fine.waits other listed⟩
    · exact Or.inr ⟨same, listed⟩
  · exact fine.distinct

theorem Locking.executing_bound (fine : backend.Locking) (executing : backend.Executing number) :
    number < backend.begun := by
  by_contra late
  unfold Executing at executing
  rw [fine.unused number (by omega)] at executing
  simp [Run.isExecuting] at executing

theorem cancel_of_not_executing (idle : ¬ backend.Executing number) :
    (backend.sends number).run.cancel = (backend.sends number).run := by
  unfold Executing at idle
  cases run : (backend.sends number).run with
  | executing requested => simp [run, Run.isExecuting] at idle
  | _ => rfl

theorem Locking.cancelRun (fine : backend.Locking) (number : Nat) :
    (backend.setRun number (backend.sends number).run.cancel).Locking := by
  by_cases executing : backend.Executing number
  · exact fine.setRun (fine.executing_bound executing) _
  · rw [cancel_of_not_executing executing, Backend.setRun, Function.update_eq_self]
    exact fine

/-- The block ends. -/
theorem Locking.release (fine : backend.Locking)
    (inside : (backend.sends number).phase.inside = true) : (backend.release number).Locking := by
  have holder := (fine.inside number).mp inside
  have absent : number ∉ backend.waiters := by
    apply fine.not_waiting
    intro waiting
    simp [waiting, SendPhase.inside] at inside
  have bound : number < backend.begun := by
    apply fine.bound
    intro left
    simp [left, SendPhase.inside] at inside
  have sends : (backend.release number).sends =
      Function.update backend.sends number { backend.sends number with phase := .left } := rfl
  apply fine.put sends
  · exact bound
  · exact Nat.le_refl _
  · simp [SendPhase.inside, Backend.release]
  · intro other apart
    rw [holder]
    simp [Backend.release, Ne.symm apart]
  · intro other listed
    refine Or.inr ⟨?_, listed⟩
    intro same
    exact absent (same ▸ listed)
  · exact fine.distinct

theorem Locking.leave (fine : backend.Locking)
    (inside : (backend.sends number).phase.inside = true) : (backend.leave number).Locking := by
  have released := fine.release inside
  exact ⟨released.inside, released.waits, released.distinct, released.unused⟩

/-- The lock is free, and a send that is not inside takes it. -/
theorem Locking.take (fine : backend.Locking) (bound : number < backend.begun)
    (free : backend.holder = none) {waiters : List Nat} (idle : number ∉ waiters)
    (fewer : waiters.Sublist backend.waiters) :
    { backend.take number with waiters := waiters }.Locking := by
  have sends : { backend.take number with waiters := waiters }.sends =
      Function.update backend.sends number { backend.sends number with phase := .thinking } := rfl
  apply fine.put sends
  · exact bound
  · exact Nat.le_refl _
  · simp [SendPhase.inside, Backend.take]
  · intro other apart
    rw [free]
    simp [Backend.take, Ne.symm apart]
  · intro other listed
    refine Or.inr ⟨?_, fewer.subset listed⟩
    intro same
    exact idle (same ▸ listed)
  · exact fine.distinct.sublist fewer

theorem Locking.acquire (fine : backend.Locking) (bound : number < backend.begun)
    (phase : (backend.sends number).phase = .announcing ∨ (backend.sends number).phase = .left) :
    (backend.acquire number).Locking := by
  have outside : ¬ (backend.sends number).phase.inside = true := by
    cases phase with
    | inl announcing => simp [announcing, SendPhase.inside]
    | inr left => simp [left, SendPhase.inside]
  have absent : number ∉ backend.waiters := by
    apply fine.not_waiting
    cases phase with
    | inl announcing => simp [announcing]
    | inr left => simp [left]
  unfold Backend.acquire
  split
  case isTrue free =>
    simp only [Bool.and_eq_true, Option.isNone_iff_eq_none] at free
    exact fine.take bound free.1 absent (List.Sublist.refl _)
  case isFalse =>
    have sends : { backend.setPhase number .waiting with
          waiters := backend.waiters ++ [number] }.sends =
        Function.update backend.sends number { backend.sends number with phase := .waiting } := rfl
    apply fine.put sends
    · exact bound
    · exact Nat.le_refl _
    · rw [fine.inside] at outside
      simpa [SendPhase.inside, Backend.setPhase] using outside
    · intro other _
      exact Iff.rfl
    · intro other listed
      by_cases same : other = number
      · exact Or.inl ⟨same, rfl⟩
      · have old : other ∈ backend.waiters := by simpa [same] using listed
        exact Or.inr ⟨same, old⟩
    · rw [List.nodup_append]
      refine ⟨fine.distinct, List.nodup_singleton _, ?_⟩
      intro first listed second last same
      rw [List.mem_singleton] at last
      exact absent (last ▸ same ▸ listed)

theorem Locking.call (fine : backend.Locking) (callStack : List String) :
    (backend.call callStack).Locking := by
  unfold Backend.call
  split
  case isTrue => exact fine
  case isFalse =>
    have blank := fine.unused backend.begun (Nat.le_refl _)
    have free : backend.holder ≠ some backend.begun := by
      intro held
      rw [← fine.inside, blank] at held
      simp [SendPhase.inside] at held
    have absent : backend.begun ∉ backend.waiters := by
      apply fine.not_waiting
      simp [blank]
    -- the new send enters in a phase outside the block, without a run
    have enters : ∀ phase : SendPhase, phase.inside = false →
        { backend with
          begun := backend.begun + 1
          queue := backend.queue ++ [backend.begun]
          sends := Function.update backend.sends backend.begun
            { phase := phase, run := .unborn } }.Locking := by
      intro phase outside
      apply fine.put rfl
      · exact Nat.lt_succ_self _
      · exact Nat.le_succ _
      · simpa [outside] using free
      · intro other _
        exact Iff.rfl
      · intro other listed
        refine Or.inr ⟨?_, listed⟩
        intro same
        exact absent (same ▸ listed)
      · exact fine.distinct
    simp only
    split
    · exact enters .announcing rfl
    · apply (enters .left rfl).acquire
      · exact Nat.lt_succ_self _
      · simp

/-- Inside the block, from one phase to the next. -/
theorem Locking.setPhase (fine : backend.Locking) {phase : SendPhase}
    (inside : (backend.sends number).phase.inside = true) (stays : phase.inside = true) :
    (backend.setPhase number phase).Locking := by
  have sends : (backend.setPhase number phase).sends =
      Function.update backend.sends number { backend.sends number with phase := phase } := rfl
  exact fine.within sends rfl rfl rfl inside stays

/-- A send gives up before it is inside the block. -/
theorem Locking.withdraw (fine : backend.Locking) {waiters : List Nat}
    (outside : ¬ (backend.sends number).phase.inside = true) (bound : number < backend.begun)
    (gone : number ∉ waiters) (fewer : waiters.Sublist backend.waiters) :
    { backend.setPhase number .left with waiters := waiters }.Locking := by
  have sends : { backend.setPhase number .left with waiters := waiters }.sends =
      Function.update backend.sends number { backend.sends number with phase := .left } := rfl
  apply fine.put sends
  · exact bound
  · exact Nat.le_refl _
  · rw [fine.inside] at outside
    simpa [SendPhase.inside, Backend.setPhase] using outside
  · intro other _
    exact Iff.rfl
  · intro other listed
    refine Or.inr ⟨?_, fewer.subset listed⟩
    intro same
    exact gone (same ▸ listed)
  · exact fine.distinct.sublist fewer

theorem Locking.cancel (fine : backend.Locking) (number : Nat) :
    (backend.cancel number).Locking := by
  unfold Backend.cancel
  split
  case h_1 phase =>
    have absent : number ∉ backend.waiters := fine.not_waiting (by simp [phase])
    exact fine.withdraw (by simp [phase, SendPhase.inside]) (fine.bound (by simp [phase])) absent
      (List.Sublist.refl _)
  case h_2 phase =>
    have gone : number ∉ backend.waiters.erase number := by
      rw [fine.distinct.mem_erase_iff]
      simp
    exact fine.withdraw (by simp [phase, SendPhase.inside]) (fine.bound (by simp [phase])) gone
      List.erase_sublist
  case h_3 phase => exact fine.release (by simp [phase, SendPhase.inside])
  case h_4 phase => exact fine.setPhase (by simp [phase, SendPhase.inside]) rfl
  case h_5 exit phase => exact fine.leave (by simp [phase, SendPhase.inside])
  case h_6 => exact fine

theorem Locking.deliver (fine : backend.Locking) {outcome : RunEnd}
    (inside : (backend.sends number).phase.inside = true) :
    (backend.deliver number outcome).Locking := by
  cases outcome with
  | returned => exact fine.leave inside
  | _ => exact fine.setPhase inside rfl

theorem launch_sends (backend : Backend) (number : Nat) :
    { (backend.setRun number (.executing false)).setPhase number .awaiting with
        task := some number }.sends =
      Function.update backend.sends number { phase := .awaiting, run := .executing false } := by
  simp [Backend.setPhase, Backend.setRun]

theorem Locking.launch (fine : backend.Locking)
    (thinking : (backend.sends number).phase = .thinking) :
    { (backend.setRun number (.executing false)).setPhase number .awaiting with
      task := some number }.Locking := by
  apply fine.within (launch_sends backend number) rfl rfl rfl
  · simp [thinking, SendPhase.inside]
  · rfl

/-- The lock is well kept in every order of moves. -/
theorem Locking.step (fine : backend.Locking) (move : Move) : (backend.step move).Locking := by
  cases move with
  | call callStack => exact fine.call callStack
  | announced number =>
    simp only [Backend.step]
    split
    case h_1 phase => exact fine.acquire (fine.bound (by simp [phase])) (Or.inl phase)
    case h_2 => exact fine
  | wake number =>
    simp only [Backend.step]
    split
    case isTrue woken =>
      obtain ⟨free, first⟩ := woken
      cases waiters : backend.waiters with
      | nil => simp [waiters] at first
      | cons head rest =>
        have same : head = number := by simpa [waiters] using first
        subst same
        have distinct := fine.distinct
        rw [waiters, List.nodup_cons] at distinct
        have waiting := fine.waits head (by simp [waiters])
        apply fine.take (fine.bound (by simp [waiting])) free distinct.1
        rw [waiters]
        exact List.sublist_cons_self head rest
    case isFalse => exact fine
  | launch number =>
    simp only [Backend.step]
    split
    case h_1 phase => exact fine.launch phase
    case h_2 => exact fine
  | endRun number outcome =>
    simp only [Backend.step]
    split
    case h_1 requested executing =>
      apply fine.setRun
      apply fine.executing_bound
      simp [Executing, executing, Run.isExecuting]
    case h_2 => exact fine
  | deliver number =>
    simp only [Backend.step]
    split
    case h_1 outcome phase ended =>
      apply fine.deliver
      simp [phase, SendPhase.inside]
    case h_2 => exact fine
  | timeout number =>
    simp only [Backend.step]
    split
    case h_1 phase =>
      apply (fine.cancelRun number).setPhase
      · simp [Backend.setRun, phase, SendPhase.inside]
      · rfl
    case h_2 => exact fine
  | cancel number => exact fine.cancel number
  | interrupt =>
    simp only [Backend.step]
    split
    case h_1 number _ => exact fine.cancelRun number
    case h_2 => exact fine
  | close number =>
    simp only [Backend.step]
    split
    case h_1 exit phase => exact fine.leave (by simp [phase, SendPhase.inside])
    case h_2 => exact fine

/-- A send that has left is not the one that changes. -/
theorem left_of_put {send : Send} (left : (backend.sends other).phase = .left)
    (sends : next.sends = Function.update backend.sends number send)
    (busy : (backend.sends number).phase ≠ .left) : (next.sends other).phase = .left := by
  have apart : other ≠ number := by
    intro same
    exact busy (same ▸ left)
  rw [sends, Function.update_of_ne apart]
  exact left

theorem setRun_phase (backend : Backend) (number other : Nat) (run : Run) :
    ((backend.setRun number run).sends other).phase = (backend.sends other).phase := by
  simp only [Backend.setRun, Function.update_apply]
  split
  case isTrue same => rw [same]
  case isFalse => rfl

/-- Only a call begins a send; one that has left stays away. -/
theorem Locking.left_stays (fine : backend.Locking) {move : Move}
    (plain : ∀ callStack, move ≠ .call callStack) (left : (backend.sends other).phase = .left) :
    ((backend.step move).sends other).phase = .left := by
  cases move with
  | call callStack => exact absurd rfl (plain callStack)
  | announced number =>
    simp only [Backend.step, Backend.acquire]
    split
    case h_1 phase =>
      split
      · exact left_of_put left rfl (by simp [phase])
      · exact left_of_put left rfl (by simp [phase])
    case h_2 => exact left
  | wake number =>
    simp only [Backend.step]
    split
    case isTrue woken =>
      have waiting := fine.waits number (List.mem_of_mem_head? woken.2)
      exact left_of_put left rfl (by simp [waiting])
    case isFalse => exact left
  | launch number =>
    simp only [Backend.step]
    split
    case h_1 phase => exact left_of_put left (launch_sends backend number) (by simp [phase])
    case h_2 => exact left
  | endRun number outcome =>
    simp only [Backend.step]
    split
    · rw [setRun_phase]
      exact left
    · exact left
  | deliver number =>
    simp only [Backend.step]
    split
    case h_1 outcome phase ended =>
      cases outcome with
      | _ => exact left_of_put left rfl (by simp [phase])
    case h_2 => exact left
  | timeout number =>
    simp only [Backend.step]
    split
    case h_1 phase =>
      have kept : ((backend.setRun number (backend.sends number).run.cancel).sends other).phase =
          .left := by
        rw [setRun_phase]
        exact left
      apply left_of_put kept rfl
      rw [setRun_phase, phase]
      simp
    case h_2 => exact left
  | cancel number =>
    simp only [Backend.step, Backend.cancel]
    split
    case h_6 => exact left
    all_goals exact left_of_put left rfl (by simp [*])
  | interrupt =>
    simp only [Backend.step]
    split
    · rw [setRun_phase]
      exact left
    · exact left
  | close number =>
    simp only [Backend.step]
    split
    case h_1 phase => exact left_of_put left rfl (by simp [phase])
    case h_2 => exact left

/-- A call changes no earlier send. -/
theorem call_sends_of_ne (backend : Backend) (callStack : List String)
    (apart : other ≠ backend.begun) :
    (backend.call callStack).sends other = backend.sends other := by
  unfold Backend.call
  split
  · rfl
  · simp only
    split
    · exact Function.update_of_ne apart _ _
    · unfold Backend.acquire
      split <;> simp [Backend.take, Backend.setPhase, apart]

/-! ### The runs, as long as their callers are careful -/

/-- A run executes only while its send awaits it or has given up on it. -/
def Watched (backend : Backend) : Prop :=
  ∀ number, backend.Executing number →
    (backend.sends number).phase = .awaiting ∨ (backend.sends number).phase = .closing .timeout

/-- One send changes, and its run is watched afterwards. -/
theorem Watched.put (watched : backend.Watched) {send : Send}
    (sends : next.sends = Function.update backend.sends number send)
    (here : send.run.isExecuting = true →
      send.phase = .awaiting ∨ send.phase = .closing .timeout) : next.Watched := by
  intro other executing
  unfold Executing at executing
  rw [sends, Function.update_apply] at executing ⊢
  split at executing
  case isTrue same =>
    rw [if_pos same]
    exact here executing
  case isFalse apart =>
    rw [if_neg apart]
    exact watched other executing

/-- A send that watches no run changes its phase. -/
theorem Watched.idle (watched : backend.Watched) {phase : SendPhase}
    (sends : next.sends =
      Function.update backend.sends number { backend.sends number with phase := phase })
    (idle : ¬ backend.Executing number) : next.Watched :=
  watched.put sends fun executing => absurd executing idle

theorem Watched.idle_outside (watched : backend.Watched)
    (outside : (backend.sends number).phase ≠ .awaiting)
    (early : (backend.sends number).phase ≠ .closing .timeout) : ¬ backend.Executing number := by
  intro executing
  cases watched number executing with
  | inl awaiting => exact outside awaiting
  | inr closing => exact early closing

theorem Watched.acquire (watched : backend.Watched) (idle : ¬ backend.Executing number) :
    (backend.acquire number).Watched := by
  unfold Backend.acquire
  split
  · exact watched.idle rfl idle
  · exact watched.idle rfl idle

theorem Watched.call (watched : backend.Watched) (callStack : List String) :
    (backend.call callStack).Watched := by
  unfold Backend.call
  split
  case isTrue => exact watched
  case isFalse =>
    simp only
    split
    · exact watched.put rfl (by simp [Run.isExecuting])
    · apply Watched.acquire
      · exact watched.put rfl (by simp [Run.isExecuting])
      · simp [Executing, Run.isExecuting]

theorem Watched.setRun (watched : backend.Watched) {run : Run}
    (before : run.isExecuting = true → backend.Executing number) :
    (backend.setRun number run).Watched :=
  watched.put rfl fun executing => watched number (before executing)

theorem Watched.cancelRun (watched : backend.Watched) (number : Nat) :
    (backend.setRun number (backend.sends number).run.cancel).Watched := by
  apply watched.setRun
  intro executing
  by_contra idle
  rw [cancel_of_not_executing idle] at executing
  exact idle executing

theorem Watched.step (watched : backend.Watched) (locking : backend.Locking) {move : Move}
    (careful : backend.Careful move) : (backend.step move).Watched := by
  cases move with
  | call callStack => exact watched.call callStack
  | announced number =>
    simp only [Backend.step]
    split
    case h_1 phase => exact watched.acquire (watched.idle_outside (by simp [phase])
        (by simp [phase]))
    case h_2 => exact watched
  | wake number =>
    simp only [Backend.step]
    split
    case isTrue woken =>
      have waiting := locking.waits number (List.mem_of_mem_head? woken.2)
      have idle : ¬ backend.Executing number :=
        watched.idle_outside (by simp [waiting]) (by simp [waiting])
      exact watched.idle rfl idle
    case isFalse => exact watched
  | launch number =>
    simp only [Backend.step]
    split
    case h_1 phase => exact watched.put (launch_sends backend number) (by simp)
    case h_2 => exact watched
  | endRun number outcome =>
    simp only [Backend.step]
    split
    case h_1 => exact watched.setRun (by simp [Run.isExecuting])
    case h_2 => exact watched
  | deliver number =>
    simp only [Backend.step]
    split
    case h_1 outcome phase ended =>
      have idle : ¬ backend.Executing number := by
        simp [Executing, ended, Run.isExecuting]
      cases outcome with
      | _ => exact watched.idle rfl idle
    case h_2 => exact watched
  | timeout number =>
    simp only [Backend.step]
    split
    case h_1 => exact (watched.cancelRun number).put rfl (by simp)
    case h_2 => exact watched
  | cancel number =>
    simp only [Backend.step, Backend.cancel]
    split
    case h_6 => exact watched
    all_goals exact watched.idle rfl careful
  | interrupt =>
    simp only [Backend.step]
    split
    case h_1 number _ => exact watched.cancelRun number
    case h_2 => exact watched
  | close number =>
    simp only [Backend.step]
    split
    case h_1 exit phase =>
      apply watched.idle rfl
      intro executing
      cases watched number executing with
      | inl awaiting => simp [phase] at awaiting
      | inr timeout => exact careful timeout executing
    case h_2 => exact watched

theorem Orderly.locking (fine : backend.Orderly) : backend.Locking :=
  ⟨fine.inside, fine.waits, fine.distinct, fine.unused⟩

theorem Locking.orderly (locking : backend.Locking) (watched : backend.Watched) :
    backend.Orderly :=
  ⟨locking.inside, locking.waits, locking.distinct, watched, locking.unused⟩

theorem fresh_orderly (id : String) : (fresh id).Orderly := by
  apply (fresh_locking id).orderly
  simp [Watched, fresh, Executing, Run.isExecuting]

theorem Orderly.run (fine : backend.Orderly) (moves : List Move)
    (careful : CarefulRun backend moves) : (backend.run moves).Orderly := by
  induction moves generalizing backend with
  | nil => exact fine
  | cons move rest hypothesis =>
    obtain ⟨first, later⟩ := careful
    exact hypothesis ((fine.locking.step move).orderly (Watched.step fine.watched fine.locking first)) later

/-- Whatever the order of sends, timeouts, interrupts and cancellations, as long as no
caller is cancelled under its run and every run that timed out ends in time, one run
executes at a time and the lock stays with the send that admitted it. -/
theorem careful_runs_are_exclusive (id : String) (moves : List Move)
    (careful : CarefulRun (fresh id) moves) : ((fresh id).run moves).Exclusive :=
  ((fresh_orderly id).run moves careful).exclusive

/-- An interrupted send, and the one that waited behind it. -/
theorem interrupted_send_hands_over :
    CarefulRun (fresh "ollama")
        [.call [], .launch 0, .call [], .interrupt, .endRun 0 .cancelled, .deliver 0,
          .announced 1, .close 0, .wake 1, .launch 1] ∧
      ((fresh "ollama").run
        [.call [], .launch 0, .call [], .interrupt, .endRun 0 .cancelled, .deliver 0,
          .announced 1, .close 0, .wake 1, .launch 1]).Exclusive := by
  have careful : CarefulRun (fresh "ollama")
      [.call [], .launch 0, .call [], .interrupt, .endRun 0 .cancelled, .deliver 0,
        .announced 1, .close 0, .wake 1, .launch 1] := by
    decide
  exact ⟨careful, careful_runs_are_exclusive "ollama" _ careful⟩

/-- A client disconnects under its run, and the next send starts a second one. -/
theorem disconnect_admits_a_second_run :
    ¬ ∀ moves, ((fresh "ollama").run moves).Exclusive := by
  intro exclusive
  have both := (exclusive [.call [], .launch 0, .cancel 0, .close 0, .call [], .launch 1]).single
    0 1 (by decide) (by decide)
  exact absurd both (by decide)

end Backend

end Fantastic.Python.Ai.Sending

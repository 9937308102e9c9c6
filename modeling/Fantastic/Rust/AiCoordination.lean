import Fantastic.Rust.AiSend

/-!
# Lock, status slot, queue and task

The lock and the task slot are kept in every order of moves, dropped callers included. The
status slot and the queue are written by straight-line code, so they agree with the lock as
long as no caller is dropped on the way, and no longer.
-/

namespace Fantastic.Rust.Ai.Backend

variable {backend next : Backend} {number other : Nat} {move : Move}

/-! ### The property and the condition -/

/-- The run of the send is neither finished nor aborted. -/
def Active (backend : Backend) (number : Nat) : Prop :=
  (backend.sends number).task.active = true

structure Coordinated (backend : Backend) : Prop where
  described : backend.currentMeta.isSome = true ↔ backend.holder.isSome = true
  queued : ∀ number ∈ backend.queue, (backend.sends number).phase.inLine = true
  single : ∀ first second, backend.Active first → backend.Active second → first = second

/-- Every state the run passes through. -/
def CoordinatedRun : Backend → List Move → Prop
  | backend, [] => backend.Coordinated
  | backend, move :: moves => backend.Coordinated ∧ CoordinatedRun (backend.step move) moves

/-- No caller is dropped inside its `send`. -/
def Patient (backend : Backend) : Move → Prop
  | .drop number => (backend.sends number).phase = .left
  | _ => True

def PatientRun : Backend → List Move → Prop
  | _, [] => True
  | backend, move :: moves => backend.Patient move ∧ PatientRun (backend.step move) moves

/-! ### The lock -/

/-- The sends inside are the holder of the lock, and those in line wait for it. -/
structure Locking (backend : Backend) : Prop where
  inside : ∀ number, (backend.sends number).phase.inside = true ↔ backend.holder = some number
  waits : ∀ number ∈ backend.waiters, (backend.sends number).phase = .waiting
  distinct : backend.waiters.Nodup
  unused : ∀ number, backend.begun ≤ number → (backend.sends number).phase = .left

theorem fresh_locking (chats : String → ChatFile) : (fresh chats).Locking where
  inside := by simp [fresh, SendPhase.inside]
  waits := by simp [fresh]
  distinct := List.nodup_nil
  unused := by simp [fresh]

theorem Locking.bound (fine : backend.Locking) (here : (backend.sends number).phase ≠ .left) :
    number < backend.begun := by
  by_contra late
  exact here (fine.unused number (by omega))

theorem Locking.not_waiting (fine : backend.Locking)
    (busy : (backend.sends number).phase ≠ .waiting) : number ∉ backend.waiters := by
  intro listed
  exact busy (fine.waits number listed)

/-- Two sends inside are one. -/
theorem Locking.alone (fine : backend.Locking) (one : (backend.sends number).phase.inside = true)
    (two : (backend.sends other).phase.inside = true) : number = other := by
  have same := ((fine.inside number).mp one).symm.trans ((fine.inside other).mp two)
  exact Option.some.inj same

/-- Only tasks, the slot, the queue or the files differ. -/
theorem Locking.same (fine : backend.Locking)
    (phases : ∀ number, (next.sends number).phase = (backend.sends number).phase)
    (begun : next.begun = backend.begun) (holder : next.holder = backend.holder)
    (waiters : next.waiters = backend.waiters) : next.Locking := by
  constructor
  · intro number
    rw [phases, holder]
    exact fine.inside number
  · intro number listed
    rw [waiters] at listed
    rw [phases]
    exact fine.waits number listed
  · rw [waiters]
    exact fine.distinct
  · intro number late
    rw [begun] at late
    rw [phases]
    exact fine.unused number late

/-- One send changes its phase: the lock and its waiters change with it. -/
theorem Locking.put (fine : backend.Locking) {phase : SendPhase}
    (here : (next.sends number).phase = phase)
    (elsewhere : ∀ other, other ≠ number →
      (next.sends other).phase = (backend.sends other).phase)
    (bound : number < next.begun) (begun : backend.begun ≤ next.begun)
    (inside : phase.inside = true ↔ next.holder = some number)
    (others : ∀ other, other ≠ number →
      (backend.holder = some other ↔ next.holder = some other))
    (waits : ∀ other ∈ next.waiters,
      (other = number ∧ phase = .waiting) ∨ (other ≠ number ∧ other ∈ backend.waiters))
    (distinct : next.waiters.Nodup) : next.Locking := by
  constructor
  · intro other
    by_cases same : other = number
    · rw [same, here]
      exact inside
    · rw [elsewhere other same, fine.inside, others other same]
  · intro other listed
    cases waits other listed with
    | inl new =>
      rw [new.1, here]
      exact new.2
    | inr old =>
      rw [elsewhere other old.1]
      exact fine.waits other old.2
  · exact distinct
  · intro other late
    have apart : other ≠ number := by omega
    rw [elsewhere other apart]
    exact fine.unused other (Nat.le_trans begun late)

theorem setPhase_here (backend : Backend) (number : Nat) (phase : SendPhase) :
    ((backend.setPhase number phase).sends number).phase = phase := by
  simp [setPhase]

theorem setPhase_elsewhere (backend : Backend) {number other : Nat} (phase : SendPhase)
    (apart : other ≠ number) :
    (backend.setPhase number phase).sends other = backend.sends other := by
  simp [setPhase, apart]

theorem setPhase_task (backend : Backend) (number other : Nat) (phase : SendPhase) :
    ((backend.setPhase number phase).sends other).task = (backend.sends other).task := by
  simp only [setPhase, Function.update_apply]
  split
  case isTrue same => rw [same]
  case isFalse => rfl

theorem setTask_phase (backend : Backend) (number other : Nat) (task : Task) :
    ((backend.setTask number task).sends other).phase = (backend.sends other).phase := by
  simp only [setTask, Function.update_apply]
  split
  case isTrue same => rw [same]
  case isFalse => rfl

theorem Locking.setTask (fine : backend.Locking) (number : Nat) (task : Task) :
    (backend.setTask number task).Locking :=
  fine.same (setTask_phase backend number · task) rfl rfl rfl

theorem Locking.take (fine : backend.Locking) (bound : number < backend.begun)
    (free : backend.holder = none) {waiters : List Nat} (idle : number ∉ waiters)
    (fewer : waiters.Sublist backend.waiters) :
    { backend.take number with waiters := waiters }.Locking := by
  apply fine.put
  · exact setPhase_here backend number .thinking
  · intro other apart
    exact congrArg Send.phase (setPhase_elsewhere backend .thinking apart)
  · exact bound
  · exact Nat.le_refl _
  · simp [SendPhase.inside, Backend.take]
  · intro other apart
    rw [free]
    simp [Backend.take, Ne.symm apart]
  · intro other listed
    refine Or.inr ⟨?_, fewer.subset listed⟩
    intro same
    exact idle (same ▸ listed)
  · exact fine.distinct.sublist fewer

/-- A send inside goes on, or leaves with the lock. -/
theorem Locking.proceed (fine : backend.Locking) {phase : SendPhase}
    (inside : (backend.sends number).phase.inside = true)
    (here : (next.sends number).phase = phase)
    (elsewhere : ∀ other, other ≠ number →
      (next.sends other).phase = (backend.sends other).phase)
    (begun : next.begun = backend.begun) (waiters : next.waiters = backend.waiters)
    (holder : next.holder = if phase.inside then some number else none) : next.Locking := by
  have held := (fine.inside number).mp inside
  have absent : number ∉ backend.waiters := by
    apply fine.not_waiting
    intro waiting
    simp [waiting, SendPhase.inside] at inside
  have bound : number < backend.begun := by
    apply fine.bound
    intro left
    simp [left, SendPhase.inside] at inside
  apply fine.put here elsewhere
  · omega
  · omega
  · rw [holder]
    split <;> simp_all
  · intro other apart
    rw [holder, held]
    split <;> simp [Ne.symm apart]
  · intro other listed
    rw [waiters] at listed
    refine Or.inr ⟨?_, listed⟩
    intro same
    exact absent (same ▸ listed)
  · rw [waiters]
    exact fine.distinct

theorem Locking.setPhase (fine : backend.Locking) {phase : SendPhase}
    (inside : (backend.sends number).phase.inside = true) (stays : phase.inside = true) :
    (backend.setPhase number phase).Locking := by
  apply fine.proceed inside
  · exact setPhase_here backend number phase
  · intro other apart
    exact congrArg Send.phase (setPhase_elsewhere backend phase apart)
  · rfl
  · rfl
  · rw [if_pos stays]
    exact (fine.inside number).mp inside

/-- A send inside is gone, and the lock is free. -/
theorem Locking.release (fine : backend.Locking)
    (inside : (backend.sends number).phase.inside = true) :
    { backend.setPhase number .left with holder := none }.Locking := by
  apply fine.proceed inside
  · exact setPhase_here backend number .left
  · intro other apart
    exact congrArg Send.phase (setPhase_elsewhere backend .left apart)
  · rfl
  · rfl
  · rfl

theorem Locking.leave (fine : backend.Locking)
    (inside : (backend.sends number).phase.inside = true) : (backend.leave number).Locking := by
  have released := fine.release inside
  exact ⟨released.inside, released.waits, released.distinct, released.unused⟩

/-- A send outside the lock changes its phase, and stays outside. -/
theorem Locking.outside (fine : backend.Locking) {phase : SendPhase} {waiters : List Nat}
    (before : ¬ (backend.sends number).phase.inside = true) (after : phase.inside = false)
    (bound : number < backend.begun)
    (line : ∀ other ∈ waiters,
      (other = number ∧ phase = .waiting) ∨ (other ≠ number ∧ other ∈ backend.waiters))
    (distinct : waiters.Nodup) :
    { backend.setPhase number phase with waiters := waiters }.Locking := by
  apply fine.put
  · exact setPhase_here backend number phase
  · intro other apart
    exact congrArg Send.phase (setPhase_elsewhere backend phase apart)
  · exact bound
  · exact Nat.le_refl _
  · rw [fine.inside] at before
    simpa [after, Backend.setPhase] using before
  · intro other _
    exact Iff.rfl
  · exact line
  · exact distinct

/-- A new send, outside the lock. -/
theorem Locking.enter (fine : backend.Locking) (client text : String) {phase : SendPhase}
    (outside : phase.inside = false) :
    { backend with
      begun := backend.begun + 1
      queue := backend.queue ++ [backend.begun]
      sends := Function.update backend.sends backend.begun
        { client := client, text := text, phase := phase, task := .unborn } }.Locking := by
  have blank := fine.unused backend.begun (Nat.le_refl _)
  have absent : backend.begun ∉ backend.waiters := fine.not_waiting (by simp [blank])
  have free : backend.holder ≠ some backend.begun := by
    intro held
    rw [← fine.inside, blank] at held
    simp [SendPhase.inside] at held
  apply fine.put
  · exact congrArg Send.phase (Function.update_self backend.begun _ backend.sends)
  · intro other apart
    exact congrArg Send.phase (Function.update_of_ne apart _ backend.sends)
  · exact Nat.lt_succ_self _
  · exact Nat.le_succ _
  · simpa [outside] using free
  · intro other _
    exact Iff.rfl
  · intro other listed
    refine Or.inr ⟨?_, listed⟩
    intro same
    exact absent (same ▸ listed)
  · exact fine.distinct

theorem lockFree_holder (free : backend.lockFree = true) : backend.holder = none := by
  simp only [lockFree, Bool.and_eq_true, Option.isNone_iff_eq_none] at free
  exact free.1

theorem Locking.call (fine : backend.Locking) (client text : String) :
    (backend.call client text).Locking := by
  unfold Backend.call
  simp only
  split
  case isTrue free =>
    have blank := fine.unused backend.begun (Nat.le_refl _)
    have absent : backend.begun ∉ backend.waiters := fine.not_waiting (by simp [blank])
    exact (fine.enter client text rfl).take (Nat.lt_succ_self _) (lockFree_holder free) absent
      (List.Sublist.refl _)
  case isFalse => exact fine.enter client text rfl

theorem Locking.acquire (fine : backend.Locking)
    (phase : (backend.sends number).phase = .announcing) : (backend.acquire number).Locking := by
  have bound := fine.bound (show (backend.sends number).phase ≠ .left by simp [phase])
  have absent := fine.not_waiting (show (backend.sends number).phase ≠ .waiting by simp [phase])
  unfold Backend.acquire
  split
  case isTrue free => exact fine.take bound (lockFree_holder free) absent (List.Sublist.refl _)
  case isFalse =>
    apply fine.outside (by simp [phase, SendPhase.inside]) rfl bound
    · intro other listed
      by_cases same : other = number
      · exact Or.inl ⟨same, rfl⟩
      · have old : other ∈ backend.waiters := by simpa [same] using listed
        exact Or.inr ⟨same, old⟩
    · rw [List.nodup_append]
      refine ⟨fine.distinct, List.nodup_singleton _, ?_⟩
      intro first listed second last same
      rw [List.mem_singleton] at last
      exact absent (last ▸ same ▸ listed)

theorem Locking.wake (fine : backend.Locking) (free : backend.holder = none)
    (first : backend.waiters.head? = some number) :
    { backend.take number with waiters := backend.waiters.tail }.Locking := by
  have waiting := fine.waits number (List.mem_of_mem_head? first)
  have distinct := fine.distinct
  cases waiters : backend.waiters with
  | nil => simp [waiters] at first
  | cons head rest =>
    have same : head = number := by simpa [waiters] using first
    subst same
    rw [waiters, List.nodup_cons] at distinct
    apply fine.take (fine.bound (by simp [waiting])) free distinct.1
    rw [waiters]
    exact List.sublist_cons_self head rest

theorem Locking.drop (fine : backend.Locking) (number : Nat) : (backend.drop number).Locking := by
  unfold Backend.drop
  cases phase : (backend.sends number).phase with
  | left => exact fine
  | announcing =>
    have absent := fine.not_waiting (show (backend.sends number).phase ≠ .waiting by simp [phase])
    apply fine.outside (by simp [phase, SendPhase.inside]) rfl (fine.bound (by simp [phase]))
    · intro other listed
      exact Or.inr ⟨fun same => absent (same ▸ listed), listed⟩
    · exact fine.distinct
  | waiting =>
    have gone : number ∉ backend.waiters.erase number := by
      rw [fine.distinct.mem_erase_iff]
      simp
    apply fine.outside (by simp [phase, SendPhase.inside]) rfl (fine.bound (by simp [phase]))
    · intro other listed
      exact Or.inr ⟨fun same => gone (same ▸ listed), List.mem_of_mem_erase listed⟩
    · exact fine.distinct.erase number
  | thinking | polling | collecting | expiring | closing =>
    exact fine.release (by simp [phase, SendPhase.inside])

theorem Locking.collect (fine : backend.Locking)
    (phase : (backend.sends number).phase = .collecting) : (backend.collect number).Locking := by
  have cleared : { backend with currentTask := none }.Locking :=
    fine.same (fun _ => rfl) rfl rfl rfl
  have inside : (backend.sends number).phase.inside = true := by simp [phase, SendPhase.inside]
  unfold Backend.collect
  simp only
  split
  · exact cleared.leave inside
  · exact cleared.setPhase inside rfl
  · exact cleared.setPhase inside rfl

theorem Locking.endTask (fine : backend.Locking) (number : Nat) (result : Option Outcome) :
    (backend.endTask number result).Locking := by
  unfold Backend.endTask
  split
  · exact fine.setTask number _
  · exact fine

theorem Locking.runStep (fine : backend.Locking) (number : Nat)
    (later : Send → Stage → Option Stage) : (backend.runStep number later).Locking := by
  unfold Backend.runStep
  split
  · split
    · exact fine
    · exact fine.setTask number _
  · exact fine

theorem Locking.launch (fine : backend.Locking)
    (phase : (backend.sends number).phase = .thinking) : (backend.launch number).Locking := by
  have started : ∀ cleared : Backend, cleared.Locking →
      (cleared.sends number).phase = .thinking →
      { (cleared.setTask number (.running .assembling false)).setPhase number .polling with
        currentTask := some number }.Locking := by
    intro cleared fine phase
    have spawned := fine.setTask number (.running .assembling false)
    have polling : ((cleared.setTask number (.running .assembling false)).setPhase number
        .polling).Locking := by
      apply spawned.setPhase
      · rw [setTask_phase, phase]
        rfl
      · rfl
    exact polling.same (fun _ => rfl) rfl rfl rfl
  unfold Backend.launch
  cases backend.currentTask with
  | none => exact started backend fine phase
  | some previous =>
    apply started _ (fine.setTask previous _)
    rw [← phase]
    exact setTask_phase ..

/-- The lock is well kept in every order of moves. -/
theorem Locking.step (fine : backend.Locking) (move : Move) : (backend.step move).Locking := by
  cases move with
  | call client text => exact fine.call client text
  | announced number =>
    simp only [Backend.step]
    split
    case isTrue phase => exact fine.acquire phase
    case isFalse => exact fine
  | wake number =>
    simp only [Backend.step]
    split
    case isTrue woken => exact fine.wake woken.1 woken.2
    case isFalse => exact fine
  | launch number =>
    simp only [Backend.step]
    split
    case isTrue phase => exact fine.launch phase
    case isFalse => exact fine
  | poll number =>
    simp only [Backend.step]
    split
    case isTrue ready => exact fine.setPhase (by simp [ready.1, SendPhase.inside]) rfl
    case isFalse => exact fine
  | expire number =>
    simp only [Backend.step]
    split
    case isTrue late =>
      apply (fine.setTask number _).setPhase
      · rw [setTask_phase, late.1]
        rfl
      · rfl
    case isFalse => exact fine
  | collect number =>
    simp only [Backend.step]
    split
    case isTrue phase => exact fine.collect phase
    case isFalse => exact fine
  | expired number =>
    simp only [Backend.step]
    split
    case isTrue phase =>
      have closing := fine.setPhase (show (backend.sends number).phase.inside = true by
        simp [phase, SendPhase.inside]) (show (SendPhase.closing .timeout).inside = true from rfl)
      exact closing.same (fun _ => rfl) rfl rfl rfl
    case isFalse => exact fine
  | close number =>
    simp only [Backend.step]
    split
    case h_1 exit phase => exact fine.leave (by simp [phase, SendPhase.inside])
    case h_2 => exact fine
  | drop number => exact fine.drop number
  | interrupt =>
    simp only [Backend.step, Backend.interrupt]
    split
    · exact fine
    · exact fine.same (setTask_phase backend _ · _) rfl rfl rfl
  | load number system reading =>
    simp only [Backend.step]
    exact fine.runStep number _
  | pass number content calls results =>
    simp only [Backend.step]
    exact fine.runStep number _
  | save number content written =>
    simp only [Backend.step, Backend.save]
    split
    · split
      · exact fine.same (setTask_phase backend _ · _) rfl rfl rfl
      · exact fine.setTask number _
    · exact fine
  | finish number =>
    simp only [Backend.step]
    split
    · exact fine.endTask number _
    · exact fine
  | fail number =>
    simp only [Backend.step]
    split
    · exact fine
    · exact fine.endTask number _
  | die number => exact fine.endTask number _

/-! ### The task slot -/

/-- A run that counts is in the slot, and the send that looks at the slot finds its own run
there or nothing. -/
structure Slots (backend : Backend) : Prop where
  active : ∀ number, backend.Active number → backend.currentTask = some number
  own : ∀ number, (backend.sends number).phase.watching = true →
    backend.currentTask = none ∨ backend.currentTask = some number
  stopped : ∀ number, (backend.sends number).phase = .collecting ∨
    (backend.sends number).phase = .expiring → ¬ backend.Active number

theorem fresh_slots (chats : String → ChatFile) : (fresh chats).Slots where
  active := by simp [fresh, Active, Task.active]
  own := by simp [fresh, SendPhase.watching]
  stopped := by simp [fresh]

/-- One send changes its phase, the slot stays. -/
theorem Slots.phase (slots : backend.Slots)
    (tasks : ∀ other, (next.sends other).task = (backend.sends other).task ∨
      (next.sends other).task.active = false)
    (elsewhere : ∀ other, other ≠ number →
      (next.sends other).phase = (backend.sends other).phase)
    (slot : next.currentTask = backend.currentTask)
    (own : (next.sends number).phase.watching = true →
      (backend.sends number).phase.watching = true)
    (stopped : (next.sends number).phase = .collecting ∨ (next.sends number).phase = .expiring →
      ¬ next.Active number) : next.Slots := by
  have before : ∀ other, next.Active other → backend.Active other := by
    intro other active
    unfold Active at active ⊢
    rcases tasks other with same | idle
    · rw [← same]
      exact active
    · rw [idle] at active
      cases active
  constructor
  · intro other active
    rw [slot]
    exact slots.active other (before other active)
  · intro other watching
    rw [slot]
    by_cases same : other = number
    · subst same
      exact slots.own other (own watching)
    · rw [elsewhere other same] at watching
      exact slots.own other watching
  · intro other late active
    by_cases same : other = number
    · subst same
      exact stopped late active
    · rw [elsewhere other same] at late
      exact slots.stopped other late (before other active)

theorem Slots.setPhase (slots : backend.Slots) {phase : SendPhase}
    (quiet : phase.watching = false) : (backend.setPhase number phase).Slots := by
  apply slots.phase
  · intro other
    exact .inl (setPhase_task ..)
  · intro other apart
    exact congrArg Send.phase (setPhase_elsewhere backend phase apart)
  · rfl
  · rw [setPhase_here, quiet]
    exact nofun
  · rw [setPhase_here]
    intro late
    rcases late with rfl | rfl <;> cases quiet

/-- Holder, waiters, queue, status and files do not matter. -/
theorem Slots.same (slots : backend.Slots) (sends : next.sends = backend.sends)
    (slot : next.currentTask = backend.currentTask) : next.Slots := by
  constructor
  · intro other active
    unfold Active at active
    rw [sends] at active
    rw [slot]
    exact slots.active other active
  · intro other watching
    rw [sends] at watching
    rw [slot]
    exact slots.own other watching
  · intro other late active
    unfold Active at active
    rw [sends] at late active
    exact slots.stopped other late active

/-- A run goes on as it was, or is over or aborted. -/
theorem Slots.setTask (slots : backend.Slots) {task : Task}
    (fewer : task.active = true → backend.Active number) :
    (backend.setTask number task).Slots := by
  have before : ∀ other, (backend.setTask number task).Active other → backend.Active other := by
    intro other active
    unfold Active at active
    simp only [Backend.setTask, Function.update_apply] at active
    split at active
    case isTrue same =>
      rw [same]
      exact fewer active
    case isFalse => exact active
  constructor
  · intro other active
    exact slots.active other (before other active)
  · intro other watching
    rw [setTask_phase] at watching
    exact slots.own other watching
  · intro other late active
    rw [setTask_phase] at late
    exact slots.stopped other late (before other active)

theorem abort_active (task : Task) : task.abort.active = false := by
  cases task <;> rfl

theorem finished_active {task : Task} (finished : task.isFinished = true) :
    task.active = false := by
  cases task with
  | ended result => rfl
  | _ => cases finished

theorem Slots.abortTask (slots : backend.Slots) (number : Nat) :
    (backend.abortTask number).Slots := by
  apply slots.setTask
  rw [abort_active]
  exact nofun

/-- Once a send has seen its run finished or aborted, no run counts. -/
theorem Slots.idle (slots : backend.Slots)
    (late : (backend.sends number).phase = .collecting ∨ (backend.sends number).phase = .expiring)
    (other : Nat) : ¬ backend.Active other := by
  intro active
  have watching : (backend.sends number).phase.watching = true := by
    rcases late with phase | phase <;> rw [phase] <;> rfl
  have slot := slots.active other active
  rcases slots.own number watching with empty | own
  · rw [empty] at slot
    cases slot
  · rw [own] at slot
    rw [← Option.some.inj slot] at active
    exact slots.stopped number late active

/-- The slot is emptied when no run counts. -/
theorem Slots.clear (slots : backend.Slots) (idle : ∀ other, ¬ backend.Active other) :
    { backend with currentTask := none }.Slots :=
  ⟨fun other active => absurd active (idle other), fun _ _ => .inl rfl, slots.stopped⟩

theorem Slots.launch (slots : backend.Slots) (fine : backend.Locking)
    (phase : (backend.sends number).phase = .thinking) : (backend.launch number).Slots := by
  -- with the old handle aborted, nothing counts
  have started : ∀ cleared : Backend, (∀ other, ¬ cleared.Active other) →
      (∀ other, (cleared.sends other).phase = (backend.sends other).phase) →
      { (cleared.setTask number (.running .assembling false)).setPhase number .polling with
        currentTask := some number }.Slots := by
    intro cleared idle phases
    have alone : ∀ other, other ≠ number → (backend.sends other).phase.inside = false := by
      intro other apart
      by_contra inside
      rw [Bool.not_eq_false] at inside
      exact apart (fine.alone inside (by rw [phase]; rfl))
    have elsewhere : ∀ other, other ≠ number →
        (((cleared.setTask number (.running .assembling false)).setPhase number .polling).sends
          other) = cleared.sends other := by
      intro other apart
      rw [setPhase_elsewhere _ _ apart]
      exact Function.update_of_ne apart _ _
    constructor
    · intro other active
      by_cases same : other = number
      · rw [same]
      · unfold Active at active
        simp only [elsewhere other same] at active
        exact absurd active (idle other)
    · intro other watching
      by_cases same : other = number
      · rw [same]
        exact .inr rfl
      · simp only [elsewhere other same, phases] at watching
        have outside := alone other same
        cases here : (backend.sends other).phase <;> rw [here] at watching outside <;>
          cases watching <;> cases outside
    · intro other late
      by_cases same : other = number
      · subst same
        simp only [setPhase_here] at late
        rcases late with impossible | impossible <;> cases impossible
      · simp only [elsewhere other same, phases] at late
        have outside := alone other same
        rcases late with here | here <;> rw [here] at outside <;> cases outside
  unfold Backend.launch
  cases slot : backend.currentTask with
  | none =>
    apply started backend _ fun _ => rfl
    intro other active
    rw [slots.active other active] at slot
    cases slot
  | some previous =>
    apply started _ _ (setTask_phase backend previous · _)
    intro other active
    unfold Active at active
    simp only [Backend.setTask, Function.update_apply] at active
    split at active
    case isTrue =>
      rw [abort_active] at active
      cases active
    case isFalse apart =>
      rw [slots.active other active] at slot
      exact apart (Option.some.inj slot)

theorem Slots.enter (slots : backend.Slots) (client text : String) {phase : SendPhase}
    (quiet : phase.watching = false) :
    { backend with
      begun := backend.begun + 1
      queue := backend.queue ++ [backend.begun]
      sends := Function.update backend.sends backend.begun
        { client := client, text := text, phase := phase, task := .unborn } }.Slots := by
  apply slots.phase
  · intro other
    simp only [Function.update_apply]
    split
    · exact .inr rfl
    · exact .inl rfl
  · intro other apart
    exact congrArg Send.phase (Function.update_of_ne apart _ backend.sends)
  · rfl
  · simp [quiet]
  · simp only [Function.update_self]
    intro late
    rcases late with rfl | rfl <;> cases quiet

theorem Slots.take (slots : backend.Slots) {waiters : List Nat} :
    { backend.take number with waiters := waiters }.Slots := by
  have thinking : (backend.setPhase number .thinking).Slots := slots.setPhase rfl
  exact thinking.same rfl rfl

theorem Slots.leave (slots : backend.Slots) : (backend.leave number).Slots := by
  have left : (backend.setPhase number .left).Slots := slots.setPhase rfl
  exact left.same rfl rfl

theorem Slots.poll (slots : backend.Slots) (phase : (backend.sends number).phase = .polling)
    (finished : backend.slotFinished = true) : (backend.setPhase number .collecting).Slots := by
  apply slots.phase
  · intro other
    exact .inl (setPhase_task ..)
  · intro other apart
    exact congrArg Send.phase (setPhase_elsewhere backend .collecting apart)
  · rfl
  · intro _
    rw [phase]
    rfl
  · intro _ active
    rw [Active, setPhase_task] at active
    have slot := slots.active number active
    simp only [slotFinished, slot] at finished
    rw [finished_active finished] at active
    cases active

theorem Slots.expire (slots : backend.Slots) (phase : (backend.sends number).phase = .polling) :
    ((backend.abortTask number).setPhase number .expiring).Slots := by
  apply (slots.abortTask number).phase
  · intro other
    exact .inl (setPhase_task ..)
  · intro other apart
    exact congrArg Send.phase (setPhase_elsewhere _ .expiring apart)
  · rfl
  · intro _
    rw [Backend.abortTask, setTask_phase, phase]
    rfl
  · intro _ active
    simp only [Active, Backend.setPhase, Backend.abortTask, Backend.setTask,
      Function.update_self, abort_active] at active
    cases active

theorem Slots.interrupt (slots : backend.Slots) : backend.interrupt.Slots := by
  unfold Backend.interrupt
  cases slot : backend.currentTask with
  | none => exact slots
  | some number =>
    have aborted := slots.abortTask number
    apply aborted.clear
    intro other active
    have found := aborted.active other active
    have same : number = other := Option.some.inj (slot.symm.trans found)
    subst same
    simp only [Active, Backend.abortTask, Backend.setTask, Function.update_self,
      abort_active] at active
    cases active

theorem Slots.runStep (slots : backend.Slots) (number : Nat)
    (later : Send → Stage → Option Stage) : (backend.runStep number later).Slots := by
  unfold Backend.runStep
  split
  case h_1 stage aborted task =>
    split
    · exact slots
    · apply slots.setTask
      intro active
      rw [Active, task]
      exact active
  case h_2 => exact slots

theorem Slots.endTask (slots : backend.Slots) (number : Nat) (result : Option Outcome) :
    (backend.endTask number result).Slots := by
  unfold Backend.endTask
  split
  · exact slots.setTask nofun
  · exact slots

theorem Slots.collect (slots : backend.Slots)
    (phase : (backend.sends number).phase = .collecting) : (backend.collect number).Slots := by
  have cleared := slots.clear (slots.idle (.inl phase))
  unfold Backend.collect
  simp only
  split
  · exact cleared.leave
  · exact cleared.setPhase rfl
  · exact cleared.setPhase rfl

theorem Slots.drop (slots : backend.Slots) (number : Nat) : (backend.drop number).Slots := by
  have left : (backend.setPhase number .left).Slots := slots.setPhase rfl
  unfold Backend.drop
  split
  · exact slots
  · exact left
  · exact left.same rfl rfl
  · exact left.same rfl rfl

/-- One run counts at a time, in every order of moves. -/
theorem Slots.step (slots : backend.Slots) (fine : backend.Locking) (move : Move) :
    (backend.step move).Slots := by
  cases move with
  | call client text =>
    simp only [Backend.step, Backend.call]
    split
    · exact (slots.enter client text rfl).take
    · exact slots.enter client text rfl
  | announced number =>
    simp only [Backend.step, Backend.acquire]
    split
    · split
      · exact slots.take
      · have waiting : (backend.setPhase number .waiting).Slots := slots.setPhase rfl
        exact waiting.same rfl rfl
    · exact slots
  | wake number =>
    simp only [Backend.step]
    split
    · exact slots.take
    · exact slots
  | launch number =>
    simp only [Backend.step]
    split
    case isTrue phase => exact slots.launch fine phase
    case isFalse => exact slots
  | poll number =>
    simp only [Backend.step]
    split
    case isTrue ready => exact slots.poll ready.1 ready.2
    case isFalse => exact slots
  | expire number =>
    simp only [Backend.step]
    split
    case isTrue late => exact slots.expire late.1
    case isFalse => exact slots
  | collect number =>
    simp only [Backend.step]
    split
    case isTrue phase => exact slots.collect phase
    case isFalse => exact slots
  | expired number =>
    simp only [Backend.step]
    split
    case isTrue phase =>
      have cleared := slots.clear (slots.idle (.inr phase))
      have closing : ({ backend with currentTask := none }.setPhase number
          (.closing .timeout)).Slots := cleared.setPhase rfl
      exact closing.same rfl rfl
    case isFalse => exact slots
  | close number =>
    simp only [Backend.step]
    split
    · exact slots.leave
    · exact slots
  | drop number => exact slots.drop number
  | interrupt => exact slots.interrupt
  | load number system reading =>
    simp only [Backend.step]
    exact slots.runStep number _
  | pass number content calls results =>
    simp only [Backend.step]
    exact slots.runStep number _
  | save number content written =>
    simp only [Backend.step, Backend.save]
    split
    case h_1 messages aborted task =>
      have saved : (backend.setTask number (.running .saved aborted)).Slots := by
        apply slots.setTask
        intro active
        rw [Active, task]
        exact active
      split
      · exact saved.same rfl rfl
      · exact saved
    case h_2 => exact slots
  | finish number =>
    simp only [Backend.step]
    split
    · exact slots.endTask number _
    · exact slots
  | fail number =>
    simp only [Backend.step]
    split
    · exact slots
    · exact slots.endTask number _
  | die number => exact slots.endTask number _

theorem Slots.single (slots : backend.Slots) (first second : Nat) (one : backend.Active first)
    (two : backend.Active second) : first = second := by
  have same := (slots.active first one).symm.trans (slots.active second two)
  exact Option.some.inj same

/-! ### The status slot and the queue -/

structure Ledger (backend : Backend) : Prop where
  described : backend.currentMeta = backend.holder
  queued : ∀ number, number ∈ backend.queue ↔ (backend.sends number).phase.inLine = true
  once : backend.queue.Nodup

theorem fresh_ledger (chats : String → ChatFile) : (fresh chats).Ledger where
  described := rfl
  queued := by simp [fresh, SendPhase.inLine]
  once := List.nodup_nil

/-- One send changes its phase, and its entry goes with it. -/
theorem Ledger.put (ledger : backend.Ledger)
    (elsewhere : ∀ other, other ≠ number →
      (next.sends other).phase = (backend.sends other).phase)
    (described : next.currentMeta = next.holder)
    (here : number ∈ next.queue ↔ (next.sends number).phase.inLine = true)
    (others : ∀ other, other ≠ number → (other ∈ next.queue ↔ other ∈ backend.queue))
    (once : next.queue.Nodup) : next.Ledger := by
  refine ⟨described, ?_, once⟩
  intro other
  by_cases same : other = number
  · rw [same]
    exact here
  · rw [others other same, elsewhere other same]
    exact ledger.queued other

theorem Ledger.same (ledger : backend.Ledger)
    (phases : ∀ number, (next.sends number).phase = (backend.sends number).phase)
    (status : next.currentMeta = backend.currentMeta) (holder : next.holder = backend.holder)
    (queue : next.queue = backend.queue) : next.Ledger := by
  refine ⟨?_, ?_, ?_⟩
  · rw [status, holder]
    exact ledger.described
  · intro number
    rw [queue, phases]
    exact ledger.queued number
  · rw [queue]
    exact ledger.once

theorem Ledger.setTask (ledger : backend.Ledger) (number : Nat) (task : Task) :
    (backend.setTask number task).Ledger :=
  ledger.same (setTask_phase backend number · task) rfl rfl rfl

/-- A phase of the same kind, with the lock and the queue as they were. -/
theorem Ledger.setPhase (ledger : backend.Ledger) {phase : SendPhase}
    (kind : phase.inLine = (backend.sends number).phase.inLine) :
    (backend.setPhase number phase).Ledger := by
  apply ledger.put
  · intro other apart
    exact congrArg Send.phase (setPhase_elsewhere backend phase apart)
  · exact ledger.described
  · rw [setPhase_here, kind]
    exact ledger.queued number
  · intro other _
    exact Iff.rfl
  · exact ledger.once

theorem Ledger.take (ledger : backend.Ledger) (number : Nat) {waiters : List Nat} :
    { backend.take number with waiters := waiters }.Ledger := by
  apply ledger.put
  · intro other apart
    exact congrArg Send.phase (setPhase_elsewhere backend .thinking apart)
  · rfl
  · simp only [Backend.take, setPhase_here]
    rw [ledger.once.mem_erase_iff]
    simp [SendPhase.inLine]
  · intro other apart
    exact List.mem_erase_of_ne apart
  · exact ledger.once.erase number

theorem Ledger.leave (ledger : backend.Ledger)
    (inside : (backend.sends number).phase.inside = true) : (backend.leave number).Ledger := by
  have outside : (backend.sends number).phase.inLine = false := by
    cases phase : (backend.sends number).phase <;> rw [phase] at inside
    · cases inside
    · cases inside
    all_goals rfl
  have left : (backend.setPhase number .left).Ledger := ledger.setPhase outside.symm
  exact ⟨rfl, left.queued, left.once⟩

/-- A new send, in the queue. -/
theorem Ledger.enter (ledger : backend.Ledger) (fine : backend.Locking) (client text : String) :
    { backend with
      begun := backend.begun + 1
      queue := backend.queue ++ [backend.begun]
      sends := Function.update backend.sends backend.begun
        { client := client, text := text, phase := .announcing, task := .unborn } }.Ledger := by
  have absent : backend.begun ∉ backend.queue := by
    rw [ledger.queued, fine.unused _ (Nat.le_refl _)]
    exact nofun
  apply ledger.put
  · intro other apart
    exact congrArg Send.phase (Function.update_of_ne apart _ backend.sends)
  · exact ledger.described
  · simp [SendPhase.inLine]
  · intro other apart
    simp [apart]
  · rw [List.nodup_append]
    refine ⟨ledger.once, List.nodup_singleton _, ?_⟩
    intro first listed second last same
    rw [List.mem_singleton] at last
    exact absent (last ▸ same ▸ listed)

theorem Ledger.call (ledger : backend.Ledger) (fine : backend.Locking) (client text : String) :
    (backend.call client text).Ledger := by
  have entered := ledger.enter fine client text
  unfold Backend.call
  simp only
  split
  case isTrue =>
    have taken := @Ledger.take _ entered backend.begun backend.waiters
    simp only [Backend.take, Backend.setPhase, Function.update_self, Function.update_idem] at taken ⊢
    exact taken
  case isFalse => exact entered

theorem Ledger.acquire (ledger : backend.Ledger)
    (phase : (backend.sends number).phase = .announcing) : (backend.acquire number).Ledger := by
  unfold Backend.acquire
  split
  · exact ledger.take number
  · have waiting : (backend.setPhase number .waiting).Ledger :=
      ledger.setPhase (by rw [phase]; rfl)
    exact waiting.same (fun _ => rfl) rfl rfl rfl

theorem Ledger.launch (ledger : backend.Ledger)
    (phase : (backend.sends number).phase = .thinking) : (backend.launch number).Ledger := by
  have started : ∀ cleared : Backend, cleared.Ledger →
      (cleared.sends number).phase = .thinking →
      { (cleared.setTask number (.running .assembling false)).setPhase number .polling with
        currentTask := some number }.Ledger := by
    intro cleared ledger phase
    have polling : ((cleared.setTask number (.running .assembling false)).setPhase number
        .polling).Ledger := by
      apply (ledger.setTask number _).setPhase
      rw [setTask_phase, phase]
      rfl
    exact polling.same (fun _ => rfl) rfl rfl rfl
  unfold Backend.launch
  cases backend.currentTask with
  | none => exact started backend ledger phase
  | some previous =>
    apply started _ (ledger.setTask previous _)
    rw [← phase]
    exact setTask_phase ..

theorem Ledger.collect (ledger : backend.Ledger)
    (phase : (backend.sends number).phase = .collecting) : (backend.collect number).Ledger := by
  have cleared : { backend with currentTask := none }.Ledger :=
    ledger.same (fun _ => rfl) rfl rfl rfl
  unfold Backend.collect
  simp only
  split
  · exact cleared.leave (show (backend.sends number).phase.inside = true by rw [phase]; rfl)
  · exact cleared.setPhase (show _ = (backend.sends number).phase.inLine by rw [phase]; rfl)
  · exact cleared.setPhase (show _ = (backend.sends number).phase.inLine by rw [phase]; rfl)

theorem Ledger.endTask (ledger : backend.Ledger) (number : Nat) (result : Option Outcome) :
    (backend.endTask number result).Ledger := by
  unfold Backend.endTask
  split
  · exact ledger.setTask number _
  · exact ledger

theorem Ledger.runStep (ledger : backend.Ledger) (number : Nat)
    (later : Send → Stage → Option Stage) : (backend.runStep number later).Ledger := by
  unfold Backend.runStep
  split
  · split
    · exact ledger
    · exact ledger.setTask number _
  · exact ledger

/-- As long as no caller is dropped, the status slot and the queue follow the lock. -/
theorem Ledger.step (ledger : backend.Ledger) (fine : backend.Locking)
    (patient : backend.Patient move) : (backend.step move).Ledger := by
  cases move with
  | call client text => exact ledger.call fine client text
  | announced number =>
    simp only [Backend.step]
    split
    case isTrue phase => exact ledger.acquire phase
    case isFalse => exact ledger
  | wake number =>
    simp only [Backend.step]
    split
    · exact ledger.take number
    · exact ledger
  | launch number =>
    simp only [Backend.step]
    split
    case isTrue phase => exact ledger.launch phase
    case isFalse => exact ledger
  | poll number =>
    simp only [Backend.step]
    split
    case isTrue ready => exact ledger.setPhase (by rw [ready.1]; rfl)
    case isFalse => exact ledger
  | expire number =>
    simp only [Backend.step]
    split
    case isTrue late =>
      apply (ledger.setTask number _).setPhase
      rw [setTask_phase, late.1]
      rfl
    case isFalse => exact ledger
  | collect number =>
    simp only [Backend.step]
    split
    case isTrue phase => exact ledger.collect phase
    case isFalse => exact ledger
  | expired number =>
    simp only [Backend.step]
    split
    case isTrue phase =>
      have closing : (backend.setPhase number (.closing .timeout)).Ledger :=
        ledger.setPhase (by rw [phase]; rfl)
      exact closing.same (fun _ => rfl) rfl rfl rfl
    case isFalse => exact ledger
  | close number =>
    simp only [Backend.step]
    split
    case h_1 exit phase => exact ledger.leave (by rw [phase]; rfl)
    case h_2 => exact ledger
  | drop number =>
    have left : (backend.sends number).phase = .left := patient
    simp only [Backend.step, Backend.drop, left]
    exact ledger
  | interrupt =>
    simp only [Backend.step, Backend.interrupt]
    split
    · exact ledger
    · exact ledger.same (setTask_phase backend _ · _) rfl rfl rfl
  | load number system reading =>
    simp only [Backend.step]
    exact ledger.runStep number _
  | pass number content calls results =>
    simp only [Backend.step]
    exact ledger.runStep number _
  | save number content written =>
    simp only [Backend.step, Backend.save]
    split
    · split
      · exact ledger.same (setTask_phase backend _ · _) rfl rfl rfl
      · exact ledger.setTask number _
    · exact ledger
  | finish number =>
    simp only [Backend.step]
    split
    · exact ledger.endTask number _
    · exact ledger
  | fail number =>
    simp only [Backend.step]
    split
    · exact ledger
    · exact ledger.endTask number _
  | die number => exact ledger.endTask number _

theorem Ledger.coordinated (ledger : backend.Ledger) (slots : backend.Slots) :
    backend.Coordinated where
  described := by rw [ledger.described]
  queued := fun number listed => (ledger.queued number).mp listed
  single := slots.single

/-- A caller that is dropped in line leaves its entry; one that is dropped inside leaves
the status of a lock that nobody holds. -/
theorem Ledger.drop_breaks (ledger : backend.Ledger) (fine : backend.Locking)
    (away : (backend.sends number).phase ≠ .left) : ¬ (backend.drop number).Coordinated := by
  intro coordinated
  have gone : ((backend.setPhase number .left).sends number).phase = .left :=
    setPhase_here backend number .left
  have entry : (backend.sends number).phase.inLine = true →
      (backend.drop number).queue = backend.queue →
      ((backend.drop number).sends number).phase = .left → False := by
    intro inLine queue left
    have listed := (ledger.queued number).mpr inLine
    rw [← queue] at listed
    have still := coordinated.queued number listed
    rw [left] at still
    cases still
  have status : (backend.sends number).phase.inside = true →
      (backend.drop number).currentMeta = backend.currentMeta →
      (backend.drop number).holder = none → False := by
    intro inside kept free
    have described := coordinated.described
    rw [kept, free, ledger.described, (fine.inside number).mp inside] at described
    simp at described
  unfold Backend.drop at entry status
  cases phase : (backend.sends number).phase with
  | left => exact away phase
  | announcing | waiting =>
    simp only [phase] at entry
    exact entry rfl rfl gone
  | thinking | polling | collecting | expiring | closing =>
    simp only [phase] at status
    exact status rfl rfl trivial

/-! ### Whole runs -/

theorem coordinated_run_iff (moves : List Move) : ∀ {backend : Backend}, backend.Locking →
    backend.Slots → backend.Ledger →
      (backend.CoordinatedRun moves ↔ backend.PatientRun moves) := by
  induction moves with
  | nil =>
    intro backend _ slots ledger
    exact iff_of_true (ledger.coordinated slots) trivial
  | cons move moves hypothesis =>
    intro backend fine slots ledger
    by_cases patient : backend.Patient move
    · have rest := hypothesis (fine.step move) (slots.step fine move) (ledger.step fine patient)
      simp only [CoordinatedRun, PatientRun, patient, ledger.coordinated slots, true_and]
      exact rest
    · refine iff_of_false ?_ fun both => patient both.1
      rintro ⟨_, later⟩
      cases move with
      | drop number =>
        apply ledger.drop_breaks fine patient
        cases moves with
        | nil => exact later
        | cons _ _ => exact later.1
      | _ => exact patient trivial

/-- Whoever is dropped, no two runs generate at once. -/
theorem one_run_generates (chats : String → ChatFile) (moves : List Move) :
    ∃ current, ∀ number, ((fresh chats).run moves).Active number → number = current := by
  have kept : ∀ {backend : Backend}, backend.Locking → backend.Slots →
      (backend.run moves).Slots := by
    induction moves with
    | nil => exact fun _ slots => slots
    | cons move moves hypothesis =>
      exact fun fine slots => hypothesis (fine.step move) (slots.step fine move)
  have slots := kept (fresh_locking chats) (fresh_slots chats)
  refine ⟨((fresh chats).run moves).currentTask.getD 0, fun number active => ?_⟩
  rw [slots.active number active, Option.getD_some]

/-- Lock, status, queue and task agree in every state of a run exactly if no caller is
dropped inside its `send` along the run. -/
theorem coordinated_iff_patient (chats : String → ChatFile) (moves : List Move) :
    (fresh chats).CoordinatedRun moves ↔ (fresh chats).PatientRun moves :=
  coordinated_run_iff moves (fresh_locking chats) (fresh_slots chats) (fresh_ledger chats)

/-- A socket disconnects under its call: the lock is free, and the status still shows it. -/
theorem disconnect_leaves_the_status :
    ¬ ∀ moves, (fresh fun _ => .missing).CoordinatedRun moves := by
  intro coordinated
  obtain ⟨_, _, _, last⟩ := coordinated [.call "web" "hi", .launch 0, .drop 0]
  exact absurd (last.described.mp rfl) (by decide)

end Fantastic.Rust.Ai.Backend

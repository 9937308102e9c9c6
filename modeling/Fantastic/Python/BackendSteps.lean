import Fantastic.Python.BackendSend

/-!
# What a move does to a send

The steps of `Backend` once more, one send at a time: a move changes the send it is about, in
one of a few ways, and no other. `_current` and `_tasks` go with the lock.
-/

namespace Fantastic.Python.Ai.Sending

namespace Backend

variable {backend : Backend} {number other : Nat}

/-- The send that a move is about. -/
def subject (backend : Backend) : Move → Option Nat
  | .call _ => some backend.begun
  | .announced number | .wake number | .launch number | .endRun number _ | .deliver number
  | .timeout number | .cancel number | .close number => some number
  | .interrupt => backend.task

theorem setRun_of_ne (run : Run) (apart : other ≠ number) :
    (backend.setRun number run).sends other = backend.sends other :=
  Function.update_of_ne apart _ _

theorem setPhase_of_ne (phase : SendPhase) (apart : other ≠ number) :
    (backend.setPhase number phase).sends other = backend.sends other :=
  Function.update_of_ne apart _ _

theorem acquire_of_ne (apart : other ≠ number) :
    (backend.acquire number).sends other = backend.sends other := by
  unfold Backend.acquire
  split
  · exact setPhase_of_ne _ apart
  · exact setPhase_of_ne _ apart

/-- A move changes no send but the one it is about. -/
theorem step_of_ne {move : Move} (apart : backend.subject move ≠ some other) :
    (backend.step move).sends other = backend.sends other := by
  have away {number : Nat} (apart : some number ≠ some other) : other ≠ number :=
    fun same => apart (congrArg some same.symm)
  cases move with
  | call callStack => exact call_sends_of_ne _ _ (away apart)
  | interrupt =>
    simp only [Backend.step]
    split
    case h_1 number held =>
      apply setRun_of_ne
      intro same
      exact apart (same ▸ held)
    case h_2 => rfl
  | announced number =>
    simp only [Backend.step]
    split
    · exact acquire_of_ne (away apart)
    · rfl
  | wake number =>
    simp only [Backend.step]
    split
    · exact setPhase_of_ne _ (away apart)
    · rfl
  | launch number =>
    simp only [Backend.step]
    split
    · exact (setPhase_of_ne _ (away apart)).trans (setRun_of_ne _ (away apart))
    · rfl
  | endRun number outcome =>
    simp only [Backend.step]
    split
    · exact setRun_of_ne _ (away apart)
    · rfl
  | deliver number =>
    simp only [Backend.step]
    split
    case h_1 outcome _ _ =>
      cases outcome with
      | _ => exact setPhase_of_ne _ (away apart)
    case h_2 => rfl
  | timeout number =>
    simp only [Backend.step]
    split
    · exact (setPhase_of_ne _ (away apart)).trans (setRun_of_ne _ (away apart))
    · rfl
  | cancel number =>
    simp only [Backend.step, Backend.cancel]
    split
    case h_6 => rfl
    all_goals exact setPhase_of_ne _ (away apart)
  | close number =>
    simp only [Backend.step]
    split
    · exact setPhase_of_ne _ (away apart)
    · rfl

theorem setPhase_self (phase : SendPhase) :
    (backend.setPhase number phase).sends number =
      { backend.sends number with phase := phase } :=
  Function.update_self _ _ _

theorem acquire_self (backend : Backend) (number : Nat) :
    (backend.acquire number).sends number = { backend.sends number with phase := .thinking } ∨
      (backend.acquire number).sends number = { backend.sends number with phase := .waiting } := by
  unfold Backend.acquire
  split
  · exact Or.inl (setPhase_self _)
  · exact Or.inr (setPhase_self _)

/-- A run that did not return sends its send into an `except` branch. -/
theorem deliver_failed {outcome : RunEnd} (phase : (backend.sends number).phase = .awaiting)
    (ended : (backend.sends number).run = .ended outcome) (failed : outcome ≠ .returned) :
    ∃ exit, (backend.step (.deliver number)).sends number =
      { phase := .closing exit, run := .ended outcome } := by
  simp only [Backend.step, phase, ended]
  cases outcome with
  | returned => exact absurd rfl failed
  | raised => exact ⟨.error, (setPhase_self _).trans (by simp [ended])⟩
  | timedOut => exact ⟨.timeout, (setPhase_self _).trans (by simp [ended])⟩
  | cancelled => exact ⟨.interrupted, (setPhase_self _).trans (by simp [ended])⟩

/-- A send begins without a run and outside of its last phases. -/
theorem Locking.call_self (fine : backend.Locking) (callStack : List String) :
    ∃ phase, (phase = .left ∨ phase = .announcing ∨ phase = .thinking ∨ phase = .waiting) ∧
      (backend.call callStack).sends backend.begun = { phase := phase, run := .unborn } := by
  unfold Backend.call
  split
  case isTrue => exact ⟨.left, Or.inl rfl, fine.unused _ (Nat.le_refl _)⟩
  case isFalse =>
    simp only
    split
    case isTrue => exact ⟨.announcing, Or.inr (Or.inl rfl), Function.update_self _ _ _⟩
    case isFalse =>
      obtain thinking | waiting := acquire_self
        { backend with
          begun := backend.begun + 1
          queue := backend.queue ++ [backend.begun]
          sends := Function.update backend.sends backend.begun
            { phase := .left, run := .unborn } } backend.begun
      · refine ⟨.thinking, by simp, thinking.trans ?_⟩
        simp only [Function.update_self]
      · refine ⟨.waiting, by simp, waiting.trans ?_⟩
        simp only [Function.update_self]

/-- What a move can make of the send it is about, which may be a new one, or be cancelled. -/
inductive Change (new cancels : Prop) (send : Send) : Send → Prop where
  | nothing : Change new cancels send send
  | enters (phase : SendPhase) (begins : new) (blank : send = { phase := .left, run := .unborn })
      (early : phase = .left ∨ phase = .announcing ∨ phase = .thinking ∨ phase = .waiting) :
      Change new cancels send { phase := phase, run := .unborn }
  | queues (phase : SendPhase) (early : send.phase = .announcing ∨ send.phase = .waiting)
      (next : phase = .thinking ∨ phase = .waiting ∨ phase = .left) :
      Change new cancels send { send with phase := phase }
  | launches (thinking : send.phase = .thinking) :
      Change new cancels send { phase := .awaiting, run := .executing false }
  | drops (thinking : send.phase = .thinking) (cancelled : cancels) :
      Change new cancels send { send with phase := .left }
  | closes (phase : SendPhase) (run : Run)
      (late : send.phase = .awaiting ∨ ∃ exit, send.phase = .closing exit)
      (next : phase = .left ∨ ∃ exit, phase = .closing exit)
      (same : run = send.run ∨ run = send.run.cancel) :
      Change new cancels send { phase := phase, run := run }
  | runs (run : Run) (executing : send.run.isExecuting = true) (born : run ≠ .unborn) :
      Change new cancels send { send with run := run }

theorem cancelled_change (new cancels : Prop) (send : Send) :
    Change new cancels send { send with run := send.run.cancel } := by
  obtain ⟨phase, run⟩ := send
  cases run with
  | executing requested => exact .runs (.executing true) rfl (by simp)
  | unborn | ended outcome => exact .nothing

/-- Every move leaves a send as it was or changes it in one of these ways. -/
theorem Locking.step_change (fine : backend.Locking) (move : Move) (number : Nat) :
    Change (number = backend.begun) (move = .cancel number) (backend.sends number)
      ((backend.step move).sends number) := by
  by_cases about : backend.subject move = some number
  · cases move with
    | call callStack =>
      cases about
      obtain ⟨phase, early, sends⟩ := fine.call_self callStack
      simp only [Backend.step, sends]
      exact .enters phase (by simp) (fine.unused _ (Nat.le_refl _)) early
    | interrupt =>
      have running : backend.task = some number := about
      simp only [Backend.step, running, Backend.setRun, Function.update_self]
      exact cancelled_change _ _ _
    | announced other =>
      cases about
      simp only [Backend.step]
      split
      case h_1 phase =>
        obtain sends | sends := acquire_self backend number
        · rw [sends]
          exact .queues .thinking (Or.inl phase) (Or.inl rfl)
        · rw [sends]
          exact .queues .waiting (Or.inl phase) (Or.inr (Or.inl rfl))
      case h_2 => exact .nothing
    | wake other =>
      cases about
      simp only [Backend.step]
      split
      case isTrue woken =>
        have waiting := fine.waits number (List.mem_of_mem_head? woken.2)
        have sends : (backend.take number).sends number =
            { backend.sends number with phase := .thinking } := setPhase_self _
        simp only [sends]
        exact .queues .thinking (Or.inr waiting) (Or.inl rfl)
      case isFalse => exact .nothing
    | launch other =>
      cases about
      simp only [Backend.step]
      split
      case h_1 phase =>
        rw [launch_sends, Function.update_self]
        exact .launches phase
      case h_2 => exact .nothing
    | endRun other outcome =>
      cases about
      simp only [Backend.step]
      split
      case h_1 requested executing =>
        simp only [Backend.setRun, Function.update_self]
        exact .runs _ (by rw [executing]; rfl) (by simp)
      case h_2 => exact .nothing
    | deliver other =>
      cases about
      simp only [Backend.step]
      split
      case h_1 outcome phase ended =>
        cases outcome with
        | returned =>
          have sends : (backend.deliver number .returned).sends number =
              { backend.sends number with phase := .left } := setPhase_self _
          rw [sends]
          exact .closes .left _ (Or.inl phase) (Or.inl rfl) (Or.inl rfl)
        | _ =>
          simp only [Backend.deliver, setPhase_self]
          exact .closes _ _ (Or.inl phase) (Or.inr ⟨_, rfl⟩) (Or.inl rfl)
      case h_2 => exact .nothing
    | timeout other =>
      cases about
      simp only [Backend.step]
      split
      case h_1 phase =>
        simp only [Backend.setPhase, Backend.setRun, Function.update_self]
        exact .closes _ _ (Or.inl phase) (Or.inr ⟨_, rfl⟩) (Or.inr rfl)
      case h_2 => exact .nothing
    | cancel other =>
      cases about
      simp only [Backend.step, Backend.cancel]
      split
      case h_1 phase =>
        rw [setPhase_self]
        exact .queues .left (Or.inl phase) (Or.inr (Or.inr rfl))
      case h_2 phase =>
        simp only [setPhase_self]
        exact .queues .left (Or.inr phase) (Or.inr (Or.inr rfl))
      case h_3 phase =>
        have sends : (backend.release number).sends number =
            { backend.sends number with phase := .left } := setPhase_self _
        rw [sends]
        exact .drops phase (by simp)
      case h_4 phase =>
        rw [setPhase_self]
        exact .closes _ _ (Or.inl phase) (Or.inr ⟨_, rfl⟩) (Or.inl rfl)
      case h_5 exit phase =>
        have sends : (backend.leave number).sends number =
            { backend.sends number with phase := .left } := setPhase_self _
        rw [sends]
        exact .closes .left _ (Or.inr ⟨exit, phase⟩) (Or.inl rfl) (Or.inl rfl)
      case h_6 => exact .nothing
    | close other =>
      cases about
      simp only [Backend.step]
      split
      case h_1 exit phase =>
        have sends : (backend.leave number).sends number =
            { backend.sends number with phase := .left } := setPhase_self _
        rw [sends]
        exact .closes .left _ (Or.inr ⟨exit, phase⟩) (Or.inl rfl) (Or.inl rfl)
      case h_2 => exact .nothing
  · rw [step_of_ne about]
    exact .nothing

theorem cancel_ne_unborn {run : Run} (born : run ≠ .unborn) : run.cancel ≠ .unborn := by
  cases run with
  | unborn => exact absurd rfl born
  | _ => simp [Run.cancel]

/-- A run that has been there stays. -/
theorem Change.run_unborn {new cancels : Prop} {send next : Send} (change : Change new cancels send next)
    (unborn : next.run = .unborn) : send.run = .unborn := by
  cases change with
  | nothing => exact unborn
  | enters phase begins blank early => rw [blank]
  | queues phase early next => exact unborn
  | launches thinking => cases unborn
  | drops thinking cancelled => exact unborn
  | closes phase run late next same =>
    by_contra born
    cases same with
    | inl kept => exact born (kept.symm.trans unborn)
    | inr cancelled => exact cancel_ne_unborn born (cancelled.symm.trans unborn)
  | runs run executing born => exact absurd unborn born

/-- From the lock a send goes on to its run, or is cancelled. -/
theorem Change.thinking {new cancels : Prop} {send next : Send} (change : Change new cancels send next)
    (thinking : send.phase = .thinking) (apart : ¬ cancels) :
    next.phase = .thinking ∨ next.run ≠ .unborn := by
  cases change with
  | nothing => exact Or.inl thinking
  | enters phase begins blank early => simp [blank] at thinking
  | queues phase early next => simp [thinking] at early
  | launches thinking => exact Or.inr (by simp)
  | drops thinking cancelled => exact absurd cancelled apart
  | closes phase run late next same => simp [thinking] at late
  | runs run executing born => exact Or.inl thinking

/-- The block is entered only from the line for it, or by a new send. -/
theorem Change.was_inside {new cancels : Prop} {send next : Send}
    (change : Change new cancels send next) (old : ¬ new)
    (queued : send.phase ≠ .announcing ∧ send.phase ≠ .waiting)
    (inside : next.phase.inside = true) : send.phase.inside = true := by
  cases change with
  | nothing => exact inside
  | enters phase begins blank early => exact absurd begins old
  | queues phase early next =>
    cases early with
    | inl announcing => exact absurd announcing queued.1
    | inr waiting => exact absurd waiting queued.2
  | launches thinking => simp [thinking, SendPhase.inside]
  | drops thinking cancelled => simp [thinking, SendPhase.inside]
  | closes phase run late next same =>
    obtain awaiting | ⟨exit, closing⟩ := late
    · simp [awaiting, SendPhase.inside]
    · simp [closing, SendPhase.inside]
  | runs run executing born => exact inside

/-- Nobody goes back into the line. -/
theorem Change.not_queued {new cancels : Prop} {send next : Send}
    (change : Change new cancels send next) (old : ¬ new)
    (queued : send.phase ≠ .announcing ∧ send.phase ≠ .waiting) :
    next.phase ≠ .announcing ∧ next.phase ≠ .waiting := by
  cases change with
  | nothing => exact queued
  | enters phase begins blank early => exact absurd begins old
  | queues phase early next =>
    cases early with
    | inl announcing => exact absurd announcing queued.1
    | inr waiting => exact absurd waiting queued.2
  | launches thinking => simp
  | drops thinking cancelled => simp
  | closes phase run late next same =>
    obtain rfl | ⟨exit, rfl⟩ := next <;> simp
  | runs run executing born => exact queued

/-- No run before the block is left behind, and none is started twice. -/
theorem Change.idle {new cancels : Prop} {send next : Send} (change : Change new cancels send next)
    (idle : send.phase = .announcing ∨ send.phase = .waiting ∨ send.phase = .thinking →
      send.run = .unborn)
    (early : next.phase = .announcing ∨ next.phase = .waiting ∨ next.phase = .thinking) :
    next.run = .unborn := by
  cases change with
  | nothing => exact idle early
  | enters phase begins blank first => rfl
  | queues phase queued next =>
    apply idle
    cases queued with
    | inl announcing => exact Or.inl announcing
    | inr waiting => exact Or.inr (Or.inl waiting)
  | launches thinking => simp at early
  | drops thinking cancelled => simp at early
  | closes phase run late next same => obtain rfl | ⟨exit, rfl⟩ := next <;> simp at early
  | runs run executing born =>
    have unborn := idle early
    rw [unborn] at executing
    cases executing

/-- A run that has ended stays ended. -/
theorem Change.ended {new cancels : Prop} {send next : Send} (change : Change new cancels send next)
    (idle : send.phase = .announcing ∨ send.phase = .waiting ∨ send.phase = .thinking →
      send.run = .unborn)
    {outcome : RunEnd} (ended : send.run = .ended outcome) : next.run = .ended outcome := by
  cases change with
  | nothing => exact ended
  | enters phase begins blank early =>
    rw [blank] at ended
    cases ended
  | queues phase early next => exact ended
  | launches thinking =>
    rw [idle (Or.inr (Or.inr thinking))] at ended
    cases ended
  | drops thinking cancelled => exact ended
  | closes phase run late next same =>
    cases same with
    | inl kept => exact kept.trans ended
    | inr cancelled =>
      rw [ended] at cancelled
      exact cancelled
  | runs run executing born =>
    rw [ended] at executing
    cases executing

theorem begun_le (backend : Backend) (move : Move) :
    backend.begun ≤ (backend.step move).begun := by
  cases move with
  | call callStack =>
    simp only [Backend.step, Backend.call, Backend.acquire]
    split
    · exact Nat.le_refl _
    · split
      · exact Nat.le_succ _
      · split <;> exact Nat.le_succ _
  | announced number =>
    simp only [Backend.step, Backend.acquire]
    split
    · split <;> exact Nat.le_refl _
    · exact Nat.le_refl _
  | deliver number =>
    simp only [Backend.step]
    split
    case h_1 outcome _ _ => cases outcome <;> exact Nat.le_refl _
    case h_2 => exact Nat.le_refl _
  | cancel number =>
    simp only [Backend.step, Backend.cancel]
    split <;> exact Nat.le_refl _
  | wake number | launch number | endRun number outcome | timeout number | interrupt
  | close number =>
    simp only [Backend.step]
    split <;> exact Nat.le_refl _

/-! ### `_current` and `_tasks` -/

/-- The current entry is the holder's, and so is the task, if there is one. -/
structure Tidy (backend : Backend) : Prop where
  current : backend.current = backend.holder
  task : backend.task = none ∨ backend.task = backend.holder

theorem Tidy.acquire (tidy : backend.Tidy) (number : Nat) : (backend.acquire number).Tidy := by
  unfold Backend.acquire
  split
  case isTrue free =>
    simp only [Bool.and_eq_true, Option.isNone_iff_eq_none] at free
    refine ⟨rfl, Or.inl ?_⟩
    cases tidy.task with
    | inl none => exact none
    | inr same => exact same.trans free.1
  case isFalse => exact ⟨tidy.current, tidy.task⟩

/-- Only a cancellation right after the lock is taken leaves an entry behind. -/
theorem Tidy.step (tidy : backend.Tidy) (locking : backend.Locking) {move : Move}
    (apart : ∀ number, move = .cancel number → (backend.sends number).phase ≠ .thinking) :
    (backend.step move).Tidy := by
  cases move with
  | call callStack =>
    simp only [Backend.step, Backend.call]
    split
    · exact tidy
    · split
      · exact ⟨tidy.current, tidy.task⟩
      · apply Tidy.acquire
        exact ⟨tidy.current, tidy.task⟩
  | announced number =>
    simp only [Backend.step]
    split
    · exact tidy.acquire number
    · exact tidy
  | wake number =>
    simp only [Backend.step]
    split
    case isTrue woken =>
      refine ⟨rfl, Or.inl ?_⟩
      cases tidy.task with
      | inl none => exact none
      | inr same => exact same.trans woken.1
    case isFalse => exact tidy
  | launch number =>
    simp only [Backend.step]
    split
    case h_1 phase =>
      have held := (locking.inside number).mp (by rw [phase]; rfl)
      exact ⟨tidy.current, Or.inr held.symm⟩
    case h_2 => exact tidy
  | endRun number outcome =>
    simp only [Backend.step]
    split
    · exact ⟨tidy.current, tidy.task⟩
    · exact tidy
  | deliver number =>
    simp only [Backend.step]
    split
    case h_1 outcome _ _ =>
      cases outcome with
      | returned => exact ⟨rfl, Or.inl rfl⟩
      | _ => exact ⟨tidy.current, tidy.task⟩
    case h_2 => exact tidy
  | timeout number =>
    simp only [Backend.step]
    split
    · exact ⟨tidy.current, tidy.task⟩
    · exact tidy
  | cancel number =>
    simp only [Backend.step, Backend.cancel]
    split
    case h_3 phase => exact absurd phase (apart number rfl)
    case h_5 => exact ⟨rfl, Or.inl rfl⟩
    case h_6 => exact tidy
    all_goals exact ⟨tidy.current, tidy.task⟩
  | interrupt =>
    simp only [Backend.step]
    split
    · exact ⟨tidy.current, tidy.task⟩
    · exact tidy
  | close number =>
    simp only [Backend.step]
    split
    · exact ⟨rfl, Or.inl rfl⟩
    · exact tidy

end Backend

end Fantastic.Python.Ai.Sending

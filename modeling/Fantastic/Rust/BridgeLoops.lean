import Fantastic.Rust.BridgeLife

/-!
# One read loop for each bridge

Only `shutdown_reply` removes the entry of a bridge, so after the transport has closed `boot`
still answers `already`, and a forward whose send succeeds waits in a table that is drained
already. Two boots may both pass the check, and a boot may pass it before the loop of a
removed state has gone. The bridge keeps its loops in the runs where each boot begins alone
and finds either a running loop or none at all, and where the transport of an ended loop
fails its sends.
-/

namespace Fantastic.Rust.Life

/-- A drain of the table is still to come: the loop's own, or that of a teardown. -/
def Generation.Draining (generation : Generation) : Prop :=
  generation.teardown = .removed ∨ generation.teardown = .aborted ∨
    generation.loop = .closing ∧ generation.teardown = .idle

/-- `already` was only answered while the stored state's loop ran, at most one loop is alive,
and a forward that looked its state up after the loop had ended waits in the table only if a
drain is still to come. -/
structure LoopsKept (state : State) : Prop where
  answers : state.misled = false
  single : ∀ first second, (state.generations first).loop ≠ .ended →
    (state.generations second).loop ≠ .ended → first = second
  late : ∀ index forward, state.forwards index = some forward → forward.late = true →
    forward.phase = .waiting → index ∈ (state.generations forward.generation).pending →
      (state.generations forward.generation).Draining

/-- With an entry, `boot` is called only while its loop runs; without one, only while no other
boot is under way and no loop is alive. A forward that looked its state up after the loop had
ended is sent only if a drain of its slot is still to come. -/
def Considerate (state : State) : Step → Prop
  | .bootCheck =>
    (∀ generation, state.current = some generation →
      (state.generations generation).loop = .running) ∧
    (state.current = none → state.dialing = 0 ∧ state.unpublished = [] ∧
      ∀ generation, (state.generations generation).loop = .ended)
  | .sent index => ∀ forward, state.forwards index = some forward → forward.late = true →
      forward.phase = .inserted → index ∈ (state.generations forward.generation).pending →
        (state.generations forward.generation).Draining
  | _ => True

def ConsiderateRun : List Step → State → Prop
  | [], _ => True
  | step :: rest, state => Considerate state step ∧ ConsiderateRun rest (state.step step)

/-- Besides `LoopsKept`: at most one boot is dialing, and none while a loop is alive. -/
structure Inv (state : State) : Prop where
  kept : LoopsKept state
  alone : state.dialing ≤ 1
  idle : 0 < state.dialing → ∀ generation, (state.generations generation).loop = .ended

variable {state : State}

/-- A state may change as long as its loop does not come back, and what waits in its table
has waited there before and keeps its drain. -/
theorem Inv.setGeneration (inv : Inv state) {generation : Nat} {next : Generation}
    (loop : next.loop ≠ .ended → (state.generations generation).loop ≠ .ended)
    (pending : ∀ index forward, state.forwards index = some forward → forward.phase = .waiting →
      index ∈ next.pending → index ∈ (state.generations generation).pending ∧
        ((state.generations generation).Draining → next.Draining)) :
    Inv (state.setGeneration generation next) := by
  have alive : ∀ other, ((state.setGeneration generation next).generations other).loop ≠ .ended →
      (state.generations other).loop ≠ .ended := by
    intro other
    by_cases same : other = generation
    · subst same
      simpa [State.setGeneration] using loop
    · simp [State.setGeneration, Function.update_of_ne same]
  constructor
  · constructor
    · exact inv.kept.answers
    · intro first second firstAlive secondAlive
      exact inv.kept.single first second (alive first firstAlive) (alive second secondAlive)
    · intro index forward found late waiting inside
      by_cases same : forward.generation = generation
      · simp only [State.setGeneration, same, Function.update_self] at inside ⊢
        obtain ⟨before, keeps⟩ := pending index forward found waiting inside
        apply keeps
        rw [← same]
        apply inv.kept.late index forward found late waiting
        rw [same]
        exact before
      · simp only [State.setGeneration, Function.update_of_ne same] at inside ⊢
        exact inv.kept.late index forward found late waiting inside
  · exact inv.alone
  · intro dialing other
    have ended := inv.idle dialing other
    by_contra alive'
    exact alive other alive' ended

theorem Inv.setForward (inv : Inv state) {index : Nat} {next : Forward}
    (drains : next.late = true → next.phase = .waiting →
      index ∈ (state.generations next.generation).pending →
        (state.generations next.generation).Draining) :
    Inv (state.setForward index next) := by
  constructor
  · constructor
    · exact inv.kept.answers
    · exact inv.kept.single
    · intro other forward found
      by_cases same : other = index
      · subst same
        simp only [State.setForward, Function.update_self, Option.some.injEq] at found
        subst found
        exact drains
      · simp only [State.setForward, Function.update_of_ne same] at found
        exact inv.kept.late other forward found
  · exact inv.alone
  · exact inv.idle

theorem Inv.removePending (inv : Inv state) (generation index : Nat) :
    Inv (state.removePending generation index) := by
  apply inv.setGeneration
  · exact id
  · intro other _ _ _ inside
    exact ⟨(List.mem_filter.mp inside).1, id⟩

theorem Inv.bootCheck (inv : Inv state) (considerate : Considerate state .bootCheck) :
    Inv state.bootCheck := by
  unfold State.bootCheck
  split
  case h_1 generation stored =>
    have running := considerate.1 generation stored
    have answers : (state.misled || decide ((state.generations generation).loop ≠ .running)) =
        false := by
      simp [running, inv.kept.answers]
    exact ⟨⟨answers, inv.kept.single, inv.kept.late⟩, inv.alone, inv.idle⟩
  case h_2 missing =>
    obtain ⟨undialed, _, ended⟩ := considerate.2 missing
    exact ⟨⟨inv.kept.answers, inv.kept.single, inv.kept.late⟩, by simp [undialed], fun _ => ended⟩

theorem Inv.bootBuild (inv : Inv state) : Inv state.bootBuild := by
  unfold State.bootBuild
  by_cases none' : state.dialing = 0
  · rw [if_pos none']
    exact inv
  · rw [if_neg none']
    have ended := inv.idle (by omega)
    have last := inv.alone
    constructor
    · constructor
      · exact inv.kept.answers
      · have spawned : ∀ generation, (Function.update state.generations state.built
            { loop := .running, teardown := .idle, pending := [] } generation).loop ≠ .ended →
              generation = state.built := by
          intro generation alive
          by_contra other
          rw [Function.update_of_ne other] at alive
          exact alive (ended generation)
        intro first second firstAlive secondAlive
        rw [spawned first firstAlive, spawned second secondAlive]
      · intro index forward found late waiting inside
        by_cases same : forward.generation = state.built
        · simp [same] at inside
        · simp only [Function.update_of_ne same] at inside ⊢
          exact inv.kept.late index forward found late waiting inside
    · simp only
      omega
    · simp only
      intro dialing
      omega

theorem Inv.shutdown (inv : Inv state) : Inv state.shutdown := by
  unfold State.shutdown
  split
  case h_1 generation _ =>
    have removed : Inv (state.setGeneration generation
        { state.generations generation with teardown := .removed }) := by
      apply inv.setGeneration
      · exact id
      · intro index _ _ _ inside
        exact ⟨inside, fun _ => .inl rfl⟩
    exact ⟨⟨removed.kept.answers, removed.kept.single, removed.kept.late⟩, removed.alone,
      removed.idle⟩
  · exact inv

theorem Inv.abort (inv : Inv state) (generation : Nat) : Inv (state.abort generation) := by
  unfold State.abort
  split
  · apply inv.setGeneration
    · exact id
    · intro index _ _ _ inside
      exact ⟨inside, fun _ => .inr (.inl rfl)⟩
  · exact inv

theorem Inv.drain (inv : Inv state) (generation : Nat) : Inv (state.drain generation) := by
  unfold State.drain
  split
  · apply inv.setGeneration
    · exact id
    · intro index _ _ _ inside
      cases inside
  · exact inv

theorem Inv.loopClosed (inv : Inv state) (generation : Nat) : Inv (state.loopClosed generation) := by
  unfold State.loopClosed
  split
  case isTrue running =>
    apply inv.setGeneration
    · intro _
      simp [running]
    · intro index _ _ _ inside
      constructor
      · exact inside
      · intro draining
        obtain removed | aborted | closing := draining
        · exact .inl removed
        · exact .inr (.inl aborted)
        · exact .inr (.inr ⟨rfl, closing.2⟩)
  · exact inv

theorem Inv.loopDrained (inv : Inv state) (generation : Nat) :
    Inv (state.loopDrained generation) := by
  unfold State.loopDrained
  split
  · apply inv.setGeneration
    · intro alive
      exact absurd rfl alive
    · intro index _ _ _ inside
      cases inside
  · exact inv

/-- An aborted loop leaves its table to the teardown that aborted it. -/
theorem Inv.loopAborted (inv : Inv state) (generation : Nat) :
    Inv (state.loopAborted generation) := by
  have dropped : (state.generations generation).teardown ≠ .idle →
      Inv (state.setGeneration generation
        { state.generations generation with loop := .ended }) := by
    intro begun
    apply inv.setGeneration
    · intro alive
      exact absurd rfl alive
    · intro index _ _ _ inside
      constructor
      · exact inside
      · intro draining
        obtain removed | aborted | closing := draining
        · exact .inl removed
        · exact .inr (.inl aborted)
        · exact absurd closing.2 begun
  unfold State.loopAborted
  split
  case h_1 aborted => exact dropped (by simp [aborted])
  case h_2 drained => exact dropped (by simp [drained])
  · exact inv

theorem Inv.start (inv : Inv state) : Inv state.start := by
  have begun {forward : Forward} (looked : Inv (state.setForward state.begun forward)) :
      Inv { state.setForward state.begun forward with begun := state.begun + 1 } :=
    ⟨⟨looked.kept.answers, looked.kept.single, looked.kept.late⟩, looked.alone, looked.idle⟩
  apply begun
  apply inv.setForward
  cases state.current <;> simp

theorem Inv.insert (inv : Inv state) (index : Nat) : Inv (state.insert index) := by
  unfold State.insert
  split
  case h_1 forward found =>
    split
    · -- The forward changes before the table does: its slot is then not one of a waiting one.
      have inserted : Inv (state.setForward index { forward with phase := .inserted }) := by
        apply inv.setForward
        simp
      apply @Inv.setGeneration _ inserted
      · exact id
      · intro other waiter there waiting inside
        by_cases same : other = index
        · subst same
          simp only [State.setForward, Function.update_self, Option.some.injEq] at there
          subst there
          cases waiting
        · have before := List.mem_of_ne_of_mem same inside
          exact ⟨before, id⟩
    · exact inv
  · exact inv

theorem Inv.sent (inv : Inv state) {index : Nat} (considerate : Considerate state (.sent index)) :
    Inv (state.sent index) := by
  unfold State.sent
  split
  case h_1 forward found =>
    split
    case isTrue inserted =>
      apply inv.setForward
      intro late _ inside
      exact considerate forward found late inserted inside
    · exact inv
  · exact inv

theorem Inv.sendFailed (inv : Inv state) (index : Nat) : Inv (state.sendFailed index) := by
  unfold State.sendFailed
  split
  · split
    · apply (inv.removePending _ index).setForward
      simp
    · exact inv
  · exact inv

theorem Inv.deliver (inv : Inv state) (index : Nat) : Inv (state.deliver index) := by
  unfold State.deliver
  split
  · split
    · exact inv.removePending _ index
    · exact inv
  · exact inv

theorem Inv.returned (inv : Inv state) (index : Nat) : Inv (state.returned index) := by
  unfold State.returned
  split
  · split
    · apply (inv.removePending _ index).setForward
      simp
    · exact inv
  · exact inv

theorem Inv.step (inv : Inv state) {step : Step} (considerate : Considerate state step) :
    Inv (state.step step) := by
  cases step with
  | bootCheck => exact inv.bootCheck considerate
  | bootFail =>
    have last := inv.alone
    exact ⟨⟨inv.kept.answers, inv.kept.single, inv.kept.late⟩,
      by simp only [State.step]; omega, fun dialing => inv.idle (by
        simp only [State.step] at dialing
        omega)⟩
  | bootBuild => exact inv.bootBuild
  | publish generation =>
    simp only [State.step, State.publish]
    split
    · exact ⟨⟨inv.kept.answers, inv.kept.single, inv.kept.late⟩, inv.alone, inv.idle⟩
    · exact inv
  | shutdown => exact inv.shutdown
  | abort generation => exact inv.abort generation
  | drain generation => exact inv.drain generation
  | loopClosed generation => exact inv.loopClosed generation
  | loopDrained generation => exact inv.loopDrained generation
  | loopAborted generation => exact inv.loopAborted generation
  | start => exact inv.start
  | insert index => exact inv.insert index
  | sent index => exact inv.sent considerate
  | sendFailed index => exact inv.sendFailed index
  | deliver index => exact inv.deliver index
  | returned index => exact inv.returned index

theorem Inv.run (steps : List Step) :
    ∀ {state : State}, Inv state → ConsiderateRun steps state → Inv (State.run steps state) := by
  induction steps with
  | nil =>
    intro _ inv _
    exact inv
  | cons step rest ih =>
    intro _ inv considerate
    exact ih (inv.step considerate.1) considerate.2

theorem fresh_inv : Inv .fresh := by
  constructor
  · constructor
    · rfl
    · intro first _ alive
      exact absurd rfl alive
    · intro index forward found
      cases found
  · exact Nat.zero_le 1
  · intro _ _
    rfl

/-- In every considerate run `already` is answered only while the loop of the stored state
runs, at most one loop is alive, and no late forward is left in a drained table. -/
theorem considerate_runs_keep_loops (steps : List Step)
    (considerate : ConsiderateRun steps .fresh) : LoopsKept (State.run steps .fresh) :=
  (Inv.run steps fresh_inv considerate).kept

/-- The peer closes, a late forward fails, and the bridge is shut down and booted again. -/
theorem reconnected_bridge_keeps_loops :
    LoopsKept (State.run [.bootCheck, .bootBuild, .publish 0, .bootCheck, .loopClosed 0,
      .loopDrained 0, .start, .insert 0, .sendFailed 0, .shutdown, .abort 0, .drain 0,
      .bootCheck, .bootBuild, .publish 1, .bootCheck] .fresh) := by
  apply considerate_runs_keep_loops
  simp [ConsiderateRun, Considerate, State.step, State.fresh, State.bootCheck, State.bootBuild,
    State.publish, State.loopClosed, State.loopDrained, State.start, State.insert,
    State.sendFailed, State.shutdown, State.abort, State.drain, State.setGeneration,
    State.setForward, State.removePending]
  intro generation
  by_cases same : generation = 0
  · simp [same]
  · simp [Function.update_of_ne same]

/-- After the peer has closed, `boot` answers `already` for a state without a loop. -/
theorem closed_bridge_answers_already :
    ¬ LoopsKept (State.run [.bootCheck, .bootBuild, .publish 0, .loopClosed 0, .loopDrained 0,
      .bootCheck] .fresh) := by
  intro kept
  have misled : (State.run [.bootCheck, .bootBuild, .publish 0, .loopClosed 0, .loopDrained 0,
      .bootCheck] .fresh).misled = true := rfl
  rw [kept.answers] at misled
  cases misled

end Fantastic.Rust.Life

import Fantastic.Python.BridgeEngine

/-!
# Forwards and the transport they were sent over

The pending table is shared by all transports of a bridge, and a read loop that ends fails
whatever is in it. As long as a transport is put in place only when no earlier read loop
and no teardown is under way, one loop at a time stands over the table and everything in
the table is its own.
-/

namespace Fantastic.Python.Engine

namespace State

variable {state : State} {move : Move}

/-! ### The property -/

/-- Sent, or about to be, with nothing to report yet. -/
def InProgress (forward : Forward) : Prop :=
  (forward.phase = .sending ∨ forward.phase = .waiting) ∧ forward.future = .unsettled

/-- It has, or will get, something to return. -/
def Completed (forward : Forward) : Prop :=
  forward.phase = .returned ∨ forward.future = .settled

/-- A teardown of the transport is under way. -/
def TornDown (state : State) (transport : Nat) : Prop :=
  ∃ teardown, (state.teardowns teardown).phase ≠ .done ∧
    (state.teardowns teardown).target = some transport

/-- What may complete a forward: a reply or an error frame for it on its own transport, its
own timeout, or the end or the teardown of its transport. A frame counts only as a frame. -/
inductive Cause (state : State) (move : Move) (forward : Nat) : Prop where
  | frame (loop : Nat) (frame : Frame) (same : move = .receive loop frame)
      (serves : (state.loops loop).phase = .reading (state.forwards forward).transport)
      (names : frame = .reply (state.forwards forward).corr ∨
        frame = .error (state.forwards forward).corr)
  | timeout (same : move = .timeout forward)
  | ended (silent : ∀ loop frame, move ≠ .receive loop frame)
      (expired : (state.transports (state.forwards forward).transport).ended = true)
  | torn (silent : ∀ loop frame, move ≠ .receive loop frame)
      (under : state.TornDown (state.forwards forward).transport)

/-- The forward is completed, or taken out of the table. -/
def Touched (before after : State) (forward : Nat) : Prop :=
  Completed (after.forwards forward) ∨
    before.pending.get? (before.forwards forward).corr = some forward ∧
      after.pending.get? (before.forwards forward).corr ≠ some forward

/-- A move completes a forward for a reason of its own transport only, and the exit of a
loop that served an earlier transport leaves it alone. -/
def Isolated (state : State) (move : Move) : Prop :=
  ∀ forward, InProgress (state.forwards forward) → Touched state (state.step move) forward →
    Cause state move forward ∧
      ∀ loop transport, move = .drain loop → (state.loops loop).phase.holds = some transport →
        ¬ transport < (state.forwards forward).transport

def IsolatedRun : State → List Move → Prop
  | _, [] => True
  | state, move :: moves => state.Isolated move ∧ IsolatedRun (state.step move) moves

/-! ### The condition -/

/-- No read loop and no teardown is under way. -/
def Idle (state : State) : Prop :=
  (∀ loop, (state.loops loop).phase = .done) ∧
    ∀ teardown, (state.teardowns teardown).phase = .done

/-- A transport is put in place only in an idle bridge; frames are well formed, and a reply
on a transport is to a call sent over it; a `send` raises only on a transport that has
ended. -/
def Careful (state : State) : Move → Prop
  | .publish _ => state.Idle
  | .receive loop frame => frame ≠ .malformed ∧
      ∀ transport corr forward, (state.loops loop).phase = .reading transport →
        (frame = .reply corr ∨ frame = .error corr) → state.pending.get? corr = some forward →
          (state.forwards forward).transport = transport
  | .replyFailed loop => ∀ transport, (state.loops loop).phase = .replying transport →
      (state.transports transport).ended = true
  | .sendFail forward => (state.forwards forward).phase = .sending →
      (state.transports (state.forwards forward).transport).ended = true
  | _ => True

def CarefulRun : State → List Move → Prop
  | _, [] => True
  | state, move :: moves => state.Careful move ∧ CarefulRun (state.step move) moves

/-! ### The invariant -/

/-- One loop at a time, and it serves the transport in place. -/
structure Serving (state : State) : Prop where
  task : ∀ {loop}, (state.loops loop).phase ≠ .done →
    state.readTask = some loop ∧ ∃ transport, state.transport = some transport
  holds : ∀ {loop transport}, (state.loops loop).phase.holds = some transport →
    state.transport = some transport
  latest : ∀ {transport}, state.transport = some transport → transport + 1 = state.built
  leaving : ∀ {loop transport}, (state.loops loop).phase = .leaving transport →
    (state.transports transport).ended = true ∨ state.TornDown transport
  cancelled : ∀ {loop transport}, (state.loops loop).phase ≠ .done →
    (state.loops loop).cancelled = true → state.transport = some transport →
      state.TornDown transport
  joining : ∀ {teardown loop other}, (state.teardowns teardown).phase = .joining loop →
    (state.loops other).phase ≠ .done → other = loop
  joined : ∀ {teardown}, (state.teardowns teardown).phase = .closing ∨
    (state.teardowns teardown).phase = .finishing → ∀ loop, (state.loops loop).phase = .done
  closed : ∀ {teardown transport}, (state.teardowns teardown).phase = .finishing →
    state.transport = some transport → (state.transports transport).ended = true
  watched : ∀ {transport}, state.transport = some transport →
    (∃ loop, (state.loops loop).phase ≠ .done) ∨ state.TornDown transport ∨
      (state.transports transport).ended = true
  teardowns : ∀ {teardown}, state.torn ≤ teardown → (state.teardowns teardown).phase = .done

/-- The table holds forwards over the transport in place, or over one that has ended. -/
structure Table (state : State) : Prop where
  counter : state.corrCounter = state.begun
  corr : ∀ {forward}, forward < state.begun → (state.forwards forward).corr = forward + 1
  later : ∀ {forward}, state.begun ≤ forward → (state.forwards forward).phase = .returned
  entry : ∀ {corr forward}, state.pending.get? corr = some forward →
    forward < state.begun ∧ corr = forward + 1
  older : ∀ {forward}, forward < state.begun → (state.forwards forward).transport < state.built
  own : ∀ {corr forward}, state.pending.get? corr = some forward →
    state.transport = some (state.forwards forward).transport ∨
      (state.transports (state.forwards forward).transport).ended = true

/-! ### Moves that leave the loops and the transports alone -/

/-- Only forwards and the table differ. -/
structure SameLife (other state : State) : Prop where
  transports : other.transports = state.transports
  built : other.built = state.built
  loops : other.loops = state.loops
  teardowns : other.teardowns = state.teardowns
  torn : other.torn = state.torn
  transport : other.transport = state.transport
  readTask : other.readTask = state.readTask

theorem SameLife.refl (state : State) : SameLife state state :=
  ⟨rfl, rfl, rfl, rfl, rfl, rfl, rfl⟩

theorem failPending_sameLife (state : State) : SameLife state.failPending state :=
  ⟨rfl, rfl, rfl, rfl, rfl, rfl, rfl⟩

theorem resolve_sameLife (state : State) (corr : Nat) : SameLife (state.resolve corr) state := by
  unfold resolve
  split
  · exact .refl state
  · exact ⟨rfl, rfl, rfl, rfl, rfl, rfl, rfl⟩

theorem forward_sameLife (state : State) : SameLife state.forward state := by
  unfold forward
  split
  · exact .refl state
  · exact ⟨rfl, rfl, rfl, rfl, rfl, rfl, rfl⟩

theorem SameLife.tornDown {other : State} (same : SameLife other state) {transport : Nat} :
    other.TornDown transport ↔ state.TornDown transport := by
  rw [TornDown, TornDown, same.teardowns]

theorem Serving.same {other : State} (serving : state.Serving) (same : SameLife other state) :
    other.Serving where
  task := by
    rw [same.loops, same.readTask, same.transport]
    exact serving.task
  holds := by
    rw [same.loops, same.transport]
    exact serving.holds
  latest := by
    rw [same.transport, same.built]
    exact serving.latest
  leaving := by
    intro loop transport
    rw [same.loops, same.transports, same.tornDown]
    exact serving.leaving
  cancelled := by
    intro loop transport
    rw [same.loops, same.transport, same.tornDown]
    exact serving.cancelled
  joining := by
    rw [same.teardowns, same.loops]
    exact serving.joining
  joined := by
    rw [same.teardowns, same.loops]
    exact serving.joined
  closed := by
    rw [same.teardowns, same.transport, same.transports]
    exact serving.closed
  watched := by
    intro transport
    rw [same.transport, same.loops, same.transports, same.tornDown]
    exact serving.watched
  teardowns := by
    rw [same.torn, same.teardowns]
    exact serving.teardowns

/-! ### Moves of a loop -/

theorem running_eq {loop : Nat} {phase : LoopPhase} (runs : state.running loop = phase)
    (alive : phase ≠ .done) : (state.loops loop).phase = phase := by
  unfold running at runs
  split at runs
  · exact absurd runs.symm alive
  · exact runs

/-- A loop that runs goes on: it stays with the transport in place, and it leaves or stops
for a reason. -/
theorem Serving.moveLoop (serving : state.Serving) {loop : Nat} {phase : LoopPhase}
    (alive : (state.loops loop).phase ≠ .done)
    (holds : ∀ transport, phase.holds = some transport → state.transport = some transport)
    (leaves : ∀ transport, phase = .leaving transport →
      (state.transports transport).ended = true ∨ state.TornDown transport)
    (stops : phase = .done → ∀ transport, state.transport = some transport →
      state.TornDown transport ∨ (state.transports transport).ended = true) :
    (state.moveLoop loop phase).Serving := by
  have other : ∀ {name}, name ≠ loop →
      (state.moveLoop loop phase).loops name = state.loops name :=
    fun apart => Function.update_of_ne apart _ _
  have here : (state.moveLoop loop phase).loops loop = { phase := phase, cancelled := false } :=
    Function.update_self ..
  have was : ∀ {name}, ((state.moveLoop loop phase).loops name).phase ≠ .done →
      (state.loops name).phase ≠ .done := by
    intro name runs
    by_cases same : name = loop
    · rw [same]
      exact alive
    · rw [other same] at runs
      exact runs
  constructor
  · intro name runs
    exact serving.task (was runs)
  · intro name transport held
    by_cases same : name = loop
    · rw [same, here] at held
      exact holds transport held
    · rw [other same] at held
      exact serving.holds held
  · exact serving.latest
  · intro name transport left
    by_cases same : name = loop
    · rw [same, here] at left
      exact leaves transport left
    · rw [other same] at left
      exact serving.leaving left
  · intro name transport runs stopped placed
    by_cases same : name = loop
    · rw [same, here] at stopped
      cases stopped
    · rw [other same] at runs stopped
      exact serving.cancelled runs stopped placed
  · intro teardown name name' joining runs
    exact serving.joining joining (was runs)
  · intro teardown joined name
    exact absurd (serving.joined joined loop) alive
  · exact serving.closed
  · intro transport placed
    by_cases finished : phase = .done
    · exact .inr (stops finished transport placed)
    · refine .inl ⟨loop, ?_⟩
      rw [here]
      exact finished
  · exact serving.teardowns

/-! ### Moves of a transport -/

/-- A transport ends, or says that it has. -/
theorem Serving.setTransport (serving : state.Serving) {transport : Nat} {next : Transport}
    (stays : (state.transports transport).ended = true → next.ended = true) :
    (state.setTransport transport next).Serving := by
  have ended : ∀ {name}, (state.transports name).ended = true →
      ((state.setTransport transport next).transports name).ended = true := by
    intro name expired
    simp only [State.setTransport, Function.update_apply]
    split
    case isTrue same =>
      subst same
      exact stays expired
    case isFalse => exact expired
  constructor
  · exact serving.task
  · exact serving.holds
  · exact serving.latest
  · intro loop name left
    exact (serving.leaving left).imp_left ended
  · exact serving.cancelled
  · exact serving.joining
  · exact serving.joined
  · intro teardown name finishing placed
    exact ended (serving.closed finishing placed)
  · intro name placed
    rcases serving.watched placed with runs | torn | expired
    · exact .inl runs
    · exact .inr (.inl torn)
    · exact .inr (.inr (ended expired))
  · exact serving.teardowns


/-! ### Moves of a teardown -/

/-- A teardown that was there is still there after another one changed. -/
theorem tornDown_setTeardown {teardown : Nat} {next : Teardown}
    (stays : (state.teardowns teardown).phase ≠ .done →
      next.phase ≠ .done ∧ next.target = (state.teardowns teardown).target) {transport : Nat}
    (torn : state.TornDown transport) :
    (state.setTeardown teardown next).TornDown transport := by
  obtain ⟨name, active, target⟩ := torn
  refine ⟨name, ?_⟩
  simp only [setTeardown, Function.update_apply]
  split
  case isTrue same =>
    subst same
    exact ⟨(stays active).1, (stays active).2.trans target⟩
  case isFalse => exact ⟨active, target⟩

/-- A teardown begins or goes on, over loops that are done or under its control. -/
theorem Serving.setTeardown (serving : state.Serving) {teardown : Nat} {next : Teardown}
    (stays : (state.teardowns teardown).phase ≠ .done →
      next.phase ≠ .done ∧ next.target = (state.teardowns teardown).target)
    (joining : ∀ loop other, next.phase = .joining loop →
      (state.loops other).phase ≠ .done → other = loop)
    (joined : next.phase = .closing ∨ next.phase = .finishing →
      ∀ loop, (state.loops loop).phase = .done)
    (closed : next.phase = .finishing → ∀ transport, state.transport = some transport →
      (state.transports transport).ended = true) {torn : Nat}
    (fresh : state.torn ≤ torn ∧ teardown < torn) :
    { state.setTeardown teardown next with torn := torn }.Serving := by
  have tornDown : ∀ {transport}, state.TornDown transport →
      { state.setTeardown teardown next with torn := torn }.TornDown transport :=
    fun old => tornDown_setTeardown stays old
  have cases : ∀ {name phase}, ((state.setTeardown teardown next).teardowns name).phase = phase →
      (name = teardown ∧ next.phase = phase) ∨ (state.teardowns name).phase = phase := by
    intro name phase
    simp only [State.setTeardown, Function.update_apply]
    split
    case isTrue same => exact fun here => .inl ⟨same, here⟩
    case isFalse => exact .inr
  constructor
  · exact serving.task
  · exact serving.holds
  · exact serving.latest
  · intro loop transport left
    exact (serving.leaving left).imp_right tornDown
  · intro loop transport runs stopped placed
    exact tornDown (serving.cancelled runs stopped placed)
  · intro name loop other phase runs
    rcases cases phase with ⟨_, here⟩ | there
    · exact joining loop other here runs
    · exact serving.joining there runs
  · rintro name (phase | phase) loop
    · rcases cases phase with ⟨_, here⟩ | there
      · exact joined (.inl here) loop
      · exact serving.joined (.inl there) loop
    · rcases cases phase with ⟨_, here⟩ | there
      · exact joined (.inr here) loop
      · exact serving.joined (.inr there) loop
  · intro name transport phase placed
    rcases cases phase with ⟨_, here⟩ | there
    · exact closed here transport placed
    · exact serving.closed there placed
  · intro transport placed
    rcases serving.watched placed with runs | old | expired
    · exact .inl runs
    · exact .inr (.inl (tornDown old))
    · exact .inr (.inr expired)
  · intro name late
    simp only [State.setTeardown, Function.update_apply] at late ⊢
    rw [if_neg (by omega)]
    exact serving.teardowns (by omega)

/-- A teardown goes on once the loops are done. -/
theorem Serving.advance (serving : state.Serving) {teardown : Nat} {phase : TeardownPhase}
    (active : (state.teardowns teardown).phase ≠ .done)
    (late : phase = .closing ∨ phase = .finishing)
    (expired : ∀ loop, (state.loops loop).phase = .done)
    (closed : phase = .finishing → ∀ transport, state.transport = some transport →
      (state.transports transport).ended = true) :
    (state.setTeardown teardown { state.teardowns teardown with phase := phase }).Serving := by
  have bound : teardown < state.torn := by
    by_contra beyond
    exact active (serving.teardowns (Nat.le_of_not_lt beyond))
  have result := @Serving.setTeardown state serving teardown
    { state.teardowns teardown with phase := phase } (by
      intro _
      refine ⟨?_, rfl⟩
      rcases late with rfl | rfl <;> simp) (by
      intro loop other same
      rcases late with rfl | rfl <;> cases same) (fun _ => expired) closed state.torn
    ⟨Nat.le_refl _, bound⟩
  exact result

/-- The exception for a loop is on its way. -/
theorem Serving.markCancelled (serving : state.Serving) {loop : Nat}
    (torn : ∀ transport, state.transport = some transport → state.TornDown transport) :
    (state.setLoop loop { state.loops loop with cancelled := true }).Serving := by
  have phases : ∀ name,
      ((state.setLoop loop { state.loops loop with cancelled := true }).loops name).phase =
        (state.loops name).phase := by
    intro name
    simp only [State.setLoop, Function.update_apply]
    split
    case isTrue same => rw [same]
    case isFalse => rfl
  constructor
  · intro name runs
    rw [phases] at runs
    exact serving.task runs
  · intro name transport held
    rw [phases] at held
    exact serving.holds held
  · exact serving.latest
  · intro name transport left
    rw [phases] at left
    exact serving.leaving left
  · intro name transport _ _ placed
    exact torn transport placed
  · intro name other third joining runs
    rw [phases] at runs
    exact serving.joining joining runs
  · intro name joined other
    rw [phases]
    exact serving.joined joined other
  · exact serving.closed
  · intro transport placed
    rcases serving.watched placed with ⟨name, runs⟩ | rest
    · exact .inl ⟨name, by rw [phases]; exact runs⟩
    · exact .inr rest
  · exact serving.teardowns

theorem Serving.beginTeardown (serving : state.Serving) : state.beginTeardown.Serving := by
  have expired : (state.teardowns state.torn).phase = .done := serving.teardowns (Nat.le_refl _)
  have opened : ∀ phase, phase ≠ .done → (∀ loop other, phase = .joining loop →
      (state.loops other).phase ≠ .done → other = loop) →
      (phase = .closing → ∀ loop, (state.loops loop).phase = .done) → phase ≠ .finishing →
      { state.setTeardown state.torn { target := state.transport, phase := phase } with
        torn := state.torn + 1 }.Serving := by
    intro phase active joining closing early
    apply serving.setTeardown
    · intro before
      exact absurd expired before
    · exact joining
    · rintro (here | here)
      · exact closing here
      · exact absurd here early
    · intro here
      exact absurd here early
    · exact ⟨Nat.le_succ _, Nat.lt_succ_self _⟩
  unfold State.beginTeardown
  cases task : state.readTask with
  | none =>
    apply opened _ (by simp) (by simp) _ (by simp)
    intro _ loop
    by_contra runs
    rw [(serving.task runs).1] at task
    cases task
  | some loop =>
    simp only
    split
    case isTrue finished =>
      apply opened _ (by simp) (by simp) _ (by simp)
      intro _ other
      by_contra runs
      rw [(serving.task runs).1] at task
      rw [Option.some.inj task] at runs
      exact runs finished
    case isFalse runs =>
      have base := opened (.joining loop) (by simp) (by
        intro name other same alive
        rw [(serving.task alive).1] at task
        rw [← TeardownPhase.joining.inj same]
        exact Option.some.inj task) (by simp) (by simp)
      apply base.markCancelled
      intro transport placed
      refine ⟨state.torn, ?_⟩
      simp only [State.setTeardown, Function.update_self]
      exact ⟨by simp, placed⟩

/-- With every loop done and the transport gone, nothing is served. -/
theorem Serving.finish (serving : state.Serving) {teardown : Nat}
    (finishing : (state.teardowns teardown).phase = .finishing) :
    { (state.setTeardown teardown { state.teardowns teardown with phase := .done }).failPending with
      transport := none
      readTask := none }.Serving := by
  have expired := serving.joined (.inr finishing)
  constructor
  · intro loop runs
    exact absurd (expired loop) runs
  · intro loop transport held
    have phase := expired loop
    change (state.loops loop).phase.holds = some transport at held
    rw [phase] at held
    cases held
  · intro transport placed
    cases placed
  · intro loop transport left
    have phase := expired loop
    change (state.loops loop).phase = .leaving transport at left
    rw [phase] at left
    cases left
  · intro loop transport runs
    exact absurd (expired loop) runs
  · intro name loop other _ runs
    exact absurd (expired other) runs
  · intro name _ loop
    exact expired loop
  · intro name transport _ placed
    cases placed
  · intro transport placed
    cases placed
  · intro name late
    change ((Function.update state.teardowns teardown _) name).phase = .done
    rw [Function.update_apply]
    split
    · rfl
    · exact serving.teardowns late

/-- A transport is put in place in an idle bridge. -/
theorem Idle.publish (idle : state.Idle) (validRules : Bool) :
    (state.publish validRules).Serving := by
  obtain ⟨stopped, expired⟩ := idle
  cases validRules with
  | true =>
    have loops : ∀ name, ((state.publish true).loops name) =
        if name = state.spawned then { phase := .spawned, cancelled := false }
        else state.loops name := fun name => Function.update_apply ..
    have alive : ∀ {name}, ((state.publish true).loops name).phase ≠ .done →
        name = state.spawned := by
      intro name runs
      rw [loops] at runs
      by_contra apart
      rw [if_neg apart] at runs
      exact runs (stopped name)
    constructor
    · intro name runs
      rw [alive runs]
      exact ⟨rfl, state.built, rfl⟩
    · intro name transport held
      rw [loops] at held
      split at held
      · cases held
      · rw [stopped name] at held
        cases held
    · intro transport placed
      rw [← Option.some.inj placed]
      rfl
    · intro name transport left
      rw [loops] at left
      split at left
      · cases left
      · rw [stopped name] at left
        cases left
    · intro name transport runs cancelled
      rw [alive runs, loops, if_pos rfl] at cancelled
      cases cancelled
    · intro name loop other joining
      rw [show ((state.publish true).teardowns name).phase = .done from expired name] at joining
      cases joining
    · intro name joined
      rw [show ((state.publish true).teardowns name).phase = .done from expired name] at joined
      rcases joined with impossible | impossible <;> cases impossible
    · intro name transport finishing
      rw [show ((state.publish true).teardowns name).phase = .done from expired name] at finishing
      cases finishing
    · intro transport _
      refine .inl ⟨state.spawned, ?_⟩
      rw [loops, if_pos rfl]
      simp
    · intro name _
      exact expired name
  | false =>
    have opened : state.publish false =
        { state.setTransport state.built { ended := false, closed := false } with
          dialing := state.dialing - 1
          built := state.built + 1
          transport := some state.built
          teardowns := Function.update state.teardowns state.torn
            { target := some state.built, phase := .closing }
          torn := state.torn + 1 } := by
      simp only [State.publish, Bool.false_eq_true, if_false, State.beginTeardown,
        State.setTransport, State.setTeardown]
      cases state.readTask with
      | none => rfl
      | some loop => simp only [stopped loop, if_true]
    rw [opened]
    have phases : ∀ {name phase}, phase ≠ .closing → phase ≠ .done →
        (Function.update state.teardowns state.torn
          { target := some state.built, phase := .closing } name).phase ≠ phase := by
      intro name phase early active same
      rw [Function.update_apply] at same
      split at same
      · exact early same.symm
      · rw [expired name] at same
        exact active same.symm
    constructor
    · intro name runs
      exact absurd (stopped name) runs
    · intro name transport held
      change (state.loops name).phase.holds = some transport at held
      rw [stopped name] at held
      cases held
    · intro transport placed
      rw [← Option.some.inj placed]
    · intro name transport left
      change (state.loops name).phase = .leaving transport at left
      rw [stopped name] at left
      cases left
    · intro name transport runs
      exact absurd (stopped name) runs
    · intro name loop other joining
      exact absurd joining (phases (by simp) (by simp))
    · intro name _ loop
      exact stopped loop
    · intro name transport finishing
      exact absurd finishing (phases (by simp) (by simp))
    · intro transport placed
      refine .inr (.inl ⟨state.torn, ?_⟩)
      rw [← Option.some.inj placed]
      simp
    · intro name late
      simp only [Function.update_apply] at late ⊢
      rw [if_neg (by omega)]
      exact expired name

theorem Serving.deliverCancel (serving : state.Serving) (loop : Nat) :
    (state.deliverCancel loop).Serving := by
  unfold State.deliverCancel
  split
  case isFalse => exact serving
  case isTrue cancelled =>
    have torn : ∀ transport, (state.loops loop).phase ≠ .done →
        state.transport = some transport → state.TornDown transport :=
      fun transport runs placed => serving.cancelled runs cancelled placed
    -- in the body the loop goes to its `finally`; elsewhere it is over
    have leave : ∀ transport, (state.loops loop).phase.holds = some transport →
        (state.moveLoop loop (.leaving transport)).Serving := by
      intro transport held
      have runs : (state.loops loop).phase ≠ .done := by
        intro finished
        rw [finished] at held
        cases held
      have placed := serving.holds held
      apply serving.moveLoop runs
      · intro other same
        rw [← Option.some.inj same]
        exact placed
      · intro other same
        rw [← LoopPhase.leaving.inj same]
        exact .inr (torn transport runs placed)
      · intro impossible
        cases impossible
    have stop : (state.loops loop).phase ≠ .done → (state.moveLoop loop .done).Serving := by
      intro runs
      apply serving.moveLoop runs
      · intro other impossible
        cases impossible
      · intro other impossible
        cases impossible
      · intro _ transport placed
        exact .inl (torn transport runs placed)
    cases phase : (state.loops loop).phase with
    | spawned => exact stop (by rw [phase]; simp)
    | leaving transport => exact stop (by rw [phase]; simp)
    | done => exact serving
    | reading transport => exact leave transport (by rw [phase]; rfl)
    | dispatching transport => exact leave transport (by rw [phase]; rfl)
    | replying transport => exact leave transport (by rw [phase]; rfl)
    | emitting transport => exact leave transport (by rw [phase]; rfl)

/-- A loop goes from one point of its body to another. -/
theorem Serving.turn (serving : state.Serving) {loop transport : Nat} {phase next : LoopPhase}
    (runs : state.running loop = phase) (held : phase.holds = some transport)
    (same : next.holds = some transport)
    (leaves : next = .leaving transport → (state.transports transport).ended = true ∨
      state.TornDown transport) : (state.moveLoop loop next).Serving := by
  have active : phase ≠ .done := by
    intro finished
    rw [finished] at held
    cases held
  have here := running_eq runs active
  apply serving.moveLoop
  · rw [here]
    exact active
  · intro other holds
    rw [← Option.some.inj (same.symm.trans holds)]
    apply serving.holds
    rw [here]
    exact held
  · intro other left
    rw [left] at same
    rw [Option.some.inj same] at left ⊢
    exact leaves left
  · intro finished
    rw [finished] at same
    cases same

theorem Serving.step (serving : state.Serving) (careful : state.Careful move) :
    (state.step move).Serving := by
  cases move with
  | bootCheck =>
    simp only [State.step]
    split
    · exact serving
    · exact serving.same ⟨rfl, rfl, rfl, rfl, rfl, rfl, rfl⟩
  | bootFail => exact serving.same ⟨rfl, rfl, rfl, rfl, rfl, rfl, rfl⟩
  | publish validRules =>
    simp only [State.step]
    split
    · exact serving
    · exact Idle.publish careful validRules
  | start loop =>
    simp only [State.step]
    split
    case h_1 runs =>
      have here := running_eq runs (by simp)
      have alive : (state.loops loop).phase ≠ .done := by
        rw [here]
        simp
      obtain ⟨_, transport, placed⟩ := serving.task alive
      rw [placed]
      apply serving.moveLoop alive
      · intro other same
        rw [← Option.some.inj same]
        exact placed
      · intro other impossible
        cases impossible
      · intro impossible
        cases impossible
    case h_2 => exact serving
  | receive loop frame =>
    simp only [State.step]
    split
    case h_1 transport runs =>
      cases frame with
      | call allowed =>
        cases allowed with
        | true => exact serving.turn runs rfl rfl (by simp)
        | false => exact serving.turn runs rfl rfl (by simp)
      | reply corr => exact serving.same (resolve_sameLife state corr)
      | error corr => exact serving.same (resolve_sameLife state corr)
      | event => exact serving.turn runs rfl rfl (by simp)
      | other => exact serving
      | malformed => exact absurd rfl careful.1
    case h_2 => exact serving
  | recvClosed loop =>
    simp only [State.step]
    split
    case h_1 transport runs =>
      split
      case isTrue expired => exact serving.turn runs rfl rfl fun _ => .inl expired
      case isFalse => exact serving
    case h_2 => exact serving
  | dispatched loop =>
    simp only [State.step]
    split
    case h_1 transport runs => exact serving.turn runs rfl rfl (by simp)
    case h_2 => exact serving
  | replied loop =>
    simp only [State.step]
    split
    case h_1 transport runs => exact serving.turn runs rfl rfl (by simp)
    case h_2 => exact serving
  | replyFailed loop =>
    simp only [State.step]
    split
    case h_1 transport runs =>
      exact serving.turn runs rfl rfl fun _ =>
        .inl (careful transport (running_eq runs (by simp)))
    case h_2 => exact serving
  | emitted loop =>
    simp only [State.step]
    split
    case h_1 transport runs => exact serving.turn runs rfl rfl (by simp)
    case h_2 => exact serving
  | drain loop =>
    simp only [State.step]
    split
    case h_1 transport runs =>
      have here := running_eq runs (by simp)
      have stopped : (state.moveLoop loop .done).Serving := by
        apply serving.moveLoop
        · rw [here]
          simp
        · intro other impossible
          cases impossible
        · intro other impossible
          cases impossible
        · intro _ other placed
          have same := serving.holds (show (state.loops loop).phase.holds = some transport by
            rw [here]; rfl)
          rw [placed] at same
          rw [Option.some.inj same]
          exact (serving.leaving here).symm
      exact stopped.same (failPending_sameLife _)
    case h_2 => exact serving
  | cancel loop => exact serving.deliverCancel loop
  | peerEnd transport => exact serving.setTransport fun _ => rfl
  | notice transport =>
    simp only [State.step]
    split
    · exact serving.setTransport fun expired => expired
    · exact serving
  | teardown => exact serving.beginTeardown
  | join teardown =>
    simp only [State.step]
    split
    case h_1 loop joining =>
      split
      case isTrue finished =>
        have expired : ∀ other, (state.loops other).phase = .done := by
          intro other
          by_contra runs
          rw [serving.joining joining runs] at runs
          exact runs finished
        exact serving.advance (by rw [joining]; simp) (.inl rfl) expired nofun
      case isFalse => exact serving
    case h_2 => exact serving
  | close teardown =>
    simp only [State.step]
    split
    case isTrue closing =>
      have active : (state.teardowns teardown).phase ≠ .done := by
        rw [closing]
        simp
      have expired := serving.joined (.inl closing)
      cases placed : state.transport with
      | none =>
        apply serving.advance active (.inr rfl) expired
        intro _ transport there
        rw [placed] at there
        cases there
      | some transport =>
        have ended : (state.setTransport transport
            { state.transports transport with ended := true }).Serving :=
          serving.setTransport fun _ => rfl
        apply ended.advance active (.inr rfl) expired
        intro _ other there
        have same : some transport = some other := placed.symm.trans there
        rw [← Option.some.inj same]
        simp [State.setTransport]
    case isFalse => exact serving
  | finish teardown =>
    simp only [State.step]
    split
    case isTrue finishing => exact serving.finish finishing
    case isFalse => exact serving
  | forward => exact serving.same (forward_sameLife state)
  | sent forward =>
    simp only [State.step]
    split
    · exact serving.same ⟨rfl, rfl, rfl, rfl, rfl, rfl, rfl⟩
    · exact serving
  | sendFail forward =>
    simp only [State.step]
    split
    · exact serving.same ⟨rfl, rfl, rfl, rfl, rfl, rfl, rfl⟩
    · exact serving
  | timeout forward =>
    simp only [State.step]
    split
    · exact serving.same ⟨rfl, rfl, rfl, rfl, rfl, rfl, rfl⟩
    · exact serving
  | collect forward =>
    simp only [State.step]
    split
    · exact serving.same ⟨rfl, rfl, rfl, rfl, rfl, rfl, rfl⟩
    · exact serving
  | abandon forward =>
    simp only [State.step]
    split
    · exact serving.same ⟨rfl, rfl, rfl, rfl, rfl, rfl, rfl⟩
    · exact serving

/-! ### The table -/

/-- A table that loses entries, or whose transports end, is a table still. -/
theorem Table.weaken {other : State} (table : state.Table)
    (counter : other.corrCounter = state.corrCounter) (begun : other.begun = state.begun)
    (forwards : ∀ forward, (other.forwards forward).corr = (state.forwards forward).corr ∧
      (other.forwards forward).transport = (state.forwards forward).transport ∧
      ((state.forwards forward).phase = .returned → (other.forwards forward).phase = .returned))
    (pending : ∀ {corr forward}, other.pending.get? corr = some forward →
      state.pending.get? corr = some forward)
    (built : state.built ≤ other.built)
    (own : ∀ {corr forward}, other.pending.get? corr = some forward →
      state.transport = some (state.forwards forward).transport ∨
        (state.transports (state.forwards forward).transport).ended = true →
      other.transport = some (state.forwards forward).transport ∨
        (other.transports (state.forwards forward).transport).ended = true) :
    other.Table where
  counter := by
    rw [counter, begun]
    exact table.counter
  corr := by
    intro forward known
    rw [begun] at known
    rw [(forwards forward).1]
    exact table.corr known
  later := by
    intro forward unknown
    rw [begun] at unknown
    exact (forwards forward).2.2 (table.later unknown)
  entry := by
    intro corr forward found
    rw [begun]
    exact table.entry (pending found)
  older := by
    intro forward known
    rw [begun] at known
    rw [(forwards forward).2.1]
    exact Nat.lt_of_lt_of_le (table.older known) built
  own := by
    intro corr forward found
    rw [(forwards forward).2.1]
    exact own found (table.own (pending found))

/-- The forwards and the table are as they were; a transport may have ended. -/
structure SameTable (other state : State) : Prop where
  counter : other.corrCounter = state.corrCounter
  begun : other.begun = state.begun
  forwards : other.forwards = state.forwards
  pending : other.pending = state.pending
  built : other.built = state.built
  transport : other.transport = state.transport
  ended : ∀ {name}, (state.transports name).ended = true → (other.transports name).ended = true

theorem SameTable.refl (state : State) : SameTable state state :=
  ⟨rfl, rfl, rfl, rfl, rfl, rfl, fun expired => expired⟩

theorem moveLoop_sameTable (state : State) (loop : Nat) (phase : LoopPhase) :
    SameTable (state.moveLoop loop phase) state :=
  ⟨rfl, rfl, rfl, rfl, rfl, rfl, fun expired => expired⟩

theorem setTransport_sameTable {transport : Nat} {next : Transport}
    (stays : (state.transports transport).ended = true → next.ended = true) :
    SameTable (state.setTransport transport next) state := by
  refine ⟨rfl, rfl, rfl, rfl, rfl, rfl, ?_⟩
  intro name expired
  simp only [State.setTransport, Function.update_apply]
  split
  case isTrue same =>
    subst same
    exact stays expired
  case isFalse => exact expired

theorem Table.same {other : State} (table : state.Table) (same : SameTable other state) :
    other.Table := by
  apply table.weaken same.counter same.begun
  · intro forward
    rw [same.forwards]
    exact ⟨rfl, rfl, fun returned => returned⟩
  · intro corr forward found
    rwa [same.pending] at found
  · exact Nat.le_of_eq same.built.symm
  · intro corr forward _ own
    rw [same.transport]
    exact own.imp_right same.ended

theorem settle_fields (forward : Forward) :
    (settle forward).corr = forward.corr ∧ (settle forward).transport = forward.transport ∧
      (settle forward).phase = forward.phase := by
  unfold settle
  split
  · exact ⟨rfl, rfl, rfl⟩
  · exact ⟨rfl, rfl, rfl⟩

/-- One forward changes its phase or its future, and the table may lose an entry. -/
theorem Table.setForward (table : state.Table) {forward : Nat} {next : Forward}
    {pending : OrderedDict Nat Nat}
    (fields : next.corr = (state.forwards forward).corr ∧
      next.transport = (state.forwards forward).transport ∧
      ((state.forwards forward).phase = .returned → next.phase = .returned))
    (fewer : ∀ {corr other}, pending.get? corr = some other →
      state.pending.get? corr = some other) :
    { state.setForward forward next with pending := pending }.Table := by
  apply @Table.weaken state { state.setForward forward next with pending := pending } table rfl rfl
  · intro other
    simp only [State.setForward, Function.update_apply]
    split
    case isTrue same =>
      subst same
      exact fields
    case isFalse => exact ⟨rfl, rfl, fun same => same⟩
  · exact fewer
  · exact Nat.le_refl _
  · intro corr other _ own
    exact own

theorem get?_erase_some {pending : OrderedDict Nat Nat} {removed corr forward : Nat}
    (found : (pending.erase removed).get? corr = some forward) :
    corr ≠ removed ∧ pending.get? corr = some forward := by
  rw [OrderedDict.get?_erase] at found
  split at found
  case isTrue => cases found
  case isFalse apart => exact ⟨apart, found⟩

theorem Table.failPending (table : state.Table) : state.failPending.Table := by
  apply @Table.weaken state state.failPending table rfl rfl
  · intro forward
    simp only [State.failPending]
    split
    · obtain ⟨corr, transport, phase⟩ := settle_fields (state.forwards forward)
      exact ⟨corr, transport, fun same => phase.trans same⟩
    · exact ⟨rfl, rfl, fun same => same⟩
  · intro corr forward found
    cases found
  · exact Nat.le_refl _
  · intro corr forward found
    cases found

theorem Table.resolve (table : state.Table) (corr : Nat) : (state.resolve corr).Table := by
  unfold State.resolve
  split
  · exact table
  · apply table.setForward
    · obtain ⟨corr, transport, phase⟩ := settle_fields (state.forwards _)
      exact ⟨corr, transport, fun same => phase.trans same⟩
    · intro corr forward found
      exact (get?_erase_some found).2

theorem connected_transport {transport : Nat} (linked : state.connected = some transport) :
    state.transport = some transport := by
  unfold connected at linked
  exact (Option.filter_eq_some_iff.mp linked).1

theorem Table.forward (table : state.Table) (serving : state.Serving) : state.forward.Table := by
  unfold State.forward
  split
  case h_1 => exact table
  case h_2 transport linked =>
    have placed := connected_transport linked
    have forwards : ∀ name, Function.update state.forwards state.begun
        ⟨transport, state.corrCounter + 1, .sending, .unsettled⟩ name =
        if name = state.begun then ⟨transport, state.corrCounter + 1, .sending, .unsettled⟩
        else state.forwards name :=
      fun name => Function.update_apply ..
    have entry : ∀ {corr forward}, (state.pending.insert (state.corrCounter + 1)
        state.begun).get? corr = some forward →
        (corr = state.corrCounter + 1 ∧ forward = state.begun) ∨
          (forward ≠ state.begun ∧ state.pending.get? corr = some forward) := by
      intro corr forward found
      rw [OrderedDict.get?_insert] at found
      split at found
      case isTrue same => exact .inl ⟨same, (Option.some.inj found).symm⟩
      case isFalse => exact .inr ⟨Nat.ne_of_lt (table.entry found).1, found⟩
    constructor
    · change state.corrCounter + 1 = state.begun + 1
      rw [table.counter]
    · intro forward known
      simp only [State.setForward] at known ⊢
      rw [forwards]
      split
      case isTrue same => rw [same, table.counter]
      case isFalse => exact table.corr (by omega)
    · intro forward unknown
      simp only [State.setForward] at unknown ⊢
      rw [forwards, if_neg (by omega)]
      exact table.later (by omega)
    · intro corr forward found
      simp only at found ⊢
      rcases entry found with ⟨rfl, rfl⟩ | ⟨_, old⟩
      · rw [table.counter]
        exact ⟨Nat.lt_succ_self _, rfl⟩
      · obtain ⟨known, same⟩ := table.entry old
        exact ⟨Nat.lt_succ_of_lt known, same⟩
    · intro forward known
      simp only [State.setForward] at known ⊢
      rw [forwards]
      split
      case isTrue =>
        have latest := serving.latest placed
        change transport < state.built
        omega
      case isFalse => exact table.older (by omega)
    · intro corr forward found
      simp only [State.setForward] at found ⊢
      rw [forwards]
      rcases entry found with ⟨_, rfl⟩ | ⟨apart, old⟩
      · rw [if_pos rfl]
        exact .inl placed
      · rw [if_neg apart]
        exact table.own old

/-- In an idle bridge the old transport has ended, so the new one takes nothing over. -/
theorem Table.publish (table : state.Table) (serving : state.Serving) (idle : state.Idle)
    (validRules : Bool) : (state.publish validRules).Table := by
  have ended : ∀ {transport}, state.transport = some transport →
      (state.transports transport).ended = true := by
    intro transport placed
    rcases serving.watched placed with ⟨loop, runs⟩ | ⟨teardown, active, _⟩ | expired
    · exact absurd (idle.1 loop) runs
    · exact absurd (idle.2 teardown) active
    · exact expired
  have placed : ∀ other : State, other.corrCounter = state.corrCounter →
      other.begun = state.begun → other.forwards = state.forwards →
      other.pending = state.pending → other.built = state.built + 1 →
      other.transports = Function.update state.transports state.built
        { ended := false, closed := false } → other.Table := by
    intro other counter begun forwards pending built transports
    apply table.weaken counter begun
    · intro forward
      rw [forwards]
      exact ⟨rfl, rfl, fun same => same⟩
    · intro corr forward found
      rwa [pending] at found
    · omega
    · intro corr forward found own
      right
      rw [pending] at found
      have older := table.older (table.entry found).1
      rw [transports, Function.update_of_ne (Nat.ne_of_lt older)]
      rcases own with here | expired
      · exact ended here
      · exact expired
  cases validRules with
  | true => exact placed _ rfl rfl rfl rfl rfl rfl
  | false =>
    simp only [State.publish, Bool.false_eq_true, if_false, State.beginTeardown]
    split
    · exact placed _ rfl rfl rfl rfl rfl rfl
    · split
      · exact placed _ rfl rfl rfl rfl rfl rfl
      · exact placed _ rfl rfl rfl rfl rfl rfl

/-- A move of a loop, a boot or a teardown that does not reach the table. -/
def Quiet : Move → Prop
  | .publish _ | .receive _ _ | .drain _ | .finish _ | .forward | .sent _ | .sendFail _
  | .timeout _ | .collect _ | .abandon _ => False
  | _ => True

theorem Quiet.step (quiet : Quiet move) : SameTable (state.step move) state := by
  cases move with
  | publish | receive | drain | finish | forward | sent | sendFail | timeout | collect | abandon =>
    exact quiet.elim
  | bootCheck =>
    simp only [State.step]
    split
    · exact .refl state
    · exact ⟨rfl, rfl, rfl, rfl, rfl, rfl, fun expired => expired⟩
  | bootFail => exact ⟨rfl, rfl, rfl, rfl, rfl, rfl, fun expired => expired⟩
  | start loop =>
    simp only [State.step]
    split
    · split
      · exact moveLoop_sameTable ..
      · exact moveLoop_sameTable ..
    · exact .refl state
  | recvClosed loop =>
    simp only [State.step]
    split
    · split
      · exact moveLoop_sameTable ..
      · exact .refl state
    · exact .refl state
  | dispatched loop | replied loop | replyFailed loop | emitted loop =>
    simp only [State.step]
    split
    · exact moveLoop_sameTable ..
    · exact .refl state
  | cancel loop =>
    simp only [State.step, State.deliverCancel]
    split
    · split
      · exact .refl state
      all_goals exact moveLoop_sameTable ..
    · exact .refl state
  | peerEnd transport => exact setTransport_sameTable fun _ => rfl
  | notice transport =>
    simp only [State.step]
    split
    · exact setTransport_sameTable fun expired => expired
    · exact .refl state
  | teardown =>
    simp only [State.step, State.beginTeardown]
    split
    · exact ⟨rfl, rfl, rfl, rfl, rfl, rfl, fun expired => expired⟩
    · split
      · exact ⟨rfl, rfl, rfl, rfl, rfl, rfl, fun expired => expired⟩
      · exact ⟨rfl, rfl, rfl, rfl, rfl, rfl, fun expired => expired⟩
  | join teardown =>
    simp only [State.step]
    split
    · split
      · exact ⟨rfl, rfl, rfl, rfl, rfl, rfl, fun expired => expired⟩
      · exact .refl state
    · exact .refl state
  | close teardown =>
    simp only [State.step]
    split
    · split
      · exact ⟨rfl, rfl, rfl, rfl, rfl, rfl, fun expired => expired⟩
      · have same := @setTransport_sameTable (state.setTeardown teardown
          { state.teardowns teardown with phase := .finishing }) ‹Nat›
          { state.transports ‹Nat› with ended := true } fun _ => rfl
        exact ⟨same.counter, same.begun, same.forwards, same.pending, same.built,
          same.transport, same.ended⟩
    · exact .refl state

theorem Table.step (table : state.Table) (serving : state.Serving)
    (careful : state.Careful move) : (state.step move).Table := by
  by_cases quiet : Quiet move
  · exact table.same quiet.step
  cases move with
  | publish validRules =>
    simp only [State.step]
    split
    · exact table
    · exact table.publish serving careful validRules
  | receive loop frame =>
    simp only [State.step]
    split
    · cases frame with
      | call allowed =>
        cases allowed with
        | true => exact table.same (moveLoop_sameTable ..)
        | false => exact table.same (moveLoop_sameTable ..)
      | reply corr => exact table.resolve corr
      | error corr => exact table.resolve corr
      | event => exact table.same (moveLoop_sameTable ..)
      | other => exact table
      | malformed => exact table.same (moveLoop_sameTable ..)
    · exact table
  | drain loop =>
    simp only [State.step]
    split
    · exact (table.same (moveLoop_sameTable ..)).failPending
    · exact table
  | finish teardown =>
    simp only [State.step]
    split
    · have next : (state.setTeardown teardown
          { state.teardowns teardown with phase := .done }).Table :=
        table.same ⟨rfl, rfl, rfl, rfl, rfl, rfl, fun expired => expired⟩
      have cleared := next.failPending
      exact ⟨cleared.counter, cleared.corr, cleared.later, cleared.entry, cleared.older, nofun⟩
    · exact table
  | forward => exact table.forward serving
  | sent forward =>
    simp only [State.step]
    split
    case isTrue sending =>
      apply table.setForward
      · refine ⟨rfl, rfl, ?_⟩
        intro returned
        rw [sending] at returned
        cases returned
      · exact fun found => found
    case isFalse => exact table
  | sendFail forward =>
    simp only [State.step]
    split
    case isTrue sending =>
      apply table.setForward
      · exact ⟨rfl, rfl, fun _ => rfl⟩
      · exact fun found => (get?_erase_some found).2
    case isFalse => exact table
  | timeout forward =>
    simp only [State.step]
    split
    case isTrue waiting =>
      apply table.setForward
      · exact ⟨rfl, rfl, fun _ => rfl⟩
      · exact fun found => (get?_erase_some found).2
    case isFalse => exact table
  | collect forward =>
    simp only [State.step]
    split
    case isTrue waiting =>
      apply table.setForward
      · exact ⟨rfl, rfl, fun _ => rfl⟩
      · exact fun found => found
    case isFalse => exact table
  | abandon forward =>
    simp only [State.step]
    split
    case isTrue active =>
      apply table.setForward
      · refine ⟨rfl, rfl, ?_⟩
        intro returned
        rw [returned] at active
        rcases active with impossible | impossible <;> cases impossible
      · exact fun found => found
    case isFalse => exact table
  | _ => exact absurd trivial quiet

/-! ### One move -/

theorem InProgress.not_completed {forward : Forward} (active : InProgress forward) :
    ¬ Completed forward := by
  obtain ⟨phase, future⟩ := active
  rintro (returned | settled)
  · rw [returned] at phase
    rcases phase with impossible | impossible <;> cases impossible
  · rw [settled] at future
    cases future

theorem not_touched {other : State} {forward : Nat}
    (active : InProgress (state.forwards forward))
    (same : other.forwards forward = state.forwards forward)
    (pending : state.pending.get? (state.forwards forward).corr = some forward →
      other.pending.get? (state.forwards forward).corr = some forward) :
    ¬ Touched state other forward := by
  rintro (completed | ⟨found, gone⟩)
  · rw [same] at completed
    exact active.not_completed completed
  · exact gone (pending found)

theorem isolated_of_untouched (forwards : (state.step move).forwards = state.forwards)
    (pending : (state.step move).pending = state.pending) : state.Isolated move := by
  intro forward active touched
  apply absurd touched
  apply not_touched active
  · rw [forwards]
  · rw [pending]
    exact fun found => found

/-- What a cleared table touches was in it. -/
theorem touched_failPending {other : State} {forward : Nat}
    (active : InProgress (state.forwards forward))
    (forwards : other.forwards = state.failPending.forwards)
    (touched : Touched state other forward) :
    ∃ corr, state.pending.get? corr = some forward := by
  by_contra absent
  rw [← OrderedDict.mem_items_iff] at absent
  rcases touched with completed | ⟨found, _⟩
  · rw [forwards, State.failPending] at completed
    simp only [if_neg absent] at completed
    exact active.not_completed completed
  · exact absent (OrderedDict.mem_items_iff.mpr ⟨_, found⟩)

/-- What taking one entry out touches is the forward of that entry. -/
theorem touched_setForward {removed name forward : Nat} {next : Forward} {other : State}
    (active : InProgress (state.forwards forward))
    (forwards : other.forwards = Function.update state.forwards name next)
    (pending : other.pending = state.pending.erase removed)
    (entry : state.pending.get? removed = some forward → forward = name)
    (touched : Touched state other forward) : forward = name := by
  by_contra apart
  rcases touched with completed | ⟨found, gone⟩
  · rw [forwards, Function.update_of_ne apart] at completed
    exact active.not_completed completed
  · rw [pending, OrderedDict.get?_erase] at gone
    split at gone
    case isTrue same =>
      rw [same] at found
      exact apart (entry found)
    case isFalse => exact gone found

theorem isolated_resolve (table : state.Table) {loop corr : Nat} {frame : Frame}
    (names : frame = .reply corr ∨ frame = .error corr)
    (stepped : state.step (.receive loop frame) = state.resolve corr)
    (serves : ∀ forward, state.pending.get? corr = some forward →
      (state.loops loop).phase = .reading (state.forwards forward).transport) :
    state.Isolated (.receive loop frame) := by
  cases found : state.pending.get? corr with
  | none =>
    have same : state.step (.receive loop frame) = state := by
      rw [stepped, State.resolve, found]
    exact isolated_of_untouched (by rw [same]) (by rw [same])
  | some owner =>
    obtain ⟨known, named⟩ := table.entry found
    have settled : state.step (.receive loop frame) =
        { state.setForward owner (settle (state.forwards owner)) with
          pending := state.pending.erase corr } := by
      rw [stepped, State.resolve, found]
    intro forward active touched
    have same : forward = owner := by
      apply touched_setForward active (by rw [settled]; rfl) (by rw [settled]) _ touched
      intro entry
      exact Option.some.inj (entry.symm.trans found)
    subst same
    refine ⟨.frame loop frame rfl (serves forward found) ?_, nofun⟩
    rw [table.corr known, ← named]
    exact names

/-- The forward that gave up its entry is the only one touched. -/
theorem Table.touched_giveUp (table : state.Table) {name forward : Nat} {other : State}
    {next : Forward} (active : InProgress (state.forwards forward))
    (known : (state.forwards name).phase ≠ .returned)
    (forwards : other.forwards = Function.update state.forwards name next)
    (pending : other.pending = state.pending.erase (state.forwards name).corr)
    (touched : Touched state other forward) : forward = name := by
  apply touched_setForward active forwards pending _ touched
  intro entry
  have begun : name < state.begun := by
    by_contra beyond
    exact known (table.later (Nat.le_of_not_lt beyond))
  have named := (table.entry entry).2
  rw [table.corr begun] at named
  omega

/-- A move of one forward that settles nothing and leaves the table alone. -/
theorem isolated_setForward {name : Nat} {next : Forward}
    (stepped : state.step move = state.setForward name next)
    (quiet : InProgress (state.forwards name) → ¬ Completed next) : state.Isolated move := by
  intro forward active touched
  rw [stepped] at touched
  apply absurd touched
  rintro (completed | ⟨found, gone⟩)
  · simp only [State.setForward, Function.update_apply] at completed
    split at completed
    case isTrue same =>
      subst same
      exact quiet active completed
    case isFalse => exact active.not_completed completed
  · exact gone found

/-- A loop that ends clears its own transport's entries, and leftovers of ended ones. -/
theorem Serving.isolated_drain (serving : state.Serving) (table : state.Table) {loop : Nat} :
    state.Isolated (.drain loop) := by
  cases runs : state.running loop with
  | leaving transport =>
    have here := running_eq runs (by simp)
    have held : (state.loops loop).phase.holds = some transport := by
      rw [here]
      rfl
    have placed := serving.holds held
    intro forward active touched
    have cleared : state.step (.drain loop) = (state.moveLoop loop .done).failPending := by
      simp only [State.step, runs]
    obtain ⟨corr, found⟩ := touched_failPending active (by rw [cleared]; rfl) touched
    constructor
    · rcases table.own found with own | expired
      · rw [placed] at own
        rcases serving.leaving here with expired | torn
        · rw [Option.some.inj own] at expired
          exact .ended nofun expired
        · rw [Option.some.inj own] at torn
          exact .torn nofun torn
      · exact .ended nofun expired
    · intro other name same holds earlier
      rw [← Move.drain.inj same, held] at holds
      rw [← Option.some.inj holds] at earlier
      have latest := serving.latest placed
      have older := table.older (table.entry found).1
      omega
  | _ =>
    have same : state.step (.drain loop) = state := by simp only [State.step, runs]
    exact isolated_of_untouched (by rw [same]) (by rw [same])

theorem Serving.isolated_finish (serving : state.Serving) (table : state.Table) {teardown : Nat} :
    state.Isolated (.finish teardown) := by
  by_cases finishing : (state.teardowns teardown).phase = .finishing
  · intro forward active touched
    have cleared : (state.step (.finish teardown)).forwards = state.failPending.forwards := by
      simp only [State.step, if_pos finishing]
      rfl
    obtain ⟨corr, found⟩ := touched_failPending active cleared touched
    refine ⟨.ended nofun ?_, nofun⟩
    rcases table.own found with placed | expired
    · exact serving.closed finishing placed
    · exact expired
  · have same : state.step (.finish teardown) = state := by
      simp only [State.step, if_neg finishing]
    exact isolated_of_untouched (by rw [same]) (by rw [same])

theorem Table.isolated_forward (table : state.Table) : state.Isolated .forward := by
  cases linked : state.connected with
  | none =>
    have same : state.step .forward = state := by
      simp only [State.step, State.forward, linked]
    exact isolated_of_untouched (by rw [same]) (by rw [same])
  | some transport =>
    intro forward active touched
    have known : forward < state.begun := by
      by_contra beyond
      exact active.not_completed (.inl (table.later (Nat.le_of_not_lt beyond)))
    apply absurd touched
    apply not_touched active
    · simp only [State.step, State.forward, linked, State.setForward]
      exact Function.update_of_ne (Nat.ne_of_lt known) _ _
    · intro found
      simp only [State.step, State.forward, linked, State.setForward]
      rw [OrderedDict.get?_insert_of_ne]
      · exact found
      · rw [table.corr known, table.counter]
        omega

theorem publish_forwards (validRules : Bool) :
    (state.publish validRules).forwards = state.forwards ∧
      (state.publish validRules).pending = state.pending := by
  cases validRules with
  | true => exact ⟨rfl, rfl⟩
  | false =>
    simp only [State.publish, Bool.false_eq_true, if_false, State.beginTeardown]
    split
    · exact ⟨rfl, rfl⟩
    · split
      · exact ⟨rfl, rfl⟩
      · exact ⟨rfl, rfl⟩

theorem Serving.isolated (serving : state.Serving) (table : state.Table)
    (careful : state.Careful move) : state.Isolated move := by
  by_cases quiet : Quiet move
  · exact isolated_of_untouched quiet.step.forwards quiet.step.pending
  cases move with
  | publish validRules =>
    apply isolated_of_untouched
    · simp only [State.step]
      split
      · rfl
      · exact (publish_forwards validRules).1
    · simp only [State.step]
      split
      · rfl
      · exact (publish_forwards validRules).2
  | receive loop frame =>
    cases runs : state.running loop with
    | reading transport =>
      have stepped : state.step (.receive loop frame) =
          state.receive loop transport frame := by
        simp only [State.step, runs]
      have here := running_eq runs (by simp)
      have serves : ∀ corr, frame = .reply corr ∨ frame = .error corr → ∀ forward,
          state.pending.get? corr = some forward →
            (state.loops loop).phase = .reading (state.forwards forward).transport := by
        intro corr names forward found
        rw [careful.2 transport corr forward here names found]
        exact here
      cases frame with
      | reply corr => exact isolated_resolve table (.inl rfl) stepped (serves corr (.inl rfl))
      | error corr => exact isolated_resolve table (.inr rfl) stepped (serves corr (.inr rfl))
      | call allowed =>
        cases allowed with
        | true => exact isolated_of_untouched (by rw [stepped]; rfl) (by rw [stepped]; rfl)
        | false => exact isolated_of_untouched (by rw [stepped]; rfl) (by rw [stepped]; rfl)
      | event | other | malformed =>
        exact isolated_of_untouched (by rw [stepped]; rfl) (by rw [stepped]; rfl)
    | _ =>
      have same : state.step (.receive loop frame) = state := by
        simp only [State.step, runs]
      exact isolated_of_untouched (by rw [same]) (by rw [same])
  | drain loop => exact serving.isolated_drain table
  | finish teardown => exact serving.isolated_finish table
  | forward => exact table.isolated_forward
  | sent name =>
    by_cases sending : (state.forwards name).phase = .sending
    · apply isolated_setForward (show state.step (.sent name) = state.setForward name
        { state.forwards name with phase := .waiting } by
          simp only [State.step, if_pos sending])
      rintro ⟨_, future⟩ (impossible | settled)
      · cases impossible
      · rw [settled] at future
        cases future
    · have same : state.step (.sent name) = state := by
        simp only [State.step, if_neg sending]
      exact isolated_of_untouched (by rw [same]) (by rw [same])
  | sendFail name =>
    by_cases sending : (state.forwards name).phase = .sending
    · intro forward active touched
      have same : forward = name := by
        apply table.touched_giveUp active (by rw [sending]; simp) _ _ touched
        · exact { state.forwards name with phase := .returned }
        · simp only [State.step, if_pos sending]
          rfl
        · simp only [State.step, if_pos sending]
      subst same
      exact ⟨.ended nofun (careful sending), nofun⟩
    · have same : state.step (.sendFail name) = state := by
        simp only [State.step, if_neg sending]
      exact isolated_of_untouched (by rw [same]) (by rw [same])
  | timeout name =>
    by_cases waiting : (state.forwards name).phase = .waiting ∧
        (state.forwards name).future = .unsettled
    · intro forward active touched
      have same : forward = name := by
        apply table.touched_giveUp active (by rw [waiting.1]; simp) _ _ touched
        · exact { state.forwards name with phase := .returned }
        · simp only [State.step, if_pos waiting]
          rfl
        · simp only [State.step, if_pos waiting]
      subst same
      exact ⟨.timeout rfl, nofun⟩
    · have same : state.step (.timeout name) = state := by
        simp only [State.step, if_neg waiting]
      exact isolated_of_untouched (by rw [same]) (by rw [same])
  | collect name =>
    by_cases waiting : (state.forwards name).phase = .waiting ∧
        (state.forwards name).future = .settled
    · apply isolated_setForward (show state.step (.collect name) = state.setForward name
        { state.forwards name with phase := .returned } by
          simp only [State.step, if_pos waiting])
      rintro ⟨_, future⟩
      rw [waiting.2] at future
      cases future
    · have same : state.step (.collect name) = state := by
        simp only [State.step, if_neg waiting]
      exact isolated_of_untouched (by rw [same]) (by rw [same])
  | abandon name =>
    by_cases active : (state.forwards name).phase = .sending ∨
        (state.forwards name).phase = .waiting
    · apply isolated_setForward (show state.step (.abandon name) = state.setForward name
        { state.forwards name with phase := .abandoned } by
          simp only [State.step, if_pos active])
      rintro ⟨_, future⟩ (impossible | settled)
      · cases impossible
      · rw [settled] at future
        cases future
    · have same : state.step (.abandon name) = state := by
        simp only [State.step, if_neg active]
      exact isolated_of_untouched (by rw [same]) (by rw [same])
  | _ => exact absurd trivial quiet

/-! ### Whole runs -/

theorem serving_fresh : fresh.Serving where
  task := fun runs => absurd rfl runs
  holds := nofun
  latest := nofun
  leaving := nofun
  cancelled := nofun
  joining := nofun
  joined := fun _ _ => rfl
  closed := nofun
  watched := nofun
  teardowns := fun _ => rfl

theorem table_fresh : fresh.Table where
  counter := rfl
  corr := nofun
  later := fun _ => rfl
  entry := nofun
  older := nofun
  own := nofun

theorem isolated_run (moves : List Move) : ∀ {state : State}, state.Serving → state.Table →
    state.CarefulRun moves → state.IsolatedRun moves := by
  induction moves with
  | nil =>
    intro state _ _ _
    trivial
  | cons move moves hypothesis =>
    intro state serving table careful
    obtain ⟨first, rest⟩ := careful
    exact ⟨serving.isolated table first,
      hypothesis (serving.step first) (table.step serving first) rest⟩

end State

end Fantastic.Python.Engine

import Fantastic.Foundation.Runs
import Fantastic.Python.BridgeBoot

/-!
# What boots and teardowns of one bridge leave open

The fields of the state object are overwritten without a look at what they hold. As long as
whatever is overwritten is gone by then, the one installed transport is all that is open, the
registered tunnel is its tunnel or that of a boot under way, and the read task is the one
running loop.
-/

namespace Fantastic.Python.Boot

/-- Every built transport but the installed one is closed, and no tunnel of it or of a failed
boot is left; one read loop runs at most; and after the deletion nothing remains. -/
structure Kept (state : State) : Prop where
  built : ∀ boot, state.builds boot = .built → state.transport ≠ some boot →
    state.opened boot = false ∧ state.tunnels boot = false
  failed : ∀ boot, state.builds boot = .failed →
    state.opened boot = false ∧ state.tunnels boot = false
  single : ∀ one two, (state.loops one).Running → (state.loops two).Running → one = two
  deleted : state.deleted = true → (∀ boot, state.opened boot = false) ∧
    (∀ boot, state.tunnels boot = false) ∧ ∀ loop, ¬ (state.loops loop).Running

/-- The registered tunnel is the boot's own, or gone. -/
def OwnCleanup (state : State) (boot : Nat) : Prop :=
  ∀ other, state.cleanup = some other → other ≠ boot → state.tunnels other = false

def NoneTunnels (state : State) : Prop :=
  ∀ boot, state.builds boot ≠ .tunnelling

/-- A boot registers its tunnel, installs its transport or clears the cleanup after a failure
only where no other tunnel is registered; it installs with the agent there, no transport open
and no loop running. A teardown ends with no other transport open than the one it closed and
no loop running, and a deletion with no tunnel being opened. -/
def Careful (state : State) : Move → Prop
  | .tunnelReady boot => state.builds boot = .tunnelling → OwnCleanup state boot
  | .dialed boot _ => ∀ tunnelled, state.builds boot = .connecting tunnelled →
      state.deleted = false ∧ (∀ other, state.opened other = false) ∧
        (∀ loop, ¬ (state.loops loop).Running) ∧ OwnCleanup state boot
  | .dialFailed boot => state.builds boot = .connecting true → OwnCleanup state boot
  | .delete => state.transport = none → NoneTunnels state
  | .joined teardown => (state.teardowns teardown).purpose = .delete → state.transport = none →
      NoneTunnels state
  | .closed teardown => ∀ transport, (state.teardowns teardown).waiting = .closing transport →
      (∀ other, state.opened other = true → other = transport) ∧
        (∀ loop, ¬ (state.loops loop).Running) ∧
          ((state.teardowns teardown).purpose = .delete → NoneTunnels state)
  | _ => True

structure Inv (state : State) : Prop where
  opened : ∀ boot, state.opened boot = true → state.transport = some boot ∧
    state.builds boot = .built
  tunnels : ∀ boot, state.tunnels boot = true → state.builds boot = .tunnelling ∨
    state.cleanup = some boot
  built : ∀ boot, state.builds boot = .built → state.transport ≠ some boot →
    state.tunnels boot = false
  failed : ∀ boot, state.builds boot = .failed → state.tunnels boot = false
  plain : ∀ boot, state.builds boot = .connecting false → state.tunnels boot = false
  unborn : ∀ boot, state.begun ≤ boot → state.builds boot = .unborn ∧ state.tunnels boot = false
  running : ∀ loop, (state.loops loop).Running → state.readTask = some loop ∧
    state.transport ≠ none
  gone : state.deleted = true → state.transport = none ∧ state.cleanup = none ∧
    NoneTunnels state

variable {state : State}

theorem Inv.nothing_open (inv : Inv state) (bare : state.transport = none) (boot : Nat) :
    state.opened boot = false := by
  rw [← Bool.not_eq_true]
  intro opened
  have installed := (inv.opened boot opened).1
  rw [bare] at installed
  cases installed

theorem Inv.nothing_runs (inv : Inv state) (bare : state.transport = none) (loop : Nat) :
    ¬ (state.loops loop).Running :=
  fun running => (inv.running loop running).2 bare

theorem Inv.kept (inv : Inv state) : Kept state := by
  have closed : ∀ boot, ¬ (state.transport = some boot ∧ state.builds boot = .built) →
      state.opened boot = false := by
    intro boot other
    rw [← Bool.not_eq_true]
    exact fun opened => other (inv.opened boot opened)
  constructor
  · intro boot built other
    exact ⟨closed boot fun both => other both.1, inv.built boot built other⟩
  · intro boot failed
    refine ⟨closed boot fun both => ?_, inv.failed boot failed⟩
    rw [failed] at both
    cases both.2
  · intro one two first second
    have held := (inv.running one first).1
    rw [(inv.running two second).1] at held
    exact (Option.some.inj held).symm
  · intro deleted
    obtain ⟨bare, cleared, calm⟩ := inv.gone deleted
    refine ⟨inv.nothing_open bare, ?_, inv.nothing_runs bare⟩
    intro boot
    rw [← Bool.not_eq_true]
    intro tunnel
    cases inv.tunnels boot tunnel with
    | inl tunnelling => exact calm boot tunnelling
    | inr registered =>
      rw [cleared] at registered
      cases registered

/-! ### The cleanup -/

@[simp] theorem runCleanup_builds (state : State) : state.runCleanup.builds = state.builds := by
  unfold State.runCleanup
  split <;> rfl

@[simp] theorem runCleanup_begun (state : State) : state.runCleanup.begun = state.begun := by
  unfold State.runCleanup
  split <;> rfl

@[simp] theorem runCleanup_opened (state : State) : state.runCleanup.opened = state.opened := by
  unfold State.runCleanup
  split <;> rfl

@[simp] theorem runCleanup_loops (state : State) : state.runCleanup.loops = state.loops := by
  unfold State.runCleanup
  split <;> rfl

@[simp] theorem runCleanup_transport (state : State) :
    state.runCleanup.transport = state.transport := by
  unfold State.runCleanup
  split <;> rfl

@[simp] theorem runCleanup_readTask (state : State) :
    state.runCleanup.readTask = state.readTask := by
  unfold State.runCleanup
  split <;> rfl

@[simp] theorem runCleanup_deleted (state : State) :
    state.runCleanup.deleted = state.deleted := by
  unfold State.runCleanup
  split <;> rfl

@[simp] theorem runCleanup_cleanup (state : State) : state.runCleanup.cleanup = none := by
  unfold State.runCleanup
  split
  · rfl
  case h_2 nothing => exact nothing

theorem runCleanup_tunnels {boot : Nat} (tunnel : state.runCleanup.tunnels boot = true) :
    state.tunnels boot = true ∧ state.cleanup ≠ some boot := by
  unfold State.runCleanup at tunnel
  split at tunnel
  case h_1 other registered =>
    rw [registered]
    by_cases same : boot = other
    · subst same
      simp [State.killTunnel] at tunnel
    · simp only [State.killTunnel, Function.update_of_ne same] at tunnel
      exact ⟨tunnel, fun own => same (Option.some.inj own).symm⟩
  case h_2 nothing =>
    rw [nothing]
    exact ⟨tunnel, by simp⟩

theorem runCleanup_tunnels_false {boot : Nat} (gone : state.tunnels boot = false) :
    state.runCleanup.tunnels boot = false := by
  rw [← Bool.not_eq_true]
  intro tunnel
  rw [(runCleanup_tunnels tunnel).1] at gone
  cases gone

/-- Only tunnels that are still being opened are left after the cleanup. -/
theorem Inv.after_cleanup (inv : Inv state) {boot : Nat}
    (tunnel : state.runCleanup.tunnels boot = true) : state.builds boot = .tunnelling := by
  obtain ⟨before, other⟩ := runCleanup_tunnels tunnel
  cases inv.tunnels boot before with
  | inl tunnelling => exact tunnelling
  | inr registered => exact absurd registered other

theorem Inv.cleaned (inv : Inv state) : Inv state.runCleanup := by
  refine ⟨?_, ?_, ?_, ?_, ?_, ?_, ?_, ?_⟩
  · simpa using inv.opened
  · intro boot tunnel
    exact .inl (by simpa using inv.after_cleanup tunnel)
  · intro boot built other
    exact runCleanup_tunnels_false (inv.built boot (by simpa using built) (by simpa using other))
  · intro boot failed
    exact runCleanup_tunnels_false (inv.failed boot (by simpa using failed))
  · intro boot plain
    exact runCleanup_tunnels_false (inv.plain boot (by simpa using plain))
  · intro boot later
    obtain ⟨unborn, dark⟩ := inv.unborn boot (by simpa using later)
    exact ⟨by simpa using unborn, runCleanup_tunnels_false dark⟩
  · simpa using inv.running
  · intro deleted
    have gone := inv.gone (by simpa using deleted)
    exact ⟨by simpa using gone.1, by simp, by simpa [NoneTunnels] using gone.2.2⟩

/-! ### Teardowns -/

/-- The end of a teardown, where nothing is open and nothing runs. -/
theorem Inv.torn (inv : Inv state) (closed : ∀ boot, state.opened boot = false)
    (idle : ∀ loop, ¬ (state.loops loop).Running) :
    Inv { state.runCleanup with transport := none, readTask := none } := by
  have cleaned := inv.cleaned
  refine ⟨?_, cleaned.tunnels, ?_, cleaned.failed, cleaned.plain, cleaned.unborn, ?_, ?_⟩
  · intro boot opened
    simp [closed boot] at opened
  · intro boot built _
    rw [← Bool.not_eq_true]
    intro tunnel
    have tunnelling := inv.after_cleanup tunnel
    simp only [runCleanup_builds] at built
    rw [tunnelling] at built
    cases built
  · intro loop running
    exact absurd (by simpa using running) (idle loop)
  · intro deleted
    exact ⟨rfl, (cleaned.gone deleted).2⟩

/-- A boot that is not built yet may move on, and open or lose its own tunnel. -/
theorem Inv.setBuild (inv : Inv state) {boot : Nat} {build : Build} {tunnel : Bool} (begun : Nat)
    (later : state.begun ≤ begun) (started : boot < begun)
    (unbuilt : state.builds boot ≠ .built) (unfinished : build ≠ .built)
    (lit : tunnel = true → build = .tunnelling ∨ build = .connecting true ∧
      state.cleanup = some boot)
    (alive : state.deleted = true → build ≠ .tunnelling) :
    Inv { state with
      builds := Function.update state.builds boot build
      tunnels := Function.update state.tunnels boot tunnel
      begun := begun } := by
  have apart : ∀ {other : Nat} {found : Build}, found ≠ build →
      Function.update state.builds boot build other = found → other ≠ boot := by
    intro other found different there same
    rw [same, Function.update_self] at there
    exact different there.symm
  refine ⟨?_, ?_, ?_, ?_, ?_, ?_, inv.running, ?_⟩
  · intro other opened
    obtain ⟨installed, built⟩ := inv.opened other opened
    refine ⟨installed, ?_⟩
    have different : other ≠ boot := by
      intro same
      rw [same] at built
      exact unbuilt built
    simpa [Function.update_of_ne different] using built
  · intro other tunnelled
    by_cases same : other = boot
    · subst same
      simp only [Function.update_self] at tunnelled ⊢
      cases lit tunnelled with
      | inl tunnelling => exact .inl tunnelling
      | inr registered => exact .inr registered.2
    · simp only [Function.update_of_ne same] at tunnelled ⊢
      exact inv.tunnels other tunnelled
  · intro other built bare
    have different := apart (Ne.symm unfinished) built
    simp only [Function.update_of_ne different] at built ⊢
    exact inv.built other built bare
  · intro other failed
    by_cases same : other = boot
    · subst same
      simp only [Function.update_self] at failed ⊢
      rw [← Bool.not_eq_true]
      intro tunnelled
      cases lit tunnelled with
      | inl tunnelling =>
        rw [failed] at tunnelling
        cases tunnelling
      | inr registered =>
        rw [failed] at registered
        cases registered.1
    · simp only [Function.update_of_ne same] at failed ⊢
      exact inv.failed other failed
  · intro other plain
    by_cases same : other = boot
    · subst same
      simp only [Function.update_self] at plain ⊢
      rw [← Bool.not_eq_true]
      intro tunnelled
      cases lit tunnelled with
      | inl tunnelling =>
        rw [plain] at tunnelling
        cases tunnelling
      | inr registered =>
        rw [plain] at registered
        cases registered.1
    · simp only [Function.update_of_ne same] at plain ⊢
      exact inv.plain other plain
  · intro other after
    have different : other ≠ boot := by
      intro same
      rw [same] at after
      exact absurd after (Nat.not_le_of_lt started)
    simp only [Function.update_of_ne different]
    exact inv.unborn other (Nat.le_trans later after)
  · intro deleted
    obtain ⟨bare, cleared, calm⟩ := inv.gone deleted
    refine ⟨bare, cleared, ?_⟩
    intro other
    by_cases same : other = boot
    · subst same
      simpa using alive deleted
    · simpa [Function.update_of_ne same] using calm other

theorem Inv.beginBoot (inv : Inv state) (config : Config) (closed : Bool) :
    Inv (state.beginBoot config closed) := by
  obtain ⟨unborn, dark⟩ := inv.unborn state.begun (Nat.le_refl _)
  have unbuilt : state.builds state.begun ≠ .built := by
    rw [unborn]
    simp
  unfold State.beginBoot
  split
  · exact inv
  · split
    case h_1 =>
      have begun := @Inv.setBuild state inv state.begun (.connecting false) false
        (state.begun + 1) (Nat.le_succ _) (Nat.lt_succ_self _) unbuilt (by simp) (by simp) (by simp)
      have same : Function.update state.tunnels state.begun false = state.tunnels := by
        rw [← dark]
        exact Function.update_eq_self ..
      rw [same] at begun
      exact begun
    case h_2 alive =>
      exact inv.setBuild (state.begun + 1) (Nat.le_succ _) (Nat.lt_succ_self _) unbuilt (by simp)
        (fun _ => .inl rfl) (by simp [alive])
    case h_3 => exact inv.cleaned

theorem Inv.finish (inv : Inv state) {purpose : Purpose}
    (closed : ∀ boot, state.opened boot = false) (idle : ∀ loop, ¬ (state.loops loop).Running)
    (calm : purpose = .delete → NoneTunnels state) : Inv (state.finish purpose) := by
  have torn := inv.torn closed idle
  unfold State.finish
  cases purpose with
  | reconnect config => exact torn.beginBoot config false
  | badRule => exact torn
  | delete =>
    refine ⟨torn.opened, torn.tunnels, torn.built, torn.failed, torn.plain, torn.unborn,
      torn.running, ?_⟩
    intro _
    refine ⟨rfl, by simp, ?_⟩
    intro boot
    simpa using calm rfl boot

theorem Inv.setTeardown (inv : Inv state) (teardown : Nat) (next : Teardown) :
    Inv (state.setTeardown teardown next) :=
  ⟨inv.opened, inv.tunnels, inv.built, inv.failed, inv.plain, inv.unborn, inv.running, inv.gone⟩

theorem Inv.goOn (inv : Inv state) (teardown : Nat) {purpose : Purpose}
    (calm : purpose = .delete → state.transport = none → NoneTunnels state) :
    Inv (state.goOn teardown purpose) := by
  unfold State.goOn
  split
  · exact inv.setTeardown teardown _
  case h_2 bare =>
    exact (inv.setTeardown teardown _).finish (inv.nothing_open bare) (inv.nothing_runs bare)
      fun delete => calm delete bare

theorem Inv.beginTeardown (inv : Inv state) {purpose : Purpose}
    (calm : purpose = .delete → state.transport = none → NoneTunnels state) :
    Inv (state.beginTeardown purpose) := by
  have counted : Inv { state with torn := state.torn + 1 } :=
    ⟨inv.opened, inv.tunnels, inv.built, inv.failed, inv.plain, inv.unborn, inv.running, inv.gone⟩
  unfold State.beginTeardown
  simp only
  split
  · exact counted.setTeardown _ _
  · exact counted.goOn _ calm

theorem Inv.closed (inv : Inv state) {teardown transport : Nat}
    (waiting : (state.teardowns teardown).waiting = .closing transport)
    (careful : Careful state (.closed teardown)) :
    Inv (state.step (.closed teardown)) := by
  obtain ⟨only, idle, calm⟩ := careful transport waiting
  simp only [State.step, waiting]
  have dropped : Inv { state.setTeardown teardown
      { purpose := (state.teardowns teardown).purpose, waiting := .done } with
        opened := Function.update state.opened transport false } := by
    refine ⟨?_, inv.tunnels, inv.built, inv.failed, inv.plain, inv.unborn, inv.running, inv.gone⟩
    intro boot opened
    by_cases same : boot = transport
    · subst same
      simp at opened
    · simp only [Function.update_of_ne same] at opened
      exact inv.opened boot opened
  refine dropped.finish ?_ idle calm
  intro boot
  by_cases same : boot = transport
  · subst same
    simp
  · simp only [Function.update_of_ne same]
    rw [← Bool.not_eq_true]
    exact fun opened => same (only boot opened)

/-! ### Boots -/

theorem Inv.started (inv : Inv state) {boot : Nat} (known : state.builds boot ≠ .unborn) :
    boot < state.begun :=
  Nat.lt_of_not_le fun later => known (inv.unborn boot later).1

/-- A boot on its way moves on with its tunnel as it is. -/
theorem Inv.moved (inv : Inv state) {boot : Nat} {build : Build}
    (known : state.builds boot ≠ .unborn) (unbuilt : state.builds boot ≠ .built)
    (unfinished : build ≠ .built) (calm : build ≠ .tunnelling)
    (lit : state.tunnels boot = true → build = .connecting true ∧ state.cleanup = some boot) :
    Inv (state.setBuild boot build) := by
  have moved := inv.setBuild state.begun (Nat.le_refl _) (inv.started known) unbuilt unfinished
    (fun tunnel => .inr (lit tunnel)) (fun _ => calm)
  rw [Function.update_eq_self] at moved
  exact moved

theorem Inv.tunnelReady (inv : Inv state) {boot : Nat}
    (tunnelling : state.builds boot = .tunnelling) (own : OwnCleanup state boot) :
    Inv { state.setBuild boot (.connecting true) with cleanup := some boot } := by
  have registered : Inv { state with cleanup := some boot } := by
    refine ⟨inv.opened, ?_, inv.built, inv.failed, inv.plain, inv.unborn, inv.running, ?_⟩
    · intro other tunnel
      cases inv.tunnels other tunnel with
      | inl opening => exact .inl opening
      | inr before =>
        by_cases same : other = boot
        · exact .inr (by rw [same])
        · rw [own other before same] at tunnel
          cases tunnel
    · intro deleted
      exact absurd tunnelling ((inv.gone deleted).2.2 boot)
  exact registered.moved (by simp [tunnelling]) (by simp [tunnelling]) (by simp) (by simp)
    (fun _ => ⟨rfl, rfl⟩)

/-- The boot's own tunnel is killed and the boot has failed. -/
theorem Inv.abandoned (inv : Inv state) {boot : Nat} (known : state.builds boot ≠ .unborn)
    (unbuilt : state.builds boot ≠ .built) :
    Inv ((state.setBuild boot .failed).killTunnel boot) :=
  inv.setBuild state.begun (Nat.le_refl _) (inv.started known) unbuilt (by simp) (by simp) (by simp)

theorem Inv.dialFailed (inv : Inv state) {boot : Nat}
    (careful : Careful state (.dialFailed boot)) : Inv (state.dialFailed boot) := by
  unfold State.dialFailed
  split
  case h_1 connecting =>
    have failed : Inv ((state.setBuild boot .failed).killTunnel boot) :=
      inv.abandoned (by simp [connecting]) (by simp [connecting])
    refine ⟨failed.opened, ?_, failed.built, failed.failed, failed.plain, failed.unborn,
      failed.running, ?_⟩
    · intro other tunnel
      cases failed.tunnels other tunnel with
      | inl opening => exact .inl opening
      | inr registered =>
        by_cases same : other = boot
        · rw [same] at tunnel
          simp [State.killTunnel] at tunnel
        · simp only [State.killTunnel, State.setBuild, Function.update_of_ne same] at tunnel
          rw [careful connecting other registered same] at tunnel
          cases tunnel
    · intro deleted
      exact ⟨(failed.gone deleted).1, rfl, (failed.gone deleted).2.2⟩
  case h_2 connecting =>
    apply Inv.cleaned
    apply inv.moved (by simp [connecting]) (by simp [connecting]) (by simp) (by simp)
    intro tunnel
    rw [inv.plain boot connecting] at tunnel
    cases tunnel
  case h_3 => exact inv

/-- The transport of a boot is in place where nothing else is open, registered or running. -/
theorem Inv.placed (inv : Inv state) {boot : Nat} {tunnelled : Bool}
    (connecting : state.builds boot = .connecting tunnelled) (alive : state.deleted = false)
    (closed : ∀ other, state.opened other = false) (idle : ∀ loop, ¬ (state.loops loop).Running)
    (own : OwnCleanup state boot) :
    Inv { state.setBuild boot .built with
      opened := Function.update state.opened boot true
      transport := some boot } := by
  have elsewhere : ∀ {other : Nat} {found : Build}, found ≠ .built →
      Function.update state.builds boot .built other = found → other ≠ boot := by
    intro other found different there same
    rw [same, Function.update_self] at there
    exact different there.symm
  refine ⟨?_, ?_, ?_, ?_, ?_, ?_, ?_, ?_⟩
  · intro other opened
    by_cases same : other = boot
    · subst same
      simp [State.setBuild]
    · simp only [Function.update_of_ne same] at opened
      rw [closed other] at opened
      cases opened
  · intro other tunnel
    cases inv.tunnels other tunnel with
    | inl opening =>
      have different : other ≠ boot := by
        intro same
        rw [same, connecting] at opening
        cases opening
      exact .inl (by simpa [State.setBuild, Function.update_of_ne different] using opening)
    | inr registered => exact .inr registered
  · intro other built different
    have apart : other ≠ boot := fun same => different (by rw [same])
    simp only [State.setBuild, Function.update_of_ne apart] at built
    change state.tunnels other = false
    rw [← Bool.not_eq_true]
    intro tunnel
    cases inv.tunnels other tunnel with
    | inl opening =>
      rw [built] at opening
      cases opening
    | inr registered =>
      rw [own other registered apart] at tunnel
      cases tunnel
  · intro other failed
    have apart := elsewhere (by simp) failed
    simp only [State.setBuild, Function.update_of_ne apart] at failed
    exact inv.failed other failed
  · intro other plain
    have apart := elsewhere (by simp) plain
    simp only [State.setBuild, Function.update_of_ne apart] at plain
    exact inv.plain other plain
  · intro other later
    have apart : other ≠ boot := by
      intro same
      rw [same] at later
      have unborn := (inv.unborn boot later).1
      rw [connecting] at unborn
      cases unborn
    simp only [State.setBuild, Function.update_of_ne apart]
    exact inv.unborn other later
  · intro loop running
    exact absurd running (idle loop)
  · intro deleted
    change state.deleted = true at deleted
    rw [alive] at deleted
    cases deleted

theorem Inv.install (inv : Inv state) {boot : Nat} {tunnelled : Bool}
    (connecting : state.builds boot = .connecting tunnelled) {validRules : Bool}
    (careful : Careful state (.dialed boot validRules)) : Inv (state.install boot validRules) := by
  obtain ⟨alive, closed, idle, own⟩ := careful tunnelled connecting
  have placed := inv.placed connecting alive closed idle own
  unfold State.install
  simp only
  split
  · refine ⟨placed.opened, placed.tunnels, placed.built, placed.failed, placed.plain,
      placed.unborn, ?_, placed.gone⟩
    intro loop running
    by_cases same : loop = boot
    · exact ⟨by rw [same], by simp [State.setLoop]⟩
    · simp only [State.setLoop, State.setBuild, Function.update_of_ne same] at running
      exact absurd running (idle loop)
  · apply placed.beginTeardown
    intro delete
    cases delete

/-! ### Read loops -/

/-- A loop that runs may go on, and a loop may end. -/
theorem Inv.setLoop (inv : Inv state) {loop : Nat} {phase : ReadLoop}
    (before : (state.loops loop).Running) : Inv (state.setLoop loop phase) := by
  refine ⟨inv.opened, inv.tunnels, inv.built, inv.failed, inv.plain, inv.unborn, ?_, inv.gone⟩
  intro other running
  by_cases same : other = loop
  · rw [same]
    exact inv.running loop before
  · simp only [State.setLoop, Function.update_of_ne same] at running
    exact inv.running other running

/-! ### Runs -/

theorem Inv.step (state : State) (move : Move) (inv : Inv state) (careful : Careful state move) :
    Inv (state.step move) := by
  cases move with
  | boot config closed =>
    simp only [State.step]
    split
    · exact inv
    · exact inv.beginBoot config closed
  | reconnect config =>
    simp only [State.step]
    split
    · exact inv
    · exact inv.beginTeardown fun delete => by cases delete
  | delete =>
    simp only [State.step]
    split
    · exact inv
    · exact inv.beginTeardown fun _ => careful
  | tunnelReady boot =>
    simp only [State.step]
    split
    case isTrue tunnelling => exact inv.tunnelReady tunnelling (careful tunnelling)
    · exact inv
  | tunnelFailed boot =>
    simp only [State.step]
    split
    case isTrue tunnelling =>
      exact (inv.abandoned (by simp [tunnelling]) (by simp [tunnelling])).cleaned
    · exact inv
  | dialed boot validRules =>
    simp only [State.step]
    split
    case h_1 connecting => exact inv.install connecting careful
    · exact inv
  | dialFailed boot => exact inv.dialFailed careful
  | loopStarts loop =>
    simp only [State.step]
    split
    case isTrue spawned => exact inv.setLoop (by simp [spawned, ReadLoop.Running])
    · exact inv
  | loopLeaves loop =>
    simp only [State.step]
    split
    case isTrue reading => exact inv.setLoop (by simp [reading, ReadLoop.Running])
    · exact inv
  | loopEnds loop =>
    simp only [State.step]
    split
    case isTrue ending =>
      apply inv.setLoop
      cases ending with
      | inl spawned => simp [spawned, ReadLoop.Running]
      | inr leaving => simp [leaving, ReadLoop.Running]
    · exact inv
  | joined teardown =>
    simp only [State.step]
    split
    · split
      · exact inv
      · exact inv.goOn teardown careful
    · exact inv
  | closed teardown =>
    cases waiting : (state.teardowns teardown).waiting with
    | closing transport => exact inv.closed waiting careful
    | joining loop => simpa [State.step, waiting] using inv
    | done => simpa [State.step, waiting] using inv
  | dropped transport =>
    refine ⟨?_, inv.tunnels, inv.built, inv.failed, inv.plain, inv.unborn, inv.running,
      inv.gone⟩
    intro boot opened
    by_cases same : boot = transport
    · subst same
      simp [State.step] at opened
    · simp only [State.step, Function.update_of_ne same] at opened
      exact inv.opened boot opened

theorem fresh_inv : Inv .fresh := by
  refine ⟨?_, ?_, ?_, ?_, ?_, ?_, ?_, ?_⟩ <;>
    simp [State.fresh, ReadLoop.Running]

/-- Whatever the requests and the order in which they go on, a careful run leaves nothing
open but the installed transport. -/
theorem careful_boots_leave_nothing_open (moves : List Move)
    (careful : Runs.Along State.step Careful .fresh moves) :
    Kept (moves.foldl State.step .fresh) :=
  (Runs.Along.invariant Inv.step moves fresh_inv careful).kept

/-- A bridge with a tunnel boots and is deleted. -/
theorem deleted_bridge_is_clean :
    Kept ([.boot .tunnelled false, .tunnelReady 0, .dialed 0 true, .loopStarts 0, .delete,
      .loopLeaves 0, .loopEnds 0, .joined 0, .closed 0].foldl State.step .fresh) := by
  apply careful_boots_leave_nothing_open
  refine ⟨trivial, ?ready, ?dialed, trivial, ?delete, trivial, trivial, ?joined, ?closed, trivial⟩
  case ready =>
    intro _ other registered
    cases registered
  case dialed =>
    intro _ _
    refine ⟨rfl, fun _ => rfl, fun _ => id, ?_⟩
    intro other registered apart
    exact absurd (Option.some.inj registered).symm apart
  case delete =>
    intro bare
    cases bare
  case joined =>
    intro _ bare
    cases bare
  case closed =>
    intro transport waiting
    cases waiting
    refine ⟨?_, ?_, ?_⟩
    · intro other opened
      change Function.update (fun _ => false) 0 true other = true at opened
      by_cases same : other = 0
      · exact same
      · simp [same] at opened
    · intro loop
      change ¬ (Function.update (Function.update (Function.update (Function.update
        (fun _ => ReadLoop.unborn) 0 .spawned) 0 .reading) 0 .leaving) 0 .done loop).Running
      by_cases same : loop = 0 <;> simp [same, ReadLoop.Running]
    · intro _ boot
      change Function.update (Function.update (Function.update (fun _ => Build.unborn) 0
        .tunnelling) 0 (.connecting true)) 0 .built boot ≠ .tunnelling
      by_cases same : boot = 0 <;> simp [same]

/-- Two boots pass the check before either has its transport: the second overwrites the
first, whose transport stays open under its own read loop. -/
theorem second_boot_leaks_the_first :
    ¬ Kept ([.boot .plain false, .boot .plain false, .dialed 0 true, .dialed 1 true].foldl
      State.step .fresh) := by
  intro kept
  have closed := (kept.built 0 rfl (by decide)).1
  cases closed

end Fantastic.Python.Boot

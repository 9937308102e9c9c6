import Fantastic.Python.BackendRun
import Fantastic.Python.BackendSteps

/-!
# A send ends once

Each number's own sends, runs and events change only with the moves about it. From that, and
from what one move does to one send, every send that had the lock has emitted its two final
events, and no others, when it has left; as long as nothing reaches it between them.
-/

namespace Fantastic.Python.Ai.Sending

namespace Session

variable {format : TurnFormat} {session : Session} {number other : Nat}

/-! ### What has been emitted for a send -/

/-- A final event of a send, with its own `send_id`. -/
def event (session : Session) (number : Nat) (final : Final) : Event where
  send := number
  client := (session.works number).client
  current := some number
  final := final

/-- What a run has emitted by the time it is in a stage. -/
def spoken (stage : Stage) : List Final :=
  match stage with
  | .finishing _ => [.status .ok]
  | .saving => [.status .ok, .done]
  | _ => []

/-- The events of a send so far. -/
def Emitted (session : Session) (number : Nat) (finals : List Final) : Prop :=
  session.finals number = finals.map (session.event number)

/-- Before the run. -/
structure Silent (session : Session) (number : Nat) : Prop where
  run : (session.backend.sends number).run = .unborn
  stage : (session.works number).stage = .preparing
  told : session.told number = false
  emitted : session.Emitted number []

/-- The send waits for its run. -/
structure Awaits (session : Session) (number : Nat) : Prop where
  run : (session.backend.sends number).run ≠ .unborn
  told : session.told number = false
  emitted : session.Emitted number (spoken (session.works number).stage)
  returned : (session.backend.sends number).run = .ended .returned →
    (session.works number).stage = .saving
  failed : ∀ outcome, (session.backend.sends number).run = .ended outcome →
    outcome ≠ .returned → (session.works number).stage.quiet = true

/-- The send is in an `except` branch. -/
structure Closes (session : Session) (number : Nat) : Prop where
  run : (session.backend.sends number).run ≠ .unborn
  emitted : ∃ reason, session.Emitted number
    (if session.told number then [.status reason, .done] else [.status reason])

/-- The send has left with its two events. -/
structure Ended (session : Session) (number : Nat) : Prop where
  run : (session.backend.sends number).run ≠ .unborn
  emitted : ∃ reason, session.Emitted number [.status reason, .done]

/-- How a send stands: where it and its run are, and the final events it has emitted. -/
def Stands (session : Session) (number : Nat) : Prop :=
  match (session.backend.sends number).phase with
  | .announcing | .waiting | .thinking => session.Silent number
  | .awaiting => session.Awaits number
  | .closing _ => session.Closes number
  | .left => session.Silent number ∨ session.Ended number

/-! ### What a move leaves alone -/

/-- A move changes nothing that is said of a send. -/
structure Elsewhere (session next : Session) (other : Nat) : Prop where
  sends : next.backend.sends other = session.backend.sends other
  works : next.works other = session.works other
  told : next.told other = session.told other
  finals : next.finals other = session.finals other

theorem Elsewhere.refl (session : Session) (other : Nat) : Elsewhere session session other :=
  ⟨rfl, rfl, rfl, rfl⟩

theorem Elsewhere.trans {middle next : Session} (first : Elsewhere session middle other)
    (second : Elsewhere middle next other) : Elsewhere session next other :=
  ⟨second.sends.trans first.sends, second.works.trans first.works,
    second.told.trans first.told, second.finals.trans first.finals⟩

theorem Elsewhere.emitted {next : Session} (same : Elsewhere session next other)
    {finals : List Final} (emitted : session.Emitted other finals) :
    next.Emitted other finals := by
  have events : next.event other = session.event other := by
    funext final
    simp only [event, same.works]
  rw [Emitted, same.finals, events]
  exact emitted

theorem Elsewhere.silent {next : Session} (same : Elsewhere session next other)
    (silent : session.Silent other) : next.Silent other where
  run := by
    rw [same.sends]
    exact silent.run
  stage := by
    rw [same.works]
    exact silent.stage
  told := by
    rw [same.told]
    exact silent.told
  emitted := same.emitted silent.emitted

theorem Elsewhere.stands {next : Session} (same : Elsewhere session next other)
    (stands : session.Stands other) : next.Stands other := by
  unfold Stands at stands ⊢
  rw [same.sends]
  cases phase : (session.backend.sends other).phase with
  | awaiting =>
    simp only [phase] at stands ⊢
    constructor
    · rw [same.sends]
      exact stands.run
    · rw [same.told]
      exact stands.told
    · rw [same.works]
      exact same.emitted stands.emitted
    · rw [same.sends, same.works]
      exact stands.returned
    · rw [same.sends, same.works]
      exact stands.failed
  | closing exit =>
    simp only [phase] at stands ⊢
    obtain ⟨reason, emitted⟩ := stands.emitted
    constructor
    · rw [same.sends]
      exact stands.run
    · refine ⟨reason, ?_⟩
      rw [same.told]
      exact same.emitted emitted
  | left =>
    simp only [phase] at stands ⊢
    cases stands with
    | inl silent => exact Or.inl (same.silent silent)
    | inr ended =>
      obtain ⟨reason, emitted⟩ := ended.emitted
      refine Or.inr ⟨?_, reason, same.emitted emitted⟩
      rw [same.sends]
      exact ended.run
  | announcing | waiting | thinking =>
    simp only [phase] at stands ⊢
    exact same.silent stands

theorem elsewhere_moved {move : Backend.Move}
    (apart : session.backend.subject move ≠ some other) :
    Elsewhere session (session.moved move) other :=
  ⟨Backend.step_of_ne apart, rfl, rfl, rfl⟩

theorem finals_say (session : Session) (number other : Nat) (finals : List Final) :
    (session.say number finals).finals other =
      session.finals other ++
        if number = other then
          finals.map fun final =>
            { send := number
              client := (session.works number).client
              current := session.backend.current
              final := final }
        else [] := by
  unfold Session.finals say
  rw [List.filter_append]
  congr 1
  split
  case isTrue same =>
    rw [List.filter_eq_self]
    simp [same]
  case isFalse apart =>
    rw [List.filter_eq_nil_iff]
    simp [apart]

theorem elsewhere_say (session : Session) (finals : List Final) (apart : number ≠ other) :
    Elsewhere session (session.say number finals) other := by
  refine ⟨rfl, rfl, rfl, ?_⟩
  rw [finals_say, if_neg apart, List.append_nil]

theorem elsewhere_except {move : Backend.Move} (reason : Reason) (apart : number ≠ other)
    (about : session.backend.subject move = some number) :
    Elsewhere session (session.except number reason move) other := by
  have away : (session.say number [.status reason]).backend.subject move ≠ some other := by
    intro same
    exact apart (Option.some.inj (about.symm.trans same))
  exact (elsewhere_say session _ apart).trans (elsewhere_moved away)

/-- The send that a move is about. -/
def subject (session : Session) : Move → Option Nat
  | .send _ _ _ _ => some session.backend.begun
  | .announced number | .wake number | .launch number | .advance number _ | .endRun number _
  | .deliver number | .timeout number | .cancel number | .tell number | .close number =>
    some number
  | .interrupt => session.backend.task

theorem step_of_ne {move : Move} (apart : session.subject move ≠ some other) :
    Elsewhere session (session.step format move) other := by
  cases move with
  | send client text stateless callStack =>
    have away : other ≠ session.backend.begun := fun same => apart (congrArg some same.symm)
    have moves : Elsewhere session (session.moved (.call callStack)) other :=
      elsewhere_moved apart
    exact ⟨moves.sends, Function.update_of_ne away _ _, moves.told, moves.finals⟩
  | announced number => exact elsewhere_moved apart
  | wake number => exact elsewhere_moved apart
  | launch number => exact elsewhere_moved apart
  | advance number move =>
    have away : number ≠ other := fun same => apart (congrArg some same)
    simp only [step]
    split
    case h_1 =>
      have said := elsewhere_say session ((session.works number).emits move) away
      exact ⟨said.sends, Function.update_of_ne (Ne.symm away) _ _, said.told, said.finals⟩
    case h_2 => exact Elsewhere.refl session other
  | endRun number outcome =>
    simp only [step]
    split
    · exact elsewhere_moved apart
    · exact Elsewhere.refl session other
  | deliver number =>
    have away : number ≠ other := fun same => apart (congrArg some same)
    simp only [step]
    split
    case h_1 => exact elsewhere_moved apart
    case h_2 => exact elsewhere_except _ away rfl
    case h_3 => exact elsewhere_except _ away rfl
    case h_4 => exact elsewhere_except _ away rfl
    case h_5 => exact Elsewhere.refl session other
  | timeout number =>
    have away : number ≠ other := fun same => apart (congrArg some same)
    simp only [step]
    split
    · exact elsewhere_except _ away rfl
    · exact Elsewhere.refl session other
  | cancel number =>
    have away : number ≠ other := fun same => apart (congrArg some same)
    simp only [step]
    split
    · exact elsewhere_except _ away rfl
    · exact elsewhere_moved apart
  | interrupt => exact elsewhere_moved apart
  | tell number =>
    have away : number ≠ other := fun same => apart (congrArg some same)
    simp only [step]
    split
    case h_1 =>
      have said := elsewhere_say session [.done] away
      exact ⟨said.sends, said.works, Function.update_of_ne (Ne.symm away) _ _, said.finals⟩
    case h_2 => exact Elsewhere.refl session other
  | close number =>
    simp only [step]
    split
    · exact elsewhere_moved apart
    · exact Elsewhere.refl session other

/-! ### What a move does to the send it is about -/

theorem spoken_of_quiet {stage : Stage} (quiet : stage.quiet = true) : spoken stage = [] := by
  cases stage with
  | finishing text => cases quiet
  | saving => cases quiet
  | _ => rfl

theorem advance_spoken {work next : Work} {move : RunMove}
    (goes : work.advance format move = some next) :
    spoken next.stage = spoken work.stage ++ work.emits move ∧ next.client = work.client := by
  unfold Work.advance at goes
  split at goes
  case h_6 stage =>
    split at goes
    · cases goes
      simp [spoken, Work.emits, stage]
    · cases goes
  case h_7 stage =>
    split at goes
    · cases goes
      simp [spoken, Work.emits, stage]
    · cases goes
  case h_9 => cases goes
  all_goals
    cases goes
    simp [spoken, Work.emits, *]

theorem Emitted.say {finals : List Final} (emitted : session.Emitted number finals)
    (current : session.backend.current = some number) (more : List Final) :
    (session.say number more).Emitted number (finals ++ more) := by
  rw [Emitted, finals_say, if_pos rfl, emitted, List.map_append, current]
  rfl

theorem stands_of_silent (silent : session.Silent number)
    (early : (session.backend.sends number).phase ≠ .awaiting ∧
      ∀ exit, (session.backend.sends number).phase ≠ .closing exit) :
    session.Stands number := by
  unfold Stands
  cases phase : (session.backend.sends number).phase with
  | awaiting => exact absurd phase early.1
  | closing exit => exact absurd phase (early.2 exit)
  | left => exact Or.inl silent
  | announcing | waiting | thinking => exact silent

theorem stands_of_awaits (phase : (session.backend.sends number).phase = .awaiting)
    (awaits : session.Awaits number) : session.Stands number := by
  simp only [Stands, phase]
  exact awaits

theorem stands_of_closes {exit : Exit}
    (phase : (session.backend.sends number).phase = .closing exit)
    (closes : session.Closes number) : session.Stands number := by
  simp only [Stands, phase]
  exact closes

theorem stands_of_ended (phase : (session.backend.sends number).phase = .left)
    (ended : session.Ended number) : session.Stands number := by
  simp only [Stands, phase]
  exact Or.inr ended

theorem Stands.awaits (stands : session.Stands number)
    (phase : (session.backend.sends number).phase = .awaiting) : session.Awaits number := by
  simpa only [Stands, phase] using stands

theorem Stands.closes (stands : session.Stands number) {exit : Exit}
    (phase : (session.backend.sends number).phase = .closing exit) :
    session.Closes number := by
  simpa only [Stands, phase] using stands

theorem Stands.silent (stands : session.Stands number)
    (early : (session.backend.sends number).phase = .announcing ∨
      (session.backend.sends number).phase = .waiting ∨
      (session.backend.sends number).phase = .thinking) : session.Silent number := by
  unfold Stands at stands
  obtain phase | phase | phase := early
  all_goals
    simp only [phase] at stands
    exact stands

theorem Silent.moved {move : Backend.Move} (silent : session.Silent number)
    (run : ((session.backend.step move).sends number).run = .unborn) :
    (session.moved move).Silent number :=
  ⟨run, silent.stage, silent.told, silent.emitted⟩

theorem Stands.moved_same {move : Backend.Move} (stands : session.Stands number)
    (same : (session.backend.step move).sends number = session.backend.sends number) :
    (session.moved move).Stands number :=
  Elsewhere.stands ⟨same, rfl, rfl, rfl⟩ stands

/-- What every careful move keeps. -/
structure Orderly (session : Session) : Prop where
  locking : session.backend.Locking
  tidy : session.backend.Tidy
  stands : ∀ number, session.Stands number

theorem Orderly.current_of_inside (fine : session.Orderly)
    (inside : (session.backend.sends number).phase.inside = true) :
    session.backend.current = some number := by
  rw [fine.tidy.current]
  exact (fine.locking.inside number).mp inside

theorem stands_send (fine : session.Orderly) (client : String) (text : Value) (stateless : Bool)
    (callStack : List String) :
    (session.step format (.send client text stateless callStack)).Stands
      session.backend.begun := by
  obtain ⟨phase, early, sends⟩ := fine.locking.call_self callStack
  have blank := fine.locking.unused session.backend.begun (Nat.le_refl _)
  have before : session.Silent session.backend.begun := by
    have stands := fine.stands session.backend.begun
    simp only [Stands, blank] at stands
    cases stands with
    | inl silent => exact silent
    | inr ended => exact absurd (congrArg Send.run blank) ended.run
  have after : ((session.step format (.send client text stateless callStack)).backend.sends
      session.backend.begun) = { phase := phase, run := .unborn } := sends
  apply stands_of_silent
  · constructor
    · rw [after]
    · simp only [step, Function.update_self]
      rfl
    · exact before.told
    · have nothing : session.finals session.backend.begun = [] := before.emitted
      rw [Emitted]
      exact nothing
  · rw [after]
    obtain rfl | rfl | rfl | rfl := early <;> simp

theorem stands_announced (fine : session.Orderly) (number : Nat) :
    (session.step format (.announced number)).Stands number := by
  have stands := fine.stands number
  simp only [step]
  by_cases phase : (session.backend.sends number).phase = .announcing
  · have silent := stands.silent (Or.inl phase)
    have does : session.backend.step (.announced number) = session.backend.acquire number := by
      simp only [Backend.step, phase]
    apply stands_of_silent
    · apply silent.moved
      rw [does]
      obtain sends | sends := Backend.acquire_self session.backend number
      · rw [sends]
        exact silent.run
      · rw [sends]
        exact silent.run
    · simp only [moved, does]
      obtain sends | sends := Backend.acquire_self session.backend number
      · simp [sends]
      · simp [sends]
  · apply stands.moved_same
    simp only [Backend.step]

theorem stands_wake (fine : session.Orderly) (number : Nat) :
    (session.step format (.wake number)).Stands number := by
  have stands := fine.stands number
  simp only [step]
  by_cases woken : session.backend.holder = none ∧ session.backend.waiters.head? = some number
  · have waiting := fine.locking.waits number (List.mem_of_mem_head? woken.2)
    have silent := stands.silent (Or.inr (Or.inl waiting))
    have sends : (session.backend.step (.wake number)).sends number =
        { session.backend.sends number with phase := .thinking } := by
      simp only [Backend.step, if_pos woken]
      exact Backend.setPhase_self _
    apply stands_of_silent
    · apply silent.moved
      rw [sends]
      exact silent.run
    · simp only [moved, sends]
      simp
  · apply stands.moved_same
    simp only [Backend.step, if_neg woken]

theorem stands_launch (fine : session.Orderly) (number : Nat) :
    (session.step format (.launch number)).Stands number := by
  have stands := fine.stands number
  simp only [step]
  by_cases phase : (session.backend.sends number).phase = .thinking
  · have silent := stands.silent (Or.inr (Or.inr phase))
    have sends : (session.backend.step (.launch number)).sends number =
        { phase := .awaiting, run := .executing false } := by
      simp only [Backend.step, phase]
      rw [Backend.launch_sends, Function.update_self]
    have run : ((session.moved (.launch number)).backend.sends number).run = .executing false :=
      congrArg Send.run sends
    apply stands_of_awaits (congrArg Send.phase sends)
    constructor
    · rw [run]
      simp
    · exact silent.told
    · have stage : ((session.moved (.launch number)).works number).stage = .preparing :=
        silent.stage
      rw [stage]
      exact silent.emitted
    · rw [run]
      simp
    · rw [run]
      simp
  · apply stands.moved_same
    simp only [Backend.step]

theorem Emitted.worked {finals : List Final} (emitted : session.Emitted number finals)
    {work : Work} (client : work.client = (session.works number).client) :
    ({ session with works := Function.update session.works number work } : Session).Emitted
      number finals := by
  unfold Emitted at emitted ⊢
  refine Eq.trans emitted (List.map_congr_left ?_)
  intro final _
  simp only [event, Function.update_self, client]

theorem stands_advance (fine : session.Orderly) {move : RunMove}
    (careful : session.Careful (.advance number move)) :
    (session.step format (.advance number move)).Stands number := by
  have stands := fine.stands number
  simp only [step]
  split
  case h_2 => exact stands
  case h_1 requested work executing goes =>
    obtain ⟨spoke, client⟩ := advance_spoken goes
    have emits : ∀ {finals}, session.Emitted number finals →
        (session.backend.sends number).phase ≠ .awaiting →
          ({ session.say number ((session.works number).emits move) with
            works := Function.update session.works number work } : Session).Emitted number
              finals := by
      intro finals emitted apart
      have quiet : (session.works number).emits move = [] := by
        by_contra speaks
        exact apart (careful speaks)
      rw [quiet]
      have kept : (session.say number []).Emitted number finals := by
        rw [Emitted, finals_say, if_pos rfl, List.map_nil, List.append_nil]
        exact emitted
      exact kept.worked client
    have born : (session.backend.sends number).run ≠ .unborn := by
      rw [executing]
      simp
    have loud : ¬ session.Silent number := fun silent => born silent.run
    cases phase : (session.backend.sends number).phase with
    | awaiting =>
      have awaits := stands.awaits phase
      have inside : (session.backend.sends number).phase.inside = true := by
        rw [phase]
        rfl
      have current := fine.current_of_inside inside
      refine @stands_of_awaits _ number phase ?_
      constructor
      · exact born
      · exact awaits.told
      · simp only [Function.update_self, spoke]
        exact (awaits.emitted.say current _).worked client
      · intro returned
        exact absurd (executing.symm.trans returned) (by simp)
      · intro outcome ended
        exact absurd (executing.symm.trans ended) (by simp)
    | closing exit =>
      have closes := stands.closes phase
      obtain ⟨reason, emitted⟩ := closes.emitted
      exact @stands_of_closes _ number exit phase
        ⟨born, reason, emits emitted (by rw [phase]; simp)⟩
    | left =>
      simp only [Stands, phase] at stands
      cases stands with
      | inl silent => exact absurd silent loud
      | inr ended =>
        obtain ⟨reason, emitted⟩ := ended.emitted
        exact @stands_of_ended _ number phase
          ⟨born, reason, emits emitted (by rw [phase]; simp)⟩
    | announcing => exact absurd (stands.silent (Or.inl phase)) loud
    | waiting => exact absurd (stands.silent (Or.inr (Or.inl phase))) loud
    | thinking => exact absurd (stands.silent (Or.inr (Or.inr phase))) loud

/-- Only the run of a send changes, and it has been there before. -/
theorem Stands.moved_run {move : Backend.Move} {run : Run} (stands : session.Stands number)
    (sends : (session.backend.step move).sends number =
      { session.backend.sends number with run := run })
    (born : (session.backend.sends number).run ≠ .unborn) (still : run ≠ .unborn)
    (returned : (session.backend.sends number).phase = .awaiting → run = .ended .returned →
      (session.works number).stage = .saving)
    (failed : (session.backend.sends number).phase = .awaiting →
      ∀ outcome, run = .ended outcome → outcome ≠ .returned →
        (session.works number).stage.quiet = true) :
    (session.moved move).Stands number := by
  have loud : ¬ session.Silent number := fun silent => born silent.run
  have after : (session.moved move).backend.sends number =
      { session.backend.sends number with run := run } := sends
  have phases : ((session.moved move).backend.sends number).phase =
      (session.backend.sends number).phase := by rw [after]
  have runs : ((session.moved move).backend.sends number).run = run := by rw [after]
  cases phase : (session.backend.sends number).phase with
  | awaiting =>
    have awaits := stands.awaits phase
    apply stands_of_awaits (phases.trans phase)
    constructor
    · rw [runs]
      exact still
    · exact awaits.told
    · exact awaits.emitted
    · rw [runs]
      exact returned phase
    · rw [runs]
      exact failed phase
  | closing exit =>
    have closes := stands.closes phase
    apply stands_of_closes (phases.trans phase)
    refine ⟨?_, closes.emitted⟩
    rw [runs]
    exact still
  | left =>
    simp only [Stands, phase] at stands
    cases stands with
    | inl silent => exact absurd silent loud
    | inr ended =>
      apply stands_of_ended (phases.trans phase)
      refine ⟨?_, ended.emitted⟩
      rw [runs]
      exact still
  | announcing => exact absurd (stands.silent (Or.inl phase)) loud
  | waiting => exact absurd (stands.silent (Or.inr (Or.inl phase))) loud
  | thinking => exact absurd (stands.silent (Or.inr (Or.inr phase))) loud

theorem stands_endRun (fine : session.Orderly) {outcome : RunEnd}
    (careful : session.Careful (.endRun number outcome)) :
    (session.step format (.endRun number outcome)).Stands number := by
  have stands := fine.stands number
  simp only [step]
  split
  case isFalse => exact stands
  case isTrue may =>
    cases running : (session.backend.sends number).run with
    | executing requested =>
      have sends : (session.backend.step (.endRun number outcome)).sends number =
          { session.backend.sends number with run := .ended outcome } := by
        simp only [Backend.step, running]
        exact Function.update_self _ _ _
      apply stands.moved_run sends
      · rw [running]
        simp
      · simp
      · intro phase returned
        cases returned
        simp only [Careful, if_true] at careful
        cases stage : (session.works number).stage with
        | preparing =>
          rw [stage] at careful
          exact absurd phase (careful rfl)
        | saving => rfl
        | _ => simp [mayEnd, stage] at may
      · intro _ ending same failed
        cases same
        simp only [Careful, if_neg failed] at careful
        exact careful
    | unborn =>
      apply stands.moved_same
      simp only [Backend.step, running]
    | ended earlier =>
      apply stands.moved_same
      simp only [Backend.step, running]

/-- The send enters an `except` branch while its run has emitted nothing. -/
theorem Orderly.stands_except (fine : session.Orderly) {reason : Reason} {move : Backend.Move}
    {exit : Exit} {run : Run} (phase : (session.backend.sends number).phase = .awaiting)
    (quiet : (session.works number).stage.quiet = true)
    (sends : (session.backend.step move).sends number = { phase := .closing exit, run := run })
    (born : run ≠ .unborn) : (session.except number reason move).Stands number := by
  have awaits := (fine.stands number).awaits phase
  have inside : (session.backend.sends number).phase.inside = true := by
    rw [phase]
    rfl
  have current := fine.current_of_inside inside
  have after : (session.except number reason move).backend.sends number =
      { phase := .closing exit, run := run } := sends
  have emitted := awaits.emitted
  rw [spoken_of_quiet quiet] at emitted
  apply stands_of_closes (congrArg Send.phase after)
  refine ⟨?_, reason, ?_⟩
  · rw [after]
    exact born
  · have told : (session.except number reason move).told number = false := awaits.told
    rw [told]
    exact emitted.say current [.status reason]

theorem stands_deliver (fine : session.Orderly) (number : Nat) :
    (session.step format (.deliver number)).Stands number := by
  have stands := fine.stands number
  simp only [step]
  split
  case h_1 phase ended =>
    have awaits := stands.awaits phase
    have sends : (session.moved (.deliver number)).backend.sends number =
        { phase := .left, run := .ended .returned } := by
      simp only [moved, Backend.step, phase, ended]
      exact (Backend.setPhase_self _).trans (by simp [ended])
    have emitted := awaits.emitted
    rw [awaits.returned ended] at emitted
    apply stands_of_ended (congrArg Send.phase sends)
    refine ⟨?_, .ok, emitted⟩
    rw [sends]
    simp
  case h_5 => exact stands
  all_goals
    next phase ended =>
      have awaits := stands.awaits phase
      obtain ⟨exit, sends⟩ := Backend.deliver_failed phase ended (by simp)
      exact fine.stands_except phase (awaits.failed _ ended (by simp)) sends (by simp)

theorem stands_timeout (fine : session.Orderly) (careful : session.Careful (.timeout number)) :
    (session.step format (.timeout number)).Stands number := by
  have stands := fine.stands number
  simp only [step]
  split
  case h_2 => exact stands
  case h_1 phase =>
    apply fine.stands_except phase (careful phase)
    · simp only [Backend.step, phase, Backend.setPhase, Backend.setRun, Function.update_self]
      rfl
    · exact Backend.cancel_ne_unborn (stands.awaits phase).run

/-- A send whose events are out leaves. -/
theorem Stands.moved_left {move : Backend.Move} {exit : Exit} (stands : session.Stands number)
    (phase : (session.backend.sends number).phase = .closing exit)
    (told : session.told number = true)
    (sends : (session.backend.step move).sends number =
      { session.backend.sends number with phase := .left }) :
    (session.moved move).Stands number := by
  have closes := stands.closes phase
  have after : (session.moved move).backend.sends number =
      { session.backend.sends number with phase := .left } := sends
  apply stands_of_ended (by rw [after])
  obtain ⟨reason, emitted⟩ := closes.emitted
  rw [told] at emitted
  refine ⟨?_, reason, emitted⟩
  rw [after]
  exact closes.run

theorem stands_cancel (fine : session.Orderly) (careful : session.Careful (.cancel number)) :
    (session.step format (.cancel number)).Stands number := by
  have stands := fine.stands number
  cases phase : (session.backend.sends number).phase with
  | awaiting =>
    simp only [step, phase]
    simp only [Careful, phase] at careful
    apply fine.stands_except phase careful
    · simp only [Backend.step, Backend.cancel, phase]
      exact Backend.setPhase_self _
    · exact (stands.awaits phase).run
  | closing exit =>
    simp only [step, phase]
    simp only [Careful, phase] at careful
    apply stands.moved_left phase careful
    simp only [Backend.step, Backend.cancel, phase]
    exact Backend.setPhase_self _
  | thinking =>
    simp only [Careful, phase] at careful
  | left =>
    simp only [step, phase]
    apply stands.moved_same
    simp only [Backend.step, Backend.cancel, phase]
  | announcing | waiting =>
    have silent := stands.silent (by simp [phase])
    have sends : (session.moved (.cancel number)).backend.sends number =
        { session.backend.sends number with phase := .left } := by
      simp only [moved, Backend.step, Backend.cancel, phase]
      exact Backend.setPhase_self _
    simp only [step, phase]
    apply stands_of_silent
    · apply silent.moved
      exact (congrArg Send.run sends).trans silent.run
    · rw [sends]
      simp

theorem stands_interrupt (fine : session.Orderly)
    (running : session.backend.task = some number) :
    (session.step format .interrupt).Stands number := by
  have stands := fine.stands number
  have sends : (session.backend.step .interrupt).sends number =
      { session.backend.sends number with run := (session.backend.sends number).run.cancel } := by
    simp only [Backend.step, running]
    exact Function.update_self _ _ _
  simp only [step]
  by_cases executing : session.backend.Executing number
  · have still : ∃ requested, (session.backend.sends number).run = .executing requested := by
      unfold Backend.Executing at executing
      cases run : (session.backend.sends number).run with
      | executing requested => exact ⟨requested, rfl⟩
      | _ => simp [run, Run.isExecuting] at executing
    obtain ⟨requested, run⟩ := still
    rw [run] at sends
    apply stands.moved_run sends
    · rw [run]
      simp
    · simp [Run.cancel]
    · simp [Run.cancel]
    · simp [Run.cancel]
  · apply stands.moved_same
    rw [sends, Backend.cancel_of_not_executing executing]

theorem stands_tell (fine : session.Orderly) (number : Nat) :
    (session.step format (.tell number)).Stands number := by
  have stands := fine.stands number
  simp only [step]
  split
  case h_2 => exact stands
  case h_1 exit phase told =>
    have closes := stands.closes phase
    have inside : (session.backend.sends number).phase.inside = true := by
      rw [phase]
      rfl
    have current := fine.current_of_inside inside
    obtain ⟨reason, emitted⟩ := closes.emitted
    rw [told] at emitted
    refine @stands_of_closes _ number exit phase ⟨closes.run, reason, ?_⟩
    simp only [Function.update_self]
    exact emitted.say current [.done]

theorem stands_close (fine : session.Orderly) (number : Nat) :
    (session.step format (.close number)).Stands number := by
  have stands := fine.stands number
  simp only [step]
  split
  case isFalse => exact stands
  case isTrue told =>
    cases phase : (session.backend.sends number).phase with
    | closing exit =>
      apply stands.moved_left phase told
      simp only [Backend.step, phase]
      exact Backend.setPhase_self _
    | _ =>
      apply stands.moved_same
      simp only [Backend.step, phase]

theorem Orderly.stands_step (fine : session.Orderly) {move : Move}
    (careful : session.Careful move) (number : Nat) :
    (session.step format move).Stands number := by
  by_cases about : session.subject move = some number
  · cases move with
    | send client text stateless callStack =>
      rw [← Option.some.inj about]
      exact stands_send fine client text stateless callStack
    | interrupt => exact stands_interrupt fine about
    | announced other =>
      cases about
      exact stands_announced fine number
    | wake other =>
      cases about
      exact stands_wake fine number
    | launch other =>
      cases about
      exact stands_launch fine number
    | advance other piece =>
      cases about
      exact stands_advance fine careful
    | endRun other outcome =>
      cases about
      exact stands_endRun fine careful
    | deliver other =>
      cases about
      exact stands_deliver fine number
    | timeout other =>
      cases about
      exact stands_timeout fine careful
    | cancel other =>
      cases about
      exact stands_cancel fine careful
    | tell other =>
      cases about
      exact stands_tell fine number
    | close other =>
      cases about
      exact stands_close fine number
  · exact (step_of_ne about).stands (fine.stands number)

/-! ### Runs -/

theorem Orderly.step (fine : session.Orderly) {move : Move} (careful : session.Careful move) :
    (session.step format move).Orderly := by
  have apart : ∀ number, move = .cancel number →
      (session.backend.sends number).phase ≠ .thinking := by
    intro number same thinking
    subst same
    simp only [Careful, thinking] at careful
  have stands : ∀ number, (session.step format move).Stands number := fine.stands_step careful
  obtain same | ⟨inner, does, cancels⟩ := session.step_backend format move
  · refine ⟨?_, ?_, stands⟩
    · rw [same]
      exact fine.locking
    · rw [same]
      exact fine.tidy
  · refine ⟨?_, ?_, stands⟩
    · rw [does]
      exact fine.locking.step inner
    · rw [does]
      apply fine.tidy.step fine.locking
      intro number same
      exact apart number (cancels number same)

theorem fresh_orderly (id : String) : (fresh id).Orderly where
  locking := Backend.fresh_locking id
  tidy := ⟨rfl, Or.inl rfl⟩
  stands := fun _ => Or.inl ⟨rfl, rfl, rfl, rfl⟩

/-- The send has taken the lock. -/
def Admitted (session : Session) (number : Nat) : Prop :=
  (session.backend.sends number).phase.inside = true ∨
    (session.backend.sends number).run ≠ .unborn

theorem Orderly.admitted_step (fine : session.Orderly) {move : Move}
    (careful : session.Careful move) (admitted : session.Admitted number) :
    (session.step format move).Admitted number := by
  obtain same | ⟨inner, does, cancels⟩ := session.step_backend format move
  · unfold Admitted
    rw [same]
    exact admitted
  · unfold Admitted at admitted ⊢
    rw [does]
    have change := fine.locking.step_change inner number
    by_contra gone
    rw [not_or, not_not] at gone
    have unborn := change.run_unborn gone.2
    have inside := admitted.resolve_right (not_not.mpr unborn)
    have stands := fine.stands number
    cases phase : (session.backend.sends number).phase with
    | thinking =>
      have apart : inner ≠ .cancel number := by
        intro same
        have outer := cancels number same
        subst outer
        simp only [Careful, phase] at careful
      cases change.thinking phase apart with
      | inl still => exact gone.1 (by rw [still]; rfl)
      | inr born => exact born gone.2
    | awaiting => exact (stands.awaits phase).run unborn
    | closing exit => exact (stands.closes phase).run unborn
    | announcing | waiting | left => simp [phase, SendPhase.inside] at inside

theorem Orderly.run (fine : session.Orderly) (moves : List Move)
    (careful : Runs.Along (Session.step format) Careful session moves) :
    (session.run format moves).Orderly :=
  Runs.Along.invariant (fun _ _ here calm => here.step calm) moves fine careful

theorem Orderly.admitted_run (fine : session.Orderly) (moves : List Move)
    (careful : Runs.Along (Session.step format) Careful session moves)
    (admitted : session.Admitted number) : (session.run format moves).Admitted number := by
  have both : ∀ state move, (state.Orderly ∧ state.Admitted number) → Careful state move →
      (state.step format move).Orderly ∧ (state.step format move).Admitted number :=
    fun _ _ here calm => ⟨here.1.step calm, here.1.admitted_step calm here.2⟩
  exact (Runs.Along.invariant both moves ⟨fine, admitted⟩ careful).2

/-- The send is over: it has emitted one `status` of phase `done` and one `done`, in this order
and to its own client, and the backend does not hold it any more. -/
structure EndedOnce (session : Session) (number : Nat) : Prop where
  events : ∃ reason, session.finals number =
    [.status reason, .done].map (session.event number)
  current : session.backend.current ≠ some number
  task : session.backend.task ≠ some number

/-- A send that has had the lock and has left has ended once, in every run in which nothing
comes between the final events. -/
theorem careful_runs_end_once (format : TurnFormat) (id : String) (earlier later : List Move)
    (careful : Runs.Along (step format) Careful (fresh id) (earlier ++ later)) (number : Nat)
    (locked : (((fresh id).run format earlier).backend.sends number).phase.inside = true)
    (left : (((fresh id).run format (earlier ++ later)).backend.sends number).phase = .left) :
    ((fresh id).run format (earlier ++ later)).EndedOnce number := by
  obtain ⟨first, second⟩ := (Runs.along_append earlier later _).mp careful
  have middle := (fresh_orderly id).run earlier first
  have split : (fresh id).run format (earlier ++ later) =
      ((fresh id).run format earlier).run format later := List.foldl_append
  rw [split] at left ⊢
  have fine := middle.run later second
  have admitted := middle.admitted_run later second (Or.inl locked)
  have ended : (((fresh id).run format earlier).run format later).Ended number := by
    have stands := fine.stands number
    simp only [Stands, left] at stands
    cases stands with
    | inr ended => exact ended
    | inl silent =>
      unfold Admitted at admitted
      simp [left, silent.run, SendPhase.inside] at admitted
  have apart : (((fresh id).run format earlier).run format later).backend.holder ≠
      some number := by
    intro held
    have inside := (fine.locking.inside number).mpr held
    simp [left, SendPhase.inside] at inside
  refine ⟨ended.emitted, ?_, ?_⟩
  · rw [fine.tidy.current]
    exact apart
  · cases fine.tidy.task with
    | inl none =>
      rw [none]
      simp
    | inr same =>
      rw [same]
      exact apart

def listCall : ToolCall where
  id := .str "call_1"
  name := .str "send"
  arguments := .dict [("target_id", .str "kernel_state")]

def beginning : List Move :=
  [.send "ada" (.str "hi") false [], .launch 0]

def oneToolRound : List Move :=
  [.advance 0 .begin, .advance 0 (.toolCall listCall), .advance 0 .endStream,
    .advance 0 (.reply 0 .null), .advance 0 .gathered, .advance 0 (.chunk "hello"),
    .advance 0 .endStream, .advance 0 .sayDone, .endRun 0 .returned, .deliver 0]

/-- A send with one round of tools ends once. -/
theorem tool_round_ends_once :
    ((fresh "ai").run plainFormat (beginning ++ oneToolRound)).EndedOnce 0 :=
  careful_runs_end_once plainFormat "ai" beginning oneToolRound (by decide) 0 (by decide)
    (by decide)

/-- The context is too small, or the strategy unknown: the run returns before its loop, and the
send leaves without a word. -/
theorem refused_run_ends_without_events :
    (((fresh "ai").run plainFormat beginning).backend.sends 0).phase.inside = true ∧
      (((fresh "ai").run plainFormat
        (beginning ++ [.endRun 0 .returned, .deliver 0])).backend.sends 0).phase = .left ∧
      ((fresh "ai").run plainFormat
        (beginning ++ [.endRun 0 .returned, .deliver 0])).finals 0 = [] ∧
      ¬ ((fresh "ai").run plainFormat
        (beginning ++ [.endRun 0 .returned, .deliver 0])).EndedOnce 0 := by
  have silent : ((fresh "ai").run plainFormat
      (beginning ++ [.endRun 0 .returned, .deliver 0])).finals 0 = [] := by decide
  refine ⟨by decide, by decide, silent, ?_⟩
  intro ended
  obtain ⟨reason, emitted⟩ := ended.events
  rw [silent] at emitted
  cases emitted

end Session

end Fantastic.Python.Ai.Sending

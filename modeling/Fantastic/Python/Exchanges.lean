import Fantastic.Python.BackendSteps
import Fantastic.Python.BackendRun

/-!
# The exchange a run builds

The turns that `_run` collects are at every stage whole rounds, but for one round of tool calls
that is still gathered; at the end they are one exchange. Sends take the lock in an order, and
the one that has it took it last.
-/

namespace Fantastic.Python.Ai.Sending

/-- An assistant turn with its tool calls, and what each of them came to. -/
structure Round where
  text : String
  calls : List (ToolCall × Value)
  some : calls ≠ []

/-- A user turn, rounds of tools, and the assistant's last word. -/
structure Exchange where
  text : Value
  rounds : List Round
  final : String

variable {format : TurnFormat}

/-- One assistant turn with `n` tool calls, and then the `n` tool turns of these calls. -/
def Round.turns (format : TurnFormat) (round : Round) : List Value :=
  format.assistantTurn round.text (round.calls.map Prod.fst) ::
    round.calls.map fun done => format.toolTurn done.1 done.2

def Exchange.turns (format : TurnFormat) (exchange : Exchange) : List Value :=
  TurnFormat.userTurn exchange.text ::
    (exchange.rounds.flatMap (Round.turns format) ++ [TurnFormat.finalTurn exchange.final])

/-- The user turn and whole rounds. -/
def Work.Rounds (format : TurnFormat) (work : Work) (turns : List Value) : Prop :=
  ∃ rounds : List Round,
    turns = TurnFormat.userTurn work.text :: rounds.flatMap (Round.turns format)

/-- What the turns of a run are, by its stage. -/
def Work.Building (format : TurnFormat) (work : Work) : Prop :=
  match work.stage with
  | .preparing => work.newTurns = []
  | .streaming _ _ | .finishing _ => work.Rounds format work.newTurns
  | .calling calls replies =>
    ∃ text turns, work.Rounds format turns ∧
      work.newTurns = turns ++ [format.assistantTurn text calls] ∧
        replies.length = calls.length ∧ calls ≠ []
  | .saving => ∃ exchange : Exchange,
      exchange.text = work.text ∧ work.newTurns = exchange.turns format

theorem start_building (client : String) (text : Value) (stateless : Bool) :
    (Work.start client text stateless).Building format := rfl

theorem gathered_length {replies : List (Option Value)} (whole : replies.all Option.isSome = true) :
    (replies.filterMap id).length = replies.length := by
  induction replies with
  | nil => rfl
  | cons reply replies ih =>
    rw [List.all_cons, Bool.and_eq_true] at whole
    obtain ⟨value, rfl⟩ := Option.isSome_iff_exists.mp whole.1
    have kept : (some value :: replies).filterMap id = value :: replies.filterMap id := rfl
    rw [kept, List.length_cons, List.length_cons, ih whole.2]

theorem Work.Building.advance {work next : Work} {move : RunMove} (building : work.Building format)
    (goes : work.advance format move = some next) : next.Building format := by
  unfold Work.advance at goes
  split at goes
  case h_1 stage =>
    cases goes
    exact ⟨[], rfl⟩
  case h_2 parts calls stage =>
    cases goes
    simp only [Work.Building, stage] at building ⊢
    exact building
  case h_3 call parts calls stage =>
    cases goes
    simp only [Work.Building, stage] at building ⊢
    exact building
  case h_4 parts stage =>
    cases goes
    simp only [Work.Building, stage] at building ⊢
    exact building
  case h_5 parts call calls stage =>
    cases goes
    simp only [Work.Building, stage] at building ⊢
    exact ⟨String.join parts, work.newTurns, building, rfl, by simp, by simp⟩
  case h_6 slot reply calls replies stage =>
    split at goes
    case h_1 =>
      cases goes
      simp only [Work.Building, stage, List.length_set] at building ⊢
      exact building
    case h_2 => cases goes
  case h_7 calls replies stage =>
    split at goes
    case isFalse => cases goes
    case isTrue whole =>
      cases goes
      simp only [Work.Building, stage] at building ⊢
      obtain ⟨text, turns, ⟨rounds, begun⟩, collected, size, nonempty⟩ := building
      have lengths : (replies.filterMap id).length = calls.length :=
        (gathered_length whole).trans size
      have firsts : (calls.zip (replies.filterMap id)).map Prod.fst = calls :=
        List.map_fst_zip (Nat.le_of_eq lengths.symm)
      have some : calls.zip (replies.filterMap id) ≠ [] := by
        intro nothing
        rw [nothing] at firsts
        exact nonempty firsts.symm
      refine ⟨rounds ++ [⟨text, calls.zip (replies.filterMap id), some⟩], ?_⟩
      rw [collected, begun, List.flatMap_append, List.flatMap_singleton]
      simp only [Round.turns, firsts]
      simp
  case h_8 text stage =>
    cases goes
    simp only [Work.Building, stage] at building ⊢
    obtain ⟨rounds, begun⟩ := building
    refine ⟨⟨work.text, rounds, text⟩, rfl, ?_⟩
    rw [begun]
    rfl
  case h_9 => cases goes

namespace Session

variable {session : Session} {number : Nat}

/-- Every run of the session is at some stage of an exchange. -/
def Collecting (format : TurnFormat) (session : Session) : Prop :=
  ∀ number, (session.works number).Building format

theorem Collecting.step (collecting : session.Collecting format) (move : Move) :
    (session.step format move).Collecting format := by
  intro other
  cases move with
  | send client text stateless callStack =>
    simp only [Session.step, Function.update_apply]
    split
    · exact start_building client text stateless
    · exact collecting other
  | advance number piece =>
    simp only [Session.step]
    split
    case h_1 requested work executing goes =>
      simp only [Function.update_apply]
      split
      case isTrue same =>
        rw [same] at *
        exact (collecting number).advance goes
      case isFalse => exact collecting other
    case h_2 => exact collecting other
  | announced number | wake number | launch number | interrupt => exact collecting other
  | endRun number outcome | close number =>
    simp only [Session.step]
    split <;> exact collecting other
  | deliver number | timeout number | cancel number | tell number =>
    simp only [Session.step]
    split <;> exact collecting other

/-! ### The order of the lock -/

/-- Who holds the lock took it last, and nobody takes it twice. -/
structure InOrder (session : Session) : Prop where
  locking : session.backend.Locking
  idle : ∀ number, (session.backend.sends number).phase = .announcing ∨
    (session.backend.sends number).phase = .waiting ∨
      (session.backend.sends number).phase = .thinking →
        (session.backend.sends number).run = .unborn
  last : ∀ number, session.backend.holder = some number →
    ∃ front, session.admitted = front ++ [number]
  past : ∀ number ∈ session.admitted, number < session.backend.begun ∧
    (session.backend.sends number).phase ≠ .announcing ∧
      (session.backend.sends number).phase ≠ .waiting

theorem InOrder.moved (order : session.InOrder) (move : Backend.Move) :
    (session.moved move).InOrder := by
  have locking := order.locking.step move
  have idle := fun number =>
    (order.locking.step_change move number).idle (order.idle number)
  have later := Backend.begun_le session.backend move
  have old : ∀ number ∈ session.admitted, number ≠ session.backend.begun := by
    intro number entered
    have := (order.past number entered).1
    omega
  have kept : ∀ number ∈ session.admitted, number < (session.backend.step move).begun ∧
      ((session.backend.step move).sends number).phase ≠ .announcing ∧
        ((session.backend.step move).sends number).phase ≠ .waiting := by
    intro number entered
    obtain ⟨bound, queued⟩ := order.past number entered
    have change := order.locking.step_change move number
    exact ⟨by omega, change.not_queued (old number entered) queued⟩
  cases held : (session.backend.step move).holder with
  | none =>
    refine ⟨locking, idle, ?_, ?_⟩
    · intro number holds
      rw [Session.moved, held] at holds
      cases holds
    · simp only [Session.moved, held]
      exact kept
  | some taker =>
    have inside := (locking.inside taker).mpr held
    by_cases entered : taker ∈ session.admitted
    · have change := order.locking.step_change move taker
      have before := change.was_inside (old taker entered) (order.past taker entered).2 inside
      refine ⟨locking, idle, ?_, ?_⟩
      · intro number holds
        simp only [Session.moved, held, Option.some.injEq, if_pos entered] at holds ⊢
        rw [← holds]
        exact order.last taker ((order.locking.inside taker).mp before)
      · simp only [Session.moved, held, if_pos entered]
        exact kept
    · refine ⟨locking, idle, ?_, ?_⟩
      · intro number holds
        simp only [Session.moved, held, Option.some.injEq, if_neg entered] at holds ⊢
        exact ⟨session.admitted, by rw [holds]⟩
      · simp only [Session.moved, held, if_neg entered]
        intro number listed
        rw [List.mem_append, List.mem_singleton] at listed
        cases listed with
        | inl before => exact kept number before
        | inr new =>
          rw [new]
          have busy : ((session.backend.step move).sends taker).phase ≠ .left := by
            intro left
            simp [left, SendPhase.inside] at inside
          refine ⟨locking.bound busy, ?_, ?_⟩
          · intro announcing
            simp [announcing, SendPhase.inside] at inside
          · intro waiting
            simp [waiting, SendPhase.inside] at inside

theorem InOrder.say (order : session.InOrder) (number : Nat) (finals : List Final) :
    (session.say number finals).InOrder :=
  ⟨order.locking, order.idle, order.last, order.past⟩

theorem InOrder.step (order : session.InOrder) (move : Move) :
    (session.step format move).InOrder := by
  cases move with
  | send client text stateless callStack =>
    have moved := order.moved (.call callStack)
    exact ⟨moved.locking, moved.idle, moved.last, moved.past⟩
  | announced number => exact order.moved _
  | wake number => exact order.moved _
  | launch number => exact order.moved _
  | interrupt => exact order.moved _
  | advance number piece =>
    simp only [Session.step]
    split
    · exact ⟨order.locking, order.idle, order.last, order.past⟩
    · exact order
  | tell number =>
    simp only [Session.step]
    split
    · exact ⟨order.locking, order.idle, order.last, order.past⟩
    · exact order
  | endRun number outcome =>
    simp only [Session.step]
    split
    · exact order.moved _
    · exact order
  | close number =>
    simp only [Session.step]
    split
    · exact order.moved _
    · exact order
  | deliver number =>
    simp only [Session.step]
    split
    case h_1 => exact order.moved _
    case h_5 => exact order
    all_goals exact (order.say _ _).moved _
  | timeout number =>
    simp only [Session.step]
    split
    · exact (order.say _ _).moved _
    · exact order
  | cancel number =>
    simp only [Session.step]
    split
    · exact (order.say _ _).moved _
    · exact order.moved _

theorem fresh_inOrder (id : String) : (fresh id).InOrder where
  locking := Backend.fresh_locking id
  idle := fun _ _ => rfl
  last := by
    intro number held
    cases held
  past := by
    intro number entered
    cases entered

/-! ### What does not change any more -/

theorem moved_admitted (session : Session) (move : Backend.Move) :
    session.admitted <+: (session.moved move).admitted := by
  simp only [Session.moved]
  split
  · split
    · exact List.prefix_rfl
    · exact List.prefix_append _ _
  · exact List.prefix_rfl

theorem step_admitted (session : Session) (move : Move) :
    session.admitted <+: (session.step format move).admitted := by
  cases move with
  | send client text stateless callStack => exact moved_admitted session _
  | announced number | wake number | launch number | interrupt => exact moved_admitted session _
  | advance number piece | tell number =>
    simp only [Session.step]
    split <;> exact List.prefix_rfl
  | endRun number outcome | close number =>
    simp only [Session.step]
    split
    · exact moved_admitted session _
    · exact List.prefix_rfl
  | deliver number =>
    simp only [Session.step]
    split
    case h_1 => exact moved_admitted session _
    case h_5 => exact List.prefix_rfl
    all_goals exact moved_admitted (session.say _ _) _
  | timeout number =>
    simp only [Session.step]
    split
    · exact moved_admitted (session.say _ _) _
    · exact List.prefix_rfl
  | cancel number =>
    simp only [Session.step]
    split
    · exact moved_admitted (session.say _ _) _
    · exact moved_admitted session _

/-- The run of a send is over, after its last turn. -/
structure Complete (session : Session) (number : Nat) : Prop where
  bound : number < session.backend.begun
  stage : (session.works number).stage = .saving
  ended : ∃ outcome, (session.backend.sends number).run = .ended outcome

theorem advance_saving {work : Work} (saving : work.stage = .saving) (move : RunMove) :
    work.advance format move = none := by
  unfold Work.advance
  rw [saving]
  cases move <;> rfl

theorem Complete.works (complete : session.Complete number) (move : Move) :
    (session.step format move).works number = session.works number := by
  cases move with
  | send client text stateless callStack =>
    have apart : number ≠ session.backend.begun := by
      have := complete.bound
      omega
    exact Function.update_of_ne apart _ _
  | advance other piece =>
    simp only [Session.step]
    split
    case h_1 requested work executing goes =>
      have apart : number ≠ other := by
        intro same
        subst same
        rw [advance_saving complete.stage] at goes
        cases goes
      exact Function.update_of_ne apart _ _
    case h_2 => rfl
  | announced other | wake other | launch other | interrupt => rfl
  | endRun other outcome | close other =>
    simp only [Session.step]
    split <;> rfl
  | deliver other | timeout other | cancel other | tell other =>
    simp only [Session.step]
    split <;> rfl

theorem Complete.step (complete : session.Complete number) (order : session.InOrder)
    (move : Move) : (session.step format move).Complete number := by
  have stage : ((session.step format move).works number).stage = .saving := by
    rw [complete.works]
    exact complete.stage
  obtain ⟨outcome, ended⟩ := complete.ended
  obtain same | ⟨inner, does, _⟩ := session.step_backend format move
  · refine ⟨?_, stage, outcome, ?_⟩
    · rw [same]
      exact complete.bound
    · rw [same]
      exact ended
  · refine ⟨?_, stage, outcome, ?_⟩
    · rw [does]
      exact Nat.lt_of_lt_of_le complete.bound (Backend.begun_le _ _)
    · rw [does]
      exact (order.locking.step_change inner number).ended (order.idle number) ended

end Session

end Fantastic.Python.Ai.Sending

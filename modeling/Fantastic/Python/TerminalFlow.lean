import Fantastic.Ts.TerminalView

/-!
# Flow control of a terminal session

The counter of `terminal_backend/tools.py`: `_on_readable`, `_ack`, `_clear_flow_control` and
the verbs that spawn, clear or clean up, with a view that gets each output event, parses them
in order and acknowledges what it parsed. `_on_readable` counts a chunk in the step that
creates its event, so no ack is ahead of what it answers.

Everything an `output` event goes through on its way to xterm is one queue, and the acks on
their way back are a number. A session that is not there answers an ack with an error.
-/

namespace Fantastic.Python.Terminal

open Ts (TerminalView unitLength ackSize)

/-- `HIGH_WATERMARK`. -/
def highWatermark : Nat := 100000

/-- `LOW_WATERMARK`. -/
def lowWatermark : Nat := 5000

/-- What `_procs` holds of the flow; `attached` is `reader_attached`. -/
structure Session where
  unacked : Nat
  paused : Bool
  attached : Bool
  deriving DecidableEq

namespace Session

/-- `_spawn`, which attaches the reader. -/
def spawned : Session where
  unacked := 0
  paused := false
  attached := true

/-- `_attach_reader`. -/
def attachReader (session : Session) : Session :=
  { session with attached := true }

/-- `_detach_reader`. -/
def detachReader (session : Session) : Session :=
  { session with attached := false }

/-- The end of `_on_readable`: a chunk is counted, and the reader paused unless a `shell` call
is in flight. -/
def onReadable (session : Session) (pendingTokens : List String) (text : String) : Session :=
  let counted := { session with unacked := session.unacked + text.length }
  if pendingTokens = [] ∧ counted.paused = false ∧ highWatermark < counted.unacked then
    { counted with paused := true }.detachReader
  else counted

/-- `_ack`. -/
def ack (session : Session) (chars : Int) : Session :=
  let counted := { session with unacked := (session.unacked - chars).toNat }
  if counted.paused && decide (counted.unacked < lowWatermark) then
    { counted with paused := false }.attachReader
  else counted

/-- `_clear_flow_control`. -/
def clearFlowControl (session : Session) : Session :=
  let cleared := { session with unacked := 0 }
  if cleared.paused then { cleared with paused := false }.attachReader else cleared

end Session

/-- The backend, the view, the events the view has not parsed and the acks not yet handled. -/
structure State where
  session : Option Session
  pendingTokens : List String
  view : TerminalView
  unparsed : List String
  acks : Nat

inductive Move where
  | readable (text : String)
  | eof
  /-- An `ack` call of somebody else. -/
  | ack (chars : Int)
  | boot
  /-- A `shell` call up to its write, and its `finally` block. -/
  | shell (token : String)
  | shellEnd (token : String)
  | restart
  | stop
  /-- xterm's callback for the next event. -/
  | parsed
  /-- The next ack of the view is handled. -/
  | acked
  deriving DecidableEq

namespace State

def fresh : State where
  session := none
  pendingTokens := []
  view := .fresh
  unparsed := []
  acks := 0

/-- A reader that is detached is not called. -/
def readable (state : State) (text : String) : State :=
  match state.session with
  | none => state
  | some session =>
    if session.attached then
      { state with
        session := some (session.onReadable state.pendingTokens text)
        unparsed := state.unparsed ++ [text] }
    else state

def step (state : State) : Move → State
  | .readable text => state.readable text
  | .eof => if state.session.any Session.attached then { state with session := none } else state
  | .ack chars => { state with session := state.session.map (·.ack chars) }
  | .boot => { state with session := some (state.session.getD .spawned).clearFlowControl }
  | .shell token =>
    match state.session with
    | none => state
    | some session =>
      { state with
        session := some session.clearFlowControl
        pendingTokens := token :: state.pendingTokens }
  | .shellEnd token =>
    { state with
      session := state.session.map Session.clearFlowControl
      pendingTokens := state.pendingTokens.filter fun other => decide (other ≠ token) }
  | .restart => { state with session := some .spawned }
  | .stop => { state with session := none }
  | .parsed =>
    match state.unparsed with
    | [] => state
    | text :: rest =>
      let answered := state.view.ackChars (unitLength text)
      { state with
        view := answered.1
        unparsed := rest
        acks := state.acks + answered.2 }
  | .acked =>
    if state.acks = 0 then state
    else
      { state with
        session := state.session.map (·.ack ackSize)
        acks := state.acks - 1 }

def run (state : State) (moves : List Move) : State :=
  moves.foldl step state

end State

/-! ### A paused reader has a backlog -/

structure Session.Sound (session : Session) : Prop where
  backlog : session.paused = true → lowWatermark ≤ session.unacked
  reader : session.attached = true ↔ session.paused = false

def Sound (state : State) : Prop :=
  ∀ session, state.session = some session → session.Sound

namespace Session

variable {session : Session}

theorem spawned_sound : Session.spawned.Sound := by
  constructor
  · intro paused
    cases paused
  · exact iff_of_true rfl rfl

theorem Sound.onReadable (sound : session.Sound) (pendingTokens : List String) (text : String)
    (attached : session.attached = true) : (session.onReadable pendingTokens text).Sound := by
  have running := sound.reader.mp attached
  unfold Session.onReadable
  dsimp only
  split
  case isTrue crossed =>
      constructor
      · intro _
        exact Nat.le_trans (by decide) (Nat.le_of_lt crossed.2.2)
      · exact iff_of_false Bool.false_ne_true Bool.noConfusion
  case isFalse =>
      constructor
      · intro paused
        exact absurd paused (ne_true_of_eq_false running)
      · exact sound.reader

theorem Sound.ack (sound : session.Sound) (chars : Int) : (session.ack chars).Sound := by
  unfold Session.ack
  simp only [Bool.and_eq_true, decide_eq_true_eq]
  split
  case isTrue =>
      constructor
      · intro paused
        cases paused
      · exact iff_of_true rfl rfl
  case isFalse waits =>
      constructor
      · intro paused
        exact Nat.le_of_not_lt fun low => waits ⟨paused, low⟩
      · exact sound.reader

theorem Sound.clear (sound : session.Sound) : session.clearFlowControl.Sound := by
  unfold clearFlowControl
  dsimp only
  split
  case isTrue =>
      constructor
      · intro paused
        cases paused
      · exact iff_of_true rfl rfl
  case isFalse running =>
      constructor
      · intro paused
        exact absurd paused running
      · exact sound.reader

end Session

theorem Sound.step {state : State} (sound : Sound state) (move : Move) :
    Sound (state.step move) := by
  have mapped {change : Session → Session} (kept : ∀ session, session.Sound → (change session).Sound)
      (session : Session) (here : state.session.map change = some session) : session.Sound := by
    obtain ⟨before, there, same⟩ := Option.map_eq_some_iff.mp here
    exact same ▸ kept before (sound before there)
  cases move with
  | readable text =>
    unfold State.step State.readable
    dsimp only
    split
    case h_1 => exact sound
    case h_2 before there =>
        split
        case isTrue attached =>
            intro session here
            cases here
            exact (sound before there).onReadable _ _ attached
        case isFalse => exact sound
  | eof =>
    unfold State.step
    dsimp only
    split
    · intro session here
      cases here
    · exact sound
  | ack chars => exact mapped fun session sound => sound.ack chars
  | boot =>
    intro session here
    cases here
    cases there : state.session with
    | none => exact Session.spawned_sound.clear
    | some before => exact (sound before there).clear
  | shell token =>
    unfold State.step
    dsimp only
    split
    case h_1 => exact sound
    case h_2 before there =>
        intro session here
        cases here
        exact (sound before there).clear
  | shellEnd token => exact mapped fun session sound => sound.clear
  | restart =>
    intro session here
    cases here
    exact Session.spawned_sound
  | stop =>
    intro session here
    cases here
  | parsed =>
    unfold State.step
    dsimp only
    split <;> exact sound
  | acked =>
    unfold State.step
    dsimp only
    split
    · exact sound
    · exact mapped fun session sound => sound.ack ackSize

/-! ### What the view still owes covers the backlog -/

/-- The units the backend has not been acked for, wherever they are. -/
def outstanding (state : State) : Nat :=
  (state.unparsed.map unitLength).sum + state.view.unsentAck + ackSize * state.acks

def Covered (state : State) : Prop :=
  ∀ session, state.session = some session → session.unacked ≤ outstanding state

theorem clear_unacked (session : Session) : session.clearFlowControl.unacked = 0 := by
  unfold Session.clearFlowControl
  dsimp only
  split <;> rfl

theorem ack_unacked (session : Session) (chars : Int) :
    (session.ack chars).unacked = (session.unacked - chars).toNat := by
  unfold Session.ack
  dsimp only
  split <;> rfl

theorem onReadable_unacked (session : Session) (pendingTokens : List String) (text : String) :
    (session.onReadable pendingTokens text).unacked = session.unacked + text.length := by
  unfold Session.onReadable
  dsimp only
  split <;> rfl

/-- An ack of a count of characters. -/
def Counts : Move → Prop
  | .ack chars => 0 ≤ chars
  | _ => True

theorem Covered.step {state : State} (covered : Covered state) {move : Move}
    (counts : Counts move) : Covered (state.step move) := by
  have cleared {session before : Session} (same : before.clearFlowControl = session)
      (bound : Nat) : session.unacked ≤ bound := by
    rw [← same, clear_unacked]
    exact Nat.zero_le bound
  cases move with
  | readable text =>
    unfold State.step State.readable
    dsimp only
    split
    case h_1 => exact covered
    case h_2 before there =>
        split
        case isTrue =>
            intro session here
            cases here
            have bound := covered before there
            have units := Ts.length_le_unitLength text
            rw [onReadable_unacked]
            simp only [outstanding, List.map_append, List.sum_append, List.map_cons,
              List.map_nil, List.sum_cons, List.sum_nil] at bound ⊢
            omega
        case isFalse => exact covered
  | eof =>
    unfold State.step
    dsimp only
    split
    · intro session here
      cases here
    · exact covered
  | ack chars =>
    intro session here
    obtain ⟨before, there, same⟩ := Option.map_eq_some_iff.mp here
    have bound := covered before there
    have positive : 0 ≤ chars := counts
    rw [← same, ack_unacked]
    exact Nat.le_trans (by omega) bound
  | boot =>
    intro session here
    exact cleared (Option.some.inj here) _
  | shell token =>
    unfold State.step
    dsimp only
    split
    case h_1 => exact covered
    case h_2 =>
        intro session here
        exact cleared (Option.some.inj here) _
  | shellEnd token =>
    intro session here
    obtain ⟨before, _, same⟩ := Option.map_eq_some_iff.mp here
    exact cleared same _
  | restart =>
    intro session here
    cases here
    exact Nat.zero_le _
  | stop =>
    intro session here
    cases here
  | parsed =>
    unfold State.step
    dsimp only
    split
    case h_1 => exact covered
    case h_2 text rest queue =>
        intro session here
        have bound := covered session here
        have total := state.view.ackChars_total (unitLength text)
        simp only [outstanding, queue, List.map_cons, List.sum_cons, Nat.mul_add] at bound ⊢
        omega
  | acked =>
    unfold State.step
    dsimp only
    split
    case isTrue => exact covered
    case isFalse some' =>
        intro session here
        obtain ⟨before, there, same⟩ := Option.map_eq_some_iff.mp here
        have bound := covered before there
        have one : ackSize * state.acks = ackSize * (state.acks - 1) + ackSize := by
          rw [← Nat.mul_succ, Nat.succ_eq_add_one, Nat.sub_add_cancel (Nat.pos_of_ne_zero some')]
        rw [← same, ack_unacked]
        simp only [outstanding, one] at bound ⊢
        omega

/-! ### Runs -/

/-- No session, or one just spawned; the view may still be busy with an earlier one. -/
def Begins (state : State) : Prop :=
  state.session = none ∨ state.session = some .spawned

/-- The view has parsed everything emitted and all its acks are handled. -/
def Quiet (state : State) : Prop :=
  state.unparsed = [] ∧ state.acks = 0

theorem Begins.sound {state : State} (begins : Begins state) : Sound state := by
  intro session here
  cases begins with
  | inl absent =>
    rw [absent] at here
    cases here
  | inr spawned =>
    rw [spawned] at here
    cases here
    exact Session.spawned_sound

theorem Begins.covered {state : State} (begins : Begins state) : Covered state := by
  intro session here
  cases begins with
  | inl absent =>
    rw [absent] at here
    cases here
  | inr spawned =>
    rw [spawned] at here
    cases here
    exact Nat.zero_le _

theorem sound_run (moves : List Move) : ∀ state, Sound state → Sound (state.run moves) := by
  induction moves with
  | nil =>
    intro state sound
    exact sound
  | cons move moves ih =>
    intro state sound
    exact ih _ (sound.step move)

theorem covered_run (moves : List Move) : ∀ state, Covered state →
    (∀ move ∈ moves, Counts move) → Covered (state.run moves) := by
  induction moves with
  | nil =>
    intro state covered _
    exact covered
  | cons move moves ih =>
    intro state covered counts
    apply ih _ (covered.step (counts move List.mem_cons_self))
    intro other later
    exact counts other (List.mem_cons_of_mem _ later)

/-- In every state of a run a paused reader has a backlog and the reader is attached exactly
when it is not paused; and once the view is through, it is attached. -/
theorem reader_resumes {start : State} (begins : Begins start) (moves : List Move) :
    Sound (start.run moves) ∧
      ((∀ move ∈ moves, Counts move) → Quiet (start.run moves) →
        ∀ session, (start.run moves).session = some session → session.attached = true) := by
  have sound := sound_run moves start begins.sound
  refine ⟨sound, ?_⟩
  intro counts quiet session here
  have covered := covered_run moves start begins.covered counts session here
  have small := (start.run moves).view.small
  rw [outstanding, quiet.1, quiet.2] at covered
  rw [(sound session here).reader, ← Bool.not_eq_true]
  intro paused
  have backlog := (sound session here).backlog paused
  simp only [List.map_nil, List.sum_nil, Nat.mul_zero, lowWatermark, ackSize] at covered small backlog
  omega

/-- A session whose only output was parsed. -/
theorem greeted_session_is_attached :
    (State.fresh.run [.boot, .readable "hi", .parsed]).session.all Session.attached = true := by
  rw [Option.all_eq_true]
  apply (reader_resumes (.inl rfl) [.boot, .readable "hi", .parsed]).2
  · intro move listed
    simp only [List.mem_cons, List.not_mem_nil, or_false] at listed
    rcases listed with same | same | same <;> (rw [same]; exact trivial)
  · constructor
    · rfl
    · change 0 + (Ts.sendAcks Ts.ackSize_pos (0 + unitLength "hi")).2 = 0
      rw [Ts.sendAcks_eq]
      decide

end Fantastic.Python.Terminal

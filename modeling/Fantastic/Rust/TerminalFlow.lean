import Fantastic.Ts.TerminalView

/-!
# Flow control of a Rust terminal

The counter of `fantastic-terminal-backend`: `reader_loop`, `ack_reply` and the reset in
`output_reply`, with a view that gets each output event, parses them in order and
acknowledges what it parsed. The reader emits an event first and counts its bytes after, so
an ack can be handled before the bytes it answers are there.

`texts` are the decoded chunks of a session, none of them empty. The events between `parsed`
and `emitted` are on their way to the view; `sent` acks are out and `handled` of them are
done. A permit of `resume_notify` stays until a wait takes it.
-/

namespace Fantastic.Rust.Terminal

open Ts (TerminalView unitLength ackSize)

/-- `FLOW_PAUSE_THRESHOLD`. -/
def flowPauseThreshold : Nat := 100000

/-- `out.len()`. -/
def byteLength (text : String) : Nat := text.utf8ByteSize

/-- Where the reader stands: at the top of its loop, at `notified()`, at the blocking read,
between an emit and its count. -/
inductive Phase where
  | top
  | parked
  | reading
  | counting
  deriving DecidableEq

structure State where
  unacked : Nat
  paused : Bool
  permit : Bool
  phase : Phase
  emitted : Nat
  parsed : Nat
  view : TerminalView
  sent : Nat
  handled : Nat

inductive Move where
  /-- The reader looks at `paused`. -/
  | look
  | notified
  /-- A chunk is read, decoded and emitted. -/
  | emit
  | count
  /-- xterm's callback for the next event. -/
  | parse
  | ack
  | output
  deriving DecidableEq

namespace State

def fresh : State where
  unacked := 0
  paused := false
  permit := false
  phase := .top
  emitted := 0
  parsed := 0
  view := .fresh
  sent := 0
  handled := 0

/-- `flow.paused = false` and `notify_one`. -/
def resume (state : State) : State :=
  { state with
    paused := false
    permit := true }

/-- `ack_reply`. -/
def ackReply (state : State) (count : Nat) : State :=
  let counted := { state with unacked := state.unacked - count }
  if counted.paused && decide (counted.unacked < flowPauseThreshold) then counted.resume
  else counted

/-- The flow reset of `output_reply`. -/
def outputReply (state : State) : State :=
  if 0 < state.unacked then
    let counted := { state with unacked := 0 }
    if counted.paused then counted.resume else counted
  else state

/-- The bytes of an emitted event are counted. -/
def account (state : State) (bytes : Nat) : State :=
  let counted := { state with unacked := state.unacked + bytes, phase := Phase.top }
  if counted.paused = false ∧ flowPauseThreshold ≤ counted.unacked then
    { counted with paused := true }
  else counted

def step (texts : List String) (state : State) : Move → State
  | .look =>
    match state.phase with
    | .top =>
      if state.paused then { state with phase := .parked }
      else { state with phase := .reading }
    | _ => state
  | .notified =>
    match state.phase, state.permit with
    | .parked, true => { state with phase := .top, permit := false }
    | _, _ => state
  | .emit =>
    match state.phase with
    | .reading =>
      if state.emitted < texts.length then
        { state with phase := .counting, emitted := state.emitted + 1 }
      else state
    | _ => state
  | .count =>
    match state.phase with
    | .counting => state.account (byteLength (texts.getD (state.emitted - 1) ""))
    | _ => state
  | .parse =>
    if state.parsed < state.emitted then
      let answered := state.view.ackChars (unitLength (texts.getD state.parsed ""))
      { state with
        view := answered.1
        parsed := state.parsed + 1
        sent := state.sent + answered.2 }
    else state
  | .ack =>
    if state.handled < state.sent then
      { state.ackReply ackSize with handled := state.handled + 1 }
    else state
  | .output => state.outputReply

def run (texts : List String) (state : State) (moves : List Move) : State :=
  moves.foldl (step texts) state

end State

/-! ### What a stream comes to -/

/-- The bytes of the first events. -/
def bytesTo (texts : List String) (count : Nat) : Nat :=
  ((texts.take count).map byteLength).sum

/-- The units of the first events. -/
def unitsTo (texts : List String) (count : Nat) : Nat :=
  ((texts.take count).map unitLength).sum

/-- What the acks come to once the first events are parsed. -/
def ackedTo (texts : List String) (count : Nat) : Nat :=
  ackSize * (unitsTo texts count / ackSize)

/-- The view has parsed everything emitted and all its acks are handled. -/
def Quiet (state : State) : Prop :=
  state.parsed = state.emitted ∧ state.handled = state.sent

/-- The flag is down, and a reader at its wait has a permit to go on. -/
def Running (state : State) : Prop :=
  state.paused = false ∧ (state.phase = .parked → state.permit = true)

/-- In no run is the reader paused once the view is through. -/
def NeverWedged (texts : List String) : Prop :=
  ∀ moves, Quiet (State.fresh.run texts moves) → Running (State.fresh.run texts moves)

/-- Over no stretch of events do the bytes exceed by the threshold what is acked from its
second event on. -/
def Balanced (texts : List String) : Prop :=
  ∀ first last, first ≤ last → last < texts.length →
    bytesTo texts (last + 1) + ackedTo texts (first + 1) <
      bytesTo texts first + ackedTo texts (last + 1) + flowPauseThreshold

section

variable {texts : List String}

theorem bytesTo_succ {count : Nat} (inside : count < texts.length) :
    bytesTo texts (count + 1) = bytesTo texts count + byteLength (texts.getD count "") := by
  unfold bytesTo
  rw [List.take_succ_eq_append_getElem inside, List.map_append, List.sum_append]
  simp [inside]

theorem unitsTo_succ {count : Nat} (inside : count < texts.length) :
    unitsTo texts (count + 1) = unitsTo texts count + unitLength (texts.getD count "") := by
  unfold unitsTo
  rw [List.take_succ_eq_append_getElem inside, List.map_append, List.sum_append]
  simp [inside]

theorem unitsTo_mono {first last : Nat} (order : first ≤ last) :
    unitsTo texts first ≤ unitsTo texts last := by
  obtain ⟨more, rfl⟩ := Nat.exists_eq_add_of_le order
  unfold unitsTo
  rw [List.take_add, List.map_append, List.sum_append]
  exact Nat.le_add_right _ _

theorem ackedTo_mono {first last : Nat} (order : first ≤ last) :
    ackedTo texts first ≤ ackedTo texts last :=
  Nat.mul_le_mul_left _ (Nat.div_le_div_right (unitsTo_mono order))

end

/-! ### The accounts -/

/-- The events whose bytes are counted. -/
def counted (state : State) : Nat :=
  if state.phase = .counting then state.emitted - 1 else state.emitted

/-- The counter is empty, or it goes back to the count of some event, when at most the acks
for what was emitted by then had been handled. -/
def Bounded (texts : List String) (unacked handled counted : Nat) : Prop :=
  unacked = 0 ∨ ∃ first < counted, unacked + ackSize * handled + bytesTo texts first ≤
    bytesTo texts counted + ackedTo texts (first + 1)

structure Accounts (texts : List String) (state : State) : Prop where
  inside : state.emitted ≤ texts.length
  begun : state.phase = .counting → 0 < state.emitted
  parsed : state.parsed ≤ state.emitted
  acks : ackSize * state.sent + state.view.unsentAck = unitsTo texts state.parsed
  handled : state.handled ≤ state.sent
  bounded : Bounded texts state.unacked state.handled (counted state)
  paused : state.paused = true ↔ flowPauseThreshold ≤ state.unacked
  going : state.phase = .reading ∨ state.phase = .counting → state.paused = false
  permit : state.phase = .parked → state.paused = false → state.permit = true

section

variable {texts : List String} {state : State}

theorem Accounts.fresh : Accounts texts .fresh where
  inside := Nat.zero_le _
  begun := Phase.noConfusion
  parsed := Nat.le_refl 0
  acks := by simp [State.fresh, TerminalView.fresh, unitsTo]
  handled := Nat.le_refl 0
  bounded := .inl rfl
  paused := iff_of_false Bool.false_ne_true (by decide)
  going := fun _ => rfl
  permit := Phase.noConfusion

/-- The acks sent are those for what was parsed. -/
theorem Accounts.sent_eq (accounts : Accounts texts state) :
    ackSize * state.sent = ackedTo texts state.parsed := by
  have total := accounts.acks
  have quotient : unitsTo texts state.parsed / ackSize = state.sent := by
    rw [← total, Nat.mul_add_div Ts.ackSize_pos, Nat.div_eq_of_lt state.view.small, Nat.add_zero]
  rw [ackedTo, quotient]

theorem Accounts.handled_le (accounts : Accounts texts state) :
    ackSize * state.handled ≤ ackedTo texts state.emitted :=
  calc ackSize * state.handled
      ≤ ackSize * state.sent := Nat.mul_le_mul_left _ accounts.handled
    _ = ackedTo texts state.parsed := accounts.sent_eq
    _ ≤ ackedTo texts state.emitted := ackedTo_mono accounts.parsed

theorem Accounts.lowered (accounts : Accounts texts state) (count : Nat) {handled : Nat}
    (known : handled ≤ state.sent)
    (bounded : Bounded texts (state.unacked - count) handled (counted state)) :
    Accounts texts { state.ackReply count with handled := handled } := by
  have paused := accounts.paused
  unfold State.ackReply
  simp only [Bool.and_eq_true, decide_eq_true_eq]
  split
  case isTrue low =>
      exact ⟨accounts.inside, accounts.begun, accounts.parsed, accounts.acks, known, bounded,
        iff_of_false Bool.false_ne_true (Nat.not_le_of_lt low.2), fun _ => rfl, fun _ _ => rfl⟩
  case isFalse high =>
      refine ⟨accounts.inside, accounts.begun, accounts.parsed, accounts.acks, known, bounded, ?_,
        accounts.going, accounts.permit⟩
      constructor
      · intro still
        exact Nat.le_of_not_lt fun low => high ⟨still, low⟩
      · intro enough
        exact paused.mpr (Nat.le_trans enough (Nat.sub_le _ _))

/-- An ack lowers the counter and the bound by as much. -/
theorem Accounts.ackReply (accounts : Accounts texts state) (more : state.handled < state.sent) :
    Accounts texts { state.ackReply ackSize with handled := state.handled + 1 } := by
  apply accounts.lowered ackSize more
  cases accounts.bounded with
  | inl empty =>
    left
    rw [empty, Nat.zero_sub]
  | inr since =>
    obtain ⟨first, before, bound⟩ := since
    by_cases drained : state.unacked ≤ ackSize
    · exact .inl (Nat.sub_eq_zero_of_le drained)
    · refine .inr ⟨first, before, ?_⟩
      rw [Nat.mul_succ]
      omega

theorem Accounts.outputReply (accounts : Accounts texts state) :
    Accounts texts state.outputReply := by
  unfold State.outputReply
  dsimp only
  split
  case isFalse => exact accounts
  case isTrue =>
      have empty : ¬ flowPauseThreshold ≤ 0 := by decide
      split
      case isTrue =>
          exact ⟨accounts.inside, accounts.begun, accounts.parsed, accounts.acks,
            accounts.handled, .inl rfl, iff_of_false Bool.false_ne_true empty, fun _ => rfl,
            fun _ _ => rfl⟩
      case isFalse running =>
          exact ⟨accounts.inside, accounts.begun, accounts.parsed, accounts.acks,
            accounts.handled, .inl rfl, iff_of_false running empty, accounts.going,
            accounts.permit⟩

/-- The count of an event: its bytes come on top, or the counter starts again with them. -/
theorem Accounts.account (accounts : Accounts texts state) (counting : state.phase = .counting) :
    Accounts texts (state.account (byteLength (texts.getD (state.emitted - 1) ""))) := by
  have begun := accounts.begun counting
  have running := accounts.going (.inr counting)
  have before : counted state = state.emitted - 1 := if_pos counting
  have position : state.emitted - 1 + 1 = state.emitted := Nat.sub_add_cancel begun
  have grown := @bytesTo_succ texts (state.emitted - 1) (by have := accounts.inside; omega)
  rw [position] at grown
  have handled := accounts.handled_le
  have bounded : Bounded texts
      (state.unacked + byteLength (texts.getD (state.emitted - 1) "")) state.handled
      state.emitted := by
    right
    cases accounts.bounded with
    | inl empty =>
      refine ⟨state.emitted - 1, by omega, ?_⟩
      rw [position]
      omega
    | inr since =>
      obtain ⟨first, earlier, bound⟩ := since
      rw [before] at earlier bound
      refine ⟨first, by omega, ?_⟩
      omega
  unfold State.account
  dsimp only
  split
  case isTrue high =>
      exact ⟨accounts.inside, Phase.noConfusion, accounts.parsed, accounts.acks,
        accounts.handled, bounded, iff_of_true rfl high.2,
        fun phase => phase.elim Phase.noConfusion Phase.noConfusion, Phase.noConfusion⟩
  case isFalse low =>
      refine ⟨accounts.inside, Phase.noConfusion, accounts.parsed, accounts.acks,
        accounts.handled, bounded, ?_,
        fun phase => phase.elim Phase.noConfusion Phase.noConfusion, Phase.noConfusion⟩
      apply iff_of_false (ne_true_of_eq_false running)
      intro high
      exact low ⟨running, high⟩

theorem Accounts.step (accounts : Accounts texts state) (move : Move) :
    Accounts texts (state.step texts move) := by
  cases move with
  | look =>
    unfold State.step
    dsimp only
    split
    case h_2 => exact accounts
    case h_1 top =>
        have same (phase : Phase) (other : phase ≠ .counting) :
            counted { state with phase := phase } = counted state := by
          unfold counted
          rw [if_neg other, top, if_neg Phase.noConfusion]
        split
        case isTrue paused =>
            refine ⟨accounts.inside, Phase.noConfusion, accounts.parsed, accounts.acks,
              accounts.handled, ?_, accounts.paused,
              fun phase => phase.elim Phase.noConfusion Phase.noConfusion, ?_⟩
            · rw [same .parked Phase.noConfusion]
              exact accounts.bounded
            · intro _ running
              exact absurd paused (ne_true_of_eq_false running)
        case isFalse running =>
            refine ⟨accounts.inside, Phase.noConfusion, accounts.parsed, accounts.acks,
              accounts.handled, ?_, accounts.paused, fun _ => Bool.eq_false_iff.mpr running,
              Phase.noConfusion⟩
            rw [same .reading Phase.noConfusion]
            exact accounts.bounded
  | notified =>
    unfold State.step
    dsimp only
    split
    case h_2 => exact accounts
    case h_1 parked _ =>
        have same : counted { state with phase := .top, permit := false } = counted state := by
          unfold counted
          rw [parked, if_neg Phase.noConfusion, if_neg Phase.noConfusion]
        refine ⟨accounts.inside, Phase.noConfusion, accounts.parsed, accounts.acks,
          accounts.handled, ?_, accounts.paused,
          fun phase => phase.elim Phase.noConfusion Phase.noConfusion, Phase.noConfusion⟩
        rw [same]
        exact accounts.bounded
  | emit =>
    unfold State.step
    dsimp only
    split
    case h_2 => exact accounts
    case h_1 reading =>
        split
        case isFalse => exact accounts
        case isTrue more =>
            have same : counted { state with phase := .counting, emitted := state.emitted + 1 } =
                counted state := by
              unfold counted
              rw [if_pos rfl, reading, if_neg Phase.noConfusion]
              rfl
            refine ⟨more, fun _ => Nat.succ_pos _, Nat.le_succ_of_le accounts.parsed,
              accounts.acks, accounts.handled, ?_, accounts.paused,
              fun _ => accounts.going (.inl reading), Phase.noConfusion⟩
            rw [same]
            exact accounts.bounded
  | count =>
    unfold State.step
    dsimp only
    split
    case h_2 => exact accounts
    case h_1 counting => exact accounts.account counting
  | parse =>
    unfold State.step
    dsimp only
    split
    case isFalse => exact accounts
    case isTrue more =>
        have total := state.view.ackChars_total (unitLength (texts.getD state.parsed ""))
        have grown := @unitsTo_succ texts state.parsed (Nat.lt_of_lt_of_le more accounts.inside)
        have acks := accounts.acks
        refine ⟨accounts.inside, accounts.begun, more, ?_,
          Nat.le_add_right_of_le accounts.handled, accounts.bounded, accounts.paused,
          accounts.going, accounts.permit⟩
        dsimp only
        rw [Nat.mul_add]
        omega
  | ack =>
    unfold State.step
    dsimp only
    split
    case isFalse => exact accounts
    case isTrue more => exact accounts.ackReply more
  | output => exact accounts.outputReply

theorem accounts_run (moves : List Move) : ∀ state, Accounts texts state →
    Accounts texts (state.run texts moves) := by
  induction moves with
  | nil =>
    intro state accounts
    exact accounts
  | cons move moves ih =>
    intro state accounts
    exact ih _ (accounts.step move)

/-- A balanced stream leaves the counter below the threshold whenever the view is through. -/
theorem Accounts.running (accounts : Accounts texts state) (balanced : Balanced texts)
    (quiet : Quiet state) : Running state := by
  have flag : state.paused = false := by
    by_cases counting : state.phase = .counting
    · exact accounts.going (.inr counting)
    · rw [← Bool.not_eq_true, accounts.paused]
      have all : counted state = state.emitted := if_neg counting
      have handled : ackSize * state.handled = ackedTo texts state.emitted := by
        rw [quiet.2, accounts.sent_eq, quiet.1]
      cases accounts.bounded with
      | inl empty =>
        rw [empty]
        decide
      | inr since =>
        obtain ⟨first, before, bound⟩ := since
        rw [all] at before bound
        have inside := accounts.inside
        have position : state.emitted - 1 + 1 = state.emitted := by omega
        have stretch := balanced first (state.emitted - 1) (by omega) (by omega)
        rw [position] at stretch
        omega
  exact ⟨flag, fun parked => accounts.permit parked flag⟩

end

/-! ### The view that is always ahead -/

/-- The counter when each event is parsed and acknowledged before it is counted. -/
def eager (texts : List String) : Nat → Nat
  | 0 => 0
  | count + 1 =>
    eager texts count - (ackedTo texts (count + 1) - ackedTo texts count) +
      byteLength (texts.getD count "")

/-- Every stretch of events is a lower bound of that counter. -/
theorem eager_ge (texts : List String) (first last : Nat) (order : first ≤ last)
    (inside : last < texts.length) :
    bytesTo texts (last + 1) + ackedTo texts (first + 1) ≤
      bytesTo texts first + ackedTo texts (last + 1) + eager texts (last + 1) := by
  induction last, order using Nat.le_induction with
  | base =>
    have grown := @bytesTo_succ texts first inside
    unfold eager
    omega
  | succ last order ih =>
    have earlier := ih (by omega)
    have grown := @bytesTo_succ texts (last + 1) inside
    have later := @ackedTo_mono texts (last + 1) (last + 1 + 1) (Nat.le_succ _)
    rw [eager]
    omega

/-- The first `count` events are emitted, parsed, acknowledged and counted, acks first. -/
structure Ahead (texts : List String) (count : Nat) (state : State) : Prop where
  accounts : Accounts texts state
  phase : state.phase = .top
  emitted : state.emitted = count
  quiet : Quiet state
  unacked : state.unacked = eager texts count

section

variable {texts : List String} {state : State}

theorem ackReply_running (running : state.paused = false) (count : Nat) :
    state.ackReply count = { state with unacked := state.unacked - count } := by
  unfold State.ackReply
  simp only [running, Bool.false_and, Bool.false_eq_true, if_false]

/-- The acks on their way, handled while the reader runs. -/
theorem run_acks (texts : List String) (count : Nat) : ∀ state : State, state.paused = false →
    state.handled + count = state.sent →
    state.run texts (List.replicate count .ack) =
      { state with
        unacked := state.unacked - ackSize * count
        handled := state.sent } := by
  induction count with
  | zero =>
    intro state _ all
    cases state
    dsimp only at all
    subst all
    rfl
  | succ count ih =>
    intro state running all
    have more : state.handled < state.sent := by omega
    have stepped : state.step texts .ack =
        { state with
          unacked := state.unacked - ackSize
          handled := state.handled + 1 } := by
      unfold State.step
      dsimp only
      rw [if_pos more, ackReply_running running]
    change State.run texts (state.step texts .ack) (List.replicate count .ack) = _
    rw [stepped, ih { state with
      unacked := state.unacked - ackSize
      handled := state.handled + 1 } running (by dsimp only; omega)]
    dsimp only
    rw [Nat.sub_sub, Nat.mul_succ, Nat.add_comm ackSize]

/-- One more event, as long as the reader is not paused. -/
theorem Ahead.next {count : Nat} (ahead : Ahead texts count state)
    (low : eager texts count < flowPauseThreshold) (inside : count < texts.length) :
    ∃ moves, Ahead texts (count + 1) (state.run texts moves) := by
  have running : state.paused = false := by
    rw [← Bool.not_eq_true, ahead.accounts.paused, ahead.unacked]
    exact Nat.not_le_of_lt low
  obtain ⟨parsed, handled⟩ := ahead.quiet
  have position : state.parsed = count := parsed.trans ahead.emitted
  -- the event is emitted and parsed before it is counted
  let answered := state.view.ackChars (unitLength (texts.getD count ""))
  let shown : State :=
    { state with
      phase := .counting
      emitted := count + 1
      view := answered.1
      parsed := count + 1
      sent := state.sent + answered.2 }
  have begun : state.run texts [.look, .emit, .parse] = shown := by
    simp [State.run, State.step, ahead.phase, running, ahead.emitted, inside, position, shown,
      answered]
  have accounts : Accounts texts shown := begun ▸ accounts_run _ state ahead.accounts
  have acked : ackSize * answered.2 = ackedTo texts (count + 1) - ackedTo texts count := by
    have before := ahead.accounts.sent_eq
    have after := accounts.sent_eq
    rw [position] at before
    change ackSize * (state.sent + answered.2) = ackedTo texts (count + 1) at after
    rw [Nat.mul_add] at after
    omega
  refine ⟨[.look, .emit, .parse] ++ (List.replicate answered.2 .ack ++ [.count]), ?_⟩
  have reached : state.run texts
        ([.look, .emit, .parse] ++ (List.replicate answered.2 .ack ++ [.count])) =
      State.account
        { shown with
          unacked := state.unacked - ackSize * answered.2
          handled := shown.sent }
        (byteLength (texts.getD count "")) := by
    unfold State.run at begun ⊢
    rw [List.foldl_append, begun, List.foldl_append]
    have drained := run_acks texts answered.2 shown running
      (congrArg (· + answered.2) handled)
    unfold State.run at drained
    rw [drained]
    rfl
  have amount : state.unacked - ackSize * answered.2 + byteLength (texts.getD count "") =
      eager texts (count + 1) := by
    rw [ahead.unacked, acked, eager]
  constructor
  · exact accounts_run _ state ahead.accounts
  all_goals rw [reached]
  · unfold State.account
    dsimp only
    split <;> rfl
  · unfold State.account
    dsimp only
    split <;> rfl
  · unfold State.account
    dsimp only
    split <;> exact ⟨rfl, rfl⟩
  · rw [← amount]
    unfold State.account
    dsimp only
    split <;> rfl

theorem ahead_reachable (count : Nat) (inside : count ≤ texts.length)
    (low : ∀ earlier < count, eager texts earlier < flowPauseThreshold) :
    ∃ moves, Ahead texts count (State.fresh.run texts moves) := by
  induction count with
  | zero => exact ⟨[], .fresh, rfl, rfl, ⟨rfl, rfl⟩, rfl⟩
  | succ count ih =>
    obtain ⟨before, ahead⟩ := ih (Nat.le_of_succ_le inside)
      fun earlier first => low earlier (Nat.lt_succ_of_lt first)
    obtain ⟨moves, next⟩ := ahead.next (low count (Nat.lt_succ_self count)) inside
    refine ⟨before ++ moves, ?_⟩
    unfold State.run at next ⊢
    rw [List.foldl_append]
    exact next

end

/-- A stream that never wedges keeps the counter of that view below the threshold. -/
theorem NeverWedged.eager_lt {texts : List String} (safe : NeverWedged texts) (count : Nat)
    (inside : count ≤ texts.length) : eager texts count < flowPauseThreshold := by
  induction count using Nat.strong_induction_on with
  | _ count ih =>
    obtain ⟨moves, ahead⟩ := ahead_reachable count inside
      fun earlier first => ih earlier first (Nat.le_trans (Nat.le_of_lt first) inside)
    have running := (safe moves ahead.quiet).1
    apply Nat.lt_of_not_le
    intro high
    rw [ahead.accounts.paused.mpr (ahead.unacked ▸ high)] at running
    exact Bool.noConfusion running

/-- The reader is never left paused exactly when no stretch of the stream has the threshold
more bytes than are acked from its second event on. -/
theorem neverWedged_iff (texts : List String) : NeverWedged texts ↔ Balanced texts := by
  constructor
  · intro safe first last order inside
    have least := eager_ge texts first last order inside
    have low := safe.eager_lt (last + 1) inside
    omega
  · intro balanced moves quiet
    exact (accounts_run moves .fresh .fresh).running balanced quiet

/-! ### A stream of wide characters -/

/-- Copies of one character. -/
def repeated (char : Char) : Nat → String
  | 0 => ""
  | count + 1 => (repeated char count).push char

theorem byteLength_repeated (char : Char) (count : Nat) :
    byteLength (repeated char count) = count * char.utf8Size := by
  induction count with
  | zero => simp [repeated, byteLength]
  | succ count ih =>
    unfold byteLength at ih ⊢
    rw [repeated, String.utf8ByteSize_push, ih, Nat.succ_mul]

/-- A character below U+10000 is one unit. -/
theorem unitLength_repeated (char : Char) (plane : char.toNat < 65536) (count : Nat) :
    unitLength (repeated char count) = count := by
  induction count with
  | zero => rfl
  | succ count ih =>
    unfold unitLength at ih ⊢
    rw [repeated, String.toList_push, List.map_append, List.sum_append, ih, List.map_singleton,
      if_pos plane]
    rfl

theorem bytesTo_replicate (text : String) {length count : Nat} (inside : count ≤ length) :
    bytesTo (List.replicate length text) count = count * byteLength text := by
  unfold bytesTo
  rw [List.take_replicate, Nat.min_eq_left inside, List.map_replicate, List.sum_replicate_nat]

theorem unitsTo_replicate (text : String) {length count : Nat} (inside : count ≤ length) :
    unitsTo (List.replicate length text) count = count * unitLength text := by
  unfold unitsTo
  rw [List.take_replicate, Nat.min_eq_left inside, List.map_replicate, List.sum_replicate_nat]

/-- Forty chunks of 4095 bytes, three to a character: the acks come to a third of them. -/
theorem wide_stream_wedges : ¬ ∀ texts, NeverWedged texts := by
  intro safe
  obtain ⟨text, text_eq⟩ : ∃ text, repeated '界' 1365 = text := ⟨_, rfl⟩
  have units : unitLength text = 1365 := by
    rw [← text_eq, unitLength_repeated _ (by decide)]
  have bytes : byteLength text = 4095 := by
    rw [← text_eq, byteLength_repeated, show Char.utf8Size '界' = 3 by decide]
  have wide : Balanced (List.replicate 40 text) := (neverWedged_iff _).mp (safe _)
  have stretch := wide 0 39 (Nat.zero_le _) (by rw [List.length_replicate]; decide)
  unfold ackedTo ackSize flowPauseThreshold at stretch
  rw [bytesTo_replicate _ (by omega), bytesTo_replicate _ (by omega),
    unitsTo_replicate _ (by omega), unitsTo_replicate _ (by omega), units, bytes] at stretch
  omega

end Fantastic.Rust.Terminal

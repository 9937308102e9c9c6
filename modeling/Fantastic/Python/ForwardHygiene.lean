import Fantastic.Python.BridgeIsolation

/-!
# What a finished forward leaves behind

`_forward` puts its future into the pending table before it stamps and sends the frame. It
takes the entry out when `send` raises `ConnectionClosed` and when the wait times out, and
nowhere else. Here a forward can end in every way: the egress rule, the encoder or the
transport may raise something else, the caller may be cancelled at the `send` or at the
wait, and a timeout may come when the future is set and the caller has not resumed. A
forward that is refused before it has an entry changes nothing and does not appear.
-/

namespace Fantastic.Python.Engine

/-- `cancelled` stands in for the engine's own `abandon`, which does not tell a `send` from
a wait. -/
inductive Event where
  | engine (move : Move)
  | raised (forward : Nat)
  | cancelled (forward : Nat)
  | expired (forward : Nat)
  deriving DecidableEq

/-- `_forward` has returned or raised. -/
def Ended (forward : Forward) : Prop :=
  forward.phase = .returned ∨ forward.phase = .abandoned

/-- It is at its `send` or at its wait. -/
def Active (forward : Forward) : Prop :=
  forward.phase = .sending ∨ forward.phase = .waiting

namespace State

variable {state other : State} {event : Event} {name : Nat}

/-- The forward ends, and its entry stays where it is. -/
def leave (state : State) (forward : Nat) (phase : ForwardPhase) : State :=
  state.setForward forward { state.forwards forward with phase := phase }

/-- Only a wait cancels its future, and only one that is not done. -/
def next (state : State) : Event → State
  | .engine (.abandon _) => state
  | .engine move => state.step move
  | .raised forward =>
    if (state.forwards forward).phase = .sending then state.leave forward .returned else state
  | .cancelled forward =>
    match (state.forwards forward).phase with
    | .sending => state.leave forward .returned
    | .waiting =>
      if (state.forwards forward).future = .unsettled then state.leave forward .abandoned
      else state.leave forward .returned
    | _ => state
  | .expired forward =>
    if (state.forwards forward).phase = .waiting ∧
        (state.forwards forward).future = .settled then
      { state.leave forward .returned with
        pending := state.pending.erase (state.forwards forward).corr }
    else state

/-! ### The property and the condition -/

/-- Once the forward is over, its correlation id is not in the table. -/
def Clean (name : Nat) (state : State) : Prop :=
  name < state.begun → Ended (state.forwards name) →
    state.pending.get? (state.forwards name).corr = none

/-- In every state of the run the forward is clean, and once it is over no event of the run
changes its future. -/
def Hygienic (name : Nat) : State → List Event → Prop
  | state, [] => state.Clean name
  | state, event :: events =>
    state.Clean name ∧
      (name < state.begun → Ended (state.forwards name) →
        ((state.next event).forwards name).future = (state.forwards name).future) ∧
      Hygienic name (state.next event) events

/-- The event ends the forward by an exception that `_forward` does not catch. -/
def Breaks (name : Nat) (state : State) : Event → Prop
  | .raised forward => forward = name ∧ (state.forwards name).phase = .sending
  | .cancelled forward => forward = name ∧ Active (state.forwards name)
  | _ => False

/-- Whenever such an event ends the forward, a frame, a read loop or a teardown has taken
its entry out before. -/
def Orderly (name : Nat) : State → List Event → Prop
  | _, [] => True
  | state, event :: events =>
    ¬ (state.Breaks name event ∧
      state.pending.get? (state.forwards name).corr = some name) ∧
    Orderly name (state.next event) events

/-! ### What an event does to the forwards and the table -/

structure SameCounts (other state : State) : Prop where
  counter : other.corrCounter = state.corrCounter
  begun : other.begun = state.begun

inductive Effect (state : State) (event : Event) (other : State) : Prop where
  | same (counts : SameCounts other state) (forwards : other.forwards = state.forwards)
      (pending : other.pending = state.pending)
  | opened (transport : Nat) (counter : other.corrCounter = state.corrCounter + 1)
      (begun : other.begun = state.begun + 1)
      (forwards : other.forwards = Function.update state.forwards state.begun
        ⟨transport, state.corrCounter + 1, .sending, .unsettled⟩)
      (pending : other.pending = state.pending.insert (state.corrCounter + 1) state.begun)
  | failed (counts : SameCounts other state)
      (forwards : other.forwards = state.failPending.forwards) (pending : other.pending = .empty)
  | resolved (corr owner : Nat) (found : state.pending.get? corr = some owner)
      (counts : SameCounts other state)
      (forwards : other.forwards =
        Function.update state.forwards owner (settle (state.forwards owner)))
      (pending : other.pending = state.pending.erase corr)
  | kept (forward : Nat) (phase : ForwardPhase) (active : Active (state.forwards forward))
      (why : phase = .waiting ∨ (state.forwards forward).future = .settled ∨
        state.Breaks forward event)
      (counts : SameCounts other state)
      (forwards : other.forwards = Function.update state.forwards forward
        { state.forwards forward with phase := phase })
      (pending : other.pending = state.pending)
  | dropped (forward : Nat) (active : Active (state.forwards forward))
      (counts : SameCounts other state)
      (forwards : other.forwards = Function.update state.forwards forward
        { state.forwards forward with phase := .returned })
      (pending : other.pending = state.pending.erase (state.forwards forward).corr)

theorem Effect.unchanged : Effect state event state :=
  .same ⟨rfl, rfl⟩ rfl rfl

theorem Effect.quiet (same : SameTable other state) : Effect state event other :=
  .same ⟨same.counter, same.begun⟩ same.forwards same.pending

theorem Effect.resolve (corr : Nat) : Effect state event (state.resolve corr) := by
  unfold State.resolve
  split
  case h_1 => exact .unchanged
  case h_2 owner found => exact .resolved corr owner found ⟨rfl, rfl⟩ rfl rfl

theorem Effect.publish (validRules : Bool) :
    Effect state event (state.publish validRules) := by
  cases validRules with
  | true => exact .same ⟨rfl, rfl⟩ rfl rfl
  | false =>
    simp only [State.publish, Bool.false_eq_true, if_false, State.beginTeardown]
    split
    · exact .same ⟨rfl, rfl⟩ rfl rfl
    · split
      · exact .same ⟨rfl, rfl⟩ rfl rfl
      · exact .same ⟨rfl, rfl⟩ rfl rfl

theorem Effect.receive (loop transport : Nat) (frame : Frame) :
    Effect state event (state.receive loop transport frame) := by
  cases frame with
  | call allowed =>
    cases allowed with
    | true => exact .quiet (moveLoop_sameTable ..)
    | false => exact .quiet (moveLoop_sameTable ..)
  | reply corr => exact .resolve corr
  | error corr => exact .resolve corr
  | event => exact .quiet (moveLoop_sameTable ..)
  | other => exact .unchanged
  | malformed => exact .quiet (moveLoop_sameTable ..)

theorem Effect.forward : Effect state event state.forward := by
  unfold State.forward
  split
  case h_1 => exact .unchanged
  case h_2 transport _ => exact .opened transport rfl rfl rfl rfl

theorem step_effect {move : Move} (kept : ∀ forward, move ≠ .abandon forward) :
    Effect state (.engine move) (state.step move) := by
  by_cases quiet : Quiet move
  · exact .quiet quiet.step
  cases move with
  | publish validRules =>
    simp only [State.step]
    split
    · exact .unchanged
    · exact .publish validRules
  | receive loop frame =>
    simp only [State.step]
    split
    · exact .receive ..
    · exact .unchanged
  | drain loop =>
    simp only [State.step]
    split
    · exact .failed ⟨rfl, rfl⟩ rfl rfl
    · exact .unchanged
  | finish teardown =>
    simp only [State.step]
    split
    · exact .failed ⟨rfl, rfl⟩ rfl rfl
    · exact .unchanged
  | forward => exact .forward
  | sent forward =>
    simp only [State.step]
    split
    case isTrue sending =>
      exact .kept forward .waiting (.inl sending) (.inl rfl) ⟨rfl, rfl⟩ rfl rfl
    case isFalse => exact .unchanged
  | sendFail forward =>
    simp only [State.step]
    split
    case isTrue sending => exact .dropped forward (.inl sending) ⟨rfl, rfl⟩ rfl rfl
    case isFalse => exact .unchanged
  | timeout forward =>
    simp only [State.step]
    split
    case isTrue waiting => exact .dropped forward (.inr waiting.1) ⟨rfl, rfl⟩ rfl rfl
    case isFalse => exact .unchanged
  | collect forward =>
    simp only [State.step]
    split
    case isTrue waiting =>
      exact .kept forward .returned (.inr waiting.1) (.inr (.inl waiting.2)) ⟨rfl, rfl⟩
        rfl rfl
    case isFalse => exact .unchanged
  | abandon forward => exact absurd rfl (kept forward)
  | bootCheck | bootFail | start | recvClosed | dispatched | replied | replyFailed | emitted
  | cancel | peerEnd | notice | teardown | join | close => exact absurd trivial quiet

theorem next_effect (state : State) (event : Event) : Effect state event (state.next event) := by
  cases event with
  | engine move =>
    by_cases cancelling : ∃ forward, move = .abandon forward
    · obtain ⟨forward, same⟩ := cancelling
      subst same
      exact .unchanged
    · have kept : ∀ forward, move ≠ .abandon forward := by
        intro forward same
        exact cancelling ⟨forward, same⟩
      have stepped : state.next (.engine move) = state.step move := by
        cases move with
        | abandon forward => exact absurd rfl (kept forward)
        | _ => rfl
      rw [stepped]
      exact step_effect kept
  | raised forward =>
    simp only [State.next]
    split
    case isTrue sending =>
      exact .kept forward .returned (.inl sending) (.inr (.inr ⟨rfl, sending⟩)) ⟨rfl, rfl⟩
        rfl rfl
    case isFalse => exact .unchanged
  | cancelled forward =>
    simp only [State.next]
    split
    case h_1 sending =>
      exact .kept forward .returned (.inl sending) (.inr (.inr ⟨rfl, .inl sending⟩))
        ⟨rfl, rfl⟩ rfl rfl
    case h_2 waiting =>
      split
      · exact .kept forward .abandoned (.inr waiting) (.inr (.inr ⟨rfl, .inr waiting⟩))
          ⟨rfl, rfl⟩ rfl rfl
      · exact .kept forward .returned (.inr waiting) (.inr (.inr ⟨rfl, .inr waiting⟩))
          ⟨rfl, rfl⟩ rfl rfl
    case h_3 => exact .unchanged
  | expired forward =>
    simp only [State.next]
    split
    case isTrue waiting => exact .dropped forward (.inr waiting.1) ⟨rfl, rfl⟩ rfl rfl
    case isFalse => exact .unchanged

/-! ### The table names its forwards -/

/-- The id of a forward is its number and one; a future that is set is out of the table. -/
structure Kept (state : State) : Prop where
  counter : state.corrCounter = state.begun
  corr : ∀ {forward}, forward < state.begun → (state.forwards forward).corr = forward + 1
  entry : ∀ {corr forward}, state.pending.get? corr = some forward →
    forward < state.begun ∧ corr = forward + 1
  settled : ∀ {forward}, forward < state.begun → (state.forwards forward).future = .settled →
    state.pending.get? (forward + 1) = none

/-- The forwards keep their ids, the table loses entries, and what is newly set has none. -/
theorem Kept.weaken (kept : state.Kept) (counts : SameCounts other state)
    (corr : ∀ forward, (other.forwards forward).corr = (state.forwards forward).corr)
    (fewer : ∀ {corr forward}, other.pending.get? corr = some forward →
      state.pending.get? corr = some forward)
    (settled : ∀ {forward}, (other.forwards forward).future = .settled →
      (state.forwards forward).future = .settled ∨ other.pending.get? (forward + 1) = none) :
    other.Kept := by
  have none_of_none {corr : Nat} (gone : state.pending.get? corr = none) :
      other.pending.get? corr = none := by
    cases found : other.pending.get? corr with
    | none => rfl
    | some forward =>
      have earlier := fewer found
      rw [gone] at earlier
      cases earlier
  constructor
  · rw [counts.counter, counts.begun, kept.counter]
  · intro forward known
    rw [counts.begun] at known
    rw [corr, kept.corr known]
  · intro corr forward found
    rw [counts.begun]
    exact kept.entry (fewer found)
  · intro forward known done
    rw [counts.begun] at known
    cases settled done with
    | inl before => exact none_of_none (kept.settled known before)
    | inr gone => exact gone

/-- One forward changes its phase only, and the table loses entries. -/
theorem Kept.rephased {forward : Nat} {phase : ForwardPhase} (kept : state.Kept)
    (counts : SameCounts other state)
    (forwards : other.forwards = Function.update state.forwards forward
      { state.forwards forward with phase := phase })
    (fewer : ∀ {corr owner}, other.pending.get? corr = some owner →
      state.pending.get? corr = some owner) : other.Kept := by
  apply kept.weaken counts
  · intro name
    rw [forwards, Function.update_apply]
    split
    case isTrue same => rw [same]
    case isFalse => rfl
  · exact fewer
  · intro name done
    rw [forwards, Function.update_apply] at done
    split at done
    case isTrue same => exact .inl (same ▸ done)
    case isFalse => exact .inl done

theorem Kept.effect (kept : state.Kept) (effect : Effect state event other) : other.Kept := by
  cases effect with
  | same counts forwards pending =>
    apply kept.weaken counts
    · intro forward
      rw [forwards]
    · intro corr forward found
      rwa [pending] at found
    · intro forward done
      rw [forwards] at done
      exact .inl done
  | opened transport counter begun forwards pending =>
    constructor
    · rw [counter, begun, kept.counter]
    · intro forward known
      rw [begun] at known
      rw [forwards, Function.update_apply]
      split
      case isTrue same => rw [same, kept.counter]
      case isFalse => exact kept.corr (by omega)
    · intro corr forward found
      rw [pending, OrderedDict.get?_insert] at found
      rw [begun]
      split at found
      case isTrue same =>
        cases found
        rw [same, kept.counter]
        exact ⟨Nat.lt_succ_self _, rfl⟩
      case isFalse =>
        obtain ⟨known, named⟩ := kept.entry found
        exact ⟨Nat.lt_succ_of_lt known, named⟩
    · intro forward known done
      rw [begun] at known
      rw [forwards, Function.update_apply] at done
      split at done
      case isTrue => cases done
      case isFalse apart =>
        rw [pending, OrderedDict.get?_insert_of_ne]
        · exact kept.settled (by omega) done
        · rw [kept.counter]
          omega
  | failed counts forwards pending =>
    apply kept.weaken counts
    · intro forward
      rw [forwards]
      simp only [State.failPending]
      split
      · exact (settle_fields _).1
      · rfl
    · intro corr forward found
      rw [pending] at found
      cases found
    · intro forward _
      right
      rw [pending]
      rfl
  | resolved corr owner found counts forwards pending =>
    obtain ⟨_, named⟩ := kept.entry found
    apply kept.weaken counts
    · intro forward
      rw [forwards, Function.update_apply]
      split
      case isTrue same => rw [same, (settle_fields _).1]
      case isFalse => rfl
    · intro corr forward left
      rw [pending] at left
      exact (get?_erase_some left).2
    · intro forward done
      rw [forwards, Function.update_apply] at done
      split at done
      case isTrue same =>
        right
        rw [pending, OrderedDict.get?_erase, if_pos (by omega)]
      case isFalse => exact .inl done
  | kept forward phase _ _ counts forwards pending =>
    apply kept.rephased counts forwards
    intro corr owner found
    rwa [pending] at found
  | dropped forward _ counts forwards pending =>
    apply kept.rephased counts forwards
    intro corr owner found
    rw [pending] at found
    exact (get?_erase_some found).2

/-! ### One forward -/

theorem Clean.gone (kept : state.Kept) (clean : state.Clean name) (known : name < state.begun)
    (ended : Ended (state.forwards name)) : state.pending.get? (name + 1) = none := by
  have gone := clean known ended
  rwa [kept.corr known] at gone

theorem Active.not_ended {forward : Forward} (active : Active forward) : ¬ Ended forward := by
  intro ended
  unfold Active at active
  unfold Ended at ended
  cases phase : forward.phase <;> simp [phase] at active ended

theorem settle_ended {forward : Forward} : Ended (settle forward) ↔ Ended forward := by
  unfold Ended
  rw [(settle_fields forward).2.2]

/-- What is over and out of the table is left alone. -/
theorem Clean.untouched (kept : state.Kept) (clean : state.Clean name)
    (effect : Effect state event other) (known : name < state.begun)
    (ended : Ended (state.forwards name)) : other.forwards name = state.forwards name := by
  have gone := clean.gone kept known ended
  cases effect with
  | same _ forwards _ => rw [forwards]
  | opened _ _ _ forwards _ =>
    rw [forwards, Function.update_of_ne (Nat.ne_of_lt known)]
  | failed _ forwards _ =>
    rw [forwards]
    simp only [State.failPending]
    apply if_neg
    rw [OrderedDict.mem_items_iff]
    intro listed
    obtain ⟨corr, found⟩ := listed
    rw [(kept.entry found).2, gone] at found
    cases found
  | resolved corr owner found _ forwards _ =>
    rw [forwards, Function.update_of_ne]
    intro same
    rw [(kept.entry found).2, ← same, gone] at found
    cases found
  | kept forward _ active _ _ forwards _ | dropped forward active _ forwards _ =>
    rw [forwards, Function.update_of_ne]
    intro same
    rw [← same] at active
    exact Active.not_ended active ended

theorem Clean.effect (kept : state.Kept) (clean : state.Clean name)
    (effect : Effect state event other)
    (orderly : ¬ (state.Breaks name event ∧
      state.pending.get? (state.forwards name).corr = some name)) : other.Clean name := by
  intro known ended
  have next := kept.effect effect
  rw [next.corr known]
  by_cases before : name < state.begun ∧ Ended (state.forwards name)
  · -- It was over already: no event puts an entry back.
    obtain ⟨started, done⟩ := before
    have gone := clean.gone kept started done
    cases effect with
    | same _ _ pending => rw [pending, gone]
    | opened _ _ _ _ pending =>
      rw [pending, OrderedDict.get?_insert_of_ne, gone]
      rw [kept.counter]
      omega
    | failed _ _ pending =>
      rw [pending]
      rfl
    | resolved _ _ _ _ _ pending | dropped _ _ _ _ pending =>
      rw [pending, OrderedDict.get?_erase]
      split
      · rfl
      · exact gone
    | kept _ _ _ _ _ _ pending => rw [pending, gone]
  · have ends (started : name < state.begun) (done : Ended (state.forwards name)) : False :=
      before ⟨started, done⟩
    cases effect with
    | same counts forwards _ =>
      rw [counts.begun] at known
      rw [forwards] at ended
      exact (ends known ended).elim
    | opened _ _ begun forwards _ =>
      rw [begun] at known
      rw [forwards, Function.update_apply] at ended
      split at ended
      case isTrue => cases ended with
        | inl impossible => cases impossible
        | inr impossible => cases impossible
      case isFalse apart => exact (ends (by omega) ended).elim
    | failed _ _ pending =>
      rw [pending]
      rfl
    | resolved corr owner found counts forwards _ =>
      rw [counts.begun] at known
      rw [forwards, Function.update_apply] at ended
      split at ended
      case isTrue same => exact (ends known (same ▸ settle_ended.mp ended)).elim
      case isFalse => exact (ends known ended).elim
    | kept forward phase active why counts forwards pending =>
      rw [counts.begun] at known
      rw [forwards, Function.update_apply] at ended
      split at ended
      case isFalse => exact (ends known ended).elim
      case isTrue same =>
        subst same
        rw [pending]
        obtain waiting | settled | breaks := why
        · subst waiting
          cases ended with
          | inl impossible => cases impossible
          | inr impossible => cases impossible
        · exact kept.settled known settled
        · cases found : state.pending.get? (name + 1) with
          | none => rfl
          | some owner =>
            have named : owner = name := by
              have same := (kept.entry found).2
              omega
            exact (orderly ⟨breaks, by rw [kept.corr known, found, named]⟩).elim
    | dropped forward active counts forwards pending =>
      rw [counts.begun] at known
      rw [forwards, Function.update_apply] at ended
      split at ended
      case isFalse => exact (ends known ended).elim
      case isTrue same =>
        rw [pending, ← same, kept.corr known, OrderedDict.get?_erase, if_pos rfl]

/-- An exception that is not caught leaves an entry where it is. -/
theorem Breaks.unclean (kept : state.Kept) (breaks : state.Breaks name event)
    (found : state.pending.get? (state.forwards name).corr = some name) :
    ¬ (state.next event).Clean name := by
  intro clean
  have known := (kept.entry found).1
  have left (phase : ForwardPhase) (done : phase = .returned ∨ phase = .abandoned)
      (stepped : state.next event = state.leave name phase) : False := by
    rw [stepped] at clean
    have same : (state.leave name phase).forwards name =
        { state.forwards name with phase := phase } := Function.update_self ..
    have gone := clean known (by rw [same]; exact done)
    rw [same] at gone
    change state.pending.get? (state.forwards name).corr = none at gone
    rw [found] at gone
    cases gone
  cases event with
  | engine | expired => exact breaks
  | raised forward =>
    obtain ⟨same, sending⟩ := breaks
    subst same
    exact left .returned (.inl rfl) (if_pos sending)
  | cancelled forward =>
    obtain ⟨same, active⟩ := breaks
    subst same
    cases active with
    | inl sending =>
      apply left .returned (.inl rfl)
      simp only [State.next, sending]
    | inr waiting =>
      by_cases unset : (state.forwards forward).future = .unsettled
      · apply left .abandoned (.inr rfl)
        simp only [State.next, waiting, if_pos unset]
      · apply left .returned (.inl rfl)
        simp only [State.next, waiting, if_neg unset]

/-! ### Whole runs -/

theorem hygienic_iff_orderly (events : List Event) : ∀ {state : State}, state.Kept →
    state.Clean name → (state.Hygienic name events ↔ state.Orderly name events) := by
  induction events with
  | nil =>
    intro state _ clean
    exact iff_of_true clean trivial
  | cons event events hypothesis =>
    intro state kept clean
    have effect := next_effect state event
    have later {rest : (state.next event).Clean name} :=
      hypothesis (kept.effect effect) rest
    constructor
    · intro hygienic
      obtain ⟨_, _, after⟩ := hygienic
      have cleaned : (state.next event).Clean name := by
        cases events with
        | nil => exact after
        | cons => exact after.1
      constructor
      · intro broken
        exact broken.1.unclean kept broken.2 cleaned
      · exact (@later cleaned).mp after
    · intro orderly
      have cleaned := clean.effect kept effect orderly.1
      constructor
      · exact clean
      constructor
      · intro known ended
        rw [clean.untouched kept effect known ended]
      · exact (@later cleaned).mpr orderly.2

theorem fresh_kept : fresh.Kept := by
  constructor
  · rfl
  · intro forward known
    cases known
  · intro corr forward found
    cases found
  · intro forward known
    cases known

/-- In every interleaving, a forward leaves nothing behind exactly when no exception that
`_forward` does not catch ends it while its entry is in the table. -/
theorem finished_forward_leaves_nothing_iff (name : Nat) (events : List Event) :
    fresh.Hygienic name events ↔ fresh.Orderly name events := by
  apply hygienic_iff_orderly events fresh_kept
  intro known
  cases known

/-- A frame that cannot be encoded: `send` raises `TypeError`, and the entry stays. -/
theorem unencodable_frame_stays_pending :
    ¬ ∀ name events, fresh.Hygienic name events := by
  intro hygienic
  have last := (hygienic 0 [.engine .bootCheck, .engine (.publish true), .engine (.start 0),
    .engine .forward, .raised 0]).2.2.2.2.2.2.2.2.2.2
  have gone := last (by decide) (.inl rfl)
  cases gone

end State

end Fantastic.Python.Engine

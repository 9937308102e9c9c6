import Fantastic.Foundation.MessageLoop
import Fantastic.Python.FrameCodec
import Fantastic.Python.SocketProxy

/-!
# What the read loop of a bridge survives

`_read_loop` of `io_bridge/_engine.py` over `WSTransport.recv`, message by message, while the
socket is open: everything the loop reads of a message, the table of pending forwards, and
the `finally` block. `recv` and the loop catch only the exceptions of a closed connection, so
any other exception ends the loop and fails every pending forward.

An arrival carries what `kernel.send` comes to, should the message have it called. No handler
of an `event` can raise into the loop.
-/

namespace Fantastic.Python.ReadLoop

open Fantastic.Bridge (Environment)
open Fantastic.Bridge.Python (IngressRule authorize)
open Socket (Handled field inboundAction denialData replyEnvelope)

/-- What stays the same while a loop runs. -/
structure Leg where
  env : Environment
  ingress : IngressRule
  decoder : Decoder
  /-- `str` of a value in an f-string. -/
  str : Value → String

structure Arrival where
  message : Message
  handled : Handled

inductive Result where
  | data (value : Value)
  | closed
  deriving DecidableEq

/-- `done` is `fut.done()`; `results` are the calls of `set_result` and `set_exception`. -/
structure State where
  alive : Bool
  pending : OrderedDict String Nat
  done : Nat → Bool
  results : List (Nat × Result)
  dispatched : List (Value × Value)
  sent : List Value
  events : List Value

namespace State

/-- The `finally` block. -/
def leave (state : State) : State :=
  { state with
    alive := false
    pending := .empty
    done := fun forward => state.done forward || decide (forward ∈ state.pending.items)
    results := state.results ++
      (state.pending.items.filter fun forward => !state.done forward).map (·, .closed) }

/-- `st.pending.pop(id, None)` and the result. No forward waits under an id that is not a
text. -/
def pop (state : State) (id data : Value) : State :=
  match hashKey id with
  | .error _ => state.leave
  | .ok (.str corr) =>
    match state.pending.get? corr with
    | none => state
    | some forward =>
      { state with
        pending := state.pending.erase corr
        done := Function.update state.done forward true
        results := if state.done forward then state.results
          else state.results ++ [(forward, .data data)] }
  | .ok _ => state

/-- The reply to an admitted call. -/
def reply (state : State) (id : Value) : Handled → State
  | .returned data => { state with sent := state.sent ++ [replyEnvelope id data] }
  | .unencodable _ => state.leave
  | .raised text =>
    { state with
      sent := state.sent ++
        [replyEnvelope id (.dict [("error", .str ("bridge: kernel.send raised: " ++ text))])] }

def dispatch (state : State) (target payload : Value) : State :=
  { state with dispatched := state.dispatched ++ [(target, payload)] }

/-- `frame.get("payload") or {}`. -/
def payloadOf (frame : List (String × Value)) : Value :=
  let payload := field frame "payload" .null
  if truthy payload then payload else .dict []

def onCall (leg : Leg) (state : State) (frame : List (String × Value)) (handled : Handled) :
    State :=
  let id := field frame "id" .null
  match authorize leg.env leg.ingress (inboundAction .call "call" frame) with
  | .error _ => state.leave
  | .ok decision =>
    if decision.allowed then
      (state.dispatch (field frame "target" .null) (payloadOf frame)).reply id handled
    else { state with sent := state.sent ++ [replyEnvelope id (denialData decision)] }

def onFrame (leg : Leg) (state : State) (frame : List (String × Value)) (handled : Handled) :
    State :=
  let id := field frame "id" .null
  match field frame "type" .null with
  | .str "call" => state.onCall leg frame handled
  | .str "reply" => state.pop id (field frame "data" .null)
  | .str "error" =>
    state.pop id (.dict
      [("error", .str ("remote error: " ++ leg.str (field frame "error" .null)))])
  | .str "event" => { state with events := state.events ++ [payloadOf frame] }
  | _ => state

def step (leg : Leg) (state : State) (arrival : Arrival) : State :=
  if state.alive then
    match decodeFrame leg.decoder arrival.message with
    | some (.dict frame) => state.onFrame leg frame arrival.handled
    | _ => state.leave
  else state

def run (leg : Leg) (state : State) (arrivals : List Arrival) : State :=
  arrivals.foldl (step leg) state

end State

/-! ### Harmless messages -/

/-- The loop goes on: the message decodes to a dictionary, a call passes the gate's own code
and has a reply that can be sent, and an id can be a key. -/
structure Harmless (leg : Leg) (arrival : Arrival) (frame : List (String × Value)) : Prop where
  decodes : decodeFrame leg.decoder arrival.message = some (.dict frame)
  call : field frame "type" .null = .str "call" →
    ∃ decision, authorize leg.env leg.ingress (inboundAction .call "call" frame) = .ok decision ∧
      (decision.allowed = true → ∀ text, arrival.handled ≠ .unencodable text)
  keyed : field frame "type" .null = .str "reply" ∨ field frame "type" .null = .str "error" →
    ∃ key, hashKey (field frame "id" .null) = .ok key

/-- The frame answers the forward of a correlation id. -/
def Takes (frame : List (String × Value)) (corr : String) : Prop :=
  (field frame "type" .null = .str "reply" ∨ field frame "type" .null = .str "error") ∧
    field frame "id" .null = .str corr

/-- A forward waits under its own id. -/
structure Waits (state : State) (corr : String) (forward : Nat) : Prop where
  held : state.pending.get? corr = some forward
  only : ∀ other, state.pending.get? other = some forward → other = corr
  waiting : state.done forward = false

/-- Nobody waits under the id any more. -/
def Gone (state : State) (corr : String) : Prop :=
  state.alive = false ∨ state.pending.get? corr = none

section

variable {leg : Leg} {state : State} {corr : String} {forward : Nat}

theorem pop_alive {id : Value} {key : DictKey} (hashed : hashKey id = .ok key) (data : Value) :
    (state.pop id data).alive = state.alive := by
  unfold State.pop
  rw [hashed]
  cases key with
  | str text =>
    dsimp only
    split <;> rfl
  | _ => rfl

theorem pop_unkeyed {id : Value} (unkeyed : ¬ ∃ key, hashKey id = .ok key) (data : Value) :
    (state.pop id data).alive = false := by
  unfold State.pop
  split
  case h_1 => rfl
  case h_2 hashed => exact absurd ⟨_, hashed⟩ unkeyed
  case h_3 hashed => exact absurd ⟨_, hashed⟩ unkeyed

theorem reply_alive {handled : Handled} (sendable : ∀ text, handled ≠ .unencodable text)
    (id : Value) : (state.reply id handled).alive = state.alive := by
  cases handled with
  | returned data => rfl
  | unencodable text => exact absurd rfl (sendable text)
  | raised text => rfl

/-- A frame is a call, an answer, or touches the events alone. -/
theorem onFrame_cases {motive : State → Prop} {frame : List (String × Value)} {handled : Handled}
    (call : field frame "type" .null = .str "call" → motive (state.onCall leg frame handled))
    (answer : field frame "type" .null = .str "reply" ∨ field frame "type" .null = .str "error" →
      ∀ data, motive (state.pop (field frame "id" .null) data))
    (other : field frame "type" .null ≠ .str "call" →
      ¬ (field frame "type" .null = .str "reply" ∨ field frame "type" .null = .str "error") →
      ∀ events, motive { state with events := events }) :
    motive (state.onFrame leg frame handled) := by
  unfold State.onFrame
  dsimp only
  split
  case h_1 same => exact call same
  case h_2 same => exact answer (.inl same) _
  case h_3 same => exact answer (.inr same) _
  case h_4 same => exact other (by simp [same]) (by simp [same]) _
  case h_5 called replied failed _ =>
      exact other called (fun answers => answers.elim replied failed) state.events

/-- A harmless message leaves the loop running. -/
theorem step_alive (living : state.alive = true) {arrival : Arrival}
    {frame : List (String × Value)} (harmless : Harmless leg arrival frame) :
    (state.step leg arrival).alive = true := by
  unfold State.step
  rw [if_pos living, harmless.decodes]
  apply onFrame_cases (motive := fun next => next.alive = true)
  · intro call
    obtain ⟨decision, decided, sendable⟩ := harmless.call call
    unfold State.onCall
    rw [decided]
    dsimp only
    split
    case isTrue allowed => exact (reply_alive (sendable allowed) _).trans living
    case isFalse => exact living
  · intro answers data
    obtain ⟨key, hashed⟩ := harmless.keyed answers
    exact (pop_alive hashed data).trans living
  · intro _ _ _
    exact living

/-- Any other message ends it. -/
theorem step_dead (living : state.alive = true) {arrival : Arrival}
    (harmful : ¬ ∃ frame, Harmless leg arrival frame) :
    (state.step leg arrival).alive = false := by
  unfold State.step
  rw [if_pos living]
  split
  case h_2 => rfl
  case h_1 frame decodes =>
      apply onFrame_cases (motive := fun next => next.alive = false)
      · intro call
        unfold State.onCall
        split
        case h_1 => rfl
        case h_2 decision decided =>
            have unsent : ∃ text, decision.allowed = true ∧
                arrival.handled = .unencodable text := by
              apply Classical.byContradiction
              intro sendable
              apply harmful
              refine ⟨frame, decodes, fun _ => ⟨decision, decided, ?_⟩, ?_⟩
              · intro allowed text same
                exact sendable ⟨text, allowed, same⟩
              · intro answers
                simp [call] at answers
            obtain ⟨text, allowed, handled⟩ := unsent
            rw [if_pos allowed, handled]
            rfl
      · intro answers data
        apply pop_unkeyed
        intro hashed
        refine harmful ⟨frame, decodes, fun call => ?_, fun _ => hashed⟩
        simp [call] at answers
      · intro call answers _
        exact absurd ⟨frame, decodes, (absurd · call), (absurd · answers)⟩ harmful

/-! ### The forward that waits -/

theorem leave_gone : Gone state.leave corr := .inl rfl

theorem hashKey_text {id : Value} {text : String} (hashed : hashKey id = .ok (.str text)) :
    id = .str text := by
  cases id <;> simp [hashKey] at hashed
  rw [hashed]

/-- A pop for another id leaves the forward where it is. -/
theorem Waits.pop (waits : Waits state corr forward) {id : Value} {key : DictKey}
    (hashed : hashKey id = .ok key) (other : id ≠ .str corr) (data : Value) :
    Waits (state.pop id data) corr forward := by
  unfold State.pop
  rw [hashed]
  cases key with
  | str text =>
    have different : corr ≠ text := by
      intro same
      exact other (same ▸ hashKey_text hashed)
    dsimp only
    split
    case h_1 => exact waits
    case h_2 popped found =>
        have apart : popped ≠ forward := by
          intro same
          exact different (waits.only text (same ▸ found)).symm
        constructor
        · rw [OrderedDict.get?_erase, if_neg different]
          exact waits.held
        · intro name there
          rw [OrderedDict.get?_erase] at there
          split at there
          · cases there
          · exact waits.only name there
        · exact (Function.update_of_ne (Ne.symm apart) true state.done).trans waits.waiting
  | _ => exact waits

theorem Waits.reply (waits : Waits state corr forward) (id : Value) {handled : Handled}
    (sendable : ∀ text, handled ≠ .unencodable text) :
    Waits (state.reply id handled) corr forward := by
  cases handled with
  | returned data => exact ⟨waits.held, waits.only, waits.waiting⟩
  | unencodable text => exact absurd rfl (sendable text)
  | raised text => exact ⟨waits.held, waits.only, waits.waiting⟩

/-- A harmless message for somebody else leaves the forward where it is. -/
theorem Waits.step (living : state.alive = true) (waits : Waits state corr forward)
    {arrival : Arrival} {frame : List (String × Value)} (harmless : Harmless leg arrival frame)
    (other : ¬ Takes frame corr) : Waits (state.step leg arrival) corr forward := by
  unfold State.step
  rw [if_pos living, harmless.decodes]
  apply onFrame_cases (motive := fun next => Waits next corr forward)
  · intro call
    obtain ⟨decision, decided, sendable⟩ := harmless.call call
    unfold State.onCall
    rw [decided]
    dsimp only
    split
    case isTrue allowed =>
        have onward : Waits (state.dispatch (field frame "target" .null)
            (State.payloadOf frame)) corr forward := ⟨waits.held, waits.only, waits.waiting⟩
        exact onward.reply _ (sendable allowed)
    case isFalse => exact ⟨waits.held, waits.only, waits.waiting⟩
  · intro answers data
    obtain ⟨key, hashed⟩ := harmless.keyed answers
    exact waits.pop hashed (fun own => other ⟨answers, own⟩) data
  · intro _ _ _
    exact ⟨waits.held, waits.only, waits.waiting⟩

/-- A pop never puts anybody into the table. -/
theorem Gone.pop (gone : Gone state corr) (id data : Value) : Gone (state.pop id data) corr := by
  unfold State.pop
  split
  case h_1 => exact .inl rfl
  case h_2 text _ =>
      split
      case h_1 => exact gone
      case h_2 =>
          cases gone with
          | inl dead => exact .inl dead
          | inr absent =>
            right
            rw [OrderedDict.get?_erase, absent]
            exact ite_self none
  case h_3 => exact gone

theorem pop_gone (data : Value) : Gone (state.pop (.str corr) data) corr := by
  unfold State.pop
  simp only [hashKey]
  split
  case h_1 absent => exact .inr absent
  case h_2 =>
      right
      rw [OrderedDict.get?_erase, if_pos rfl]

theorem Gone.reply (gone : Gone state corr) (id : Value) (handled : Handled) :
    Gone (state.reply id handled) corr := by
  cases handled with
  | returned data => exact gone
  | unencodable text => exact leave_gone
  | raised text => exact gone

/-- A reply or an error with the id of the forward takes it out of the table. -/
theorem step_takes (living : state.alive = true) {arrival : Arrival}
    {frame : List (String × Value)}
    (decodes : decodeFrame leg.decoder arrival.message = some (.dict frame))
    (takes : Takes frame corr) : Gone (state.step leg arrival) corr := by
  obtain ⟨answers, own⟩ := takes
  unfold State.step State.onFrame
  rw [if_pos living, decodes]
  dsimp only
  rw [own]
  cases answers with
  | inl reply =>
    rw [reply]
    exact pop_gone _
  | inr error =>
    rw [error]
    exact pop_gone _

theorem Gone.step (gone : Gone state corr) (arrival : Arrival) :
    Gone (state.step leg arrival) corr := by
  unfold State.step
  split
  case isFalse => exact gone
  case isTrue =>
      split
      case h_2 => exact leave_gone
      case h_1 frame _ =>
          apply onFrame_cases (motive := fun next => Gone next corr)
          · intro _
            unfold State.onCall
            split
            · exact leave_gone
            · split
              · have onward : Gone (state.dispatch (field frame "target" .null)
                    (State.payloadOf frame)) corr := gone
                exact onward.reply _ _
              · exact gone
          · exact fun _ => gone.pop _
          · exact fun _ _ _ => gone

end

/-! ### What comes after -/

/-- A call that the leg admits. -/
structure GoodCall (leg : Leg) (arrival : Arrival) (frame : List (String × Value)) : Prop where
  decodes : decodeFrame leg.decoder arrival.message = some (.dict frame)
  call : field frame "type" .null = .str "call"
  admitted : ∃ decision,
    authorize leg.env leg.ingress (inboundAction .call "call" frame) = .ok decision ∧
      decision.allowed = true

structure GoodReply (leg : Leg) (arrival : Arrival) (frame : List (String × Value))
    (corr : String) : Prop where
  decodes : decodeFrame leg.decoder arrival.message = some (.dict frame)
  reply : field frame "type" .null = .str "reply"
  own : field frame "id" .null = .str corr

/-- After the messages the call is handed to the kernel. -/
def Dispatches (leg : Leg) (state : State) (bad : List Arrival) (call : Arrival)
    (frame : List (String × Value)) : Prop :=
  ((state.run leg bad).step leg call).dispatched =
    (state.run leg bad).dispatched ++ [(field frame "target" .null, State.payloadOf frame)]

/-- After the messages the reply completes the forward with its data. -/
def Completes (leg : Leg) (state : State) (bad : List Arrival) (reply : Arrival)
    (frame : List (String × Value)) (forward : Nat) : Prop :=
  ((state.run leg bad).step leg reply).results =
    (state.run leg bad).results ++ [(forward, .data (field frame "data" .null))]

section

variable {leg : Leg} {state : State} {corr : String} {forward : Nat} {arrival : Arrival}
  {frame : List (String × Value)}

theorem reply_dispatched (id : Value) (handled : Handled) :
    (state.reply id handled).dispatched = state.dispatched := by
  cases handled <;> rfl

theorem GoodCall.dispatched (good : GoodCall leg arrival frame) (living : state.alive = true) :
    (state.step leg arrival).dispatched =
      state.dispatched ++ [(field frame "target" .null, State.payloadOf frame)] := by
  obtain ⟨decision, decided, allowed⟩ := good.admitted
  unfold State.step
  rw [if_pos living, good.decodes]
  simp only [State.onFrame, good.call, State.onCall, decided, allowed, if_true]
  exact reply_dispatched _ _

theorem GoodReply.completes (good : GoodReply leg arrival frame corr)
    (living : state.alive = true) (waits : Waits state corr forward) :
    (state.step leg arrival).results =
      state.results ++ [(forward, .data (field frame "data" .null))] := by
  unfold State.step
  rw [if_pos living, good.decodes]
  simp [State.onFrame, good.reply, good.own, State.pop, hashKey, waits.held, waits.waiting]

theorem GoodReply.ignored (good : GoodReply leg arrival frame corr) (gone : Gone state corr) :
    (state.step leg arrival).results = state.results := by
  unfold State.step
  split
  case isFalse => rfl
  case isTrue living =>
      cases gone with
      | inl dead =>
        rw [living] at dead
        cases dead
      | inr absent =>
        rw [good.decodes]
        simp [State.onFrame, good.reply, good.own, State.pop, hashKey, absent]

theorem step_of_dead (dead : state.alive = false) : state.step leg arrival = state := by
  unfold State.step
  rw [if_neg (ne_true_of_eq_false dead)]

/-- A good call is dispatched exactly after a sequence of harmless messages. -/
theorem dispatches_iff (living : state.alive = true) {call : Arrival}
    (good : GoodCall leg call frame) (bad : List Arrival) :
    Dispatches leg state bad call frame ↔
      ∀ arrival ∈ bad, ∃ frame, Harmless leg arrival frame := by
  have stays (next : State) (arrival : Arrival) (alive : next.alive = true)
      (fine : ∃ frame, Harmless leg arrival frame) : (next.step leg arrival).alive = true := by
    obtain ⟨frame, harmless⟩ := fine
    exact step_alive alive harmless
  have ends (next : State) (arrival : Arrival) (alive : next.alive = true) :
      ¬ (∃ frame, Harmless leg arrival frame) → (next.step leg arrival).alive = false :=
    step_dead alive
  have ended (next : State) (arrival : Arrival) (dead : next.alive = false) :
      (next.step leg arrival).alive = false := (step_of_dead dead).symm ▸ dead
  have shows (next : State) (alive : next.alive = true) :
      (next.step leg call).dispatched =
        next.dispatched ++ [(field frame "target" .null, State.payloadOf frame)] :=
    good.dispatched alive
  have hidden (next : State) (dead : next.alive = false) :
      ¬ (next.step leg call).dispatched =
        next.dispatched ++ [(field frame "target" .null, State.payloadOf frame)] := by
    rw [step_of_dead dead]
    simp
  exact MessageLoop.shows_iff stays ends ended shows hidden bad state living

/-- The forward is completed exactly after harmless messages that do not take it. -/
theorem forward_completes_iff (living : state.alive = true) (waits : Waits state corr forward)
    {reply : Arrival} (answer : GoodReply leg reply frame corr) (bad : List Arrival) :
    Completes leg state bad reply frame forward ↔
      ∀ arrival ∈ bad, ∃ frame, Harmless leg arrival frame ∧ ¬ Takes frame corr := by
  have stays (next : State) (arrival : Arrival)
      (alive : next.alive = true ∧ Waits next corr forward)
      (fine : ∃ frame, Harmless leg arrival frame ∧ ¬ Takes frame corr) :
      (next.step leg arrival).alive = true ∧ Waits (next.step leg arrival) corr forward := by
    obtain ⟨frame, harmless, other⟩ := fine
    exact ⟨step_alive alive.1 harmless, alive.2.step alive.1 harmless other⟩
  have ends (next : State) (arrival : Arrival)
      (alive : next.alive = true ∧ Waits next corr forward)
      (harmful : ¬ ∃ frame, Harmless leg arrival frame ∧ ¬ Takes frame corr) :
      Gone (next.step leg arrival) corr := by
    by_cases fine : ∃ frame, Harmless leg arrival frame
    · obtain ⟨frame, harmless⟩ := fine
      apply step_takes alive.1 harmless.decodes
      apply Classical.byContradiction
      intro other
      exact harmful ⟨frame, harmless, other⟩
    · exact .inl (step_dead alive.1 fine)
  have ended (next : State) (arrival : Arrival) (gone : Gone next corr) :
      Gone (next.step leg arrival) corr := gone.step arrival
  have shows (next : State) (alive : next.alive = true ∧ Waits next corr forward) :
      (next.step leg reply).results =
        next.results ++ [(forward, .data (field frame "data" .null))] :=
    answer.completes alive.1 alive.2
  have hidden (next : State) (gone : Gone next corr) : ¬ (next.step leg reply).results =
      next.results ++ [(forward, .data (field frame "data" .null))] := by
    rw [answer.ignored gone]
    simp
  exact MessageLoop.shows_iff stays ends ended shows hidden bad state ⟨living, waits⟩

end

end Fantastic.Python.ReadLoop

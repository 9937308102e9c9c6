import Fantastic.Bridge.IngressRules
import Fantastic.Foundation.MessageLoop
import Fantastic.Rust.Codec
import Mathlib.Logic.Function.Basic

/-!
# What the read loop of a Rust bridge survives

`read_loop` of `fantastic-bridge` over the `recv_frame` of its WebSocket transport, message by
message, while the socket is open. A message that does not decode comes out of the transport
as an error, and the loop ends on any error; a member that is missing or of another type has
a default.

An arrival carries the data and the body that the kernel answers, should the message have it
called. What the loop sends it sends without looking at the outcome.
-/

namespace Fantastic.Rust.ReadLoop

open Fantastic.Bridge (Environment Action)
open Fantastic.Bridge.Rust (IngressRule authorize)

inductive Message where
  | text (text : String)
  | binary (data : Bytes)
  deriving DecidableEq

/-- The reader task of the transport: the envelope, the body, and whether the frame is
binary. -/
def decode (serde : Serde) : Message → Option (Value × Bytes × Bool)
  | .text text => (serde.fromSlice (utf8 text)).map fun envelope => (envelope, [], false)
  | .binary data => (decodeBinaryFrame serde data).map fun frame => (frame.1, frame.2, true)

structure Leg where
  env : Environment
  ingress : IngressRule
  serde : Serde

structure Arrival where
  message : Message
  data : Value
  body : Bytes

inductive Posted where
  | reply (data : Value) (body : Bytes)
  | error (text : String)

/-- `listens`: the receiver of the forward's oneshot is still there. -/
structure State where
  alive : Bool
  pending : OrderedDict String Nat
  listens : Nat → Bool
  posted : List (Nat × Posted)
  dispatched : List (String × Value × Bytes)
  sent : List (Value × Bytes)
  events : List Value

def typeOf (frame : Value) : String :=
  (asStr (field frame "type")).getD ""

/-- `json!({"type":"reply","id":…,"data":…})`. -/
def replyEnvelope (id data : Value) : Value :=
  .dict [("type", .str "reply"), ("id", id), ("data", data)]

namespace State

/-- The end of the loop: every pending sender is drained with an error. -/
def leave (state : State) : State :=
  { state with
    alive := false
    pending := .empty
    posted := state.posted ++ (state.pending.items.filter state.listens).map
      (·, .error "bridge transport closed") }

def send (state : State) (envelope : Value) (body : Bytes) : State :=
  { state with sent := state.sent ++ [(envelope, body)] }

/-- `pending.remove(id)` and `tx.send`. -/
def post (state : State) (id : Option String) (posted : Posted) : State :=
  match id with
  | none => state
  | some corr =>
    match state.pending.get? corr with
    | none => state
    | some forward =>
      { state with
        pending := state.pending.erase corr
        posted := if state.listens forward then state.posted ++ [(forward, posted)]
          else state.posted }

def targetOf (frame : Value) : String :=
  (asStr (field frame "target")).getD ""

def innerOf (frame : Value) : Value :=
  (field frame "payload").getD .null

/-- The action the leg's rule is asked about. -/
def inboundAction (frame : Value) : Action where
  kind := .call
  target := targetOf frame
  verb := typeOf (innerOf frame)
  payload := .empty
  token := asStr (field frame "auth_token")

/-- The reply to a dispatched call: a binary frame when the kernel answers with a body. -/
def answer (state : State) (id : Value) (arrival : Arrival) (isBinary : Bool) : State :=
  if isBinary ∧ arrival.body ≠ [] then
    state.send (.dict [("type", .str "reply"), ("id", id), ("data", arrival.data),
      ("_binary_path", .str "data.bytes")]) arrival.body
  else state.send (replyEnvelope id arrival.data) []

def onCall (leg : Leg) (state : State) (frame : Value) (body : Bytes) (isBinary : Bool)
    (arrival : Arrival) : State :=
  let corr := (field frame "id").getD .null
  if targetOf frame = "" then
    state.send (replyEnvelope corr (.dict [("error", .str "bridge: empty call target")])) []
  else
    match authorize leg.env leg.ingress (inboundAction frame) with
    | .deny reason =>
      state.send (replyEnvelope corr
        (.dict [("error", .str reason), ("reason", .str "unauthorized")])) []
    | .allow =>
      ({ state with
        dispatched := state.dispatched ++ [(targetOf frame, innerOf frame, body)] } :
        State).answer corr arrival isBinary

def onFrame (leg : Leg) (state : State) (frame : Value) (body : Bytes) (isBinary : Bool)
    (arrival : Arrival) : State :=
  match typeOf frame with
  | "call" => state.onCall leg frame body isBinary arrival
  | "event" => { state with events := state.events ++ [innerOf frame] }
  | "reply" =>
    state.post (asStr (field frame "id")) (.reply ((field frame "data").getD .null) body)
  | "error" =>
    state.post (asStr (field frame "id"))
      (.error ((asStr (field frame "error")).getD "remote error"))
  | _ => state

def step (leg : Leg) (state : State) (arrival : Arrival) : State :=
  if state.alive then
    match decode leg.serde arrival.message with
    | some (frame, body, isBinary) => state.onFrame leg frame body isBinary arrival
    | none => state.leave
  else state

def run (leg : Leg) (state : State) (arrivals : List Arrival) : State :=
  arrivals.foldl (step leg) state

end State

/-! ### Messages and forwards -/

def Harmless (leg : Leg) (arrival : Arrival) : Prop :=
  decode leg.serde arrival.message ≠ none

/-- The message answers the forward of a correlation id. -/
def Takes (leg : Leg) (arrival : Arrival) (corr : String) : Prop :=
  ∃ frame body isBinary, decode leg.serde arrival.message = some (frame, body, isBinary) ∧
    (typeOf frame = "reply" ∨ typeOf frame = "error") ∧
    asStr (field frame "id") = some corr

structure Waits (state : State) (corr : String) (forward : Nat) : Prop where
  held : state.pending.get? corr = some forward
  listens : state.listens forward = true

def Gone (state : State) (corr : String) : Prop :=
  state.alive = false ∨ state.pending.get? corr = none

section

variable {leg : Leg} {state : State} {corr : String} {forward : Nat} {arrival : Arrival}

/-- What a frame leaves of the loop's own state: it goes on, and only an answer with the id of
a pending forward takes something out of the table. -/
theorem post_fields (id : Option String) (posted : Posted) :
    (state.post id posted).alive = state.alive ∧
      (state.post id posted).listens = state.listens ∧
      ∀ other, some other ≠ id →
        (state.post id posted).pending.get? other = state.pending.get? other := by
  unfold State.post
  split
  case h_1 => exact ⟨rfl, rfl, fun _ _ => rfl⟩
  case h_2 name =>
      split
      case h_1 => exact ⟨rfl, rfl, fun _ _ => rfl⟩
      case h_2 =>
          refine ⟨rfl, rfl, ?_⟩
          intro other different
          rw [OrderedDict.get?_erase, if_neg]
          intro same
          exact different (congrArg some same)

theorem post_own (posted : Posted) :
    (state.post (some corr) posted).pending.get? corr = none := by
  unfold State.post
  dsimp only
  split
  case h_1 absent => exact absent
  case h_2 => rw [OrderedDict.get?_erase, if_pos rfl]

theorem answer_fields (id : Value) (isBinary : Bool) :
    (state.answer id arrival isBinary).alive = state.alive ∧
      (state.answer id arrival isBinary).listens = state.listens ∧
      (state.answer id arrival isBinary).pending = state.pending := by
  unfold State.answer
  split <;> exact ⟨rfl, rfl, rfl⟩

theorem onCall_fields (frame : Value) (body : Bytes) (isBinary : Bool) :
    (state.onCall leg frame body isBinary arrival).alive = state.alive ∧
      (state.onCall leg frame body isBinary arrival).listens = state.listens ∧
      (state.onCall leg frame body isBinary arrival).pending = state.pending := by
  unfold State.onCall
  dsimp only
  split
  · exact ⟨rfl, rfl, rfl⟩
  · split
    · exact ⟨rfl, rfl, rfl⟩
    · exact answer_fields _ isBinary

/-- A frame that decodes leaves the loop running and takes at most the forward it names. -/
theorem onFrame_fields (frame : Value) (body : Bytes) (isBinary : Bool) :
    (state.onFrame leg frame body isBinary arrival).alive = state.alive ∧
      (state.onFrame leg frame body isBinary arrival).listens = state.listens ∧
      ∀ other, ¬ ((typeOf frame = "reply" ∨ typeOf frame = "error") ∧
          asStr (field frame "id") = some other) →
        (state.onFrame leg frame body isBinary arrival).pending.get? other =
          state.pending.get? other := by
  unfold State.onFrame
  split
  case h_1 =>
      obtain ⟨alive, listens, pending⟩ := @onCall_fields leg state arrival frame body isBinary
      exact ⟨alive, listens, fun other _ => congrArg (·.get? other) pending⟩
  case h_2 => exact ⟨rfl, rfl, fun _ _ => rfl⟩
  case h_3 reply =>
      obtain ⟨alive, listens, pending⟩ := @post_fields state (asStr (field frame "id"))
        (.reply ((field frame "data").getD .null) body)
      exact ⟨alive, listens, fun other elsewhere =>
        pending other fun same => elsewhere ⟨.inl reply, same.symm⟩⟩
  case h_4 error =>
      obtain ⟨alive, listens, pending⟩ := @post_fields state (asStr (field frame "id"))
        (.error ((asStr (field frame "error")).getD "remote error"))
      exact ⟨alive, listens, fun other elsewhere =>
        pending other fun same => elsewhere ⟨.inr error, same.symm⟩⟩
  case h_5 => exact ⟨rfl, rfl, fun _ _ => rfl⟩

theorem onFrame_takes {frame : Value} (body : Bytes) (isBinary : Bool)
    (answers : typeOf frame = "reply" ∨ typeOf frame = "error")
    (own : asStr (field frame "id") = some corr) :
    (state.onFrame leg frame body isBinary arrival).pending.get? corr = none := by
  unfold State.onFrame
  rw [own]
  cases answers with
  | inl reply =>
    rw [reply]
    exact post_own _
  | inr error =>
    rw [error]
    exact post_own _

theorem step_of_dead (dead : state.alive = false) : state.step leg arrival = state := by
  unfold State.step
  rw [if_neg (ne_true_of_eq_false dead)]

theorem step_alive_iff (living : state.alive = true) :
    (state.step leg arrival).alive = true ↔ Harmless leg arrival := by
  unfold State.step Harmless
  rw [if_pos living]
  cases decoded : decode leg.serde arrival.message with
  | none => simp [State.leave]
  | some frame =>
    have fields := @onFrame_fields leg state arrival frame.1 frame.2.1 frame.2.2
    simp [fields.1, living]

theorem Waits.step (living : state.alive = true) (waits : Waits state corr forward)
    (harmless : Harmless leg arrival) (other : ¬ Takes leg arrival corr) :
    Waits (state.step leg arrival) corr forward := by
  unfold State.step
  rw [if_pos living]
  cases decoded : decode leg.serde arrival.message with
  | none => exact absurd decoded harmless
  | some frame =>
    obtain ⟨_, listens, pending⟩ :=
      @onFrame_fields leg state arrival frame.1 frame.2.1 frame.2.2
    constructor
    · refine (pending corr ?_).trans waits.held
      intro takes
      exact other ⟨frame.1, frame.2.1, frame.2.2, decoded, takes⟩
    · exact (congrFun listens forward).trans waits.listens

theorem Gone.step (gone : Gone state corr) (arrival : Arrival) :
    Gone (state.step leg arrival) corr := by
  unfold State.step
  split
  case isFalse => exact gone
  case isTrue living =>
      cases gone with
      | inl dead =>
        rw [living] at dead
        cases dead
      | inr absent =>
        split
        case h_2 => exact .inl rfl
        case h_1 frame body isBinary _ =>
            right
            by_cases takes : (typeOf frame = "reply" ∨ typeOf frame = "error") ∧
                asStr (field frame "id") = some corr
            · exact onFrame_takes body isBinary takes.1 takes.2
            · exact ((onFrame_fields frame body isBinary).2.2 corr takes).trans absent

theorem step_takes (living : state.alive = true) (takes : Takes leg arrival corr) :
    Gone (state.step leg arrival) corr := by
  obtain ⟨frame, body, isBinary, decoded, answers, own⟩ := takes
  unfold State.step
  rw [if_pos living, decoded]
  exact .inr (onFrame_takes body isBinary answers own)

end

/-! ### What comes after -/

/-- A call with a target that the leg admits. -/
structure GoodCall (leg : Leg) (arrival : Arrival) (frame : Value) (body : Bytes) : Prop where
  decodes : ∃ isBinary, decode leg.serde arrival.message = some (frame, body, isBinary)
  call : typeOf frame = "call"
  target : State.targetOf frame ≠ ""
  admitted : authorize leg.env leg.ingress (State.inboundAction frame) = .allow

structure GoodReply (leg : Leg) (arrival : Arrival) (frame : Value) (body : Bytes)
    (corr : String) : Prop where
  decodes : ∃ isBinary, decode leg.serde arrival.message = some (frame, body, isBinary)
  reply : typeOf frame = "reply"
  own : asStr (field frame "id") = some corr

/-- After the messages the call is handed to the kernel. -/
def Dispatches (leg : Leg) (state : State) (bad : List Arrival) (call : Arrival) (frame : Value)
    (body : Bytes) : Prop :=
  ((state.run leg bad).step leg call).dispatched =
    (state.run leg bad).dispatched ++ [(State.targetOf frame, State.innerOf frame, body)]

/-- After the messages the reply completes the forward with its data. -/
def Completes (leg : Leg) (state : State) (bad : List Arrival) (reply : Arrival) (frame : Value)
    (body : Bytes) (forward : Nat) : Prop :=
  ((state.run leg bad).step leg reply).posted =
    (state.run leg bad).posted ++ [(forward, .reply ((field frame "data").getD .null) body)]

section

variable {leg : Leg} {state : State} {corr : String} {forward : Nat} {arrival : Arrival}
  {frame : Value} {body : Bytes}

theorem answer_dispatched (id : Value) (isBinary : Bool) :
    (state.answer id arrival isBinary).dispatched = state.dispatched := by
  unfold State.answer
  split <;> rfl

theorem GoodCall.dispatched (good : GoodCall leg arrival frame body)
    (living : state.alive = true) :
    (state.step leg arrival).dispatched =
      state.dispatched ++ [(State.targetOf frame, State.innerOf frame, body)] := by
  obtain ⟨isBinary, decoded⟩ := good.decodes
  unfold State.step
  rw [if_pos living, decoded]
  simp only [State.onFrame, good.call, State.onCall, good.target, if_false, good.admitted]
  exact answer_dispatched _ _

theorem GoodReply.completes (good : GoodReply leg arrival frame body corr)
    (living : state.alive = true) (waits : Waits state corr forward) :
    (state.step leg arrival).posted =
      state.posted ++ [(forward, .reply ((field frame "data").getD .null) body)] := by
  obtain ⟨isBinary, decoded⟩ := good.decodes
  unfold State.step
  rw [if_pos living, decoded]
  simp [State.onFrame, good.reply, good.own, State.post, waits.held, waits.listens]

theorem GoodReply.ignored (good : GoodReply leg arrival frame body corr)
    (gone : Gone state corr) : (state.step leg arrival).posted = state.posted := by
  obtain ⟨isBinary, decoded⟩ := good.decodes
  unfold State.step
  split
  case isFalse => rfl
  case isTrue living =>
      cases gone with
      | inl dead =>
        rw [living] at dead
        cases dead
      | inr absent =>
        rw [decoded]
        simp [State.onFrame, good.reply, good.own, State.post, absent]

/-- A good call is dispatched exactly after a sequence of messages that decode. -/
theorem dispatches_iff (living : state.alive = true) {call : Arrival}
    (good : GoodCall leg call frame body) (bad : List Arrival) :
    Dispatches leg state bad call frame body ↔ ∀ arrival ∈ bad, Harmless leg arrival := by
  have stays (next : State) (arrival : Arrival) (alive : next.alive = true)
      (fine : Harmless leg arrival) : (next.step leg arrival).alive = true :=
    (step_alive_iff alive).mpr fine
  have ends (next : State) (arrival : Arrival) (alive : next.alive = true)
      (harmful : ¬ Harmless leg arrival) : (next.step leg arrival).alive = false :=
    Bool.eq_false_iff.mpr fun still => harmful ((step_alive_iff alive).mp still)
  have ended (next : State) (arrival : Arrival) (dead : next.alive = false) :
      (next.step leg arrival).alive = false := (step_of_dead dead).symm ▸ dead
  have shows (next : State) (alive : next.alive = true) : (next.step leg call).dispatched =
      next.dispatched ++ [(State.targetOf frame, State.innerOf frame, body)] :=
    good.dispatched alive
  have hidden (next : State) (dead : next.alive = false) : ¬ (next.step leg call).dispatched =
      next.dispatched ++ [(State.targetOf frame, State.innerOf frame, body)] := by
    rw [step_of_dead dead]
    simp
  exact MessageLoop.shows_iff stays ends ended shows hidden bad state living

/-- The forward is completed exactly after messages that decode and do not take it. -/
theorem forward_completes_iff (living : state.alive = true) (waits : Waits state corr forward)
    {reply : Arrival} (answer : GoodReply leg reply frame body corr) (bad : List Arrival) :
    Completes leg state bad reply frame body forward ↔
      ∀ arrival ∈ bad, Harmless leg arrival ∧ ¬ Takes leg arrival corr := by
  have stays (next : State) (arrival : Arrival)
      (alive : next.alive = true ∧ Waits next corr forward)
      (fine : Harmless leg arrival ∧ ¬ Takes leg arrival corr) :
      (next.step leg arrival).alive = true ∧ Waits (next.step leg arrival) corr forward :=
    ⟨(step_alive_iff alive.1).mpr fine.1, alive.2.step alive.1 fine.1 fine.2⟩
  have ends (next : State) (arrival : Arrival)
      (alive : next.alive = true ∧ Waits next corr forward)
      (harmful : ¬ (Harmless leg arrival ∧ ¬ Takes leg arrival corr)) :
      Gone (next.step leg arrival) corr := by
    by_cases fine : Harmless leg arrival
    · apply step_takes alive.1
      apply Classical.byContradiction
      intro other
      exact harmful ⟨fine, other⟩
    · exact .inl (Bool.eq_false_iff.mpr fun still => fine ((step_alive_iff alive.1).mp still))
  have ended (next : State) (arrival : Arrival) (gone : Gone next corr) :
      Gone (next.step leg arrival) corr := gone.step arrival
  have shows (next : State) (alive : next.alive = true ∧ Waits next corr forward) :
      (next.step leg reply).posted =
        next.posted ++ [(forward, .reply ((field frame "data").getD .null) body)] :=
    answer.completes alive.1 alive.2
  have hidden (next : State) (gone : Gone next corr) : ¬ (next.step leg reply).posted =
      next.posted ++ [(forward, .reply ((field frame "data").getD .null) body)] := by
    rw [answer.ignored gone]
    simp
  exact MessageLoop.shows_iff stays ends ended shows hidden bad state ⟨living, waits⟩

end

end Fantastic.Rust.ReadLoop

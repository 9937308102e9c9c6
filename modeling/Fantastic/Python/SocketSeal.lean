import Fantastic.Python.SocketProxy

/-!
# A sealed connection

With `deny_inbound` on the leg, a connection is a machine that knows nothing of the kernel:
it answers calls with one and the same denial. The proxy is that machine as long as nobody
else uses its client id. The id is drawn at random, and the inbox under it is taken as it
is found.
-/

namespace Fantastic.Python.Socket

open Fantastic.Bridge (Environment)
open Fantastic.Bridge.Python (IngressRule authorize authorizeDenyInbound resolveIngress)

/-! ### The machine without a kernel -/

/-- The reply to every call on a sealed leg. -/
def sealedReply (id : Value) : Value :=
  replyEnvelope id (denialData (authorizeDenyInbound ⟨.call, "", "", .empty, none⟩))

namespace Session

def sealedLeave (session : Session) : Session :=
  if session.settled then { session with phase := .ended, draining := false, unsubs := [] }
  else { session with phase := .closing, draining := false }

def sealedFrame (session : Session) : Value → Session
  | .dict frame =>
    match field frame "type" .null with
    | .str "call" => session.spawnCall frame
    | .str "unwatch" =>
      match hashKey (field frame "src" (.str "")) with
      | .error _ => session.sealedLeave
      | .ok _ => session
    | .list _ => session.sealedLeave
    | .dict _ => session.sealedLeave
    | _ => session
  | _ => session.sealedLeave

def sealedStep (session : Session) : Move → Session
  | .receive frame =>
    if session.phase = .reading then
      match frame with
      | none => session.sealedLeave
      | some value => session.sealedFrame value
    else session
  | .disconnect => if session.phase = .reading then session.sealedLeave else session
  | .callStart number =>
    if (session.calls number).phase = .spawned ∧ session.phase ≠ .closing then
      session.beginSend number (sealedReply (session.calls number).id)
    else session
  | .sent number =>
    match (session.calls number).phase with
    | .sending envelope => session.finishSend number envelope
    | _ => session
  | .sendFailed number =>
    match (session.calls number).phase with
    | .sending _ => ({ session with link := false } : Session).endCall number .unsent
    | _ => session
  | .callCancelled number =>
    if session.phase = .closing ∧ (session.calls number).phase.isOver = false then
      session.endCall number (session.calls number).phase.cut
    else session
  | .linkLost => { session with link := false }
  | .gathered =>
    if session.phase = .closing ∧ session.settled = true then
      { session with phase := .ended, unsubs := [] }
    else session
  | .cancelRun =>
    match session.phase with
    | .reading | .subscribing => session.sealedLeave
    | .closing => { session with phase := .aborted }
    | _ => session
  | _ => session

def sealedRun (session : Session) (moves : List Move) : Session :=
  moves.foldl sealedStep session

end Session

/-- A move of the connection or of its peer, and none of the rest of the kernel. -/
def Move.own : Move → Bool
  | .traffic _ _ | .create _ | .delete _ | .update _ | .otherWatch _ _ | .otherUnwatch _ _
  | .telemetry _ => false
  | _ => true

theorem sealedRun_own (moves : List Move) : ∀ session : Session,
    session.sealedRun moves = session.sealedRun (moves.filter Move.own) := by
  induction moves with
  | nil =>
    intro session
    rfl
  | cons move moves hypothesis =>
    intro session
    cases own : move.own with
    | true =>
      rw [List.filter_cons_of_pos own]
      exact hypothesis (session.sealedStep move)
    | false =>
      rw [List.filter_cons_of_neg (by simp [own]), ← hypothesis session]
      cases move <;> first | rfl | cases own

/-! ### What it does -/

/-- Whatever is sent is a denial. -/
structure Session.Denying (session : Session) : Prop where
  sending : ∀ number envelope, (session.calls number).phase = .sending envelope →
    ∃ id, envelope = sealedReply id
  effects : ∀ effect ∈ session.effects, ∃ id, effect = .sent (sealedReply id)

theorem fresh_denying : Session.fresh.Denying where
  sending := nofun
  effects := nofun

namespace Session

variable {session : Session} {move : Move}

theorem Denying.same {other : Session} (denying : session.Denying)
    (calls : other.calls = session.calls) (effects : other.effects = session.effects) :
    other.Denying := by
  constructor
  · rw [calls]
    exact denying.sending
  · rw [effects]
    exact denying.effects

theorem Denying.setCall (denying : session.Denying) {number : Nat} {call : Call}
    (fine : ∀ envelope, call.phase = .sending envelope → ∃ id, envelope = sealedReply id) :
    (session.setCall number call).Denying := by
  refine ⟨?_, denying.effects⟩
  intro other envelope
  simp only [Session.setCall, Function.update_apply]
  split
  · exact fine envelope
  · exact denying.sending other envelope

theorem Denying.endCall (denying : session.Denying) (number : Nat) (ending : Ending) :
    (session.endCall number ending).Denying :=
  denying.setCall nofun

theorem Denying.sealedLeave (denying : session.Denying) : session.sealedLeave.Denying := by
  unfold Session.sealedLeave
  split
  · exact denying.same rfl rfl
  · exact denying.same rfl rfl

theorem Denying.spawnCall (denying : session.Denying) (frame : List (String × Value)) :
    (session.spawnCall frame).Denying := by
  have spawned : (session.setCall session.spawned
      { frame := frame, phase := .spawned, answers := 0 }).Denying := denying.setCall nofun
  exact spawned.same rfl rfl

theorem Denying.sealedFrame (denying : session.Denying) (value : Value) :
    (session.sealedFrame value).Denying := by
  unfold Session.sealedFrame
  split
  · split
    · exact denying.spawnCall _
    · split
      · exact denying.sealedLeave
      · exact denying
    · exact denying.sealedLeave
    · exact denying.sealedLeave
    · exact denying
  · exact denying.sealedLeave

theorem Denying.finishSend (denying : session.Denying) {number : Nat} {envelope : Value}
    (sending : (session.calls number).phase = .sending envelope) :
    (session.finishSend number envelope).Denying := by
  obtain ⟨id, denial⟩ := denying.sending number envelope sending
  have logged : (session.log (.sent envelope)).Denying := by
    refine ⟨denying.sending, ?_⟩
    intro effect listed
    rcases List.mem_append.mp listed with old | new
    · exact denying.effects effect old
    · rw [List.mem_singleton.mp new, denial]
      exact ⟨id, rfl⟩
  exact logged.setCall nofun

theorem Denying.sealedStep (denying : session.Denying) (move : Move) :
    (session.sealedStep move).Denying := by
  cases move with
  | receive frame =>
    simp only [Session.sealedStep]
    split
    · split
      · exact denying.sealedLeave
      · exact denying.sealedFrame _
    · exact denying
  | disconnect =>
    simp only [Session.sealedStep]
    split
    · exact denying.sealedLeave
    · exact denying
  | callStart number =>
    simp only [Session.sealedStep, Session.beginSend]
    split
    · split
      · apply denying.setCall
        intro envelope same
        exact ⟨_, (CallPhase.sending.inj same).symm⟩
      · exact denying.endCall number _
    · exact denying
  | sent number =>
    simp only [Session.sealedStep]
    split
    case h_1 envelope sending => exact denying.finishSend sending
    case h_2 => exact denying
  | sendFailed number =>
    simp only [Session.sealedStep]
    split
    · have lost : ({ session with link := false } : Session).Denying := denying.same rfl rfl
      exact lost.endCall number _
    · exact denying
  | callCancelled number =>
    simp only [Session.sealedStep]
    split
    · exact denying.endCall number _
    · exact denying
  | linkLost => exact denying.same rfl rfl
  | gathered =>
    simp only [Session.sealedStep]
    split
    · exact denying.same rfl rfl
    · exact denying
  | cancelRun =>
    simp only [Session.sealedStep]
    split
    · exact denying.sealedLeave
    · exact denying.sealedLeave
    · exact denying.same rfl rfl
    · exact denying
  | _ => exact denying

theorem Denying.sealedRun (moves : List Move) : ∀ {session : Session}, session.Denying →
    (session.sealedRun moves).Denying := by
  induction moves with
  | nil =>
    intro session denying
    exact denying
  | cons move moves hypothesis =>
    intro session denying
    exact hypothesis (denying.sealedStep move)

end Session

/-! ### The kernel tables around it -/

/-- The record resolves to `deny_inbound`. -/
def Sealed (runtime : Runtime) (record : Option Dict) : Prop :=
  resolveIngress runtime (record.getD .empty) = .ok .denyInbound

/-- Nothing in the kernel goes by the client id: no agent, no watcher and no event. -/
structure Unused (client : String) (hub : Hub) : Prop where
  agent : hub.agents client = false
  watchers : ∀ agent, hub.agents agent = true → client ∉ hub.watchers agent
  inbox : hub.inboxes client = none ∨ hub.inboxes client = some []

/-- The leg stays sealed, and nobody begins to use the client id. -/
def Respects (runtime : Runtime) (client : String) : Move → Prop
  | .update record => Sealed runtime record
  | .create agent => agent ≠ client
  | .otherWatch _ tgt => tgt ≠ client
  | _ => True

variable {runtime : Runtime} {env : Environment} {client : String} {hub : Hub} {move : Move}

theorem gate_sealed {record : Option Dict} (closed : Sealed runtime record)
    (kind : Bridge.ActionKind) (kindName : String) (frame : List (String × Value)) :
    ∃ action, gate runtime env record kind kindName frame = .ok (authorizeDenyInbound action) := by
  refine ⟨inboundAction kind kindName frame, ?_⟩
  unfold gate
  rw [show resolveIngress runtime (record.getD .empty) = .ok .denyInbound from closed]
  rfl

theorem ensureInbox_inboxes (hub : Hub) (id other : String) :
    (hub.ensureInbox id).inboxes other = hub.inboxes other ∨
      other = id ∧ hub.inboxes id = none ∧ (hub.ensureInbox id).inboxes other = some [] := by
  unfold Hub.ensureInbox
  split
  case h_1 => exact .inl rfl
  case h_2 empty =>
    simp only [Function.update_apply]
    split
    case isTrue same => exact .inr ⟨same, empty, rfl⟩
    case isFalse => exact .inl rfl

theorem ensureInbox_agents (hub : Hub) (id : String) :
    (hub.ensureInbox id).agents = hub.agents := by
  unfold Hub.ensureInbox
  split <;> rfl

theorem ensureInbox_watchers (hub : Hub) (id : String) :
    (hub.ensureInbox id).watchers = hub.watchers := by
  unfold Hub.ensureInbox
  split <;> rfl

theorem ensureInbox_subscribers (hub : Hub) (id : String) :
    (hub.ensureInbox id).subscribers = hub.subscribers := by
  unfold Hub.ensureInbox
  split <;> rfl

theorem Unused.ensureInbox (unused : Unused client hub) (id : String) :
    Unused client (hub.ensureInbox id) := by
  constructor
  · rw [ensureInbox_agents]
    exact unused.agent
  · rw [ensureInbox_agents, ensureInbox_watchers]
    exact unused.watchers
  · rcases ensureInbox_inboxes hub id client with same | ⟨_, _, empty⟩
    · rw [same]
      exact unused.inbox
    · exact .inr empty

theorem Unused.watch (unused : Unused client hub) {src tgt : String} (apart : tgt ≠ client) :
    Unused client (hub.watch src tgt) := by
  unfold Hub.watch
  split
  case isFalse => exact unused
  case isTrue =>
    apply Unused.ensureInbox
    refine ⟨unused.agent, ?_, unused.inbox⟩
    intro agent present listed
    simp only [Function.update_apply] at listed
    split at listed
    case isTrue same =>
      subst same
      split at listed
      · exact unused.watchers agent present listed
      · rcases List.mem_cons.mp listed with here | there
        · exact apart here.symm
        · exact unused.watchers agent present there
    case isFalse => exact unused.watchers agent present listed

theorem Unused.unwatch (unused : Unused client hub) (src tgt : String) :
    Unused client (hub.unwatch src tgt) := by
  unfold Hub.unwatch
  split
  case isFalse => exact unused
  case isTrue =>
    refine ⟨unused.agent, ?_, unused.inbox⟩
    intro agent present listed
    simp only [Function.update_apply] at listed
    split at listed
    case isTrue same =>
      subst same
      exact unused.watchers agent present (List.mem_of_mem_filter listed)
    case isFalse => exact unused.watchers agent present listed

theorem put_inbox_of_ne (hub : Hub) (payload : Value) {id other : String} (apart : other ≠ id) :
    (hub.put payload id).inboxes other = hub.inboxes other := by
  unfold Hub.put
  split
  · rfl
  · exact Function.update_of_ne apart _ _

theorem Unused.put (unused : Unused client hub) {id : String} (payload : Value)
    (apart : id ≠ client) : Unused client (hub.put payload id) := by
  unfold Hub.put
  split
  case h_1 => exact unused
  case h_2 =>
    refine ⟨unused.agent, unused.watchers, ?_⟩
    simp only [Function.update_of_ne apart.symm]
    exact unused.inbox

theorem Unused.puts (ids : List String) (payload : Value) : ∀ {hub : Hub}, Unused client hub →
    client ∉ ids → Unused client (ids.foldl (Hub.put · payload) hub) := by
  induction ids with
  | nil =>
    intro hub unused _
    exact unused
  | cons id ids hypothesis =>
    intro hub unused absent
    rw [List.mem_cons, not_or] at absent
    exact hypothesis (unused.put payload (Ne.symm absent.1)) absent.2

theorem Unused.fanout (unused : Unused client hub) {agent : String} (payload : Value)
    (present : hub.agents agent = true) : Unused client (hub.fanout agent payload) := by
  apply Unused.puts _ payload unused
  rw [List.mem_cons, not_or]
  refine ⟨?_, unused.watchers agent present⟩
  intro same
  rw [← same, unused.agent] at present
  cases present

/-- What others do leaves the client id alone. -/
theorem Unused.outside (unused : Unused client hub) (respects : Respects runtime client move) :
    Unused client (State.outside hub move) := by
  cases move with
  | traffic agent payload =>
    simp only [State.outside]
    split
    case isTrue present => exact unused.fanout payload present
    case isFalse => exact unused
  | create agent =>
    have apart : agent ≠ client := respects
    simp only [State.outside]
    split
    case isTrue => exact unused
    case isFalse =>
      apply Unused.ensureInbox
      refine ⟨?_, ?_, unused.inbox⟩
      · simp only [Function.update_of_ne apart.symm]
        exact unused.agent
      · intro other present listed
        simp only [Function.update_apply] at present listed
        split at listed
        case isTrue => cases listed
        case isFalse different =>
          rw [if_neg different] at present
          exact unused.watchers other present listed
  | delete agent =>
    simp only [State.outside]
    split
    case isFalse => exact unused
    case isTrue present =>
      refine ⟨?_, ?_, ?_⟩
      · simp only [Function.update_apply]
        split
        · rfl
        · exact unused.agent
      · intro other there listed
        simp only [Function.update_apply] at there listed
        split at listed
        case isTrue => cases listed
        case isFalse different =>
          rw [if_neg different] at there
          exact unused.watchers other there listed
      · simp only [Function.update_apply]
        split
        · exact .inl rfl
        · exact unused.inbox
  | update record => exact ⟨unused.agent, unused.watchers, unused.inbox⟩
  | otherWatch src tgt => exact unused.watch respects
  | otherUnwatch src tgt => exact unused.unwatch src tgt
  | _ => exact unused

/-! ### The proxy as that machine -/

/-- The leg is sealed and the connection holds nothing of the kernel. -/
structure Insulated (runtime : Runtime) (client : String) (state : State) : Prop where
  closed : Sealed runtime state.hub.record
  unused : Unused client state.hub
  subscribers : state.hub.subscribers = []
  watching : state.session.watching = []
  unsubs : state.session.unsubs = []
  phase : state.session.phase ≠ .subscribing
  calls : ∀ number, (state.session.calls number).phase ≠ .dispatching

variable {state : State}

/-- Only the session differs, in what the connection may do by itself. -/
theorem Insulated.session (fine : Insulated runtime client state) {session : Session}
    (watching : session.watching = []) (unsubs : session.unsubs = [])
    (phase : session.phase ≠ .subscribing)
    (calls : ∀ number, (session.calls number).phase ≠ .dispatching) :
    Insulated runtime client { state with session := session } :=
  ⟨fine.closed, fine.unused, fine.subscribers, watching, unsubs, phase, calls⟩

theorem Insulated.setCall (fine : Insulated runtime client state) {number : Nat} {call : Call}
    (idle : call.phase ≠ .dispatching) :
    Insulated runtime client { state with session := state.session.setCall number call } := by
  refine ⟨fine.closed, fine.unused, fine.subscribers, fine.watching, fine.unsubs, fine.phase, ?_⟩
  intro other
  simp only [Session.setCall, Function.update_apply]
  split
  · exact idle
  · exact fine.calls other

theorem cleanup_session (state : State) : (state.cleanup client).session =
    { state.session with phase := .ended, unsubs := [] } := rfl

/-- With nothing watched and nothing subscribed, the cleanup takes the inbox away. -/
theorem Insulated.cleanup (fine : Insulated runtime client state) :
    Insulated runtime client (state.cleanup client) := by
  have hub : (state.cleanup client).hub =
      { state.hub with inboxes := Function.update state.hub.inboxes client none } := by
    simp only [State.cleanup, fine.watching, fine.subscribers, List.foldl_nil, List.filter_nil]
  constructor
  · rw [hub]
    exact fine.closed
  · rw [hub]
    exact ⟨fine.unused.agent, fine.unused.watchers, .inl (Function.update_self ..)⟩
  · rw [hub]
    exact fine.subscribers
  · exact fine.watching
  · rfl
  · simp [cleanup_session]
  · exact fine.calls

theorem Insulated.leave (fine : Insulated runtime client state) :
    Insulated runtime client (state.leave client) ∧
      (state.leave client).session = state.session.sealedLeave := by
  have closing : Insulated runtime client
      { state with session := { state.session with phase := .closing, draining := false } } :=
    fine.session fine.watching fine.unsubs nofun fine.calls
  unfold State.leave Session.sealedLeave
  simp only
  split
  · exact ⟨closing.cleanup, rfl⟩
  · exact ⟨closing, rfl⟩

/-- An inline handler behind the sealed gate does nothing. -/
theorem gated_sealed (closed : Sealed runtime state.hub.record) (kind : Bridge.ActionKind)
    (kindName : String) (frame : List (String × Value)) (allowed : State → State) :
    state.gated runtime env client kind kindName frame allowed = state := by
  obtain ⟨action, denied⟩ := @gate_sealed runtime env state.hub.record closed kind kindName frame
  unfold State.gated
  rw [denied]
  rfl

theorem Insulated.onUnwatch (fine : Insulated runtime client state)
    (frame : List (String × Value)) :
    Insulated runtime client (state.onUnwatch client frame) ∧
      (state.onUnwatch client frame).session =
        match hashKey (field frame "src" (.str "")) with
        | .error _ => state.session.sealedLeave
        | .ok _ => state.session := by
  unfold State.onUnwatch
  simp only [fine.watching, List.not_mem_nil, if_false]
  cases hashed : hashKey (field frame "src" (.str "")) with
  | error failure => exact fine.leave
  | ok key =>
    cases field frame "src" (.str "") <;> exact ⟨fine, rfl⟩

theorem Insulated.spawnCall (fine : Insulated runtime client state)
    (frame : List (String × Value)) :
    Insulated runtime client { state with session := state.session.spawnCall frame } := by
  have spawned := @Insulated.setCall runtime client state fine state.session.spawned
    { frame := frame, phase := .spawned, answers := 0 } nofun
  exact fine.session spawned.watching spawned.unsubs spawned.phase spawned.calls

theorem Insulated.onStateUnsubscribe (fine : Insulated runtime client state) :
    Insulated runtime client state.onStateUnsubscribe ∧
      state.onStateUnsubscribe.session = state.session := by
  constructor
  · refine ⟨fine.closed, ⟨fine.unused.agent, fine.unused.watchers, fine.unused.inbox⟩, ?_,
      fine.watching, rfl, fine.phase, fine.calls⟩
    simp only [State.onStateUnsubscribe, fine.subscribers, List.filter_nil]
  · simp only [State.onStateUnsubscribe, ← fine.unsubs]

theorem Insulated.onFrame (fine : Insulated runtime client state) (value : Value) :
    Insulated runtime client (state.onFrame runtime env client value) ∧
      (state.onFrame runtime env client value).session = state.session.sealedFrame value := by
  cases value with
  | dict frame =>
    simp only [State.onFrame, Session.sealedFrame]
    split
    case h_1 type =>
      simp only [type]
      exact ⟨fine.spawnCall frame, trivial⟩
    case h_2 type =>
      rw [gated_sealed fine.closed, type]
      exact ⟨fine, rfl⟩
    case h_3 type =>
      rw [gated_sealed fine.closed, type]
      exact ⟨fine, rfl⟩
    case h_4 type =>
      simp only [type]
      exact fine.onUnwatch frame
    case h_5 type =>
      rw [gated_sealed fine.closed, type]
      exact ⟨fine, rfl⟩
    case h_6 type =>
      simp only [type]
      exact fine.onStateUnsubscribe
    case h_7 type =>
      simp only [type]
      exact fine.leave
    case h_8 type =>
      simp only [type]
      exact fine.leave
    case h_9 =>
      refine ⟨fine, ?_⟩
      split <;> simp_all
  | _ => exact fine.leave

/-- On a sealed leg a call is answered with the denial. -/
theorem Insulated.callStart (fine : Insulated runtime client state) (number : Nat) :
    Insulated runtime client (state.callStart runtime env number) ∧
      (state.callStart runtime env number).session =
        state.session.beginSend number (sealedReply (state.session.calls number).id) := by
  obtain ⟨action, denied⟩ := @gate_sealed runtime env state.hub.record fine.closed .call "call"
    (state.session.calls number).frame
  have same : state.callStart runtime env number = State.mk state.hub
      (state.session.beginSend number (sealedReply (state.session.calls number).id)) := by
    simp only [State.callStart, denied]
    rfl
  rw [same]
  refine ⟨?_, rfl⟩
  unfold Session.beginSend
  split
  · exact fine.setCall nofun
  · exact fine.setCall nofun

theorem Insulated.drain (fine : Insulated runtime client state) :
    state.drain client = state := by
  unfold State.drain
  split
  · rcases fine.unused.inbox with absent | empty
    · rw [absent]
    · rw [empty]
  · rfl

theorem puts_same (ids : List String) (payload : Value) : ∀ hub : Hub,
    (ids.foldl (Hub.put · payload) hub).record = hub.record ∧
      (ids.foldl (Hub.put · payload) hub).subscribers = hub.subscribers := by
  induction ids with
  | nil =>
    intro hub
    exact ⟨rfl, rfl⟩
  | cons id ids hypothesis =>
    intro hub
    obtain ⟨record, subscribers⟩ := hypothesis (hub.put payload id)
    have kept : (hub.put payload id).record = hub.record ∧
        (hub.put payload id).subscribers = hub.subscribers := by
      unfold Hub.put
      split <;> exact ⟨rfl, rfl⟩
    exact ⟨record.trans kept.1, subscribers.trans kept.2⟩

/-- Others may write the record, and touch no callback of this connection. -/
theorem outside_same (hub : Hub) (move : Move) :
    (State.outside hub move).subscribers = hub.subscribers ∧
      ((State.outside hub move).record = hub.record ∨
        ∃ record, move = .update record ∧ (State.outside hub move).record = record) := by
  cases move with
  | traffic agent payload =>
    simp only [State.outside]
    split
    · obtain ⟨record, subscribers⟩ := puts_same (agent :: hub.watchers agent) payload hub
      exact ⟨subscribers, .inl record⟩
    · exact ⟨rfl, .inl rfl⟩
  | create agent =>
    simp only [State.outside]
    split
    · exact ⟨rfl, .inl rfl⟩
    · exact ⟨ensureInbox_subscribers .., .inl (ensureInbox_record ..)⟩
  | delete agent =>
    simp only [State.outside]
    split
    · exact ⟨rfl, .inl rfl⟩
    · exact ⟨rfl, .inl rfl⟩
  | update record => exact ⟨rfl, .inr ⟨record, rfl, rfl⟩⟩
  | otherWatch src tgt =>
    simp only [State.outside, Hub.watch]
    split
    · exact ⟨ensureInbox_subscribers .., .inl (ensureInbox_record ..)⟩
    · exact ⟨rfl, .inl rfl⟩
  | otherUnwatch src tgt =>
    simp only [State.outside, Hub.unwatch]
    split
    · exact ⟨rfl, .inl rfl⟩
    · exact ⟨rfl, .inl rfl⟩
  | _ => exact ⟨rfl, .inl rfl⟩

theorem Insulated.outside (fine : Insulated runtime client state)
    (respects : Respects runtime client move) :
    Insulated runtime client { state with hub := State.outside state.hub move } := by
  obtain ⟨subscribers, record⟩ := outside_same state.hub move
  refine ⟨?_, fine.unused.outside respects, subscribers.trans fine.subscribers, fine.watching,
    fine.unsubs, fine.phase, fine.calls⟩
  rcases record with same | ⟨record, rfl, same⟩
  · simp only [same]
    exact fine.closed
  · simp only [same]
    exact respects

/-- A step of the proxy on a sealed leg is a step of the machine without a kernel. -/
theorem Insulated.step (fine : Insulated runtime client state)
    (respects : Respects runtime client move) :
    Insulated runtime client (state.step runtime env client move) ∧
      (state.step runtime env client move).session = state.session.sealedStep move := by
  cases move with
  | receive frame =>
    simp only [State.step, Session.sealedStep]
    split
    · split
      · exact fine.leave
      · exact fine.onFrame _
    · exact ⟨fine, rfl⟩
  | disconnect =>
    simp only [State.step, Session.sealedStep]
    split
    · exact fine.leave
    · exact ⟨fine, rfl⟩
  | snapshotSent agents =>
    simp only [State.step, if_neg fine.phase]
    exact ⟨fine, rfl⟩
  | snapshotRaised =>
    simp only [State.step, if_neg fine.phase]
    exact ⟨fine, rfl⟩
  | callStart number =>
    simp only [State.step, Session.sealedStep]
    split
    · exact fine.callStart number
    · exact ⟨fine, rfl⟩
  | handled number outcome =>
    simp only [State.step, if_neg (fine.calls number)]
    exact ⟨fine, rfl⟩
  | sent number =>
    simp only [State.step, Session.sealedStep]
    cases phase : (state.session.calls number).phase with
    | sending envelope =>
      have logged := @Insulated.session runtime client state fine
        (state.session.log (.sent envelope)) fine.watching fine.unsubs fine.phase fine.calls
      exact ⟨logged.setCall (by simp), rfl⟩
    | _ => exact ⟨fine, rfl⟩
  | sendFailed number =>
    simp only [State.step, Session.sealedStep]
    cases phase : (state.session.calls number).phase with
    | sending envelope =>
      have lost := @Insulated.session runtime client state fine
        { state.session with link := false } fine.watching fine.unsubs fine.phase fine.calls
      exact ⟨lost.setCall (by simp), rfl⟩
    | _ => exact ⟨fine, rfl⟩
  | callCancelled number =>
    simp only [State.step, Session.sealedStep]
    split
    · exact ⟨fine.setCall (by simp), rfl⟩
    · exact ⟨fine, rfl⟩
  | drained =>
    simp only [State.step, Session.sealedStep, fine.drain]
    exact ⟨fine, trivial⟩
  | linkLost => exact ⟨fine.session fine.watching fine.unsubs fine.phase fine.calls, rfl⟩
  | gathered =>
    simp only [State.step, Session.sealedStep]
    split
    · exact ⟨fine.cleanup, rfl⟩
    · exact ⟨fine, rfl⟩
  | cancelRun =>
    simp only [State.step, Session.sealedStep]
    cases phase : state.session.phase with
    | reading => exact fine.leave
    | subscribing => exact absurd phase fine.phase
    | closing => exact ⟨fine.session fine.watching fine.unsubs (by simp) fine.calls, rfl⟩
    | _ => exact ⟨fine, rfl⟩
  | telemetry event =>
    simp only [State.step, Session.sealedStep, fine.subscribers, List.foldl_nil, ite_self]
    exact ⟨fine, trivial⟩
  | _ => exact ⟨fine.outside respects, rfl⟩

theorem Insulated.run (moves : List Move) : ∀ {state : State}, Insulated runtime client state →
    (∀ move ∈ moves, Respects runtime client move) →
      (state.run runtime env client moves).session = state.session.sealedRun moves := by
  induction moves with
  | nil =>
    intro state _ _
    rfl
  | cons move moves hypothesis =>
    intro state fine respects
    obtain ⟨next, same⟩ := @Insulated.step runtime env client move state fine
      (respects move List.mem_cons_self)
    have rest := hypothesis next fun other listed =>
      respects other (List.mem_cons_of_mem move listed)
    change ((state.step runtime env client move).run runtime env client moves).session = _
    rw [rest, same]
    rfl

/-- A connection to a sealed leg begins with nothing. -/
theorem connect_sealed (closed : Sealed runtime hub.record) (host : String) :
    State.connect runtime env client host hub =
      { hub := { hub.ensureInbox client with subscribers := [] }, session := Session.fresh } := by
  obtain ⟨action, denied⟩ := @gate_sealed runtime env hub.record closed .watch "watch"
    [("src", .str host)]
  unfold State.connect
  rw [denied]
  rfl

theorem insulated_connect (closed : Sealed runtime hub.record) (unused : Unused client hub)
    (host : String) : Insulated runtime client (State.connect runtime env client host hub) := by
  rw [connect_sealed closed]
  have opened := unused.ensureInbox client
  refine ⟨?_, ⟨opened.agent, opened.watchers, opened.inbox⟩, rfl, rfl, rfl, nofun, nofun⟩
  simp only [ensureInbox_record]
  exact closed

/-! ### The seal -/

variable (runtime env client)

/-- What a connection has done after a number of moves. -/
def effectsOf (host : String) (hub : Hub) (moves : List Move) : List Effect :=
  ((State.connect runtime env client host hub).run runtime env client moves).session.effects

/-- Only denials go out, and another kernel in which the connection sees the same frames
has the same ones. -/
def SealHolds (host : String) (hub : Hub) : Prop :=
  ∀ moves, (∀ move ∈ moves, Respects runtime client move) →
    (∀ effect ∈ effectsOf runtime env client host hub moves,
      ∃ id, effect = .sent (sealedReply id)) ∧
    ∀ other others, Sealed runtime other.record → Unused client other →
      (∀ move ∈ others, Respects runtime client move) →
      others.filter Move.own = moves.filter Move.own →
        effectsOf runtime env client host other others =
          effectsOf runtime env client host hub moves

variable {runtime env client}

theorem effectsOf_sealed (closed : Sealed runtime hub.record) (unused : Unused client hub)
    (host : String) {moves : List Move} (respects : ∀ move ∈ moves, Respects runtime client move) :
    effectsOf runtime env client host hub moves =
      (Session.fresh.sealedRun (moves.filter Move.own)).effects := by
  have fine := @insulated_connect runtime env client hub closed unused host
  rw [effectsOf, fine.run moves respects, connect_sealed closed, ← sealedRun_own]

theorem put_nonempty {id : String} {payload : Value} {hub : Hub}
    (waiting : (∃ first rest, hub.inboxes client = some (first :: rest)) ∨
      id = client ∧ (hub.inboxes client).isSome = true) :
    ∃ first rest, (hub.put payload id).inboxes client = some (first :: rest) := by
  have appended : ∀ queue : List Value, ∃ first rest,
      some (queue ++ [payload]) = some (first :: rest) := by
    intro queue
    cases queue with
    | nil => exact ⟨payload, [], rfl⟩
    | cons first rest => exact ⟨first, rest ++ [payload], rfl⟩
  by_cases same : id = client
  · subst same
    unfold Hub.put
    cases found : hub.inboxes id with
    | none =>
      rw [found] at waiting
      rcases waiting with ⟨_, _, impossible⟩ | ⟨_, impossible⟩ <;> cases impossible
    | some queue =>
      simp only [Function.update_self]
      exact appended _
  · rcases waiting with nonempty | ⟨here, _⟩
    · rw [put_inbox_of_ne hub payload (Ne.symm same)]
      exact nonempty
    · exact absurd here same

/-- What is put into the queues of a list that has the client id in it arrives there. -/
theorem puts_nonempty (ids : List String) (payload : Value) : ∀ {hub : Hub},
    (∃ first rest, hub.inboxes client = some (first :: rest)) ∨
      client ∈ ids ∧ (hub.inboxes client).isSome = true →
    ∃ first rest, (ids.foldl (Hub.put · payload) hub).inboxes client = some (first :: rest) := by
  induction ids with
  | nil =>
    intro hub waiting
    rcases waiting with nonempty | ⟨impossible, _⟩
    · exact nonempty
    · cases impossible
  | cons id ids hypothesis =>
    intro hub waiting
    apply hypothesis
    rcases waiting with nonempty | ⟨listed, present⟩
    · exact .inl (put_nonempty (.inl nonempty))
    · by_cases same : id = client
      · exact .inl (put_nonempty (.inr ⟨same, present⟩))
      · rcases List.mem_cons.mp listed with here | there
        · exact absurd here.symm same
        · refine .inr ⟨there, ?_⟩
          rw [put_inbox_of_ne hub payload (Ne.symm same)]
          exact present

theorem event_is_no_denial (payload : Value) :
    ¬ ∃ id, Effect.sent (eventEnvelope payload) = .sent (sealedReply id) := by
  rintro ⟨id, same⟩
  simp [eventEnvelope, sealedReply, replyEnvelope, object] at same

/-- The drain sends whatever is in the queue under the client id. -/
theorem drain_leaks {state : State} (session : state.session = Session.fresh)
    (waiting : ∃ first rest, state.hub.inboxes client = some (first :: rest)) :
    ∃ payload, (state.step runtime env client .drained).session.effects =
      [.sent (eventEnvelope payload)] := by
  obtain ⟨payload, rest, found⟩ := waiting
  refine ⟨payload, ?_⟩
  simp only [State.step, State.drain, session, Session.fresh, Bool.and_self, if_true, found]
  rfl

/-- On a sealed leg the connection is silent but for denials, whatever the kernel does,
exactly if nothing else in the kernel goes by its client id when it connects. -/
theorem seal_holds_iff_unused (host : String) (hub : Hub) (closed : Sealed runtime hub.record) :
    SealHolds runtime env client host hub ↔ Unused client hub := by
  constructor
  · intro holds
    have opened : ((hub.ensureInbox client).inboxes client).isSome = true := by
      rcases ensureInbox_inboxes hub client client with same | ⟨_, _, empty⟩
      · unfold Hub.ensureInbox
        split
        case h_1 found => rw [found]; rfl
        case h_2 => simp
      · rw [empty]
        rfl
    -- an event that can reach the queue is sent
    have silent : ∀ moves, (∀ move ∈ moves, Respects runtime client move) →
        ((State.connect runtime env client host hub).run runtime env client moves).session =
          Session.fresh →
        ¬ ∃ first rest, ((State.connect runtime env client host hub).run runtime env client
          moves).hub.inboxes client = some (first :: rest) := by
      intro moves respects session waiting
      obtain ⟨payload, sent⟩ := @drain_leaks runtime env client _ session waiting
      have all : ∀ move ∈ moves ++ [Move.drained], Respects runtime client move := by
        intro move listed
        rcases List.mem_append.mp listed with old | new
        · exact respects move old
        · rw [List.mem_singleton.mp new]
          trivial
      have denials := (holds _ all).1 (.sent (eventEnvelope payload))
      rw [effectsOf, State.run, List.foldl_append] at denials
      apply event_is_no_denial payload
      apply denials
      change _ ∈ (State.step runtime env client (State.run runtime env client
        (State.connect runtime env client host hub) moves) .drained).session.effects
      rw [sent]
      exact List.mem_singleton_self _
    have quiet : ∀ agent, hub.agents agent = true → client ∉ agent :: hub.watchers agent := by
      intro agent present listed
      have respects : ∀ move ∈ [Move.traffic agent .null], Respects runtime client move := by
        intro move listed
        rw [List.mem_singleton.mp listed]
        trivial
      apply silent [.traffic agent .null] respects
      · rw [connect_sealed closed]
        rfl
      · rw [connect_sealed closed]
        change ∃ first rest, (State.outside { hub.ensureInbox client with subscribers := [] }
          (.traffic agent .null)).inboxes client = some (first :: rest)
        simp only [State.outside, ensureInbox_agents, present, if_true, Hub.fanout,
          ensureInbox_watchers]
        exact puts_nonempty _ _ (.inr ⟨listed, opened⟩)
    constructor
    · by_contra present
      rw [Bool.not_eq_false] at present
      exact quiet client present List.mem_cons_self
    · intro agent present listed
      exact quiet agent present (List.mem_cons_of_mem agent listed)
    · cases found : hub.inboxes client with
      | none => exact .inl rfl
      | some queue =>
        cases queue with
        | nil => exact .inr rfl
        | cons first rest =>
          exfalso
          apply silent [] nofun
          · rw [connect_sealed closed]
            rfl
          · refine ⟨first, rest, ?_⟩
            rw [connect_sealed closed]
            simp only [State.run, List.foldl_nil, Hub.ensureInbox, found]
  · intro unused moves respects
    have same := @effectsOf_sealed runtime env client hub closed unused host moves respects
    constructor
    · intro effect listed
      rw [same] at listed
      exact (fresh_denying.sealedRun _).effects effect listed
    · intro other others otherClosed otherUnused otherRespects frames
      rw [same, effectsOf_sealed otherClosed otherUnused host otherRespects, frames]

/-- An interpreter for the runs below; none of them prints or imports. -/
def plainRuntime : Runtime where
  importable := fun _ => false
  repr := fun _ => ""
  str := fun _ => ""

/-- One agent, and an open connection that watches it under a client id. -/
def sharedHub : Hub where
  record := none
  agents := fun agent => decide (agent = "desk")
  watchers := fun agent => if agent = "desk" then ["_ws_00002a"] else []
  inboxes := fun id => if id = "_ws_00002a" then some [] else none
  subscribers := []

theorem fresh_id_keeps_the_seal :
    Sealed plainRuntime sharedHub.record ∧
      SealHolds plainRuntime (fun _ => none) "_ws_00002b" "desk" sharedHub := by
  have closed : Sealed plainRuntime sharedHub.record := rfl
  have unused : Unused "_ws_00002b" sharedHub := by
    refine ⟨by decide, ?_, .inl (by decide)⟩
    intro agent present
    have desk : agent = "desk" := of_decide_eq_true present
    rw [desk]
    decide
  exact ⟨closed, (seal_holds_iff_unused "desk" sharedHub closed).mpr unused⟩

/-- A connection to a sealed leg draws an id that is in use, and gets the other's events. -/
theorem drawn_id_breaks_the_seal :
    ¬ ∀ hub, Sealed plainRuntime hub.record →
      SealHolds plainRuntime (fun _ => none) "_ws_00002a" "desk" hub := by
  intro holds
  have respects : ∀ move ∈ [Move.traffic "desk" .null, .drained],
      Respects plainRuntime "_ws_00002a" move := by
    intro move listed
    rcases List.mem_cons.mp listed with rfl | rest
    · trivial
    · rw [List.mem_singleton.mp rest]
      trivial
  have denials := (holds sharedHub rfl _ respects).1 (.sent (eventEnvelope .null))
  apply event_is_no_denial .null
  apply denials
  decide

end Fantastic.Python.Socket

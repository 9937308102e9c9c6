import Fantastic.Python.SocketSeal

/-!
# What a connection leaves behind

Watches, callbacks, the inbox and the call tasks are taken in different branches and given
back in one `finally` block. What is not given back is what is taken before the `try` and
what the block does not reach when it is itself cancelled. A call goes without a frame when
its gate raises, or when the socket does not take the frame.
-/

namespace Fantastic.Python.Socket

open Fantastic.Bridge (Environment)

/-! ### The property and the condition -/

def LoopPhase.finished : LoopPhase → Bool
  | .ended | .failed | .aborted => true
  | _ => false

/-- No watcher set has the client id, no callback and no inbox is left, and every call that
was not cancelled in its handler has got one frame. -/
structure Clean (client : String) (state : State) : Prop where
  watchers : ∀ agent, state.hub.agents agent = true → client ∉ state.hub.watchers agent
  subscribers : state.hub.subscribers = []
  inbox : state.hub.inboxes client = none
  answered : ∀ number ending, (state.session.calls number).phase = .finished ending →
    ending ≠ .cancelled → (state.session.calls number).answers = 1

/-- Nobody else begins to use the client id; the gate of a call does not raise; the socket is
there when a call has its frame, and takes it; the run is not cancelled while it joins its
call tasks. -/
def Considerate (runtime : Runtime) (env : Environment) (client : String) (state : State) :
    Move → Prop
  | .create agent => agent ≠ client
  | .otherWatch _ tgt => tgt ≠ client
  | .callStart number => state.session.link = true ∧
      ∃ decision, gate runtime env state.hub.record .call "call"
        (state.session.calls number).frame = .ok decision
  | .handled _ _ => state.session.link = true
  | .sendFailed number | .callCancelled number =>
    ∀ envelope, (state.session.calls number).phase ≠ .sending envelope
  | .cancelRun => state.session.phase ≠ .closing
  | _ => True

def ConsiderateRun (runtime : Runtime) (env : Environment) (client : String) :
    State → List Move → Prop
  | _, [] => True
  | state, move :: moves => Considerate runtime env client state move ∧
      ConsiderateRun runtime env client (state.step runtime env client move) moves

/-! ### The tables -/

variable {runtime : Runtime} {env : Environment} {client : String} {hub : Hub}
  {session : Session} {state : State} {move : Move}

/-- Every trace of the connection in the kernel is on its own lists, and there is none once
it has ended. -/
structure Traced (client : String) (hub : Hub) (session : Session) : Prop where
  watchers : ∀ agent, hub.agents agent = true → client ∈ hub.watchers agent →
    agent ∈ session.watching
  subscribers : ∀ token ∈ hub.subscribers, token ∈ session.unsubs
  ended : session.phase = .ended → hub.subscribers = [] ∧ hub.inboxes client = none ∧
    ∀ agent, hub.agents agent = true → client ∉ hub.watchers agent

theorem Traced.sameSession (traced : Traced client hub session) {other : Session}
    (watching : other.watching = session.watching) (unsubs : other.unsubs = session.unsubs)
    (phase : other.phase = .ended → session.phase = .ended) : Traced client hub other := by
  constructor
  · rw [watching]
    exact traced.watchers
  · rw [unsubs]
    exact traced.subscribers
  · intro ended
    exact traced.ended (phase ended)

/-- Other queues and other records do not matter. -/
theorem Traced.sameHub {other : Hub} (traced : Traced client hub session)
    (agents : other.agents = hub.agents) (watchers : other.watchers = hub.watchers)
    (subscribers : other.subscribers = hub.subscribers)
    (inbox : hub.inboxes client = none → other.inboxes client = none) :
    Traced client other session := by
  constructor
  · rw [agents, watchers]
    exact traced.watchers
  · rw [subscribers]
    exact traced.subscribers
  · intro ended
    obtain ⟨none, gone, away⟩ := traced.ended ended
    rw [agents, watchers, subscribers]
    exact ⟨none, inbox gone, away⟩

theorem Traced.ensureInbox (traced : Traced client hub session) {id : String}
    (apart : id ≠ client) : Traced client (hub.ensureInbox id) session := by
  apply traced.sameHub (ensureInbox_agents hub id) (ensureInbox_watchers hub id)
    (ensureInbox_subscribers hub id)
  intro gone
  rcases ensureInbox_inboxes hub id client with same | ⟨here, _⟩
  · rw [same]
    exact gone
  · exact absurd here.symm apart

theorem puts_frame (ids : List String) (payload : Value) : ∀ hub : Hub,
    (ids.foldl (Hub.put · payload) hub).agents = hub.agents ∧
      (ids.foldl (Hub.put · payload) hub).watchers = hub.watchers ∧
      (hub.inboxes client = none →
        (ids.foldl (Hub.put · payload) hub).inboxes client = none) := by
  induction ids with
  | nil =>
    intro hub
    exact ⟨rfl, rfl, fun gone => gone⟩
  | cons id ids hypothesis =>
    intro hub
    obtain ⟨agents, watchers, inbox⟩ := hypothesis (hub.put payload id)
    have kept : (hub.put payload id).agents = hub.agents ∧
        (hub.put payload id).watchers = hub.watchers := by
      unfold Hub.put
      split <;> exact ⟨rfl, rfl⟩
    refine ⟨agents.trans kept.1, watchers.trans kept.2, ?_⟩
    intro gone
    apply inbox
    by_cases same : client = id
    · subst same
      simp only [Hub.put, gone]
    · rw [put_inbox_of_ne hub payload same]
      exact gone

theorem Traced.fanout (traced : Traced client hub session) (agent : String) (payload : Value) :
    Traced client (hub.fanout agent payload) session := by
  obtain ⟨agents, watchers, inbox⟩ :=
    @puts_frame client (agent :: hub.watchers agent) payload hub
  exact traced.sameHub agents watchers (puts_same _ payload hub).2 inbox

/-- One agent's watcher set changes, and the client id is not added to it. -/
theorem Traced.setWatchers (traced : Traced client hub session) {agents : String → Bool}
    {src : String} {watchers : List String}
    (others : ∀ agent, agent ≠ src → agents agent = hub.agents agent)
    (fewer : agents src = true → client ∈ watchers →
      hub.agents src = true ∧ client ∈ hub.watchers src) :
    Traced client
      { hub with agents := agents, watchers := Function.update hub.watchers src watchers }
      session := by
  have before : ∀ agent, agents agent = true →
      client ∈ Function.update hub.watchers src watchers agent →
        hub.agents agent = true ∧ client ∈ hub.watchers agent := by
    intro agent present listed
    rw [Function.update_apply] at listed
    split at listed
    case isTrue same =>
      subst same
      exact fewer present listed
    case isFalse apart =>
      rw [others agent apart] at present
      exact ⟨present, listed⟩
  constructor
  · intro agent present listed
    obtain ⟨was, had⟩ := before agent present listed
    exact traced.watchers agent was had
  · exact traced.subscribers
  · intro ended
    obtain ⟨none, gone, away⟩ := traced.ended ended
    refine ⟨none, gone, ?_⟩
    intro agent present listed
    obtain ⟨was, had⟩ := before agent present listed
    exact away agent was had

theorem Traced.otherWatch (traced : Traced client hub session) {src tgt : String}
    (apart : tgt ≠ client) : Traced client (hub.watch src tgt) session := by
  unfold Hub.watch
  split
  case isFalse => exact traced
  case isTrue present =>
    apply Traced.ensureInbox _ apart
    apply traced.setWatchers fun _ _ => rfl
    intro _ listed
    refine ⟨present, ?_⟩
    split at listed
    · exact listed
    · rcases List.mem_cons.mp listed with here | there
      · exact absurd here.symm apart
      · exact there

theorem Traced.unwatch (traced : Traced client hub session) (src tgt : String) :
    Traced client (hub.unwatch src tgt) session := by
  unfold Hub.unwatch
  split
  case isFalse => exact traced
  case isTrue present =>
    apply traced.setWatchers fun _ _ => rfl
    intro _ listed
    exact ⟨present, List.mem_of_mem_filter listed⟩

theorem Traced.outside (traced : Traced client hub session)
    (considerate : Considerate runtime env client state move) :
    Traced client (State.outside hub move) session := by
  cases move with
  | traffic agent payload =>
    simp only [State.outside]
    split
    · exact traced.fanout agent payload
    · exact traced
  | create agent =>
    simp only [State.outside]
    split
    · exact traced
    · apply Traced.ensureInbox _ considerate
      apply traced.setWatchers
      · intro other apart
        exact Function.update_of_ne apart _ _
      · intro _ listed
        cases listed
  | delete agent =>
    simp only [State.outside]
    split
    · have cleared := @Traced.setWatchers client hub session traced
        (Function.update hub.agents agent false) agent []
        (fun other apart => Function.update_of_ne apart _ _) (fun _ listed => by cases listed)
      apply Traced.sameHub cleared
      · rfl
      · rfl
      · rfl
      · intro gone
        simp only [Function.update_apply]
        split
        · rfl
        · exact gone
    · exact traced
  | update record => exact traced.sameHub rfl rfl rfl fun gone => gone
  | otherWatch src tgt => exact traced.otherWatch considerate
  | otherUnwatch src tgt => exact traced.unwatch src tgt
  | _ => exact traced

/-! ### The connection's own moves -/

theorem Traced.watch (traced : Traced client hub session) {src : String} {other : Session}
    (watching : other.watching = src :: session.watching) (unsubs : other.unsubs = session.unsubs)
    (runs : other.phase ≠ .ended) : Traced client (hub.watch src client) other := by
  unfold Hub.watch
  split
  case isFalse =>
    refine ⟨?_, ?_, fun ended => absurd ended runs⟩
    · intro agent present listed
      rw [watching]
      exact List.mem_cons_of_mem src (traced.watchers agent present listed)
    · rw [unsubs]
      exact traced.subscribers
  case isTrue =>
    refine ⟨?_, ?_, fun ended => absurd ended runs⟩
    · intro agent present listed
      rw [ensureInbox_agents] at present
      rw [ensureInbox_watchers] at listed
      rw [watching]
      simp only [Function.update_apply] at listed
      split at listed
      case isTrue same =>
        rw [same]
        exact List.mem_cons_self
      case isFalse => exact List.mem_cons_of_mem src (traced.watchers agent present listed)
    · rw [ensureInbox_subscribers, unsubs]
      exact traced.subscribers

theorem unwatch_frame (hub : Hub) (src tgt : String) :
    (hub.unwatch src tgt).agents = hub.agents ∧
      (hub.unwatch src tgt).inboxes = hub.inboxes ∧
      (hub.unwatch src tgt).subscribers = hub.subscribers ∧
      ∀ agent, hub.agents agent = true → tgt ∈ (hub.unwatch src tgt).watchers agent →
        agent ≠ src ∧ tgt ∈ hub.watchers agent := by
  unfold Hub.unwatch
  split
  case isTrue =>
    refine ⟨rfl, rfl, rfl, ?_⟩
    intro agent present listed
    simp only [Function.update_apply] at listed
    split at listed
    case isTrue =>
      rw [List.mem_filter] at listed
      exact absurd rfl (of_decide_eq_true listed.2)
    case isFalse apart => exact ⟨apart, listed⟩
  case isFalse absent =>
    refine ⟨rfl, rfl, rfl, ?_⟩
    intro agent present listed
    refine ⟨?_, listed⟩
    intro same
    rw [same] at present
    exact absent present

theorem Traced.ownUnwatch (traced : Traced client hub session) (src : String) {other : Session}
    (watching : other.watching = session.watching.filter fun name => decide (name ≠ src))
    (unsubs : other.unsubs = session.unsubs) (runs : other.phase ≠ .ended) :
    Traced client (hub.unwatch src client) other := by
  obtain ⟨agents, _, subscribers, watchers⟩ := unwatch_frame hub src client
  refine ⟨?_, ?_, fun ended => absurd ended runs⟩
  · intro agent present listed
    rw [agents] at present
    obtain ⟨apart, had⟩ := watchers agent present listed
    rw [watching, List.mem_filter]
    exact ⟨traced.watchers agent present had, decide_eq_true apart⟩
  · rw [subscribers, unsubs]
    exact traced.subscribers

theorem unwatchAll_frame (sources : List String) : ∀ hub : Hub,
    (sources.foldl (fun hub src => hub.unwatch src client) hub).agents = hub.agents ∧
      (sources.foldl (fun hub src => hub.unwatch src client) hub).subscribers =
        hub.subscribers ∧
      ∀ agent, hub.agents agent = true →
        client ∈ (sources.foldl (fun hub src => hub.unwatch src client) hub).watchers agent →
          agent ∉ sources ∧ client ∈ hub.watchers agent := by
  induction sources with
  | nil =>
    intro hub
    exact ⟨rfl, rfl, fun agent _ listed => ⟨List.not_mem_nil, listed⟩⟩
  | cons src sources hypothesis =>
    intro hub
    obtain ⟨agents, _, subscribers, watchers⟩ := unwatch_frame hub src client
    obtain ⟨allAgents, allSubscribers, allWatchers⟩ := hypothesis (hub.unwatch src client)
    refine ⟨allAgents.trans agents, allSubscribers.trans subscribers, ?_⟩
    intro agent present listed
    obtain ⟨later, had⟩ := allWatchers agent (by rw [agents]; exact present) listed
    obtain ⟨apart, before⟩ := watchers agent present had
    refine ⟨?_, before⟩
    rw [List.mem_cons, not_or]
    exact ⟨apart, later⟩

/-- The tail of the `finally` block takes every trace away. -/
theorem Traced.cleanup (traced : Traced client state.hub state.session) :
    Traced client (state.cleanup client).hub (state.cleanup client).session := by
  obtain ⟨agents, subscribers, watchers⟩ :=
    @unwatchAll_frame client state.session.watching state.hub
  have away : ∀ agent, (state.cleanup client).hub.agents agent = true →
      client ∉ (state.cleanup client).hub.watchers agent := by
    intro agent present listed
    simp only [State.cleanup, agents] at present listed
    obtain ⟨apart, had⟩ := watchers agent present listed
    exact apart (traced.watchers agent present had)
  have none : (state.cleanup client).hub.subscribers = [] := by
    simp only [State.cleanup, subscribers, List.filter_eq_nil_iff, decide_eq_true_eq, not_not]
    exact traced.subscribers
  constructor
  · intro agent present listed
    exact absurd listed (away agent present)
  · rw [none]
    intro number listed
    cases listed
  · intro _
    refine ⟨none, ?_, away⟩
    simp only [State.cleanup, Function.update_self]

theorem Traced.leave (traced : Traced client state.hub state.session) :
    Traced client (state.leave client).hub (state.leave client).session := by
  have closing : Traced client state.hub
      { state.session with phase := .closing, draining := false } :=
    traced.sameSession rfl rfl nofun
  unfold State.leave
  simp only
  split
  · exact @Traced.cleanup client
      { state with session := { state.session with phase := .closing, draining := false } } closing
  · exact closing

theorem Traced.subscribe (traced : Traced client state.hub state.session) :
    Traced client state.subscribe.hub state.subscribe.session := by
  refine ⟨traced.watchers, ?_, nofun⟩
  intro token listed
  rcases List.mem_cons.mp listed with here | there
  · rw [here]
    exact List.mem_cons_self
  · exact List.mem_cons_of_mem _ (traced.subscribers token there)

/-! ### The calls -/

/-- One frame for a call that is answered, none before, and no call ends without one but in
its handler. -/
structure Accounted (session : Session) : Prop where
  answers : ∀ number, (session.calls number).answers =
    if (session.calls number).phase = .finished .answered then 1 else 0
  finished : ∀ number ending, (session.calls number).phase = .finished ending →
    ending = .answered ∨ ending = .cancelled

theorem Accounted.same {other : Session} (accounted : Accounted session)
    (calls : other.calls = session.calls) : Accounted other := by
  constructor
  · rw [calls]
    exact accounted.answers
  · rw [calls]
    exact accounted.finished

theorem Accounted.setCall (accounted : Accounted session) {number : Nat} {call : Call}
    (answers : call.answers = if call.phase = .finished .answered then 1 else 0)
    (finished : ∀ ending, call.phase = .finished ending → ending = .answered ∨ ending = .cancelled) :
    Accounted (session.setCall number call) := by
  constructor
  · intro other
    simp only [Session.setCall, Function.update_apply]
    split
    · exact answers
    · exact accounted.answers other
  · intro other
    simp only [Session.setCall, Function.update_apply]
    split
    · exact finished
    · exact accounted.finished other

theorem CallPhase.not_over {phase : CallPhase} (going : phase.isOver = false) (ending : Ending) :
    phase ≠ .finished ending := by
  intro ended
  rw [ended] at going
  cases going

/-- A call that is not over moves on. -/
theorem Accounted.proceed (accounted : Accounted session) {number : Nat} {phase : CallPhase}
    (before : (session.calls number).phase.isOver = false)
    (later : phase.isOver = false ∨ phase = .finished .cancelled) :
    Accounted (session.setCall number { session.calls number with phase := phase }) := by
  have unanswered : (session.calls number).answers = 0 := by
    rw [accounted.answers number, if_neg (CallPhase.not_over before .answered)]
  apply accounted.setCall
  · rcases later with going | cancelled
    · rw [if_neg (CallPhase.not_over going .answered), unanswered]
    · rw [cancelled, if_neg nofun, unanswered]
  · intro ending ended
    rcases later with going | cancelled
    · exact absurd ended (CallPhase.not_over going ending)
    · exact .inr (CallPhase.finished.inj (cancelled.symm.trans ended)).symm

theorem Accounted.beginSend (accounted : Accounted session) {number : Nat} (envelope : Value)
    (linked : session.link = true) (before : (session.calls number).phase.isOver = false) :
    Accounted (session.beginSend number envelope) := by
  unfold Session.beginSend
  rw [if_pos linked]
  exact accounted.proceed before (.inl rfl)

theorem Accounted.finishSend (accounted : Accounted session) {number : Nat} {envelope : Value}
    (sending : (session.calls number).phase = .sending envelope) :
    Accounted (session.finishSend number envelope) := by
  have logged : Accounted (session.log (.sent envelope)) := accounted.same rfl
  have unanswered : (session.calls number).answers = 0 := by
    rw [accounted.answers number, sending, if_neg nofun]
  apply logged.setCall
  · rw [if_pos rfl, unanswered]
  · intro ending answered
    exact .inl (CallPhase.finished.inj answered).symm

theorem Accounted.spawnCall (accounted : Accounted session) (frame : List (String × Value)) :
    Accounted (session.spawnCall frame) := by
  have spawned := @Accounted.setCall session accounted session.spawned
    { frame := frame, phase := .spawned, answers := 0 } rfl nofun
  exact spawned.same rfl

theorem leave_calls (state : State) : (state.leave client).session.calls = state.session.calls := by
  unfold State.leave
  simp only
  split <;> rfl

theorem Accounted.leave (accounted : Accounted state.session) :
    Accounted (state.leave client).session :=
  accounted.same (leave_calls state)

theorem accounted_fresh : Accounted Session.fresh where
  answers := fun _ => rfl
  finished := fun _ _ ended => .inr (CallPhase.finished.inj ended).symm

/-! ### Whole runs -/

structure Orderly (client : String) (state : State) : Prop where
  traced : Traced client state.hub state.session
  accounted : Accounted state.session
  phase : state.session.phase ≠ .failed ∧ state.session.phase ≠ .aborted

theorem Orderly.clean (orderly : Orderly client state)
    (finished : state.session.phase.finished = true) :
    Clean client state := by
  have ended : state.session.phase = .ended := by
    cases phase : state.session.phase with
    | ended => rfl
    | failed => exact absurd phase orderly.phase.1
    | aborted => exact absurd phase orderly.phase.2
    | _ =>
      rw [phase] at finished
      cases finished
  obtain ⟨none, gone, away⟩ := orderly.traced.ended ended
  refine ⟨away, none, gone, ?_⟩
  intro number ending finished kept
  rcases orderly.accounted.finished number ending finished with answered | cancelled
  · rw [orderly.accounted.answers number, finished, answered, if_pos rfl]
  · exact absurd cancelled kept

theorem leave_phase (state : State) : (state.leave client).session.phase ≠ .failed ∧
    (state.leave client).session.phase ≠ .aborted := by
  unfold State.leave
  simp only
  split <;> exact ⟨nofun, nofun⟩

theorem Orderly.leave (orderly : Orderly client state) : Orderly client (state.leave client) :=
  ⟨orderly.traced.leave, orderly.accounted.leave, leave_phase state⟩

/-- The session changes in what neither the tables nor the calls see. -/
theorem Orderly.sameSession (orderly : Orderly client state) {other : Session}
    (watching : other.watching = state.session.watching)
    (unsubs : other.unsubs = state.session.unsubs) (phase : other.phase = state.session.phase)
    (accounted : Accounted other) : Orderly client { state with session := other } := by
  refine ⟨?_, accounted, ?_⟩
  · apply orderly.traced.sameSession watching unsubs
    rw [phase]
    exact fun ended => ended
  · simp only [phase]
    exact orderly.phase

theorem Orderly.gated (orderly : Orderly client state) {kind : Bridge.ActionKind}
    {kindName : String} {frame : List (String × Value)} {allowed : State → State}
    (then_ : Orderly client (allowed state)) :
    Orderly client (state.gated runtime env client kind kindName frame allowed) := by
  unfold State.gated
  split
  · exact orderly.leave
  · split
    · exact then_
    · exact orderly

theorem Orderly.onEmit (orderly : Orderly client state) (frame : List (String × Value)) :
    Orderly client (state.onEmit client frame) := by
  have emitted := @Orderly.sameSession client state orderly (state.session.log (.emitted
    (field frame "target" (.str "")) (field frame "payload" (object [])))) rfl rfl rfl
    (orderly.accounted.same rfl)
  unfold State.onEmit
  simp only
  split
  · exact emitted.leave
  · split
    · exact ⟨emitted.traced.fanout _ _, emitted.accounted, emitted.phase⟩
    · exact emitted

theorem Orderly.onWatch (orderly : Orderly client state) (reading : state.session.phase = .reading)
    (frame : List (String × Value)) : Orderly client (state.onWatch client frame) := by
  unfold State.onWatch
  simp only
  split
  · exact orderly
  · split
    · exact orderly.leave
    · split
      · exact orderly
      · refine ⟨?_, orderly.accounted.same rfl, orderly.phase⟩
        apply orderly.traced.watch
        · rfl
        · rfl
        · simp only [Session.log, reading]
          exact nofun
    · exact orderly

theorem Orderly.onUnwatch (orderly : Orderly client state)
    (reading : state.session.phase = .reading) (frame : List (String × Value)) :
    Orderly client (state.onUnwatch client frame) := by
  unfold State.onUnwatch
  simp only
  split
  · exact orderly.leave
  · split
    · refine ⟨?_, orderly.accounted.same rfl, orderly.phase⟩
      apply orderly.traced.ownUnwatch
      · rfl
      · rfl
      · simp only [reading]
        exact nofun
    · exact orderly
  · exact orderly

theorem Orderly.subscribe (orderly : Orderly client state) : Orderly client state.subscribe :=
  ⟨orderly.traced.subscribe, orderly.accounted.same rfl, nofun, nofun⟩

theorem Orderly.onStateSubscribe (orderly : Orderly client state) :
    Orderly client state.onStateSubscribe := by
  unfold State.onStateSubscribe
  split
  · refine ⟨?_, orderly.accounted.same rfl, nofun, nofun⟩
    exact orderly.traced.sameSession rfl rfl nofun
  · exact orderly.subscribe

theorem Orderly.onStateUnsubscribe (orderly : Orderly client state)
    (reading : state.session.phase = .reading) : Orderly client state.onStateUnsubscribe := by
  refine ⟨⟨orderly.traced.watchers, ?_, ?_⟩, orderly.accounted.same rfl, orderly.phase⟩
  · intro token listed
    simp only [State.onStateUnsubscribe, List.mem_filter, decide_eq_true_eq] at listed
    exact absurd (orderly.traced.subscribers token listed.1) listed.2
  · intro ended
    have impossible : state.session.phase = .ended := ended
    rw [reading] at impossible
    cases impossible

/-- A call has its frame. -/
theorem Orderly.sending (orderly : Orderly client state) {number : Nat} (envelope : Value)
    (linked : state.session.link = true)
    (going : (state.session.calls number).phase.isOver = false) :
    Orderly client { state with session := state.session.beginSend number envelope } := by
  have accounted := @Accounted.beginSend _ orderly.accounted number envelope linked going
  unfold Session.beginSend at accounted ⊢
  rw [if_pos linked] at accounted ⊢
  exact orderly.sameSession rfl rfl rfl accounted

theorem Orderly.onFrame (orderly : Orderly client state)
    (reading : state.session.phase = .reading) (value : Value) :
    Orderly client (state.onFrame runtime env client value) := by
  unfold State.onFrame
  split
  · split
    · exact @Orderly.sameSession client state orderly (state.session.spawnCall _) rfl rfl rfl
        (orderly.accounted.spawnCall _)
    · exact orderly.gated (orderly.onEmit _)
    · exact orderly.gated (orderly.onWatch reading _)
    · exact orderly.onUnwatch reading _
    · exact orderly.gated (orderly.onStateSubscribe)
    · exact orderly.onStateUnsubscribe reading
    · exact orderly.leave
    · exact orderly.leave
    · exact orderly
  · exact orderly.leave

theorem Orderly.callStart (orderly : Orderly client state) {number : Nat}
    (spawned : (state.session.calls number).phase = .spawned) (linked : state.session.link = true)
    (passes : ∃ decision, gate runtime env state.hub.record .call "call"
      (state.session.calls number).frame = .ok decision) :
    Orderly client (state.callStart runtime env number) := by
  obtain ⟨decision, decided⟩ := passes
  have going : (state.session.calls number).phase.isOver = false := by
    rw [spawned]
    rfl
  unfold State.callStart
  simp only [decided]
  split
  · apply orderly.sameSession
    · rfl
    · rfl
    · rfl
    · have logged : Accounted (state.session.log (.dispatched
          (field (state.session.calls number).frame "target" (.str ""))
          (field (state.session.calls number).frame "payload" (object [])))) :=
        orderly.accounted.same rfl
      exact @Accounted.proceed _ logged number .dispatching going (.inl rfl)
  · exact orderly.sending _ linked going

theorem Orderly.drain (orderly : Orderly client state) : Orderly client (state.drain client) := by
  unfold State.drain
  split
  · split
    case h_1 payload rest found =>
      refine ⟨?_, orderly.accounted.same rfl, orderly.phase⟩
      have logged : Traced client state.hub (state.session.log (.sent (eventEnvelope payload))) :=
        orderly.traced.sameSession rfl rfl fun ended => ended
      apply logged.sameHub
      · rfl
      · rfl
      · rfl
      · intro gone
        rw [gone] at found
        cases found
    case h_2 => exact orderly
  · exact orderly

theorem log_events_same (tokens : List Nat) (event : Value) : ∀ session : Session,
    ∃ effects, tokens.foldl (fun session _ => session.log (.sent event)) session =
      { session with effects := effects } := by
  induction tokens with
  | nil =>
    intro session
    exact ⟨session.effects, rfl⟩
  | cons token tokens hypothesis =>
    intro session
    exact hypothesis (session.log (.sent event))

/-- A considerate move keeps the connection's books in order. -/
theorem Orderly.step (orderly : Orderly client state)
    (considerate : Considerate runtime env client state move) :
    Orderly client (state.step runtime env client move) := by
  cases move with
  | receive frame =>
    simp only [State.step]
    split
    case isTrue reading =>
      split
      · exact orderly.leave
      · exact orderly.onFrame reading _
    case isFalse => exact orderly
  | disconnect =>
    simp only [State.step]
    split
    · exact orderly.leave
    · exact orderly
  | snapshotSent agents =>
    simp only [State.step]
    split
    · have logged := @Orderly.sameSession client state orderly
        (state.session.log (.sent (snapshotEnvelope agents))) rfl rfl rfl
        (orderly.accounted.same rfl)
      exact logged.subscribe
    · exact orderly
  | snapshotRaised =>
    simp only [State.step]
    split
    · have lost := @Orderly.sameSession client state orderly
        { state.session with link := false } rfl rfl rfl (orderly.accounted.same rfl)
      exact lost.leave
    · exact orderly
  | callStart number =>
    simp only [State.step]
    split
    case isTrue ready => exact orderly.callStart ready.1 considerate.1 considerate.2
    case isFalse => exact orderly
  | handled number outcome =>
    simp only [State.step]
    split
    case isTrue dispatching =>
      apply orderly.sending _ considerate
      rw [dispatching]
      rfl
    case isFalse => exact orderly
  | sent number =>
    simp only [State.step]
    split
    case h_1 envelope sending =>
      exact @Orderly.sameSession client state orderly
        (state.session.finishSend number envelope) rfl rfl rfl
        (orderly.accounted.finishSend sending)
    case h_2 => exact orderly
  | sendFailed number =>
    simp only [State.step]
    split
    case h_1 envelope sending => exact absurd sending (considerate envelope)
    case h_2 => exact orderly
  | callCancelled number =>
    simp only [State.step]
    split
    case isTrue going =>
      apply orderly.sameSession
      · rfl
      · rfl
      · rfl
      · apply orderly.accounted.proceed going.2
        right
        cases phase : (state.session.calls number).phase with
        | sending envelope => exact absurd phase (considerate envelope)
        | _ => rfl
    case isFalse => exact orderly
  | drained => exact orderly.drain
  | linkLost =>
    exact @Orderly.sameSession client state orderly { state.session with link := false }
      rfl rfl rfl (orderly.accounted.same rfl)
  | gathered =>
    simp only [State.step]
    split
    · exact ⟨orderly.traced.cleanup, orderly.accounted.same rfl, by simp [State.cleanup],
        by simp [State.cleanup]⟩
    · exact orderly
  | cancelRun =>
    have joined : state.session.phase ≠ .closing := considerate
    simp only [State.step]
    split
    case h_1 => exact orderly.leave
    case h_2 => exact orderly.leave
    case h_3 closing => exact absurd closing joined
    case h_4 => exact orderly
  | telemetry event =>
    simp only [State.step]
    split
    · obtain ⟨effects, same⟩ := log_events_same state.hub.subscribers event state.session
      rw [same]
      exact orderly.sameSession rfl rfl rfl (orderly.accounted.same rfl)
    · exact orderly
  | _ => exact ⟨orderly.traced.outside considerate, orderly.accounted, orderly.phase⟩

theorem Orderly.run (moves : List Move) : ∀ {state : State}, Orderly client state →
    ConsiderateRun runtime env client state moves →
      Orderly client (state.run runtime env client moves) := by
  induction moves with
  | nil =>
    intro state orderly _
    exact orderly
  | cons move moves hypothesis =>
    intro state orderly considerate
    exact hypothesis (orderly.step considerate.1) considerate.2

/-- Connecting goes by the book when the gate of the auto-watch decides. -/
theorem orderly_connect (host : String)
    (unwatched : ∀ agent, hub.agents agent = true → client ∉ hub.watchers agent)
    (passes : ∃ decision, gate runtime env hub.record .watch "watch" [("src", .str host)] =
      .ok decision) :
    Orderly client (State.connect runtime env client host hub) := by
  obtain ⟨decision, decided⟩ := passes
  have opened : Traced client { hub.ensureInbox client with subscribers := [] } Session.fresh := by
    refine ⟨?_, nofun, nofun⟩
    intro agent present listed
    simp only [ensureInbox_agents, ensureInbox_watchers] at present listed
    exact absurd listed (unwatched agent present)
  unfold State.connect
  simp only [decided]
  split
  · refine ⟨?_, accounted_fresh.same rfl, nofun, nofun⟩
    apply opened.watch
    · rfl
    · rfl
    · exact nofun
  · exact ⟨opened, accounted_fresh, nofun, nofun⟩

/-! ### Hygiene -/

/-- However the frames, the outcomes of the handlers and the moves of the rest of the kernel
come, a connection whose auto-watch gate decides and that meets only considerate moves leaves
nothing behind when it is over. -/
theorem considerate_connections_leave_nothing (host : String) (hub : Hub) (moves : List Move)
    (unwatched : ∀ agent, hub.agents agent = true → client ∉ hub.watchers agent)
    (passes : ∃ decision, gate runtime env hub.record .watch "watch" [("src", .str host)] =
      .ok decision)
    (considerate : ConsiderateRun runtime env client
      (State.connect runtime env client host hub) moves)
    (finished : ((State.connect runtime env client host hub).run runtime env client
      moves).session.phase.finished = true) :
    Clean client ((State.connect runtime env client host hub).run runtime env client moves) :=
  ((orderly_connect host unwatched passes).run moves considerate).clean finished

/-- An agent in a kernel with no connection, and a leg with the given rule. -/
def deskHub (rule : String) : Hub where
  record := some (OrderedDict.empty.insert "ingress_rule" (.str rule))
  agents := fun agent => decide (agent = "desk")
  watchers := fun _ => []
  inboxes := fun _ => none
  subscribers := []

def callFrame : Value :=
  object [("type", .str "call"), ("id", .str "1"), ("target", .str "desk")]

/-- Two calls and a subscription; the peer goes away while the second handler runs. -/
def deskMoves : List Move :=
  [.receive (some callFrame), .callStart 0, .handled 0 (.returned .null), .sent 0,
    .receive (some (object [("type", .str "state_subscribe")])), .snapshotSent .null,
    .receive (some callFrame), .callStart 1, .disconnect, .callCancelled 1, .gathered]

theorem open_desk_is_left_clean :
    ((State.connect plainRuntime (fun _ => none) "_ws_00002b" "desk" (deskHub "allow_all")).run
      plainRuntime (fun _ => none) "_ws_00002b" deskMoves).session.phase = .ended ∧
    Clean "_ws_00002b"
      ((State.connect plainRuntime (fun _ => none) "_ws_00002b" "desk" (deskHub "allow_all")).run
        plainRuntime (fun _ => none) "_ws_00002b" deskMoves) := by
  refine ⟨by decide, ?_⟩
  apply considerate_connections_leave_nothing
  · intro agent _
    exact List.not_mem_nil
  · exact ⟨_, rfl⟩
  · refine ⟨trivial, ⟨rfl, _, rfl⟩, rfl, trivial, trivial, trivial, trivial, ⟨rfl, _, rfl⟩,
      trivial, ?_, trivial, trivial⟩
    intro envelope
    change CallPhase.dispatching ≠ .sending envelope
    exact nofun
  · decide

/-- The rule of the leg is unknown: connecting raises before the `try`, and the inbox under
the client id stays. -/
theorem unknown_rule_leaves_the_inbox :
    ¬ ∀ (hub : Hub) (moves : List Move),
      (∀ agent, hub.agents agent = true → "_ws_00002b" ∉ hub.watchers agent) →
      ((State.connect plainRuntime (fun _ => none) "_ws_00002b" "desk" hub).run plainRuntime
        (fun _ => none) "_ws_00002b" moves).session.phase.finished = true →
      Clean "_ws_00002b" ((State.connect plainRuntime (fun _ => none) "_ws_00002b" "desk" hub).run
        plainRuntime (fun _ => none) "_ws_00002b" moves) := by
  intro hygienic
  have clean := hygienic (deskHub "bogus") [] (fun _ _ => List.not_mem_nil) (by decide)
  have inbox := clean.inbox
  revert inbox
  decide

end Fantastic.Python.Socket

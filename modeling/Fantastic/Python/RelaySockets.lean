import Fantastic.Foundation.Runs
import Fantastic.Python.RelayTransport

/-!
# Who owns the sockets of a Python relay transport

Nothing ever closes a socket that `_ws` no longer names, so a socket must be gone before the
field lets go of it. That holds in the runs where what fails on a socket fails because the
socket has dropped, and with no newer one installed by then; where no dial ends after
`close`; and where no directory request starts between the two ends of `close`.
-/

namespace Fantastic.Python.Relay

def Request.Answered (request : Request) : Prop :=
  request.phase = .done ∨ request.answered = true

/-- Every directory request has its answer. -/
def Quiet (state : State) : Prop :=
  ∀ index request, state.requests index = some request → request.kind = .directory →
    request.Answered

/-- No failure has cleared another socket than its own, every open socket is the installed
one, and after `close` has returned none is open and nothing waits. -/
structure SocketsKept (state : State) : Prop where
  unclobbered : state.clobbered = false
  referenced : ∀ socket, state.opened socket = true → state.ws = some socket
  shut : state.returned = true → (∀ socket, state.opened socket = false) ∧ Quiet state

/-- The socket has dropped, and no other is installed. -/
def Lost (state : State) (socket : Nat) : Prop :=
  state.opened socket = false ∧ (state.ws = none ∨ state.ws = some socket)

/-- A dial ends before `close` is called. What raises on a socket has lost it. A directory
request finds the transport open, or no socket. -/
def Considerate (state : State) : Step → Prop
  | .dialSucceeded => state.receiver = .dialing → state.closed = false
  | .receiveFailed => ∀ socket, state.receiver = .receiving socket → state.opened socket = false
  | .announceFailed => ∀ socket, state.receiver = .announcing socket →
      state.opened socket = false
  | .sendFailed index => ∀ request, state.requests index = some request →
      request.phase = .sending → Lost state request.socket
  | .request .directory => state.closed = true → state.ws = none
  | _ => True

/-- What the receiver knows of the installed socket. -/
def Receiver.Fits (ws : Option Nat) : Receiver → Prop
  | .outside => True
  | .dialing | .retrying | .pausing => ws = none
  | .announcing socket | .receiving socket => ws = none ∨ ws = some socket

structure Inv (state : State) : Prop where
  unclobbered : state.clobbered = false
  referenced : ∀ socket, state.opened socket = true → state.ws = some socket
  receiver : state.receiver.Fits state.ws
  quiet : state.closed = true → Quiet state
  closing : ∀ socket ∈ state.closes, state.closed = true ∧
    (state.ws = none ∨ state.ws = some socket)
  shut : state.returned = true → state.closed = true ∧ state.ws = none

variable {state : State}

theorem Inv.kept (inv : Inv state) : SocketsKept state := by
  refine ⟨inv.unclobbered, inv.referenced, ?_⟩
  intro returned
  obtain ⟨closed, gone⟩ := inv.shut returned
  refine ⟨?_, inv.quiet closed⟩
  intro socket
  rw [← Bool.not_eq_true]
  intro opened
  have installed := inv.referenced socket opened
  rw [gone] at installed
  cases installed

/-! ### What the parts of a step preserve -/

/-- The receiver may go where the installed socket allows it. -/
theorem Inv.moved (inv : Inv state) {receiver : Receiver} (fits : receiver.Fits state.ws) :
    Inv { state with receiver := receiver } :=
  ⟨inv.unclobbered, inv.referenced, fits, inv.quiet, inv.closing, inv.shut⟩

theorem Inv.beating (inv : Inv state) (heartbeat : Heartbeat) :
    Inv { state with heartbeat := heartbeat } :=
  ⟨inv.unclobbered, inv.referenced, inv.receiver, inv.quiet, inv.closing, inv.shut⟩

/-- Requests may change as long as a closed transport leaves none without its answer. -/
theorem Inv.requests (inv : Inv state) {requests : Nat → Option Request} (count : Nat)
    (quiet : state.closed = true → ∀ index request, requests index = some request →
      request.kind = .directory → request.Answered) :
    Inv { state with requests := requests, count := count } :=
  ⟨inv.unclobbered, inv.referenced, inv.receiver, quiet, inv.closing, inv.shut⟩

theorem Inv.setRequest (inv : Inv state) (index : Nat) {request : Request}
    (answered : state.closed = true → request.kind = .directory → request.Answered) :
    Inv (state.setRequest index request) := by
  apply inv.requests state.count
  intro closed other found there directory
  by_cases same : other = index
  · subst same
    rw [Function.update_self] at there
    cases there
    exact answered closed directory
  · rw [Function.update_of_ne same] at there
    exact inv.quiet closed other found there directory

theorem Receiver.Fits.cleared {ws : Option Nat} {receiver : Receiver} (fits : receiver.Fits ws) :
    receiver.Fits none := by
  cases receiver with
  | outside => trivial
  | announcing socket => exact .inl rfl
  | receiving socket => exact .inl rfl
  | dialing => rfl
  | retrying => rfl
  | pausing => rfl

/-- A lost socket may be let go. -/
theorem Inv.clear (inv : Inv state) {socket : Nat} (lost : Lost state socket) :
    Inv (state.clear socket) := by
  obtain ⟨dropped, own⟩ := lost
  refine ⟨?_, ?_, inv.receiver.cleared, inv.quiet, ?_, ?_⟩
  · simp only [State.clear, inv.unclobbered, Bool.false_or, decide_eq_false_iff_not, not_and_or,
      not_not]
    exact own
  · intro other opened
    have installed := inv.referenced other opened
    cases own with
    | inl nothing =>
      rw [nothing] at installed
      cases installed
    | inr same =>
      rw [same] at installed
      cases installed
      rw [State.clear] at opened
      rw [dropped] at opened
      cases opened
  · intro other member
    exact ⟨(inv.closing other member).1, .inl rfl⟩
  · intro returned
    exact ⟨(inv.shut returned).1, rfl⟩

theorem Inv.turn (inv : Inv state) : Inv state.turn := by
  unfold State.turn
  split
  · exact inv.moved trivial
  · split
    case h_1 socket installed => exact inv.moved (.inr installed)
    case h_2 nothing => exact inv.moved nothing

theorem Inv.reconnected (inv : Inv state) : Inv state.reconnected := by
  unfold State.reconnected
  split
  · exact inv.turn
  · exact inv.moved trivial

theorem Inv.answer (inv : Inv state) (index : Nat) : Inv (state.answer index) := by
  unfold State.answer
  split
  · split
    · apply inv.setRequest
      intro _ _
      exact .inr rfl
    · exact inv
  · exact inv

/-! ### The steps -/

theorem Inv.received (inv : Inv state) (frame : Inbound) : Inv (state.received frame) := by
  unfold State.received
  split
  · cases frame with
    | delivery => exact inv.moved trivial
    | reply index => exact (inv.answer index).turn
    | skipped => exact inv.turn
  · exact inv

theorem Inv.receiveFailed (inv : Inv state) (considerate : Considerate state .receiveFailed) :
    Inv state.receiveFailed := by
  unfold State.receiveFailed
  split
  case h_1 socket receiving =>
    have fits := inv.receiver
    rw [receiving] at fits
    apply (inv.clear ⟨considerate socket receiving, fits⟩).moved
    cases state.reconnects with
    | true => rfl
    | false => trivial
  · exact inv

theorem Inv.slept (inv : Inv state) : Inv state.slept := by
  unfold State.slept
  split
  case h_1 retrying =>
    have fits := inv.receiver
    rw [retrying] at fits
    apply inv.moved
    split
    · trivial
    · exact fits
  · exact inv.turn
  · exact inv

/-- The new socket is installed where there was none. -/
theorem Inv.dialSucceeded (inv : Inv state) (considerate : Considerate state .dialSucceeded) :
    Inv state.dialSucceeded := by
  unfold State.dialSucceeded
  split
  case isTrue dialing =>
    have alive := considerate dialing
    have nothing : state.ws = none := by
      have fits := inv.receiver
      rw [dialing] at fits
      exact fits
    have open' : ∀ {receiver : Receiver}, receiver.Fits (some state.dialed) →
        Inv ({ state with
          ws := some state.dialed
          opened := Function.update state.opened state.dialed true
          dialed := state.dialed + 1
          receiver := receiver } : State).startHeartbeat := by
      intro receiver fits
      refine ⟨inv.unclobbered, ?_, fits, inv.quiet, ?_, ?_⟩
      · intro socket opened
        by_cases same : socket = state.dialed
        · rw [same]
          rfl
        · simp only [State.startHeartbeat, Function.update_of_ne same] at opened
          have installed := inv.referenced socket opened
          rw [nothing] at installed
          cases installed
      · intro socket member
        have closed := (inv.closing socket member).1
        rw [alive] at closed
        cases closed
      · intro returned
        have closed := (inv.shut returned).1
        rw [alive] at closed
        cases closed
    simp only
    split
    · exact @open' (.announcing state.dialed) (.inr rfl)
    · -- `turn` overwrites the receiver
      have installed := @open' .outside trivial
      exact installed.turn
  · exact inv

theorem Inv.dialFailed (inv : Inv state) : Inv state.dialFailed := by
  unfold State.dialFailed
  split
  case isTrue dialing =>
    have nothing : state.ws = none := by
      have fits := inv.receiver
      rw [dialing] at fits
      exact fits
    rw [← nothing]
    apply inv.moved
    split
    · exact nothing
    · trivial
  · exact inv

theorem Inv.announceDone (inv : Inv state) : Inv state.announced := by
  unfold State.announced
  split
  · exact inv.reconnected
  · exact inv

theorem Inv.announceFailed (inv : Inv state) (considerate : Considerate state .announceFailed) :
    Inv state.announceFailed := by
  unfold State.announceFailed
  split
  case h_1 socket announcing =>
    have fits := inv.receiver
    rw [announcing] at fits
    exact (inv.clear ⟨considerate socket announcing, fits⟩).reconnected
  · exact inv

theorem Inv.request (inv : Inv state) {kind : Kind}
    (considerate : Considerate state (.request kind)) : Inv (state.request kind) := by
  unfold State.request
  split
  case h_1 socket installed =>
    have added : Inv (state.setRequest state.count
        { kind := kind, socket := socket, phase := .sending, answered := false }) := by
      apply inv.setRequest
      intro closed directory
      cases directory
      have nothing := considerate closed
      rw [installed] at nothing
      cases nothing
    exact ⟨added.unclobbered, added.referenced, added.receiver, added.quiet, added.closing,
      added.shut⟩
  · exact inv

theorem Inv.sent (inv : Inv state) (index : Nat) : Inv (state.sent index) := by
  unfold State.sent
  split
  case h_1 request found =>
    split
    case isTrue sending =>
      apply inv.setRequest
      intro closed directory
      cases inv.quiet closed index request found directory with
      | inl done =>
        rw [sending] at done
        cases done
      | inr answered => exact .inr answered
    · exact inv
  · exact inv

theorem Inv.sendFailed (inv : Inv state) {index : Nat}
    (considerate : Considerate state (.sendFailed index)) : Inv (state.sendFailed index) := by
  unfold State.sendFailed
  split
  case h_1 request found =>
    split
    case isTrue sending =>
      have ended : Inv (state.setRequest index { request with phase := .done }) := by
        apply inv.setRequest
        intro _ _
        exact .inl rfl
      exact ended.clear (considerate request found sending)
    · exact inv
  · exact inv

theorem Inv.timeout (inv : Inv state) (index : Nat) : Inv (state.timeout index) := by
  unfold State.timeout
  split
  · split
    · apply inv.setRequest
      intro _ _
      exact .inl rfl
    · exact inv
  · exact inv

theorem Inv.setIdentity (inv : Inv state) (identity : Bool) : Inv (state.setIdentity identity) := by
  have changed : Inv { state with identity := identity } :=
    ⟨inv.unclobbered, inv.referenced, inv.receiver, inv.quiet, inv.closing, inv.shut⟩
  unfold State.setIdentity
  simp only
  split
  · exact changed.request trivial
  · exact changed

theorem Inv.beat (inv : Inv state) : Inv state.beat := by
  unfold State.beat
  split
  · split
    · exact inv.beating _
    · exact inv.beating _
  · exact inv

theorem Inv.beatSent (inv : Inv state) : Inv state.beatSent := by
  unfold State.beatSent
  split
  · exact inv.beating _
  · exact inv

theorem Inv.beatFailed (inv : Inv state) : Inv state.beatFailed := by
  unfold State.beatFailed
  split
  · exact inv.beating _
  · exact inv

theorem answerAll_quiet (state : State) : Quiet state.answerAll := by
  intro index request found directory
  obtain ⟨before, _, rfl⟩ := Option.map_eq_some_iff.mp found
  split
  · exact .inr rfl
  case isFalse settled =>
    rw [if_neg settled] at directory
    simp only [directory, true_and, ne_eq, not_not] at settled
    exact .inl settled

theorem Inv.close (inv : Inv state) : Inv state.close := by
  have quiet : ∀ closed heartbeat,
      Quiet ({ state with closed := closed, heartbeat := heartbeat } : State).answerAll :=
    fun _ _ => answerAll_quiet _
  unfold State.close
  simp only
  split
  case h_1 socket installed =>
    refine ⟨inv.unclobbered, inv.referenced, inv.receiver, fun _ => quiet _ _, ?_, ?_⟩
    · intro other member
      refine ⟨rfl, ?_⟩
      cases List.mem_cons.mp member with
      | inl same =>
        rw [same]
        exact .inr installed
      | inr earlier => exact (inv.closing other earlier).2
    · intro returned
      exact ⟨rfl, (inv.shut returned).2⟩
  case h_2 nothing =>
    refine ⟨inv.unclobbered, inv.referenced, inv.receiver, fun _ => quiet _ _, ?_, ?_⟩
    · intro other member
      exact ⟨rfl, .inl nothing⟩
    · intro _
      exact ⟨rfl, nothing⟩

theorem Inv.drop (inv : Inv state) (socket : Nat) :
    Inv { state with opened := Function.update state.opened socket false } := by
  refine ⟨inv.unclobbered, ?_, inv.receiver, inv.quiet, inv.closing, inv.shut⟩
  intro other opened
  by_cases same : other = socket
  · subst same
    simp at opened
  · simp only [Function.update_of_ne same] at opened
    exact inv.referenced other opened

/-- The socket of a `close` is the installed one, if there still is one. -/
theorem Inv.socketClosed (inv : Inv state) (socket : Nat) : Inv (state.socketClosed socket) := by
  unfold State.socketClosed
  split
  case isTrue member =>
    obtain ⟨closed, own⟩ := inv.closing socket member
    have dropped : Lost { state with opened := Function.update state.opened socket false }
        socket := ⟨by simp, own⟩
    have cleared := (inv.drop socket).clear dropped
    refine ⟨inv.unclobbered, cleared.referenced, cleared.receiver, cleared.quiet, ?_, ?_⟩
    · intro other earlier
      exact cleared.closing other (List.mem_of_mem_erase earlier)
    · intro _
      exact ⟨closed, rfl⟩
  · exact inv

theorem Inv.step (state : State) (step : Step) (inv : Inv state)
    (considerate : Considerate state step) : Inv (state.step step) := by
  cases step with
  | recv =>
    change Inv state.recv
    unfold State.recv
    split
    · exact inv.turn
    · exact inv
  | received frame => exact inv.received frame
  | receiveFailed => exact inv.receiveFailed considerate
  | slept => exact inv.slept
  | dialSucceeded => exact inv.dialSucceeded considerate
  | dialFailed => exact inv.dialFailed
  | announced => exact inv.announceDone
  | announceFailed => exact inv.announceFailed considerate
  | request kind => exact inv.request considerate
  | sent index => exact inv.sent index
  | sendFailed index => exact inv.sendFailed considerate
  | timeout index => exact inv.timeout index
  | setIdentity identity => exact inv.setIdentity identity
  | beat => exact inv.beat
  | beatSent => exact inv.beatSent
  | beatFailed => exact inv.beatFailed
  | close => exact inv.close
  | socketClosed socket => exact inv.socketClosed socket
  | dropped socket => exact inv.drop socket

theorem connected_inv (reconnects beats identity first : Bool) :
    Inv (.connected reconnects beats identity first) := by
  refine ⟨rfl, ?_, trivial, by simp [State.connected], by simp [State.connected],
    by simp [State.connected]⟩
  intro socket opened
  simp only [State.connected, Bool.and_eq_true, decide_eq_true_eq] at opened ⊢
  obtain ⟨dialed, zero⟩ := opened
  simp [dialed, zero]

/-- Whatever the settings of the transport and the order of steps, a considerate run keeps
its sockets. -/
theorem considerate_runs_own_their_sockets (reconnects beats identity first : Bool)
    (steps : List Step)
    (considerate : Runs.Along State.step Considerate
      (.connected reconnects beats identity first) steps) :
    SocketsKept (steps.foldl State.step (.connected reconnects beats identity first)) :=
  (Runs.Along.invariant Inv.step steps (connected_inv reconnects beats identity first)
    considerate).kept

/-- The socket drops under a request for the directory, a new one is announced on, and
`close` comes after it. -/
theorem healed_transport_closes_its_socket :
    SocketsKept ([.recv, .request .directory, .dropped 0, .sendFailed 0, .receiveFailed, .slept,
      .dialSucceeded, .announced, .received .delivery, .close, .socketClosed 1].foldl State.step
        (.connected true true true true)) := by
  apply considerate_runs_own_their_sockets
  simp [Runs.Along, Considerate, Lost, State.step, State.connected, State.recv, State.turn,
    State.request, State.setRequest, State.sendFailed, State.clear, State.receiveFailed,
    State.slept]

/-- A send is under way on a socket that drops; when it raises, the next socket is installed
and stays open with nothing that names it. -/
theorem late_failure_abandons_the_socket :
    ¬ SocketsKept ([.recv, .request .forward, .dropped 0, .receiveFailed, .slept, .dialSucceeded,
      .announced, .sendFailed 0].foldl State.step (.connected true true true true)) := by
  intro kept
  have clobbered := kept.unclobbered
  cases clobbered

end Fantastic.Python.Relay

import Fantastic.Swift.RelayTransport

/-!
# Who owns the socket of a relay transport

Between the installation of a socket and the loop's use of it lies the send of `announce`,
and a failing sender clears whatever is installed by the time it fails. The ownership holds
in the runs where no send fails on an older socket or during an announcement, where `close`
neither overtakes an announcement nor is overtaken by a dial, and where no send outlives it.
-/

namespace Fantastic.Swift.Relay

/-- No request is in a pending table. -/
def Quiet (state : State) : Prop :=
  ∀ index request, state.requests index = some request → request.phase ≠ .waiting

/-- The loop has not unwrapped a nil client, no failing send has cleared another socket than
its own, and after `close` has returned there is no socket and nothing is pending. -/
def SocketsKept (state : State) : Prop :=
  state.loop ≠ .trapped ∧ state.clobbered = false ∧
    (state.returned = true → state.client = none ∧ Quiet state)

/-- A dial succeeds only while the transport is open. A send fails only with its own socket
or none installed, and not during an announcement. `close` is not called again while it is
under way and does not end during an announcement, and no send of a request returns after it
has returned. -/
def Considerate (state : State) : Step → Prop
  | .dialed => state.loop = .dialing → state.open' = true
  | .sendFailed index => ∀ request, state.requests index = some request →
      request.phase = .sending →
        (state.client = none ∨ state.client = some request.socket) ∧ state.loop ≠ .announcing
  | .sent index => state.returned = true → ∀ request, state.requests index = some request →
      request.phase = .sending → request.kind = .plain
  | .close => state.closing = false
  | .closeDone => state.closing = true → state.loop ≠ .announcing
  | _ => True

def ConsiderateRun : List Step → State → Prop
  | [], _ => True
  | step :: rest, state => Considerate state step ∧ ConsiderateRun rest (state.step step)

structure Inv (state : State) : Prop where
  untrapped : state.loop ≠ .trapped
  unclobbered : state.clobbered = false
  announced : state.loop = .announcing → state.client ≠ none
  shut : state.returned = true → state.open' = false ∧ state.closing = false ∧
    state.client = none ∧ Quiet state
  closing : state.closing = true → state.open' = false
  ending : state.open' = false → state.closing = true ∨ state.returned = true

variable {state : State}

theorem Inv.sockets (inv : Inv state) : SocketsKept state :=
  ⟨inv.untrapped, inv.unclobbered, fun returned => (inv.shut returned).2.2⟩

theorem Inv.alive (inv : Inv state) (open' : state.open' = true) :
    state.returned = false ∧ state.closing = false := by
  constructor
  · rw [← Bool.not_eq_true]
    intro returned
    have shut := (inv.shut returned).1
    rw [open'] at shut
    cases shut
  · rw [← Bool.not_eq_true]
    intro closing
    have shut := inv.closing closing
    rw [open'] at shut
    cases shut

theorem failAllPending_quiet (state : State) : Quiet state.failAllPending := by
  intro index request found
  obtain ⟨before, _, rfl⟩ := Option.map_eq_some_iff.mp found
  split
  · simp
  case isFalse awake => exact awake

/-- Requests may change as long as nothing starts to wait after `close` has returned. -/
theorem Inv.requests (inv : Inv state) {requests : Nat → Option Request} {count : Nat}
    (quiet : state.returned = true →
      ∀ index request, requests index = some request → request.phase ≠ .waiting) :
    Inv { state with requests := requests, count := count } :=
  ⟨inv.untrapped, inv.unclobbered, inv.announced,
    fun returned => ⟨(inv.shut returned).1, (inv.shut returned).2.1, (inv.shut returned).2.2.1,
      quiet returned⟩, inv.closing, inv.ending⟩

/-- The loop may go anywhere that is neither an announcement nor the trap. -/
theorem Inv.looped (inv : Inv state) {loop : Loop} (untrapped : loop ≠ .trapped)
    (silent : loop ≠ .announcing) : Inv { state with loop := loop } :=
  ⟨untrapped, inv.unclobbered, fun announcing => absurd announcing silent, inv.shut, inv.closing,
    inv.ending⟩

theorem Inv.failAllPending (inv : Inv state) : Inv state.failAllPending := by
  apply inv.requests
  intro _
  exact failAllPending_quiet state

theorem Inv.finish (inv : Inv state) : Inv state.finish :=
  inv.failAllPending.looped (by simp) (by simp)

theorem Inv.turn (inv : Inv state) : Inv state.turn := by
  unfold State.turn
  split
  · split
    · exact inv.looped (by simp) (by simp)
    · split
      · exact inv.looped (by simp) (by simp)
      · exact inv.finish
  · exact inv.finish

theorem Inv.receive (inv : Inv state) (installed : state.client ≠ none) : Inv state.receive := by
  unfold State.receive
  split
  · exact inv.looped (by simp) (by simp)
  case h_2 missing => exact absurd missing installed

/-- The client may be cleared where the loop does not announce. -/
theorem Inv.cleared (inv : Inv state) (silent : state.loop ≠ .announcing) :
    Inv { state with client := none } :=
  ⟨inv.untrapped, inv.unclobbered, fun announcing => absurd announcing silent,
    fun returned => ⟨(inv.shut returned).1, (inv.shut returned).2.1, rfl,
      (inv.shut returned).2.2.2⟩, inv.closing, inv.ending⟩

theorem Inv.dialed (inv : Inv state) (considerate : Considerate state .dialed) :
    Inv state.dialSucceeded := by
  unfold State.dialSucceeded
  by_cases dialing : state.loop = .dialing
  · rw [if_pos dialing]
    obtain ⟨alive, _⟩ := inv.alive (considerate dialing)
    have installed : Inv { state with client := some state.dialed, dialed := state.dialed + 1 } :=
      ⟨inv.untrapped, inv.unclobbered, by simp, by simp [alive], inv.closing, inv.ending⟩
    simp only
    split
    · exact ⟨by simp, inv.unclobbered, by simp, by simp [alive], inv.closing, inv.ending⟩
    · exact installed.receive (by simp)
  · rw [if_neg dialing]
    exact inv

theorem Inv.resume (inv : Inv state) (index : Nat) : Inv (state.resume index) := by
  unfold State.resume
  split
  · split
    · apply inv.requests
      intro returned other request found
      by_cases same : other = index
      · subst same
        rw [Function.update_self] at found
        cases found
        simp
      · rw [Function.update_of_ne same] at found
        exact (inv.shut returned).2.2.2 other request found
    · exact inv
  · exact inv

theorem Inv.received (inv : Inv state) (resolved : Option Nat) (suspends : Bool) :
    Inv (state.received resolved suspends) := by
  unfold State.received
  split
  · have resumed : Inv ((resolved.map state.resume).getD state) := by
      cases resolved with
      | none => exact inv
      | some index => exact inv.resume index
    simp only
    split
    · exact resumed.looped (by simp) (by simp)
    · exact resumed.turn
  · exact inv

theorem Inv.receiveFailed (inv : Inv state) : Inv state.receiveFailed := by
  unfold State.receiveFailed
  split
  case h_1 socket receiving =>
    have cleared := inv.cleared (by simp [receiving])
    simp only
    split
    · exact cleared.turn
    · exact cleared.finish
  · exact inv

theorem Inv.request (inv : Inv state) (kind : Kind) : Inv (state.request kind) := by
  unfold State.request
  split
  case h_1 socket open' _ =>
    apply inv.requests
    intro returned
    rw [(inv.alive open').1] at returned
    cases returned
  · exact inv

theorem Inv.sent (inv : Inv state) {index : Nat} (considerate : Considerate state (.sent index)) :
    Inv (state.sent index) := by
  unfold State.sent
  split
  case h_1 request found =>
    split
    case isTrue sending =>
      apply inv.requests
      intro returned other after there
      by_cases same : other = index
      · subst same
        rw [Function.update_self] at there
        cases there
        simp [considerate returned request found sending]
      · rw [Function.update_of_ne same] at there
        exact (inv.shut returned).2.2.2 other after there
    · exact inv
  · exact inv

theorem Inv.sendFailed (inv : Inv state) {index : Nat}
    (considerate : Considerate state (.sendFailed index)) : Inv (state.sendFailed index) := by
  unfold State.sendFailed
  split
  case h_1 request found =>
    split
    case isTrue sending =>
      obtain ⟨own, silent⟩ := considerate request found sending
      have quiet : state.returned = true → ∀ other after, Function.update state.requests index
          (some { request with phase := .done }) other = some after → after.phase ≠ .waiting := by
        intro returned other after there
        by_cases same : other = index
        · subst same
          rw [Function.update_self] at there
          cases there
          simp
        · rw [Function.update_of_ne same] at there
          exact (inv.shut returned).2.2.2 other after there
      have cleared := (@Inv.requests state inv _ state.count quiet).cleared silent
      refine ⟨cleared.untrapped, ?_, cleared.announced, cleared.shut, cleared.closing,
        cleared.ending⟩
      simp only [inv.unclobbered, Bool.false_or]
      cases own with
      | inl nothing => simp [nothing]
      | inr same => simp [same]
    · exact inv
  · exact inv

/-- The end of `close`, where the loop does not announce. -/
theorem Inv.closed (inv : Inv state) (silent : state.loop ≠ .announcing)
    (shut : state.open' = false) : Inv state.closed :=
  ⟨inv.untrapped, inv.unclobbered, fun announcing => absurd announcing silent,
    fun _ => ⟨shut, rfl, rfl, failAllPending_quiet _⟩, by simp [State.closed, State.failAllPending],
    fun _ => .inr rfl⟩

theorem Inv.close (inv : Inv state) (considerate : Considerate state .close) :
    Inv state.close := by
  unfold State.close
  split
  case isTrue open' =>
    obtain ⟨alive, _⟩ := inv.alive open'
    split
    · exact ⟨inv.untrapped, inv.unclobbered, inv.announced, by simp [alive], by simp, by simp⟩
    case h_2 nothing =>
      have silent : state.loop ≠ .announcing := fun announcing => inv.announced announcing nothing
      exact ⟨inv.untrapped, inv.unclobbered, fun announcing => absurd announcing silent,
        fun _ => ⟨rfl, rfl, rfl, failAllPending_quiet _⟩, fun _ => rfl, fun _ => .inr rfl⟩
  case isFalse shut =>
    have ended : state.returned = true := by
      cases inv.ending (by simpa using shut) with
      | inl closing =>
        have idle : state.closing = false := considerate
        rw [idle] at closing
        cases closing
      | inr returned => exact returned
    exact ⟨inv.untrapped, inv.unclobbered, inv.announced, fun _ => inv.shut ended, inv.closing,
      fun _ => .inr rfl⟩

theorem Inv.closeDone (inv : Inv state) (considerate : Considerate state .closeDone) :
    Inv state.closeDone := by
  unfold State.closeDone
  split
  case isTrue closing => exact inv.closed (considerate closing) (inv.closing closing)
  · exact inv

theorem Inv.announceDone (inv : Inv state) : Inv state.announced := by
  unfold State.announced
  split
  case isTrue announcing => exact inv.receive (inv.announced announcing)
  · exact inv

theorem Inv.slept (inv : Inv state) : Inv state.slept := by
  unfold State.slept
  split
  · split
    · exact inv.looped (by simp) (by simp)
    · exact inv.finish
  · exact inv

theorem Inv.dialFailed (inv : Inv state) : Inv state.dialFailed := by
  unfold State.dialFailed
  split
  · split
    · exact inv.looped (by simp) (by simp)
    · exact inv.finish
  · exact inv

theorem Inv.loopStarted (inv : Inv state) : Inv state.loopStarted := by
  unfold State.loopStarted
  split
  · exact inv.turn
  · exact inv

theorem Inv.handled (inv : Inv state) : Inv state.handled := by
  unfold State.handled
  split
  · exact inv.turn
  · exact inv

theorem Inv.step (inv : Inv state) {step : Step} (considerate : Considerate state step) :
    Inv (state.step step) := by
  cases step with
  | loopStarted => exact inv.loopStarted
  | slept => exact inv.slept
  | dialFailed => exact inv.dialFailed
  | dialed => exact inv.dialed considerate
  | announced => exact inv.announceDone
  | received resolved suspends => exact inv.received resolved suspends
  | handled => exact inv.handled
  | receiveFailed => exact inv.receiveFailed
  | request kind => exact inv.request kind
  | sent index => exact inv.sent considerate
  | sendFailed index => exact inv.sendFailed considerate
  | timeout index => exact inv.resume index
  | setIdentity identity =>
    exact ⟨inv.untrapped, inv.unclobbered, inv.announced, inv.shut, inv.closing, inv.ending⟩
  | close => exact inv.close considerate
  | closeDone => exact inv.closeDone considerate

theorem Inv.run (steps : List Step) :
    ∀ {state : State}, Inv state → ConsiderateRun steps state → Inv (State.run steps state) := by
  induction steps with
  | nil =>
    intro _ inv _
    exact inv
  | cons step rest ih =>
    intro _ inv considerate
    exact ih (inv.step considerate.1) considerate.2

theorem booted_inv (heals dialer identity connected : Bool) :
    Inv (.booted heals dialer identity connected) :=
  ⟨by simp [State.booted], rfl, by simp [State.booted], by simp [State.booted],
    by simp [State.booted], by simp [State.booted]⟩

/-- Whatever the record of the bridge and the order of steps, a considerate run keeps the
socket. -/
theorem considerate_runs_keep_sockets (heals dialer identity connected : Bool) (steps : List Step)
    (considerate : ConsiderateRun steps (.booted heals dialer identity connected)) :
    SocketsKept (State.run steps (.booted heals dialer identity connected)) :=
  (Inv.run steps (booted_inv heals dialer identity connected) considerate).sockets

/-- The socket fails, a new one is announced on, a forward is answered and `close` returns. -/
theorem redialed_socket_is_kept :
    SocketsKept (State.run [.loopStarted, .receiveFailed, .slept, .dialed, .announced,
      .request .forward, .sent 0, .received (some 0) false, .close, .closeDone]
        (.booted true true true true)) := by
  apply considerate_runs_keep_sockets
  simp [ConsiderateRun, Considerate, State.step, State.booted, State.loopStarted, State.turn,
    State.receiveFailed, State.slept, State.dialSucceeded, State.announced, State.receive,
    State.request, State.sent, State.received, State.resume, State.close]

/-- A forward takes the socket that is being announced on and fails there: the loop goes on
to unwrap the client it finds cleared. -/
theorem failed_send_traps_the_loop :
    ¬ SocketsKept (State.run [.loopStarted, .receiveFailed, .slept, .dialed, .request .forward,
      .sendFailed 0, .announced] (.booted true true true true)) := by
  intro kept
  exact kept.1 rfl

end Fantastic.Swift.Relay

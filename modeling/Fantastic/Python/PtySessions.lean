import Fantastic.Foundation.DescriptorTable

/-!
# The PTY sessions of a terminal

The verbs of `terminal_backend/tools.py` that write to a PTY (`write`, `paste_image`, `shell`)
or end and begin one (`boot`, `restart`, `stop`, the delete hook, the end of the child), over
the descriptor numbers of the process. A verb that writes keeps the `state` of the session
that ran when it was accepted, and with it the number `state["fd"]`; between two awaits it is
one step.

The selector calls back a writer whose number is ready, also where the number was closed and
opened again in between. Flow control attaches and detaches the reader of the running session
at any time; the output side of a session is left out here.
-/

namespace Fantastic.Python.Pty

/-- What a number stands for: the PTY of a session, or something else in the process. -/
inductive Owner where
  | pty (serial : Nat)
  | other
  deriving DecidableEq

/-- What the verbs use of `state`. -/
structure Session where
  serial : Nat
  fd : Nat
  deriving DecidableEq

inductive Verb where
  | write
  | pasteImage
  | shell
  deriving DecidableEq

/-- Where a call stands: in the queue of `write_lock`, at `ev.wait()`, past `ev.set` but not
run yet, and for `shell` at its done-token and at the half second after Ctrl-C. -/
inductive Phase where
  | queued
  | blocked
  | woken
  | pending
  | interrupted
  | finished
  deriving DecidableEq

structure Call where
  verb : Verb
  session : Session
  rest : List UInt8
  phase : Phase

/-- What a call or a cleanup for a session does, and whom it hits. -/
inductive Effect where
  | sent (serial : Nat) (target : Owner) (bytes : List UInt8)
  | unregistered (serial : Nat) (target : Option Owner)
  | closed (serial : Nat) (target : Option Owner)
  deriving DecidableEq

/-- How one `os.write` ends; the last one of a step may also raise `BlockingIOError`. -/
inductive Write where
  | took (count : Nat)
  | failed
  deriving DecidableEq

inductive Progress where
  | finished
  | blocked (rest : List UInt8)
  | failed

/-- `_write_all` up to its next await. A write to a number that is not open raises. -/
def writeAll (serial : Nat) (target : Option Owner) :
    List UInt8 → List Write → List Effect × Progress
  | [], _ => ([], .finished)
  | byte :: rest, writes =>
    match target, writes with
    | none, _ => ([], .failed)
    | some _, [] => ([], .blocked (byte :: rest))
    | some _, .failed :: _ => ([], .failed)
    | some owner, .took count :: writes =>
      let more := writeAll serial target ((byte :: rest).drop count) writes
      (.sent serial owner ((byte :: rest).take count) :: more.1, more.2)

structure State where
  table : DescriptorTable Owner
  /-- `_procs.get(id)`. -/
  running : Option Session
  /-- `reader_attached` of the running session. -/
  attached : Bool
  /-- How many sessions there were. -/
  serials : Nat
  /-- The `write_lock` of each session: its holder, then those that wait. -/
  locks : Nat → List Nat
  /-- The registrations of `add_writer`, by number. -/
  writers : Nat → Option Nat
  calls : List Call
  effects : List Effect

inductive Move where
  | boot (fd : Nat)
  | restart (fd : Nat)
  | stop
  | onDelete
  /-- The reader sees the end of the child. -/
  | eof
  | detach
  | attach
  /-- A verb that writes, accepted up to its first await. -/
  | accept (verb : Verb) (bytes : List UInt8) (writes : List Write)
  /-- A call that got the lock, or whose event is set, goes on. -/
  | resume (index : Nat) (writes : List Write)
  /-- The selector finds the number ready. -/
  | ready (fd : Nat)
  /-- `shell` gives up on its done-token and sends Ctrl-C. -/
  | timeout (index : Nat) (taken : Bool)
  /-- `shell` returns. -/
  | returned (index : Nat)
  | openOther (fd : Nat)
  | closeOther (fd : Nat)

namespace State

def fresh : State where
  table := .none
  running := none
  attached := false
  serials := 0
  locks := fun _ => []
  writers := fun _ => none
  calls := []
  effects := []

def publish (state : State) (effects : List Effect) : State :=
  { state with effects := state.effects ++ effects }

def setCall (state : State) (index : Nat) (call : Call) : State :=
  { state with calls := state.calls.set index call }

/-- `loop.add_writer(fd, ev.set)`. -/
def addWriter (state : State) (fd index : Nat) : State :=
  { state with writers := fun number => if number = fd then some index else state.writers number }

/-- `loop.remove_writer(fd)`, whoever is registered. -/
def removeWriter (state : State) (session : Session) : State :=
  { state with
    writers := fun number => if number = session.fd then none else state.writers number
  }.publish [.unregistered session.serial (state.table session.fd)]

/-- The `write_lock` goes to the next in its queue. -/
def release (state : State) (session : Session) : State :=
  { state with
    locks := fun serial =>
      if serial = session.serial then (state.locks serial).tail else state.locks serial }

/-- A call that holds the lock writes until it must wait or is done with its bytes. -/
def proceed (state : State) (index : Nat) (call : Call) (writes : List Write) : State :=
  let written :=
    writeAll call.session.serial (state.table call.session.fd) call.rest writes
  let sent := state.publish written.1
  match written.2 with
  | .blocked rest =>
    (sent.setCall index
      { call with
        rest := rest
        phase := .blocked }).addWriter call.session.fd index
  | .failed => (sent.setCall index { call with phase := .finished }).release call.session
  | .finished =>
    (sent.setCall index
      { call with
        rest := []
        phase := if call.verb = .shell then .pending else .finished }).release call.session

/-- A verb that writes; the lock of a session that nobody waits for is taken at once. -/
def accept (state : State) (verb : Verb) (bytes : List UInt8) (writes : List Write) : State :=
  match state.running with
  | none => state
  | some session =>
    let call : Call :=
      { verb := verb
        session := session
        rest := bytes
        phase := .queued }
    let index := state.calls.length
    let queued : State :=
      { state with
        calls := state.calls ++ [call]
        locks := fun serial =>
          if serial = session.serial then state.locks serial ++ [index]
          else state.locks serial }
    if state.locks session.serial = [] then queued.proceed index call writes else queued

def resume (state : State) (index : Nat) (writes : List Write) : State :=
  match state.calls[index]? with
  | none => state
  | some call =>
    match call.phase with
    | .queued =>
      if (state.locks call.session.serial).head? = some index then
        state.proceed index call writes
      else state
    | .woken => (state.removeWriter call.session).proceed index call writes
    | _ => state

def ready (state : State) (fd : Nat) : State :=
  match state.table fd, state.writers fd with
  | some _, some index =>
    match state.calls[index]? with
    | none => state
    | some call =>
      if call.phase = .blocked then state.setCall index { call with phase := .woken }
      else state
  | _, _ => state

/-- The timeout branch of `shell`; whatever `os.write` raises is passed over. -/
def timeout (state : State) (index : Nat) (taken : Bool) : State :=
  match state.calls[index]? with
  | none => state
  | some call =>
    if call.phase = .pending then
      let interrupted := state.setCall index { call with phase := .interrupted }
      match state.table call.session.fd, taken with
      | some target, true => interrupted.publish [.sent call.session.serial target [3]]
      | _, _ => interrupted
    else state

def returned (state : State) (index : Nat) : State :=
  match state.calls[index]? with
  | none => state
  | some call =>
    if call.phase = .pending ∨ call.phase = .interrupted then
      state.setCall index { call with phase := .finished }
    else state

/-- `_attach_reader`. -/
def attachReader (state : State) : State :=
  { state with attached := state.attached || state.running.isSome }

/-- `_detach_reader`. -/
def detachReader (state : State) : State :=
  match state.running with
  | none => state
  | some session =>
    if state.attached then
      { state with attached := false }.publish
        [.unregistered session.serial (state.table session.fd)]
    else state

/-- `_spawn`, with the number that `pty.fork` gets. -/
def spawn (state : State) (fd : Nat) : State :=
  match state.running, state.table fd with
  | none, none =>
    { state with
      table := state.table.opened fd (.pty state.serials)
      running := some { serial := state.serials, fd := fd }
      attached := true
      serials := state.serials + 1 }
  | _, _ => state

/-- `_cleanup`. -/
def cleanup (state : State) : State :=
  let detached := state.detachReader
  match state.running with
  | none => detached
  | some session =>
    { detached with
      table := state.table.closed session.fd
      running := none
    }.publish [.closed session.serial (state.table session.fd)]

def step (state : State) : Move → State
  | .boot fd => state.spawn fd
  | .restart fd => state.cleanup.spawn fd
  | .stop => state.cleanup
  | .onDelete => state.cleanup
  | .eof => if state.attached then state.cleanup else state
  | .detach => state.detachReader
  | .attach => state.attachReader
  | .accept verb bytes writes => state.accept verb bytes writes
  | .resume index writes => state.resume index writes
  | .ready fd => state.ready fd
  | .timeout index taken => state.timeout index taken
  | .returned index => state.returned index
  | .openOther fd =>
    if state.table fd = none then { state with table := state.table.opened fd .other } else state
  | .closeOther fd =>
    if state.table fd = some .other then { state with table := state.table.closed fd } else state

def run (state : State) (moves : List Move) : State :=
  moves.foldl step state

end State

/-! ### Isolation -/

/-- What is sent goes to the PTY of the session the call was accepted in; what is unregistered
or closed is that session's, or for a registration nothing that is open. -/
def Effect.Isolated : Effect → Prop
  | .sent serial target _ => target = .pty serial
  | .unregistered serial target => ∀ owner, target = some owner → owner = .pty serial
  | .closed serial target => target = some (.pty serial)

def Isolated (state : State) : Prop :=
  ∀ effect ∈ state.effects, effect.Isolated

/-- The call may still write to its number, or take a registration from it. -/
def Call.Holds (call : Call) (fd : Nat) : Prop :=
  call.session.fd = fd ∧ call.phase ≠ .interrupted ∧ call.phase ≠ .finished

instance (call : Call) (fd : Nat) : Decidable (call.Holds fd) :=
  inferInstanceAs (Decidable (_ ∧ _))

/-- No call that goes on holds the number. -/
def Unheld (state : State) (fd : Nat) : Prop :=
  ∀ call ∈ state.calls, ¬ call.Holds fd

instance (state : State) (fd : Nat) : Decidable (Unheld state fd) :=
  inferInstanceAs (Decidable (∀ call ∈ state.calls, ¬ call.Holds fd))

/-- An open does not get a number that a call still holds. -/
def Careful (state : State) : Move → Prop
  | .boot fd => state.running = none → Unheld state fd
  | .restart fd => Unheld state fd
  | .openOther fd => Unheld state fd
  | _ => True

/-- Every move of a run is careful where it is made. -/
def CarefulRun : State → List Move → Prop
  | _, [] => True
  | state, move :: moves => Careful state move ∧ CarefulRun (state.step move) moves

instance carefulDecidable (state : State) : ∀ move, Decidable (Careful state move)
  | .boot fd => inferInstanceAs (Decidable (state.running = none → Unheld state fd))
  | .restart fd => inferInstanceAs (Decidable (Unheld state fd))
  | .openOther fd => inferInstanceAs (Decidable (Unheld state fd))
  | .stop | .onDelete | .eof | .detach | .attach | .accept _ _ _ | .resume _ _ | .ready _
  | .timeout _ _ | .returned _ | .closeOther _ => isTrue True.intro

instance carefulRunDecidable : ∀ state moves, Decidable (CarefulRun state moves)
  | _, [] => inferInstanceAs (Decidable True)
  | state, move :: moves =>
    @instDecidableAnd _ _ (carefulDecidable state move)
      (carefulRunDecidable (state.step move) moves)

/-- The number of a call that goes on is its session's or not open. -/
def Call.Settled (call : Call) (table : DescriptorTable Owner) : Prop :=
  ∀ fd, call.Holds fd → table.AtMost fd (.pty call.session.serial)

structure Separate (state : State) : Prop where
  running : ∀ session, state.running = some session →
    state.table session.fd = some (.pty session.serial)
  calls : ∀ call ∈ state.calls, call.Settled state.table
  isolated : Isolated state

section

variable {state : State}

theorem Call.Settled.of_phase {call : Call} {table : DescriptorTable Owner}
    (done : call.phase = .interrupted ∨ call.phase = .finished) : call.Settled table := by
  intro fd holds
  cases done with
  | inl interrupted => exact absurd interrupted holds.2.1
  | inr finished => exact absurd finished holds.2.2

theorem Call.Settled.of_atMost {call : Call} {table : DescriptorTable Owner}
    (only : table.AtMost call.session.fd (.pty call.session.serial)) : call.Settled table := by
  intro fd holds
  rw [← holds.1]
  exact only

theorem Separate.fresh : Separate .fresh where
  running := fun session found => absurd found.symm (Option.some_ne_none session)
  calls := fun _ member => absurd member List.not_mem_nil
  isolated := fun _ member => absurd member List.not_mem_nil

theorem Separate.publish (separate : Separate state) {effects : List Effect}
    (isolated : ∀ effect ∈ effects, effect.Isolated) : Separate (state.publish effects) where
  running := separate.running
  calls := separate.calls
  isolated := by
    intro effect member
    cases List.mem_append.mp member with
    | inl before => exact separate.isolated effect before
    | inr now => exact isolated effect now

theorem Separate.setCall (separate : Separate state) {call : Call}
    (settled : call.Settled state.table) (index : Nat) : Separate (state.setCall index call) where
  running := separate.running
  calls := by
    intro other member
    cases List.mem_or_eq_of_mem_set member with
    | inl before => exact separate.calls other before
    | inr same =>
      rw [same]
      exact settled
  isolated := separate.isolated

theorem writeAll_isolated {serial : Nat} {target : Option Owner}
    (only : ∀ owner, target = some owner → owner = .pty serial) (bytes : List UInt8)
    (writes : List Write) :
    ∀ effect ∈ (writeAll serial target bytes writes).1, effect.Isolated := by
  fun_induction writeAll serial target bytes writes with
  | case1 => exact fun _ member => absurd member List.not_mem_nil
  | case2 => exact fun _ member => absurd member List.not_mem_nil
  | case3 => exact fun _ member => absurd member List.not_mem_nil
  | case4 => exact fun _ member => absurd member List.not_mem_nil
  | case5 byte rest owner count writes found ih =>
    intro effect member
    cases List.mem_cons.mp member with
    | inl first =>
      rw [first]
      exact only owner found
    | inr later => exact ih effect later

/-- A step of a call whose number is its session's or not open. -/
theorem Separate.proceed (separate : Separate state) (index : Nat) (call : Call)
    (writes : List Write)
    (only : state.table.AtMost call.session.fd (.pty call.session.serial)) :
    Separate (state.proceed index call writes) := by
  have sent := separate.publish (writeAll_isolated only call.rest writes)
  have settled (other : Call) (same : other.session = call.session) :
      other.Settled state.table := by
    apply Call.Settled.of_atMost
    rw [same]
    exact only
  unfold State.proceed
  dsimp only
  split
  case h_1 rest _ =>
      have set := sent.setCall (settled { call with rest := rest, phase := .blocked } rfl) index
      exact ⟨set.running, set.calls, set.isolated⟩
  case h_2 =>
      have set := sent.setCall (settled { call with phase := .finished } rfl) index
      exact ⟨set.running, set.calls, set.isolated⟩
  case h_3 =>
      have set := sent.setCall
        (settled
          { call with
            rest := []
            phase := if call.verb = .shell then .pending else .finished } rfl) index
      exact ⟨set.running, set.calls, set.isolated⟩

theorem Separate.accept (separate : Separate state) (verb : Verb) (bytes : List UInt8)
    (writes : List Write) : Separate (state.accept verb bytes writes) := by
  unfold State.accept
  split
  case h_1 => exact separate
  case h_2 session running =>
      have only := DescriptorTable.AtMost.of_eq (separate.running session running)
      have listed (call : Call) (same : call.session = session) :
          ∀ other ∈ state.calls ++ [call], other.Settled state.table := by
        intro other member
        cases List.mem_append.mp member with
        | inl before => exact separate.calls other before
        | inr new =>
          rw [List.mem_singleton.mp new]
          apply Call.Settled.of_atMost
          rw [same]
          exact only
      dsimp only
      split
      case isTrue =>
          apply Separate.proceed _ _ _ _ only
          exact ⟨separate.running, listed _ rfl, separate.isolated⟩
      case isFalse => exact ⟨separate.running, listed _ rfl, separate.isolated⟩

theorem Separate.removeWriter (separate : Separate state) {session : Session}
    (only : state.table.AtMost session.fd (.pty session.serial)) :
    Separate (state.removeWriter session) := by
  have published :
      Separate (state.publish [.unregistered session.serial (state.table session.fd)]) := by
    apply separate.publish
    intro effect member
    rw [List.mem_singleton.mp member]
    exact only
  exact ⟨published.running, published.calls, published.isolated⟩

theorem Separate.resume (separate : Separate state) (index : Nat) (writes : List Write) :
    Separate (state.resume index writes) := by
  unfold State.resume
  split
  case h_1 => exact separate
  case h_2 call found =>
      have settled := separate.calls call (List.mem_of_getElem? found) call.session.fd
      split
      case h_1 queued =>
          have only := settled ⟨rfl, by rw [queued]; decide, by rw [queued]; decide⟩
          split
          case isTrue => exact separate.proceed index call writes only
          case isFalse => exact separate
      case h_2 woken =>
          have only := settled ⟨rfl, by rw [woken]; decide, by rw [woken]; decide⟩
          exact (separate.removeWriter only).proceed index call writes only
      case h_3 => exact separate

theorem Separate.ready (separate : Separate state) (fd : Nat) : Separate (state.ready fd) := by
  unfold State.ready
  split
  case h_2 => exact separate
  case h_1 index _ _ =>
      split
      case h_1 => exact separate
      case h_2 call found =>
          split
          case isFalse => exact separate
          case isTrue blocked =>
              apply separate.setCall
              apply Call.Settled.of_atMost
              exact separate.calls call (List.mem_of_getElem? found) _
                ⟨rfl, by rw [blocked]; decide, by rw [blocked]; decide⟩

theorem Separate.timeout (separate : Separate state) (index : Nat) (taken : Bool) :
    Separate (state.timeout index taken) := by
  unfold State.timeout
  split
  case h_1 => exact separate
  case h_2 call found =>
      split
      case isFalse => exact separate
      case isTrue pending =>
          have only := separate.calls call (List.mem_of_getElem? found) _
            ⟨rfl, by rw [pending]; decide, by rw [pending]; decide⟩
          have interrupted : Separate
              (state.setCall index { call with phase := .interrupted }) :=
            separate.setCall (Call.Settled.of_phase (.inl rfl)) index
          dsimp only
          split
          case h_2 => exact interrupted
          case h_1 target found =>
              apply interrupted.publish
              intro effect member
              rw [List.mem_singleton.mp member]
              exact only target found

theorem Separate.returned (separate : Separate state) (index : Nat) :
    Separate (state.returned index) := by
  unfold State.returned
  split
  case h_1 => exact separate
  case h_2 call _ =>
      split
      case isFalse => exact separate
      case isTrue => exact separate.setCall (Call.Settled.of_phase (.inr rfl)) index

theorem Separate.detachReader (separate : Separate state) : Separate state.detachReader := by
  unfold State.detachReader
  split
  case h_1 => exact separate
  case h_2 session running =>
      split
      case isFalse => exact separate
      case isTrue =>
          have own := separate.running session running
          have published :
              Separate
                (state.publish [.unregistered session.serial (state.table session.fd)]) := by
            apply separate.publish
            intro effect member
            rw [List.mem_singleton.mp member]
            exact DescriptorTable.AtMost.of_eq own
          exact ⟨published.running, published.calls, published.isolated⟩

/-- Detaching the reader leaves the descriptors, the session and the calls. -/
theorem detachReader_keeps (state : State) :
    state.detachReader.table = state.table ∧ state.detachReader.running = state.running ∧
      state.detachReader.calls = state.calls := by
  unfold State.detachReader
  split
  · exact ⟨rfl, rfl, rfl⟩
  · split
    · exact ⟨rfl, rfl, rfl⟩
    · exact ⟨rfl, rfl, rfl⟩

theorem Separate.cleanup (separate : Separate state) : Separate state.cleanup := by
  have detached := separate.detachReader
  obtain ⟨sameTable, -, sameCalls⟩ := detachReader_keeps state
  unfold State.cleanup
  dsimp only
  split
  case h_1 => exact detached
  case h_2 session running =>
      refine ⟨fun other found => absurd found.symm (Option.some_ne_none other), ?_, ?_⟩
      · intro call member fd holds
        exact (sameTable ▸ detached.calls call member fd holds).closed session.fd
      · intro effect member
        cases List.mem_append.mp member with
        | inl before => exact detached.isolated effect before
        | inr now =>
          rw [List.mem_singleton.mp now]
          exact separate.running session running

/-- A free number is opened for somebody, and no call that goes on holds it. -/
theorem Separate.calls_opened (separate : Separate state) {fd : Nat} (unheld : Unheld state fd)
    (owner : Owner) : ∀ call ∈ state.calls, call.Settled (state.table.opened fd owner) := by
  intro call member number holds
  have other : number ≠ fd := by
    intro same
    rw [same] at holds
    exact unheld call member holds
  exact (separate.calls call member number holds).opened other owner

theorem Separate.spawn (separate : Separate state) {fd : Nat}
    (unheld : state.running = none → Unheld state fd) : Separate (state.spawn fd) := by
  unfold State.spawn
  split
  case h_2 => exact separate
  case h_1 stopped free =>
      refine ⟨?_, separate.calls_opened (unheld stopped) _, separate.isolated⟩
      intro session found
      rw [← Option.some.inj found]
      exact DescriptorTable.opened_self

theorem Separate.step (separate : Separate state) {move : Move} (careful : Careful state move) :
    Separate (state.step move) := by
  cases move with
  | boot fd => exact separate.spawn careful
  | restart fd =>
    apply separate.cleanup.spawn
    intro _ call member
    apply careful call
    unfold State.cleanup at member
    dsimp only at member
    split at member
    · exact (detachReader_keeps state).2.2 ▸ member
    · exact (detachReader_keeps state).2.2 ▸ member
  | stop => exact separate.cleanup
  | onDelete => exact separate.cleanup
  | eof =>
    unfold State.step
    dsimp only
    split
    · exact separate.cleanup
    · exact separate
  | detach => exact separate.detachReader
  | attach => exact ⟨separate.running, separate.calls, separate.isolated⟩
  | accept verb bytes writes => exact separate.accept verb bytes writes
  | resume index writes => exact separate.resume index writes
  | ready fd => exact separate.ready fd
  | timeout index taken => exact separate.timeout index taken
  | returned index => exact separate.returned index
  | openOther fd =>
    unfold State.step
    dsimp only
    split
    case isFalse => exact separate
    case isTrue free =>
        refine ⟨?_, separate.calls_opened careful _, separate.isolated⟩
        intro session running
        have own := separate.running session running
        have other : session.fd ≠ fd := by
          intro same
          rw [same, free] at own
          exact absurd own.symm (Option.some_ne_none _)
        exact (DescriptorTable.opened_of_ne other).trans own
  | closeOther fd =>
    unfold State.step
    dsimp only
    split
    case isFalse => exact separate
    case isTrue foreign =>
        refine ⟨?_, ?_, separate.isolated⟩
        · intro session running
          have own := separate.running session running
          have other : session.fd ≠ fd := by
            intro same
            rw [same, foreign] at own
            exact Owner.noConfusion (Option.some.inj own)
          exact (DescriptorTable.closed_of_ne other).trans own
        · intro call member number holds
          exact (separate.calls call member number holds).closed fd

theorem Separate.run (moves : List Move) : ∀ state, Separate state → CarefulRun state moves →
    Separate (state.run moves) := by
  induction moves with
  | nil =>
    intro state separate _
    exact separate
  | cons move moves ih =>
    intro state separate careful
    exact ih _ (separate.step careful.1) careful.2

end

/-- In a run whose opens never get a number that a call still holds, every byte goes to the
session its call was accepted in, and nobody closes or unregisters what is not theirs. -/
theorem sessions_isolated (moves : List Move) (careful : CarefulRun .fresh moves) :
    Isolated (State.fresh.run moves) :=
  (Separate.run moves .fresh .fresh careful).isolated

/-- A write that waits once, is done, and the session restarts on the same number. -/
theorem restart_after_write : Isolated (State.fresh.run
    [.boot 5, .accept .write [104, 105] [.took 1], .ready 5, .resume 0 [.took 1], .restart 5]) :=
  sessions_isolated _ (by decide)

/-- A restart between `ev.set` and the waiting write: the second byte goes to the new PTY. -/
theorem restart_under_write : ¬ ∀ moves, Isolated (State.fresh.run moves) := by
  intro isolated
  have sent := isolated
    [.boot 5, .accept .write [104, 105] [.took 1], .ready 5, .restart 5, .resume 0 [.took 1]]
    (.sent 0 (.pty 1) [105]) (by decide)
  exact absurd sent (by unfold Effect.Isolated; decide)

end Fantastic.Python.Pty

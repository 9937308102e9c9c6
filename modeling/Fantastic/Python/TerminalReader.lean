import Fantastic.Foundation.RollingTail
import Fantastic.Python.TerminalFlow

/-!
# The reader of a PTY

`_on_readable`, `_detach_reader`, `_cleanup` and the two verbs that attach the reader again, of
`terminal_backend/tools.py`, over the sessions of the process and the readers its event loop has
registered. A callback runs when the loop finds the descriptor of a registered reader ready, and
the descriptor of a PTY whose child is gone is ready for good. The decoder is any one; `kill`,
`waitpid` and the paste directory of `_cleanup` touch nothing that is modelled here.
-/

namespace Fantastic.Python.Terminal

open RollingTail (Tail)

/-- `MAX_SCROLLBACK`. -/
def maxScrollback : Nat := 256 * 1024

/-- `_append_scrollback`. -/
def appendScrollback (scrollback : Tail String) (text : String) : Tail String :=
  RollingTail.push String.utf8ByteSize maxScrollback scrollback text

def scrollbackText (scrollback : Tail String) : String :=
  String.join scrollback.items

/-- How an `os.read` ends. Linux answers EIO once the other side is closed, other systems with
the end of the file. -/
inductive Outcome where
  | data (first : UInt8) (rest : List UInt8)
  | wouldBlock
  | endOfFile
  | eio
  deriving DecidableEq

def Outcome.ReportsExit (outcome : Outcome) : Prop :=
  outcome = .endOfFile ∨ outcome = .eio

inductive Event where
  | output (text : String)
  | closed
  deriving DecidableEq

/-- A done-token of a `shell` call, and whether its event is set. -/
structure Token where
  text : String
  done : Bool

def Token.shown (token : Token) (full : String) : Bool :=
  decide ((token.text ++ "\r\n").toList <:+: full.toList) ||
    decide ((token.text ++ "\n").toList <:+: full.toList)

section Reader

variable {Partial : Type*}

structure Proc (Partial : Type*) where
  fd : Nat
  flow : Session
  scrollback : Tail String
  decoder : Partial

/-- `_procs`, `_pending_tokens`, the registered readers by descriptor, the descriptors that were
closed and the events that were handed to `emit`. -/
structure Host (Partial : Type*) where
  procs : String → Option (Proc Partial)
  pendingTokens : String → List Token
  readers : Nat → Option String
  closed : List Nat
  events : List (String × Event)

namespace Host

def setProc (host : Host Partial) (id : String) (proc : Option (Proc Partial)) : Host Partial :=
  { host with procs := Function.update host.procs id proc }

def emit (host : Host Partial) (id : String) (event : Event) : Host Partial :=
  { host with events := host.events ++ [(id, event)] }

def detachReader (host : Host Partial) (id : String) : Host Partial :=
  match host.procs id with
  | none => host
  | some proc =>
    if proc.flow.attached then
      { host.setProc id (some { proc with flow := proc.flow.detachReader }) with
        readers := Function.update host.readers proc.fd none }
    else host

def cleanup (host : Host Partial) (id : String) : Host Partial :=
  let detached := host.detachReader id
  match detached.procs id with
  | none => detached
  | some proc => { detached.setProc id none with closed := detached.closed ++ [proc.fd] }

/-- What `_on_readable` does with data: the flow it leaves says whether the reader stays. -/
def received (decode : Partial → List UInt8 → Partial × String) (host : Host Partial)
    (id : String) (proc : Proc Partial) (bytes : List UInt8) : Host Partial :=
  let decoded := decode proc.decoder bytes
  let scrollback := appendScrollback proc.scrollback decoded.2
  let tokens := (host.pendingTokens id).map fun token =>
    { token with done := token.done || token.shown (scrollbackText scrollback) }
  let flow := proc.flow.onReadable (tokens.map Token.text) decoded.2
  { (host.setProc id (some ⟨proc.fd, flow, scrollback, decoded.1⟩)).emit id (.output decoded.2) with
    pendingTokens := Function.update host.pendingTokens id tokens
    readers :=
      if proc.flow.attached && !flow.attached then Function.update host.readers proc.fd none
      else host.readers }

def onReadable (decode : Partial → List UInt8 → Partial × String) (host : Host Partial)
    (id : String) (outcome : Outcome) : Host Partial :=
  match host.procs id with
  | none => host
  | some proc =>
    match outcome with
    | .eio | .wouldBlock => host
    | .endOfFile => ((host.detachReader id).emit id .closed).cleanup id
    | .data first rest => host.received decode id proc (first :: rest)

/-- `_ack` and `_clear_flow_control` change the flow, and `_attach_reader` follows it. -/
def adjust (host : Host Partial) (id : String) (change : Session → Session) : Host Partial :=
  match host.procs id with
  | none => host
  | some proc =>
    let flow := change proc.flow
    { host.setProc id (some { proc with flow := flow }) with
      readers :=
        if flow.attached && !proc.flow.attached then
          Function.update host.readers proc.fd (some id)
        else host.readers }

end Host

/-- What happens to the session: a callback of its reader, and what the verbs do in between. -/
inductive ReaderMove where
  | read (outcome : Outcome)
  | ack (chars : Int)
  | clear
  | tokens (pending : List Token)

variable (decode : Partial → List UInt8 → Partial × String) (id : String) (fd : Nat)

/-- There is no callback without a registered reader. -/
def readerStep (host : Host Partial) : ReaderMove → Option (Host Partial)
  | .read outcome =>
    if host.readers fd = some id then some (host.onReadable decode id outcome) else none
  | .ack chars => some (host.adjust id fun flow => flow.ack chars)
  | .clear => some (host.adjust id Session.clearFlowControl)
  | .tokens pending =>
    some { host with pendingTokens := Function.update host.pendingTokens id pending }

def readerRun (host : Host Partial) (moves : List ReaderMove) : Option (Host Partial) :=
  moves.foldlM (readerStep decode id fd) host

/-! ### The law -/

def closings (host : Host Partial) : Nat :=
  host.events.count (id, .closed)

/-- The session runs, and its reader is registered where the session says so. -/
def Live (host : Host Partial) : Prop :=
  ∃ proc, host.procs id = some proc ∧ proc.fd = fd ∧
    (host.readers fd = some id ↔ proc.flow.attached = true)

structure Gone (host : Host Partial) : Prop where
  removed : host.procs id = none
  unregistered : host.readers fd = none

/-- After the read that reports the exit the session and its reader are gone, there is one
`closed` event, also in the end, and no callback runs any more. -/
def Noticed (host : Host Partial) (moves : List ReaderMove) : Prop :=
  ∀ before outcome after, moves = before ++ .read outcome :: after → outcome.ReportsExit →
    ∃ gone final, readerRun decode id fd host (before ++ [.read outcome]) = some gone ∧
      Gone id fd gone ∧ closings id gone = closings id host + 1 ∧
      readerRun decode id fd gone after = some final ∧
      closings id final = closings id host + 1 ∧ ∀ later, ReaderMove.read later ∉ after

/-! ### What a step does -/

variable {decode id fd} {host next : Host Partial}

theorem closings_output (host : Host Partial) (text : String) :
    closings id (host.emit id (.output text)) = closings id host := by
  simp [closings, Host.emit, List.count_append]

theorem onReadable_attached {session : Session} {tokens : List String} {text : String}
    (attached : (session.onReadable tokens text).attached = true) : session.attached = true := by
  simp only [Session.onReadable] at attached
  split at attached
  · cases attached
  · exact attached

theorem ack_attached {session : Session} (chars : Int) (attached : session.attached = true) :
    (session.ack chars).attached = true := by
  simp only [Session.ack]
  split
  · rfl
  · exact attached

theorem clear_attached {session : Session} (attached : session.attached = true) :
    session.clearFlowControl.attached = true := by
  simp only [Session.clearFlowControl]
  split
  · rfl
  · exact attached

theorem read_registered {outcome : Outcome}
    (steps : readerStep decode id fd host (.read outcome) = some next) :
    host.readers fd = some id := by
  rw [readerStep] at steps
  split at steps
  · assumption
  · cases steps

theorem Live.received (live : Live id fd host) {proc : Proc Partial}
    (running : host.procs id = some proc) (bytes : List UInt8) :
    Live id fd (host.received decode id proc bytes) := by
  obtain ⟨same, found, number, registered⟩ := live
  rw [running] at found
  cases found
  refine ⟨_, Function.update_self _ _ _, number, ?_⟩
  simp only [Host.received, number]
  split
  case isTrue detaches =>
    rw [Bool.and_eq_true, Bool.not_eq_true'] at detaches
    rw [Function.update_self, detaches.2]
    simp
  case isFalse stays =>
    rw [registered]
    constructor
    · intro attached
      simpa [attached] using stays
    · exact onReadable_attached

theorem Live.adjust (live : Live id fd host) {change : Session → Session}
    (keeps : ∀ flow : Session, flow.attached = true → (change flow).attached = true) :
    Live id fd (host.adjust id change) := by
  obtain ⟨proc, running, number, registered⟩ := live
  unfold Host.adjust
  rw [running]
  refine ⟨_, Function.update_self _ _ _, number, ?_⟩
  simp only [number]
  split
  case isTrue attaches =>
    rw [Bool.and_eq_true] at attaches
    rw [Function.update_self, attaches.1]
    simp
  case isFalse stays =>
    rw [registered]
    constructor
    · exact keeps proc.flow
    · intro attached
      simpa [attached] using stays

theorem closings_adjust (host : Host Partial) (change : Session → Session) :
    closings id (host.adjust id change) = closings id host := by
  unfold Host.adjust
  split <;> rfl

theorem Live.ended (live : Live id fd host) (attached : host.readers fd = some id) :
    Gone id fd (host.onReadable decode id .endOfFile) ∧
      closings id (host.onReadable decode id .endOfFile) = closings id host + 1 := by
  obtain ⟨proc, running, number, registered⟩ := live
  have flow := registered.mp attached
  have found : host.onReadable decode id .endOfFile =
      ((host.detachReader id).emit id .closed).cleanup id := by
    unfold Host.onReadable
    rw [running]
  have detached : host.detachReader id =
      { host.setProc id (some { proc with flow := proc.flow.detachReader }) with
        readers := Function.update host.readers fd none } := by
    unfold Host.detachReader
    rw [running]
    simp only [flow, if_true, number]
  have again : ∀ other : Host Partial,
      other.procs id = some { proc with flow := proc.flow.detachReader } →
        other.cleanup id = { other.setProc id none with closed := other.closed ++ [fd] } := by
    intro other same
    have idle : other.detachReader id = other := by
      unfold Host.detachReader
      rw [same]
      rfl
    unfold Host.cleanup
    simp only [idle, same, number]
  rw [found, detached, again _ (Function.update_self _ _ _)]
  refine ⟨⟨Function.update_self _ _ _, Function.update_self _ _ _⟩, ?_⟩
  simp [closings, Host.emit, Host.setProc, List.count_append]

/-- The session stays as long as no callback reads the end of the file. -/
theorem Live.step (live : Live id fd host) {move : ReaderMove}
    (steps : readerStep decode id fd host move = some next) :
    (Live id fd next ∧ closings id next = closings id host) ∨
      move = .read .endOfFile ∧ Gone id fd next ∧ closings id next = closings id host + 1 := by
  cases move with
  | read outcome =>
    rw [readerStep] at steps
    split at steps
    case isFalse => cases steps
    case isTrue attached =>
      cases steps
      obtain ⟨proc, running, sound⟩ := live
      have live : Live id fd host := ⟨proc, running, sound⟩
      cases outcome with
      | endOfFile => exact .inr ⟨rfl, live.ended attached⟩
      | wouldBlock | eio =>
        left
        unfold Host.onReadable
        rw [running]
        exact ⟨live, rfl⟩
      | data first rest =>
        left
        unfold Host.onReadable
        rw [running]
        exact ⟨live.received running _, closings_output _ _⟩
  | ack chars =>
    cases steps
    exact .inl ⟨live.adjust fun _ => ack_attached chars, closings_adjust _ _⟩
  | clear =>
    cases steps
    exact .inl ⟨live.adjust fun _ => clear_attached, closings_adjust _ _⟩
  | tokens pending =>
    cases steps
    exact .inl ⟨live, rfl⟩

theorem Gone.step (gone : Gone id fd host) {move : ReaderMove}
    (steps : readerStep decode id fd host move = some next) :
    Gone id fd next ∧ closings id next = closings id host ∧ ∀ outcome, move ≠ .read outcome := by
  have adjusted : ∀ change, host.adjust id change = host := by
    intro change
    unfold Host.adjust
    rw [gone.removed]
  cases move with
  | read outcome =>
    rw [readerStep, gone.unregistered, if_neg (by simp)] at steps
    cases steps
  | ack chars =>
    cases steps
    rw [adjusted]
    exact ⟨gone, rfl, by simp⟩
  | clear =>
    cases steps
    rw [adjusted]
    exact ⟨gone, rfl, by simp⟩
  | tokens pending =>
    cases steps
    exact ⟨⟨gone.removed, gone.unregistered⟩, rfl, by simp⟩

/-! ### Whole runs -/

theorem readerRun_cons {move : ReaderMove} {moves : List ReaderMove}
    (ran : readerRun decode id fd host (move :: moves) = some next) :
    ∃ mid, readerStep decode id fd host move = some mid ∧
      readerRun decode id fd mid moves = some next := by
  unfold readerRun at ran
  rw [List.foldlM_cons] at ran
  exact Option.bind_eq_some_iff.mp ran

theorem readerRun_append {front back : List ReaderMove}
    (ran : readerRun decode id fd host (front ++ back) = some next) :
    ∃ mid, readerRun decode id fd host front = some mid ∧
      readerRun decode id fd mid back = some next := by
  unfold readerRun at ran
  rw [List.foldlM_append] at ran
  exact Option.bind_eq_some_iff.mp ran

theorem Gone.run (moves : List ReaderMove) : ∀ {host : Host Partial}, Gone id fd host →
    readerRun decode id fd host moves = some next →
      Gone id fd next ∧ closings id next = closings id host ∧
        ∀ outcome, ReaderMove.read outcome ∉ moves := by
  induction moves with
  | nil =>
    intro host gone ran
    cases ran
    exact ⟨gone, rfl, by simp⟩
  | cons move moves ih =>
    intro host gone ran
    obtain ⟨mid, steps, rest⟩ := readerRun_cons ran
    obtain ⟨still, same, noRead⟩ := gone.step steps
    obtain ⟨ends, count, none⟩ := ih still rest
    refine ⟨ends, count.trans same, ?_⟩
    intro outcome member
    rcases List.mem_cons.mp member with first | later
    · exact noRead outcome first.symm
    · exact none outcome later

/-- Up to a callback that runs, the session is there. -/
theorem Live.run (moves : List ReaderMove) : ∀ {host : Host Partial}, Live id fd host →
    readerRun decode id fd host moves = some next → next.readers fd = some id →
      Live id fd next ∧ closings id next = closings id host := by
  induction moves with
  | nil =>
    intro host live ran _
    cases ran
    exact ⟨live, rfl⟩
  | cons move moves ih =>
    intro host live ran attached
    obtain ⟨mid, steps, rest⟩ := readerRun_cons ran
    rcases live.step steps with ⟨still, same⟩ | ⟨_, gone, _⟩
    · obtain ⟨last, count⟩ := ih still rest attached
      exact ⟨last, count.trans same⟩
    · rw [(gone.run moves rest).1.unregistered] at attached
      cases attached

/-- The exit is noticed in exactly the runs in which no read raises EIO. -/
theorem exit_noticed_iff (live : Live id fd host) (moves : List ReaderMove)
    (ran : readerRun decode id fd host moves = some next) :
    Noticed decode id fd host moves ↔ ReaderMove.read .eio ∉ moves := by
  constructor
  · intro noticed member
    obtain ⟨before, after, rfl⟩ := List.append_of_mem member
    obtain ⟨gone, _, reached, ended, _⟩ := noticed before .eio after rfl (.inr rfl)
    obtain ⟨mid, first, second⟩ := readerRun_append reached
    obtain ⟨last, steps, rest⟩ := readerRun_cons second
    cases rest
    have attached := read_registered steps
    rcases (live.run before first attached).1.step steps with ⟨⟨_, running, _⟩, _⟩ | ⟨same, _⟩
    · rw [ended.removed] at running
      cases running
    · cases same
  · rintro noError before outcome after rfl reports
    have ends : outcome = .endOfFile := by
      rcases reports with ends | error
      · exact ends
      · rw [error] at noError
        exact absurd (by simp) noError
    subst ends
    obtain ⟨mid, first, second⟩ := readerRun_append ran
    obtain ⟨gone, steps, rest⟩ := readerRun_cons second
    have attached := read_registered steps
    obtain ⟨still, count⟩ := live.run before first attached
    rcases still.step steps with ⟨⟨_, running, _⟩, _⟩ | ⟨_, ended, closing⟩
    · rw [readerStep, if_pos attached] at steps
      cases steps
      rw [(still.ended attached).1.removed] at running
      cases running
    · obtain ⟨_, after, none⟩ := ended.run _ rest
      refine ⟨gone, next, ?_, ended, closing.trans (by rw [count]), rest, ?_, none⟩
      · unfold readerRun at first ⊢
        rw [List.foldlM_append, first]
        simp only [Option.bind_eq_bind, Option.bind_some, List.foldlM_cons, List.foldlM_nil, steps]
        rfl
      · rw [after, closing, count]

end Reader

/-! ### A child that says a word and leaves -/

def asciiDecode (_ : Unit) (bytes : List UInt8) : Unit × String :=
  ((), String.ofList (bytes.map fun byte => Char.ofNat byte.toNat))

/-- A session right after its spawn. -/
def spawnedHost : Host Unit where
  procs := fun id => if id = "term" then some ⟨7, .spawned, .empty, ()⟩ else none
  pendingTokens := fun _ => []
  readers := fun fd => if fd = 7 then some "term" else none
  closed := []
  events := []

theorem spawnedHost_live : Live "term" 7 spawnedHost :=
  ⟨⟨7, .spawned, .empty, ()⟩, rfl, rfl, by decide⟩

theorem end_of_file_noticed : Noticed asciiDecode "term" 7 spawnedHost
    [.read (.data 104 [105]), .read .wouldBlock, .read .endOfFile] :=
  (exit_noticed_iff spawnedHost_live [.read (.data 104 [105]), .read .wouldBlock,
    .read .endOfFile] rfl).mpr (by simp)

/-- On Linux the session stays, with its reader on the dead descriptor. -/
theorem eio_is_not_noticed :
    ¬Noticed asciiDecode "term" 7 spawnedHost [.read (.data 104 [105]), .read .eio] := by
  intro noticed
  obtain ⟨gone, _, reached, ended, _⟩ :=
    noticed [.read (.data 104 [105])] .eio [] rfl (.inr rfl)
  cases reached
  cases ended.removed

end Fantastic.Python.Terminal

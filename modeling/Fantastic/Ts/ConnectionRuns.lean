import Fantastic.Ts.Connection

/-!
# Calls over a reconnecting socket

At most one socket is not closed, and the table holds what was sent on it: an end or a
`close()` settles the whole table, and a frame settles the call that bears its id. A call
that waits has no entry yet. `onclose` puts a new ready promise in the place of the one it
waits for, and `close()` leaves that one to nobody.
-/

namespace Fantastic.Ts

namespace Conn

variable {conn other : Conn} {event : ConnEvent} {name : Nat}

/-! ### The invariant -/

/-- One socket at a time is not closed, and the timer runs only when none is. -/
structure Wired (sockets : Nat → SocketPhase) (ws : Option Nat)
    (connected reconnectTimer : Bool) : Prop where
  live : ∀ {socket}, sockets socket ≠ .closed → ws = some socket
  idle : reconnectTimer = true → ∀ socket, sockets socket = .closed
  linked : connected = true → ∃ socket, ws = some socket ∧ sockets socket ≠ .closed

/-- The last ready promise is resolved, or is the one the next open resolves. -/
structure Armed (ready : Nat) (resolveReady : Option Nat) (resolved : Nat → Bool) : Prop where
  armed : ∀ {number}, resolveReady = some number → number = ready ∧ resolved number = false
  unarmed : resolveReady = none → resolved ready = true
  later : ∀ {number}, ready < number → resolved number = false

/-- The table holds the calls that are sent and not settled. -/
structure Table (sockets : Nat → SocketPhase) (ready begun nextId : Nat) (calls : Nat → Call)
    (pending : OrderedDict Nat Nat) : Prop where
  entry : ∀ {id call}, pending.get? id = some call →
    call < begun ∧ id < nextId ∧ (calls call).outcomes = [] ∧
      ∃ socket, (calls call).stage = .sent id socket ∧ sockets socket ≠ .closed
  waiting : ∀ {call number}, (calls call).stage = .awaiting number →
    call < begun ∧ (calls call).outcomes = [] ∧ number ≤ ready
  kept : ∀ {call id socket}, (calls call).stage = .sent id socket →
    (calls call).outcomes = [] → pending.get? id = some call
  failed : ∀ {call}, call < begun → (calls call).stage = .failed → (calls call).outcomes ≠ []

structure Inv (conn : Conn) : Prop where
  wired : Wired conn.sockets conn.ws conn.connected conn.reconnectTimer
  armed : Armed conn.ready conn.resolveReady conn.resolved
  table : Table conn.sockets conn.ready conn.begun conn.nextId conn.calls conn.pending

section Tables

variable {sockets : Nat → SocketPhase} {ready begun nextId : Nat} {calls : Nat → Call}
  {pending : OrderedDict Nat Nat}

theorem Table.weaken {changed : Nat → SocketPhase} {armed : Nat}
    (table : Table sockets ready begun nextId calls pending)
    (stays : ∀ socket, sockets socket ≠ .closed → changed socket ≠ .closed)
    (grows : ready ≤ armed) : Table changed armed begun nextId calls pending := by
  constructor
  · intro id call found
    obtain ⟨known, counted, unsettled, socket, sent, up⟩ := table.entry found
    exact ⟨known, counted, unsettled, socket, sent, stays socket up⟩
  · intro call number awaiting
    obtain ⟨known, unsettled, old⟩ := table.waiting awaiting
    exact ⟨known, unsettled, Nat.le_trans old grows⟩
  · exact table.kept
  · exact table.failed

theorem Table.call (table : Table sockets ready begun nextId calls pending) :
    Table sockets ready (begun + 1) nextId
      (Function.update calls begun { stage := .awaiting ready, outcomes := [] }) pending := by
  constructor
  · intro id call found
    obtain ⟨known, rest⟩ := table.entry found
    rw [Function.update_of_ne (Nat.ne_of_lt known)]
    exact ⟨Nat.lt_succ_of_lt known, rest⟩
  · intro call number awaiting
    rw [Function.update_apply] at awaiting ⊢
    split at awaiting
    case isTrue same =>
      rw [if_pos same, same]
      cases awaiting
      exact ⟨Nat.lt_succ_self _, rfl, Nat.le_refl _⟩
    case isFalse apart =>
      obtain ⟨known, rest⟩ := table.waiting awaiting
      rw [if_neg apart]
      exact ⟨Nat.lt_succ_of_lt known, rest⟩
  · intro call id socket sent unsettled
    rw [Function.update_apply] at sent unsettled
    split at sent
    case isTrue => cases sent
    case isFalse apart =>
      rw [if_neg apart] at unsettled
      exact table.kept sent unsettled
  · intro call known failed
    rw [Function.update_apply] at failed ⊢
    split at failed
    case isTrue => cases failed
    case isFalse apart =>
      rw [if_neg apart]
      exact table.failed (by omega) failed

/-- A waiting call has no entry. -/
theorem Table.no_entry (table : Table sockets ready begun nextId calls pending)
    {call number id owner : Nat} (awaiting : (calls call).stage = .awaiting number)
    (found : pending.get? id = some owner) : owner ≠ call := by
  intro same
  obtain ⟨_, _, _, socket, sent, _⟩ := table.entry found
  rw [same, awaiting] at sent
  cases sent

theorem Table.fail (table : Table sockets ready begun nextId calls pending) {call number : Nat}
    (awaiting : (calls call).stage = .awaiting number) {counted : Nat} (counts : nextId ≤ counted)
    (outcome : Outcome) :
    Table sockets ready begun counted
      (Function.update calls call (settled { calls call with stage := .failed } outcome))
      pending := by
  constructor
  · intro id owner found
    obtain ⟨known, fresh, rest⟩ := table.entry found
    rw [Function.update_of_ne (table.no_entry awaiting found)]
    exact ⟨known, Nat.lt_of_lt_of_le fresh counts, rest⟩
  · intro owner other waiting
    rw [Function.update_apply] at waiting ⊢
    split at waiting
    case isTrue => cases waiting
    case isFalse apart =>
      rw [if_neg apart]
      exact table.waiting waiting
  · intro owner id socket sent unsettled
    rw [Function.update_apply] at sent unsettled
    split at sent
    case isTrue => cases sent
    case isFalse apart =>
      rw [if_neg apart] at unsettled
      exact table.kept sent unsettled
  · intro owner known failed
    rw [Function.update_apply] at failed ⊢
    split
    case isTrue => simp [settled]
    case isFalse apart =>
      rw [if_neg apart] at failed
      exact table.failed known failed

theorem Table.send (table : Table sockets ready begun nextId calls pending) {call number : Nat}
    (awaiting : (calls call).stage = .awaiting number) {socket : Nat}
    (up : sockets socket ≠ .closed) :
    Table sockets ready begun (nextId + 1)
      (Function.update calls call { calls call with stage := .sent nextId socket })
      (pending.insert nextId call) := by
  obtain ⟨known, unsettled, _⟩ := table.waiting awaiting
  constructor
  · intro id owner found
    rw [OrderedDict.get?_insert] at found
    split at found
    case isTrue same =>
      cases found
      rw [Function.update_self]
      exact ⟨known, by omega, unsettled, socket, by rw [same], up⟩
    case isFalse =>
      obtain ⟨started, fresh, rest⟩ := table.entry found
      rw [Function.update_of_ne (table.no_entry awaiting found)]
      exact ⟨started, by omega, rest⟩
  · intro owner other waiting
    rw [Function.update_apply] at waiting ⊢
    split at waiting
    case isTrue => cases waiting
    case isFalse apart =>
      rw [if_neg apart]
      exact table.waiting waiting
  · intro owner id other sent open'
    rw [Function.update_apply] at sent open'
    split at sent
    case isTrue same =>
      cases sent
      rw [OrderedDict.get?_insert_self, same]
    case isFalse apart =>
      rw [if_neg apart] at open'
      have found := table.kept sent open'
      rw [OrderedDict.get?_insert_of_ne]
      · exact found
      · have fresh := (table.entry found).2.1
        omega
  · intro owner started failed
    rw [Function.update_apply] at failed ⊢
    split at failed
    case isTrue => cases failed
    case isFalse apart =>
      rw [if_neg apart]
      exact table.failed started failed

theorem Table.settle (table : Table sockets ready begun nextId calls pending) {id call : Nat}
    (found : pending.get? id = some call) (outcome : Outcome) :
    Table sockets ready begun nextId (Function.update calls call (settled (calls call) outcome))
      (pending.erase id) := by
  obtain ⟨_, _, _, socket, stage, _⟩ := table.entry found
  constructor
  · intro other owner left
    rw [OrderedDict.get?_erase] at left
    split at left
    case isTrue => cases left
    case isFalse apart =>
      rw [Function.update_of_ne]
      · exact table.entry left
      · intro same
        obtain ⟨_, _, _, elsewhere, sent, _⟩ := table.entry left
        rw [same, stage] at sent
        cases sent
        exact apart rfl
  · intro owner number waiting
    rw [Function.update_apply] at waiting ⊢
    split at waiting
    case isTrue =>
      change (calls call).stage = .awaiting number at waiting
      rw [stage] at waiting
      cases waiting
    case isFalse apart =>
      rw [if_neg apart]
      exact table.waiting waiting
  · intro owner other elsewhere sent unsettled
    rw [Function.update_apply] at sent unsettled
    split at sent
    case isTrue same => simp [settled, same] at unsettled
    case isFalse apart =>
      rw [if_neg apart] at unsettled
      have kept := table.kept sent unsettled
      rw [OrderedDict.get?_erase, if_neg]
      · exact kept
      · intro same
        rw [same, found] at kept
        exact apart (Option.some.inj kept).symm
  · intro owner started failed
    rw [Function.update_apply] at failed ⊢
    split
    case isTrue => simp [settled]
    case isFalse apart =>
      rw [if_neg apart] at failed
      exact table.failed started failed

/-- Every entry is settled, whatever becomes of the sockets. -/
theorem Table.rejectAll (table : Table sockets ready begun nextId calls pending)
    (message : String) (changed : Nat → SocketPhase) :
    Table changed ready begun nextId
      (fun call => if call ∈ pending.items then settled (calls call) (.rejected message)
        else calls call) .empty := by
  constructor
  · intro id call found
    cases found
  · intro call number waiting
    split at waiting
    case isTrue listed =>
      obtain ⟨id, found⟩ := OrderedDict.mem_items_iff.mp listed
      exact absurd rfl (table.no_entry waiting found)
    case isFalse absent =>
      simp only [if_neg absent]
      exact table.waiting waiting
  · intro call id socket sent unsettled
    split at sent
    case isTrue listed => simp [settled, if_pos listed] at unsettled
    case isFalse absent =>
      rw [if_neg absent] at unsettled
      exact absurd (OrderedDict.mem_items_iff.mpr ⟨id, table.kept sent unsettled⟩) absent
  · intro call known failed
    split
    case isTrue => simp [settled]
    case isFalse absent =>
      rw [if_neg absent] at failed
      exact table.failed known failed

end Tables

theorem fresh_inv : fresh.Inv := by
  constructor
  · constructor
    · intro socket up
      simp only [fresh, Function.update_apply] at up ⊢
      split at up
      case isTrue same => rw [same]
      case isFalse => exact absurd rfl up
    · intro running
      cases running
    · intro linked
      cases linked
  · constructor
    · intro number same
      cases same
      exact ⟨rfl, rfl⟩
    · intro impossible
      cases impossible
    · intro number _
      rfl
  · constructor
    · intro id call found
      cases found
    · intro call number waiting
      cases waiting
    · intro call id socket sent
      cases sent
    · intro call known
      cases known

theorem Inv.settle (inv : conn.Inv) (id : Nat) (outcome : Outcome) :
    (conn.settle id outcome).Inv := by
  unfold Conn.settle
  split
  case h_1 => exact inv
  case h_2 call found => exact ⟨inv.wired, inv.armed, inv.table.settle found outcome⟩

theorem Inv.fail (inv : conn.Inv) {call number : Nat}
    (awaiting : (conn.calls call).stage = .awaiting number) (message : String) :
    (conn.fail call message).Inv :=
  ⟨inv.wired, inv.armed, inv.table.fail awaiting (Nat.le_refl _) _⟩

theorem Inv.goOn (inv : conn.Inv) {call number : Nat}
    (awaiting : (conn.calls call).stage = .awaiting number) (attempt : Attempt) :
    (conn.goOn call attempt).Inv := by
  unfold Conn.goOn
  split
  case h_1 socket linked wire =>
    obtain ⟨placed, same, up⟩ := inv.wired.linked linked
    rw [wire] at same
    cases same
    cases attempt with
    | sends => exact ⟨inv.wired, inv.armed, inv.table.send awaiting up⟩
    | encodeThrows message | sendThrows message =>
      exact ⟨inv.wired, inv.armed, inv.table.fail awaiting (Nat.le_succ _) _⟩
  case h_2 => exact inv.fail awaiting _

theorem Inv.onopen (inv : conn.Inv) {socket : Nat} (dialing : conn.sockets socket = .dialing) :
    (conn.onopen socket).Inv := by
  have up : conn.sockets socket ≠ .closed := by
    rw [dialing]
    intro impossible
    cases impossible
  have wire := inv.wired.live up
  have wired : Wired (Function.update conn.sockets socket .opened) conn.ws true
      conn.reconnectTimer := by
    constructor
    · intro other notClosed
      rw [Function.update_apply] at notClosed
      split at notClosed
      case isTrue same => rw [same, wire]
      case isFalse => exact inv.wired.live notClosed
    · intro running
      exact absurd (inv.wired.idle running socket) up
    · intro _
      refine ⟨socket, wire, ?_⟩
      rw [Function.update_self]
      intro impossible
      cases impossible
  have table : Table (Function.update conn.sockets socket .opened) conn.ready conn.begun
      conn.nextId conn.calls conn.pending := by
    apply inv.table.weaken _ (Nat.le_refl _)
    intro other notClosed
    rw [Function.update_apply]
    split
    · intro impossible
      cases impossible
    · exact notClosed
  unfold Conn.onopen
  cases promise : conn.resolveReady with
  | none =>
    refine ⟨wired, ⟨?_, ?_, inv.armed.later⟩, table⟩
    · intro number impossible
      cases impossible
    · intro _
      exact inv.armed.unarmed promise
  | some number =>
    obtain ⟨last, _⟩ := inv.armed.armed promise
    refine ⟨wired, ⟨?_, ?_, ?_⟩, table⟩
    · intro other impossible
      cases impossible
    · intro _
      rw [last]
      exact Function.update_self ..
    · intro other beyond
      change conn.ready < other at beyond
      have apart : other ≠ number := by omega
      exact (Function.update_of_ne apart ..).trans (inv.armed.later beyond)

theorem Inv.onclose (inv : conn.Inv) {socket : Nat} (up : conn.sockets socket ≠ .closed) :
    (conn.onclose socket).Inv := by
  have wire := inv.wired.live up
  have all (other : Nat) : Function.update conn.sockets socket .closed other = .closed := by
    rw [Function.update_apply]
    split
    case isTrue => rfl
    case isFalse apart =>
      by_contra standing
      have same := inv.wired.live standing
      rw [wire] at same
      exact apart (Option.some.inj same).symm
  have wired (timer : Bool) :
      Wired (Function.update conn.sockets socket .closed) conn.ws false timer := by
    constructor
    · intro other notClosed
      exact absurd (all other) notClosed
    · intro _
      exact all
    · intro impossible
      cases impossible
  have table := inv.table.rejectAll "disconnected" (Function.update conn.sockets socket .closed)
  unfold Conn.onclose
  simp only
  split
  · exact ⟨wired _, inv.armed, table⟩
  · refine ⟨wired true, ⟨?_, ?_, ?_⟩, table.weaken (fun _ same => same) (Nat.le_succ _)⟩
    · intro number same
      cases same
      exact ⟨rfl, inv.armed.later (Nat.lt_succ_self _)⟩
    · intro impossible
      cases impossible
    · intro number beyond
      exact inv.armed.later (Nat.lt_of_succ_lt beyond)

theorem Inv.reconnect (inv : conn.Inv) (running : conn.reconnectTimer = true) :
    ({ conn with reconnectTimer := false } : Conn).connect.Inv := by
  have down := inv.wired.idle running
  have unlinked : conn.connected ≠ true := by
    intro linked
    obtain ⟨socket, _, up⟩ := inv.wired.linked linked
    exact up (down socket)
  unfold Conn.connect
  split
  · refine ⟨⟨inv.wired.live, ?_, inv.wired.linked⟩, inv.armed, inv.table⟩
    intro impossible
    cases impossible
  · refine ⟨⟨?_, ?_, ?_⟩, inv.armed, ?_⟩
    · intro socket up
      simp only [Function.update_apply] at up
      split at up
      case isTrue same => rw [same]
      case isFalse => exact absurd (down socket) up
    · intro impossible
      cases impossible
    · intro linked
      exact absurd linked unlinked
    · apply inv.table.weaken _ (Nat.le_refl _)
      intro socket up
      exact absurd (down socket) up

theorem Inv.close (inv : conn.Inv) : conn.close.Inv := by
  have table (changed : Nat → SocketPhase) := inv.table.rejectAll "closed" changed
  have idle {sockets : Nat → SocketPhase} :
      false = true → ∀ socket, sockets socket = .closed := by
    intro impossible
    cases impossible
  have quiet : Wired conn.sockets conn.ws conn.connected false :=
    ⟨inv.wired.live, idle, inv.wired.linked⟩
  unfold Conn.close
  simp only
  split
  case h_1 => exact ⟨quiet, inv.armed, table _⟩
  case h_2 socket wire =>
    split
    · exact ⟨quiet, inv.armed, table _⟩
    · refine ⟨⟨?_, idle, ?_⟩, inv.armed, table _⟩
      · intro other up
        simp only [setSocket, Conn.rejectAll, Function.update_apply] at up ⊢
        split at up
        case isTrue same => rw [same, wire]
        case isFalse => exact inv.wired.live up
      · intro _
        refine ⟨socket, wire, ?_⟩
        simp only [setSocket, Function.update_self]
        intro impossible
        cases impossible

theorem Inv.next (inv : conn.Inv) (event : ConnEvent) : (conn.next event).Inv := by
  cases event with
  | call => exact ⟨inv.wired, inv.armed, inv.table.call⟩
  | goOn call attempt =>
    simp only [Conn.next]
    split
    case h_1 number awaiting =>
      split
      · exact inv.goOn awaiting attempt
      · exact inv
    case h_2 => exact inv
  | opened socket =>
    simp only [Conn.next]
    split
    case isTrue dialing => exact inv.onopen dialing
    case isFalse => exact inv
  | message socket frame =>
    simp only [Conn.next]
    split
    · cases frame with
      | reply id data => exact inv.settle id _
      | error id text => exact inv.settle id _
      | other => exact inv
    · exact inv
  | errored socket => exact inv
  | ended socket =>
    simp only [Conn.next]
    split
    case isTrue => exact inv
    case isFalse up => exact inv.onclose up
  | reconnect =>
    simp only [Conn.next]
    split
    case isTrue running => exact inv.reconnect running
    case isFalse => exact inv
  | close => exact inv.close

/-! ### One call -/

/-- What the call waits for, if it waits, is there for it. -/
def Held (name : Nat) (conn : Conn) : Prop :=
  ∀ {number}, (conn.calls name).stage = .awaiting number →
    conn.resolveReady = some number ∧ conn.closedByUs = false ∨ conn.resolved number = true

theorem served_iff (inv : conn.Inv) : conn.Served name ↔ conn.Held name := by
  constructor
  · intro served number awaiting
    obtain ⟨known, unsettled, _⟩ := inv.table.waiting awaiting
    cases served known unsettled with
    | inl sent =>
      obtain ⟨id, socket, sent, _⟩ := sent
      rw [awaiting] at sent
      cases sent
    | inr waits =>
      obtain ⟨promise, same, held⟩ := waits
      rw [awaiting] at same
      cases same
      exact held
  · intro held known unsettled
    cases stage : (conn.calls name).stage with
    | awaiting number => exact .inr ⟨number, rfl, held stage⟩
    | sent id socket =>
      have found := inv.table.kept stage unsettled
      obtain ⟨_, _, _, other, sent, up⟩ := inv.table.entry found
      rw [stage] at sent
      cases sent
      exact .inl ⟨id, socket, rfl, found, up⟩
    | failed => exact absurd unsettled (inv.table.failed known stage)

theorem rejectAll_stage (conn : Conn) (message : String) (call : Nat) :
    ((conn.rejectAll message).calls call).stage = (conn.calls call).stage := by
  simp only [Conn.rejectAll]
  split <;> rfl

theorem settle_stage (conn : Conn) (id : Nat) (outcome : Outcome) (call : Nat) :
    ((conn.settle id outcome).calls call).stage = (conn.calls call).stage := by
  unfold Conn.settle
  split
  · rfl
  · simp only [setCall, Function.update_apply]
    split
    case isTrue same => rw [same]; rfl
    case isFalse => rfl

/-- The promises of an event that changes no ready promise and does not close. -/
structure SamePromises (other conn : Conn) : Prop where
  resolveReady : other.resolveReady = conn.resolveReady
  closedByUs : other.closedByUs = conn.closedByUs
  resolved : other.resolved = conn.resolved

theorem Held.same (held : conn.Held name) (promises : SamePromises other conn)
    (stage : ∀ {number}, (other.calls name).stage = .awaiting number →
      (conn.calls name).stage = .awaiting number) : other.Held name := by
  intro number awaiting
  rw [promises.resolveReady, promises.closedByUs, promises.resolved]
  exact held (stage awaiting)

theorem settle_promises (conn : Conn) (id : Nat) (outcome : Outcome) :
    SamePromises (conn.settle id outcome) conn := by
  unfold Conn.settle
  split
  · exact ⟨rfl, rfl, rfl⟩
  · exact ⟨rfl, rfl, rfl⟩

theorem goOn_promises (conn : Conn) (call : Nat) (attempt : Attempt) :
    SamePromises (conn.goOn call attempt) conn := by
  unfold Conn.goOn
  split
  · cases attempt with
    | sends | encodeThrows | sendThrows => exact ⟨rfl, rfl, rfl⟩
  · exact ⟨rfl, rfl, rfl⟩

/-- A call that goes on waits no more. -/
theorem goOn_stage (conn : Conn) (call : Nat) (attempt : Attempt) (number : Nat) :
    (((conn.goOn call attempt).calls call).stage) ≠ .awaiting number := by
  intro awaiting
  unfold Conn.goOn at awaiting
  split at awaiting
  · cases attempt with
    | sends | encodeThrows | sendThrows =>
      simp [Conn.fail, setCall, settled] at awaiting
  · simp [Conn.fail, setCall, settled] at awaiting

theorem goOn_calls_of_ne (conn : Conn) {call : Nat} (attempt : Attempt) (apart : name ≠ call) :
    (conn.goOn call attempt).calls name = conn.calls name := by
  unfold Conn.goOn
  split
  · cases attempt with
    | sends | encodeThrows | sendThrows => exact Function.update_of_ne apart ..
  · exact Function.update_of_ne apart ..

theorem Held.goOn (held : conn.Held name) (call : Nat) (attempt : Attempt) :
    (conn.goOn call attempt).Held name := by
  apply held.same (goOn_promises ..)
  intro number awaiting
  by_cases same : name = call
  · subst same
    exact (goOn_stage conn name attempt number awaiting).elim
  · rwa [goOn_calls_of_ne conn attempt same] at awaiting

theorem Held.onopen (held : conn.Held name) (socket : Nat) : (conn.onopen socket).Held name := by
  intro number awaiting
  right
  unfold Conn.onopen at awaiting ⊢
  cases promise : conn.resolveReady with
  | none =>
    simp only [promise] at awaiting ⊢
    cases held awaiting with
    | inl waits =>
      rw [promise] at waits
      cases waits.1
    | inr resolved => exact resolved
  | some last =>
    simp only [promise, Function.update_apply] at awaiting ⊢
    split
    case isTrue => rfl
    case isFalse apart =>
      cases held awaiting with
      | inl waits =>
        rw [promise] at waits
        exact absurd (Option.some.inj waits.1).symm apart
      | inr resolved => exact resolved

/-- A call that is held and does not wait has its promise resolved. -/
theorem Held.resolved (inv : conn.Inv) {number : Nat} (calm : ¬ conn.Waits name)
    (awaiting : (conn.calls name).stage = .awaiting number) : conn.resolved number = true := by
  cases known : conn.resolved number with
  | true => rfl
  | false => exact absurd ⟨(inv.table.waiting awaiting).1, number, awaiting, known⟩ calm

theorem Held.onclose (inv : conn.Inv) (held : conn.Held name) {socket : Nat}
    (careful : ¬ (conn.closedByUs = false ∧ conn.Waits name)) :
    (conn.onclose socket).Held name := by
  have stage {number : Nat} (awaiting : ((conn.onclose socket).calls name).stage =
      .awaiting number) : (conn.calls name).stage = .awaiting number := by
    rw [← awaiting]
    unfold Conn.onclose
    simp only
    have same := rejectAll_stage { conn.setSocket socket .closed with connected := false }
      "disconnected" name
    split
    · exact same.symm
    · exact same.symm
  intro number awaiting
  have before := stage awaiting
  right
  have resolved : conn.resolved number = true := by
    cases held before with
    | inr resolved => exact resolved
    | inl waits => exact Held.resolved inv (fun calm => careful ⟨waits.2, calm⟩) before
  unfold Conn.onclose
  simp only
  split <;> exact resolved

theorem close_stage (conn : Conn) (call : Nat) :
    (conn.close.calls call).stage = (conn.calls call).stage := by
  unfold Conn.close
  simp only
  split
  · exact rejectAll_stage { conn with closedByUs := true, reconnectTimer := false } _ _
  · split <;> exact rejectAll_stage { conn with closedByUs := true, reconnectTimer := false } _ _

theorem close_resolved (conn : Conn) : conn.close.resolved = conn.resolved := by
  unfold Conn.close
  simp only
  split
  · rfl
  · split <;> rfl

theorem close_closedByUs (conn : Conn) : conn.close.closedByUs = true := by
  unfold Conn.close
  simp only
  split
  · rfl
  · split <;> rfl

theorem Held.next (inv : conn.Inv) (held : conn.Held name) (careful : ¬ conn.Strands name event) :
    (conn.next event).Held name := by
  cases event with
  | call =>
    intro number awaiting
    simp only [Conn.next, Conn.call, setCall, Function.update_apply] at awaiting ⊢
    split at awaiting
    case isFalse => exact held awaiting
    case isTrue same =>
      cases awaiting
      cases promise : conn.resolveReady with
      | none => exact .inr (inv.armed.unarmed promise)
      | some last =>
        left
        rw [(inv.armed.armed promise).1]
        refine ⟨rfl, ?_⟩
        cases shut : conn.closedByUs with
        | false => rfl
        | true => exact absurd ⟨same, shut, by rw [promise]; rfl⟩ careful
  | goOn call attempt =>
    simp only [Conn.next]
    split
    · split
      · exact held.goOn call attempt
      · exact held
    · exact held
  | opened socket =>
    simp only [Conn.next]
    split
    · exact held.onopen socket
    · exact held
  | message socket frame =>
    simp only [Conn.next]
    split
    · cases frame with
      | reply id data | error id text =>
        apply held.same (settle_promises ..)
        intro number awaiting
        rwa [settle_stage] at awaiting
      | other => exact held
    · exact held
  | errored socket => exact held
  | ended socket =>
    simp only [Conn.next]
    split
    case isTrue => exact held
    case isFalse up =>
      apply held.onclose inv
      intro broken
      exact careful ⟨up, broken⟩
  | reconnect =>
    simp only [Conn.next]
    split
    · unfold Conn.connect
      split
      · exact held
      · exact held
    · exact held
  | close =>
    intro number awaiting
    change (conn.close.calls name).stage = .awaiting number at awaiting
    rw [close_stage] at awaiting
    right
    change conn.close.resolved number = true
    rw [close_resolved]
    exact Held.resolved inv careful awaiting

/-- A stranded call waits for a promise that nothing will resolve. -/
theorem Strands.not_held (inv : conn.Inv) (strands : conn.Strands name event) :
    ¬ (conn.next event).Held name := by
  intro held
  cases event with
  | ended socket =>
    obtain ⟨up, unclosed, known, number, awaiting, unresolved⟩ := strands
    have old := (inv.table.waiting awaiting).2.2
    have after : conn.next (.ended socket) = conn.onclose socket := if_neg up
    have stage : ((conn.onclose socket).calls name).stage = .awaiting number := by
      rw [← awaiting]
      simp only [Conn.onclose, unclosed]
      exact rejectAll_stage { conn.setSocket socket .closed with connected := false } _ _
    rw [after] at held
    cases held stage with
    | inl waits =>
      have last := waits.1
      simp only [Conn.onclose, unclosed] at last
      have same := Option.some.inj last
      simp only [Conn.rejectAll, setSocket] at same
      omega
    | inr resolved =>
      simp only [Conn.onclose, unclosed] at resolved
      change conn.resolved number = true at resolved
      rw [unresolved] at resolved
      cases resolved
  | close =>
    obtain ⟨known, number, awaiting, unresolved⟩ := strands
    cases held ((close_stage conn name).trans awaiting) with
    | inl waits =>
      have shut := waits.2
      change conn.close.closedByUs = false at shut
      rw [close_closedByUs] at shut
      cases shut
    | inr resolved =>
      change conn.close.resolved number = true at resolved
      rw [close_resolved, unresolved] at resolved
      cases resolved
  | call =>
    obtain ⟨same, shut, armed⟩ := strands
    subst same
    have stage : ((conn.next .call).calls conn.begun).stage = .awaiting conn.ready := by
      simp [Conn.next, Conn.call, setCall]
    cases held stage with
    | inl waits =>
      have unclosed : conn.closedByUs = false := waits.2
      rw [shut] at unclosed
      cases unclosed
    | inr resolved =>
      obtain ⟨last, promise⟩ := Option.isSome_iff_exists.mp armed
      obtain ⟨same, unresolved⟩ := inv.armed.armed promise
      change conn.resolved conn.ready = true at resolved
      rw [← same, unresolved] at resolved
      cases resolved
  | goOn | opened | message | errored | reconnect => exact strands

theorem settle_settlesOnce (inv : conn.Inv) {socket id : Nat} {frame : InboundFrame}
    {outcome : Outcome} (live : conn.sockets socket ≠ .closed)
    (stepped : conn.next (.message socket frame) = conn.settle id outcome)
    (source : (conn.calls name).stage = .sent id socket →
      Source name conn (.message socket frame) outcome) :
    conn.SettlesOnce name (.message socket frame) := by
  intro _
  rw [stepped]
  unfold Conn.settle
  split
  case h_1 => exact .inl rfl
  case h_2 call found =>
    simp only [setCall, Function.update_apply]
    split
    case isFalse => exact .inl rfl
    case isTrue same =>
      subst same
      obtain ⟨_, _, unsettled, other, sent, up⟩ := inv.table.entry found
      have wire := inv.wired.live live
      rw [inv.wired.live up] at wire
      cases wire
      right
      refine ⟨unsettled, outcome, ?_, source sent⟩
      simp only [settled, unsettled, List.nil_append]

theorem rejectAll_settlesOnce (inv : conn.Inv) {message : String}
    (calls : (conn.next event).calls = (conn.rejectAll message).calls)
    (quiet : ∀ socket frame, event ≠ .message socket frame) : conn.SettlesOnce name event := by
  intro _
  rw [calls]
  simp only [Conn.rejectAll]
  split
  case isFalse => exact .inl rfl
  case isTrue listed =>
    obtain ⟨id, found⟩ := OrderedDict.mem_items_iff.mp listed
    have unsettled := (inv.table.entry found).2.2.1
    right
    refine ⟨unsettled, .rejected message, ?_, .inside message quiet⟩
    simp only [settled, unsettled, List.nil_append]

theorem goOn_outcomes (conn : Conn) (call : Nat) (attempt : Attempt) :
    ((conn.goOn call attempt).calls call).outcomes = (conn.calls call).outcomes ∨
      ∃ message, ((conn.goOn call attempt).calls call).outcomes =
        (conn.calls call).outcomes ++ [.rejected message] := by
  have failed (other : Conn) (message : String) (same : other.calls = conn.calls) :
      ((other.fail call message).calls call).outcomes =
        (conn.calls call).outcomes ++ [.rejected message] := by
    simp only [Conn.fail, setCall, Function.update_self, settled, same]
  unfold Conn.goOn
  split
  · cases attempt with
    | sends =>
      left
      simp only [setCall, Function.update_self]
    | encodeThrows message | sendThrows message =>
      right
      exact ⟨message, failed _ message rfl⟩
  · right
    exact ⟨"disconnected", failed _ _ rfl⟩

theorem goOn_settlesOnce (inv : conn.Inv) {call number : Nat} {attempt : Attempt}
    (awaiting : (conn.calls call).stage = .awaiting number)
    (stepped : conn.next (.goOn call attempt) = conn.goOn call attempt) :
    conn.SettlesOnce name (.goOn call attempt) := by
  intro _
  rw [stepped]
  by_cases same : name = call
  · subst same
    have unsettled := (inv.table.waiting awaiting).2.1
    obtain kept | failed := goOn_outcomes conn name attempt
    · exact .inl kept
    · obtain ⟨message, failed⟩ := failed
      rw [unsettled, List.nil_append] at failed
      right
      refine ⟨unsettled, .rejected message, failed, .inside message ?_⟩
      intro socket frame impossible
      cases impossible
  · rw [goOn_calls_of_ne conn attempt same]
    exact .inl rfl

theorem close_calls (conn : Conn) : conn.close.calls = (conn.rejectAll "closed").calls := by
  unfold Conn.close
  simp only
  split
  · rfl
  · split <;> rfl

theorem onclose_calls (conn : Conn) (socket : Nat) :
    (conn.onclose socket).calls = (conn.rejectAll "disconnected").calls := by
  unfold Conn.onclose
  simp only
  split <;> rfl

theorem Inv.settlesOnce (inv : conn.Inv) (name : Nat) (event : ConnEvent) :
    conn.SettlesOnce name event := by
  cases event with
  | call =>
    intro known
    left
    simp only [Conn.next, Conn.call, setCall]
    rw [Function.update_of_ne (Nat.ne_of_lt known)]
  | goOn call attempt =>
    cases stage : (conn.calls call).stage with
    | awaiting number =>
      by_cases ready : conn.resolved number = true
      · apply goOn_settlesOnce inv stage
        simp only [Conn.next, stage, ready, if_true]
      · intro _
        left
        simp only [Conn.next, stage, if_neg ready]
    | sent | failed =>
      intro _
      left
      simp only [Conn.next, stage]
  | opened socket =>
    intro _
    left
    simp only [Conn.next]
    split
    · unfold Conn.onopen
      simp only
      split <;> rfl
    · rfl
  | message socket frame =>
    by_cases live : conn.sockets socket = .opened ∨ conn.sockets socket = .closing
    · have up : conn.sockets socket ≠ .closed := by
        intro down
        rw [down] at live
        cases live with
        | inl impossible => cases impossible
        | inr impossible => cases impossible
      have stepped : conn.next (.message socket frame) = conn.onMessage frame := if_pos live
      cases frame with
      | reply id data =>
        exact settle_settlesOnce inv up stepped fun own => .reply id socket data rfl own
      | error id text =>
        exact settle_settlesOnce inv up stepped fun own => .error id socket text rfl own
      | other =>
        intro _
        rw [stepped]
        exact .inl rfl
    · intro _
      left
      simp only [Conn.next, if_neg live]
  | errored socket => exact fun _ => .inl rfl
  | ended socket =>
    by_cases up : conn.sockets socket = .closed
    · intro _
      left
      simp only [Conn.next, if_pos up]
    · apply rejectAll_settlesOnce inv
      · simp only [Conn.next, if_neg up]
        exact onclose_calls conn socket
      · intro socket frame impossible
        cases impossible
  | reconnect =>
    intro _
    left
    simp only [Conn.next]
    split
    · unfold Conn.connect
      split <;> rfl
    · rfl
  | close =>
    have calls : (conn.next .close).calls = (conn.rejectAll "closed").calls := close_calls conn
    apply rejectAll_settlesOnce inv calls
    intro socket frame impossible
    cases impossible

/-! ### Whole runs -/

theorem sound_iff_careful (events : List ConnEvent) : ∀ {conn : Conn}, conn.Inv →
    conn.Held name → (conn.Sound name events ↔ conn.Careful name events) := by
  induction events with
  | nil =>
    intro conn inv held
    exact iff_of_true ((served_iff inv).mpr held) trivial
  | cons event events hypothesis =>
    intro conn inv held
    have after := inv.next event
    constructor
    · intro sound
      obtain ⟨_, _, rest⟩ := sound
      have served : (conn.next event).Served name := by
        cases events with
        | nil => exact rest
        | cons => exact rest.1
      have heldAfter : (conn.next event).Held name := (served_iff after).mp served
      constructor
      · intro strands
        exact strands.not_held inv heldAfter
      · exact (hypothesis after heldAfter).mp rest
    · intro careful
      refine ⟨(served_iff inv).mpr held, inv.settlesOnce name event, ?_⟩
      exact (hypothesis after (held.next inv careful.1)).mpr careful.2

/-- In every interleaving, a call is settled at most once, with the data of the frame that
bears its id, and is never stranded, exactly when no socket ends and nobody closes the
connection while it waits for a promise that is not resolved, and it is not made on a closed
connection that has none. -/
theorem call_is_sound_iff (name : Nat) (events : List ConnEvent) :
    fresh.Sound name events ↔ fresh.Careful name events := by
  apply sound_iff_careful events fresh_inv
  intro number awaiting
  cases awaiting

/-- The first dial fails while a call waits; the retry opens, and the call still waits. -/
theorem failed_dial_strands_the_call : ¬ ∀ name events, fresh.Sound name events := by
  intro sound
  have last := (sound 0 [.call, .ended 0, .reconnect, .opened 1]).2.2.2.2.2.2.2.2
  obtain ⟨id, socket, sent, _⟩ | ⟨number, awaiting, held⟩ := last (by decide) rfl
  · cases sent
  · cases awaiting
    obtain ⟨promise, _⟩ | resolved := held
    · cases promise
    · cases resolved

end Conn

end Fantastic.Ts

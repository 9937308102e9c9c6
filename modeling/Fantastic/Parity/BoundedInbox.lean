import Fantastic.Swift.Kernel
import Mathlib.Data.List.Induction

/-!
# Bounded inboxes

An inbox is an `asyncio.Queue` in Python, a `tokio::sync::mpsc` channel in Rust and an
`AsyncStream` in Swift, each with the kernel's bound. Python takes the oldest payload out of
a full queue and Swift buffers the newest, but `try_send` refuses the new payload when the
channel is full, and every payload once the receiver has been dropped.
-/

namespace Fantastic.Parity.Inbox

variable {Payload : Type}

/-- What happens to one inbox: an emit to its owner, the fanout of an agent its owner
watches, and a read that does not wait. -/
inductive Move (Payload : Type) where
  | emitted (payload : Payload)
  | mirrored (payload : Payload)
  | read
  deriving DecidableEq

def Move.delivery : Move Payload → Option Payload
  | .emitted payload => some payload
  | .mirrored payload => some payload
  | .read => none

/-! ### What an inbox holds -/

/-- The newest `bound` of the payloads that are there and the one that arrives. -/
def arrive (bound : Nat) (held : List Payload) (payload : Payload) : List Payload :=
  (held ++ [payload]).drop ((held ++ [payload]).length - bound)

def expect (bound : Nat) (held : List Payload) : Move Payload → List Payload
  | .emitted payload => arrive bound held payload
  | .mirrored payload => arrive bound held payload
  | .read => held.tail

/-- The last payloads delivered and not yet read, at most `bound` of them, in order. -/
def expected (bound : Nat) (moves : List (Move Payload)) : List Payload :=
  moves.foldl (expect bound) []

/-! ### Python -/

/-- `asyncio.Queue(maxsize=…)`. -/
structure AsyncQueue (Payload : Type) where
  items : List Payload
  maxsize : Nat

namespace AsyncQueue

variable (queue : AsyncQueue Payload)

/-- A `maxsize` of zero is no bound. -/
def full : Bool :=
  decide (0 < queue.maxsize) && decide (queue.maxsize ≤ queue.items.length)

/-- `put_nowait`, `none` for `QueueFull`. -/
def putNowait (payload : Payload) : Option (AsyncQueue Payload) :=
  if queue.full then none else some { queue with items := queue.items ++ [payload] }

/-- `get_nowait`, `none` for `QueueEmpty`. -/
def getNowait : Option (Payload × AsyncQueue Payload) :=
  match queue.items with
  | [] => none
  | payload :: rest => some (payload, { queue with items := rest })

/-- `Agent._put_drop_oldest`. -/
def putDropOldest (payload : Payload) : AsyncQueue Payload :=
  match queue.putNowait payload with
  | some next => next
  | none =>
    let shorter :=
      match queue.getNowait with
      | some (_, rest) => rest
      | none => queue
    (shorter.putNowait payload).getD shorter

/-- `_fanout` puts a payload into the target's own inbox and into those of its watchers in
the same way. -/
def step : Move Payload → AsyncQueue Payload
  | .emitted payload => queue.putDropOldest payload
  | .mirrored payload => queue.putDropOldest payload
  | .read =>
    match queue.getNowait with
    | some (_, rest) => rest
    | none => queue

def run (moves : List (Move Payload)) : AsyncQueue Payload :=
  moves.foldl step queue

end AsyncQueue

/-! ### Rust -/

inductive TrySendError where
  | full
  | closed
  deriving DecidableEq

/-- `mpsc::channel(inbox_bound)`, from the side of the sender in `Kernel::inboxes`. The
receiver is gone once the caller of `Kernel::register` drops it. -/
structure Channel (Payload : Type) where
  queue : List Payload
  capacity : Nat
  receiver : Bool

namespace Channel

variable (channel : Channel Payload)

def trySend (payload : Payload) : Except TrySendError (Channel Payload) :=
  if !channel.receiver then .error .closed
  else if channel.capacity ≤ channel.queue.length then .error .full
  else .ok { channel with queue := channel.queue ++ [payload] }

/-- `let _ = tx.try_send(payload)`. -/
def offer (payload : Payload) : Channel Payload :=
  match channel.trySend payload with
  | .ok next => next
  | .error _ => channel

/-- `Kernel::emit` and `fanout_to_watchers` both offer. -/
def step : Move Payload → Channel Payload
  | .emitted payload => channel.offer payload
  | .mirrored payload => channel.offer payload
  | .read => if channel.receiver then { channel with queue := channel.queue.tail } else channel

def run (moves : List (Move Payload)) : Channel Payload :=
  moves.foldl step channel

end Channel

/-! ### Swift -/

namespace Stream

/-- `iterator.next()` on a stream that holds something. -/
def next (kernel : Swift.Kernel) (id : String) : Swift.Kernel :=
  match kernel.inboxes.get? id with
  | some (_ :: rest) => { kernel with inboxes := kernel.inboxes.insert id rest }
  | _ => kernel

def step (id : String) (kernel : Swift.Kernel) : Move Value → Swift.Kernel
  | .emitted payload => kernel.deliverToInbox id payload
  | .mirrored payload => kernel.deliverToInbox id payload
  | .read => next kernel id

def held (kernel : Swift.Kernel) (id : String) : List Value :=
  (kernel.inboxes.get? id).getD []

def run (id : String) (kernel : Swift.Kernel) (moves : List (Move Value)) : Swift.Kernel :=
  moves.foldl (step id) kernel

end Stream

/-! ### One move -/

theorem arrive_length_le (bound : Nat) (held : List Payload) (payload : Payload) :
    (arrive bound held payload).length ≤ bound := by
  simp only [arrive, List.length_drop]
  omega

theorem arrive_of_room {bound : Nat} {held : List Payload} (room : held.length < bound)
    (payload : Payload) : arrive bound held payload = held ++ [payload] := by
  have none' : (held ++ [payload]).length - bound = 0 := by
    rw [List.length_append, List.length_singleton]
    omega
  rw [arrive, none', List.drop_zero]

theorem arrive_of_full {bound : Nat} {held : List Payload} (positive : 0 < bound)
    (full : held.length = bound) (payload : Payload) :
    arrive bound held payload = held.tail ++ [payload] := by
  have one : (held ++ [payload]).length - bound = 1 := by
    rw [List.length_append, List.length_singleton]
    omega
  rw [arrive, one, List.drop_one, List.tail_append_of_ne_nil]
  intro empty
  rw [empty, List.length_nil] at full
  omega

theorem expect_length_le {bound : Nat} {held : List Payload} (small : held.length ≤ bound)
    (move : Move Payload) : (expect bound held move).length ≤ bound := by
  cases move with
  | emitted payload => exact arrive_length_le bound held payload
  | mirrored payload => exact arrive_length_le bound held payload
  | read =>
    rw [expect, List.length_tail]
    omega

theorem expected_append (bound : Nat) (moves : List (Move Payload)) (move : Move Payload) :
    expected bound (moves ++ [move]) = expect bound (expected bound moves) move := by
  rw [expected, expected, List.foldl_append]
  rfl

theorem expected_length_le (bound : Nat) (moves : List (Move Payload)) :
    (expected bound moves).length ≤ bound := by
  induction moves using List.reverseRecOn with
  | nil => exact Nat.zero_le bound
  | append_singleton moves move ih =>
    rw [expected_append]
    exact expect_length_le ih move

theorem AsyncQueue.putDropOldest_eq {bound : Nat} {held : List Payload} (positive : 0 < bound)
    (small : held.length ≤ bound) (payload : Payload) :
    putDropOldest { items := held, maxsize := bound } payload =
      { items := arrive bound held payload, maxsize := bound } := by
  by_cases full : held.length = bound
  · match held, full with
    | first :: rest, full =>
      have count : bound = rest.length + 1 := by
        rw [List.length_cons] at full
        omega
      rw [arrive_of_full positive full]
      simp [putDropOldest, putNowait, getNowait, AsyncQueue.full, count,
        Nat.not_succ_le_self rest.length]
    | [], full =>
      rw [List.length_nil] at full
      omega
  · have room : ¬ bound ≤ held.length := by omega
    rw [arrive_of_room (by omega)]
    simp [putDropOldest, putNowait, AsyncQueue.full, room]

theorem AsyncQueue.step_eq {bound : Nat} {held : List Payload} (positive : 0 < bound)
    (small : held.length ≤ bound) (move : Move Payload) :
    step { items := held, maxsize := bound } move =
      { items := expect bound held move, maxsize := bound } := by
  cases move with
  | emitted payload => exact putDropOldest_eq positive small payload
  | mirrored payload => exact putDropOldest_eq positive small payload
  | read => cases held <;> rfl

/-- The Python inbox is as expected whatever the moves are. -/
theorem AsyncQueue.run_eq {bound : Nat} (positive : 0 < bound) (moves : List (Move Payload)) :
    run { items := [], maxsize := bound } moves =
      { items := expected bound moves, maxsize := bound } := by
  induction moves using List.reverseRecOn with
  | nil => rfl
  | append_singleton moves move ih =>
    rw [run] at ih ⊢
    rw [List.foldl_append, List.foldl_cons, List.foldl_nil, ih,
      step_eq positive (expected_length_le bound moves), expected_append]

/-! ### The channel -/

/-- A list that loses its first element and gets it back at the end is constant. -/
theorem constant_of_rotation {payload first : Payload} : ∀ {rest : List Payload},
    rest ++ [payload] = first :: rest → ∀ held ∈ first :: rest, held = payload
  | [], same => by
      injection same with head _
      intro held inside
      rw [List.mem_singleton.mp inside, head]
  | second :: rest, same => by
      rw [List.cons_append] at same
      injection same with head tail
      have later := constant_of_rotation tail
      intro held inside
      cases inside with
      | head => rw [← head, later second List.mem_cons_self]
      | tail _ inside => exact later held inside

theorem rotation_of_constant {payload : Payload} : ∀ {held : List Payload},
    (∀ other ∈ held, other = payload) → held ≠ [] → held.tail ++ [payload] = held
  | [only], same, _ => by
      rw [same only List.mem_cons_self]
      rfl
  | first :: second :: rest, same, _ => by
      have later := rotation_of_constant (fun other inside =>
        same other (List.mem_cons_of_mem first inside)) (List.cons_ne_nil second rest)
      rw [List.tail_cons] at later ⊢
      rw [List.cons_append, later, same first List.mem_cons_self,
        same second (List.mem_cons_of_mem _ List.mem_cons_self)]

/-- An offer does what is expected when there is room for the payload, or when only copies of
it are there. -/
theorem Channel.offer_eq_iff {bound : Nat} {held : List Payload} {kept : Bool}
    (positive : 0 < bound) (small : held.length ≤ bound) (open' : kept = false → held = [])
    (payload : Payload) :
    (offer { queue := held, capacity := bound, receiver := kept } payload).queue =
        arrive bound held payload ↔
      kept = true ∧ (held.length < bound ∨ ∀ other ∈ held, other = payload) := by
  cases kept with
  | false =>
    have empty := open' rfl
    subst empty
    rw [arrive_of_room positive]
    simp [offer, trySend]
  | true =>
    by_cases room : held.length < bound
    · rw [arrive_of_room room]
      simp [offer, trySend, Nat.not_le.mpr room, room]
    · have full : held.length = bound := by omega
      have some' : held ≠ [] := by
        intro empty
        rw [empty, List.length_nil] at full
        omega
      rw [arrive_of_full positive full]
      have kept' : (offer { queue := held, capacity := bound, receiver := true } payload).queue =
          held := by
        simp [offer, trySend, Nat.le_of_not_lt room]
      rw [kept']
      constructor
      · intro same
        cases held with
        | nil => exact absurd rfl some'
        | cons first rest => exact ⟨rfl, .inr (constant_of_rotation same.symm)⟩
      · intro fine
        cases fine.2 with
        | inl short => exact absurd short room
        | inr same => exact (rotation_of_constant same some').symm

theorem Channel.run_append (channel : Channel Payload) (moves : List (Move Payload))
    (move : Move Payload) : channel.run (moves ++ [move]) = (channel.run moves).step move := by
  rw [run, run, List.foldl_append]
  rfl

theorem Channel.step_fields (channel : Channel Payload) (move : Move Payload) :
    (channel.step move).capacity = channel.capacity ∧
      (channel.step move).receiver = channel.receiver ∧
      (channel.receiver = false → (channel.step move).queue = channel.queue) := by
  have offered : ∀ payload, (channel.offer payload).capacity = channel.capacity ∧
      (channel.offer payload).receiver = channel.receiver ∧
      (channel.receiver = false → (channel.offer payload).queue = channel.queue) := by
    intro payload
    cases kept : channel.receiver with
    | false => simp [offer, trySend, kept]
    | true =>
      by_cases full : channel.capacity ≤ channel.queue.length
      · simp [offer, trySend, kept, full]
      · simp [offer, trySend, kept, full]
  cases move with
  | emitted payload => exact offered payload
  | mirrored payload => exact offered payload
  | read =>
    cases kept : channel.receiver with
    | false => simp [step, kept]
    | true => simp [step, kept]

/-- The bound and the receiver stay, and nothing gets into a channel without a receiver. -/
theorem Channel.run_fields (bound : Nat) (kept : Bool) (moves : List (Move Payload)) :
    ∃ queue, run { queue := [], capacity := bound, receiver := kept } moves =
      { queue := queue, capacity := bound, receiver := kept } ∧ (kept = false → queue = []) := by
  induction moves using List.reverseRecOn with
  | nil => exact ⟨[], rfl, fun _ => rfl⟩
  | append_singleton moves move ih =>
    obtain ⟨queue, same, empty⟩ := ih
    rw [run_append, same]
    have fields := step_fields { queue := queue, capacity := bound, receiver := kept } move
    cases next : step { queue := queue, capacity := bound, receiver := kept } move with
    | mk held capacity receiver =>
      rw [next] at fields
      obtain ⟨capacities, receivers, closed⟩ := fields
      simp only at capacities receivers closed
      rw [capacities, receivers]
      exact ⟨held, rfl, fun dropped => (closed dropped).trans (empty dropped)⟩

/-! ### The stream -/

theorem Stream.deliver_held (kernel : Swift.Kernel) (id : String) (payload : Value) :
    held (kernel.deliverToInbox id payload) id =
      arrive kernel.inboxBound (held kernel id) payload := by
  have ensured : held (kernel.ensureInbox id) id = held kernel id := by
    unfold Swift.Kernel.ensureInbox
    split
    · rfl
    case isFalse absent =>
      have missing : kernel.inboxes.get? id = none := by
        rw [OrderedDict.get?_eq_none_iff]
        intro listed
        exact absent (OrderedDict.contains_iff.mpr listed)
      rw [held, held, OrderedDict.get?_insert_self, missing]
      rfl
  rw [← ensured, held, Swift.Kernel.deliverToInbox, OrderedDict.get?_insert_self]
  rfl

theorem Stream.deliver_bound (kernel : Swift.Kernel) (id : String) (payload : Value) :
    (kernel.deliverToInbox id payload).inboxBound = kernel.inboxBound := by
  unfold Swift.Kernel.deliverToInbox Swift.Kernel.ensureInbox
  split <;> rfl

theorem Stream.next_held (kernel : Swift.Kernel) (id : String) :
    held (next kernel id) id = (held kernel id).tail ∧
      (next kernel id).inboxBound = kernel.inboxBound := by
  unfold next
  split
  case h_1 first rest found =>
    rw [held, held, OrderedDict.get?_insert_self, found]
    exact ⟨rfl, rfl⟩
  case h_2 other =>
    cases found : kernel.inboxes.get? id with
    | none => simp [held, found]
    | some inbox =>
      cases inbox with
      | nil => simp [held, found]
      | cons first rest => exact absurd found (other first rest)

/-- So is the Swift inbox. -/
theorem Stream.run_held (workdir : Option String) (bound : Nat) (id : String)
    (moves : List (Move Value)) :
    held (run id (.fresh workdir bound) moves) id = expected bound moves ∧
      (run id (.fresh workdir bound) moves).inboxBound = bound := by
  induction moves using List.reverseRecOn with
  | nil => exact ⟨rfl, rfl⟩
  | append_singleton moves move ih =>
    rw [expected_append, ← ih.1, run, List.foldl_append, List.foldl_cons, List.foldl_nil, ← run]
    have bounds := ih.2
    cases move with
    | emitted payload =>
      rw [step, deliver_held, deliver_bound, bounds]
      exact ⟨rfl, rfl⟩
    | mirrored payload =>
      rw [step, deliver_held, deliver_bound, bounds]
      exact ⟨rfl, rfl⟩
    | read =>
      rw [step, (next_held _ id).1, (next_held _ id).2, bounds]
      exact ⟨rfl, rfl⟩

/-! ### All runtimes -/

/-- After every beginning of the moves the inbox of each runtime holds what is expected, and
that of the Rust kernel what the Python one holds. `kept` says whether the receiver of the
Rust channel is. -/
structure Exact (workdir : Option String) (id : String) (bound : Nat) (kept : Bool)
    (moves : List (Move Value)) : Prop where
  python : ∀ before, before <+: moves →
    (AsyncQueue.run { items := [], maxsize := bound } before).items = expected bound before
  rust : ∀ before, before <+: moves →
    (Channel.run { queue := [], capacity := bound, receiver := kept } before).queue =
      expected bound before
  swift : ∀ before, before <+: moves →
    Stream.held (Stream.run id (.fresh workdir bound) before) id = expected bound before
  agree : ∀ before, before <+: moves →
    (Channel.run { queue := [], capacity := bound, receiver := kept } before).queue =
      (AsyncQueue.run { items := [], maxsize := bound } before).items

/-- Whatever is delivered finds a receiver, and room, or nothing but copies of itself. -/
def Roomy (bound : Nat) (kept : Bool) (moves : List (Move Value)) : Prop :=
  ∀ before move payload, before ++ [move] <+: moves → move.delivery = some payload →
    kept = true ∧ ((expected bound before).length < bound ∨
      ∀ other ∈ expected bound before, other = payload)

theorem channel_exact_iff {bound : Nat} (positive : 0 < bound) (kept : Bool)
    (moves : List (Move Value)) :
    (∀ before, before <+: moves →
      (Channel.run { queue := [], capacity := bound, receiver := kept } before).queue =
        expected bound before) ↔ Roomy bound kept moves := by
  have next : ∀ (before : List (Move Value)) (move : Move Value),
      (Channel.run { queue := [], capacity := bound, receiver := kept } before).queue =
        expected bound before →
      ((Channel.run { queue := [], capacity := bound, receiver := kept }
          (before ++ [move])).queue = expected bound (before ++ [move]) ↔
        ∀ payload, move.delivery = some payload → kept = true ∧
          ((expected bound before).length < bound ∨
            ∀ other ∈ expected bound before, other = payload)) := by
    intro before move same
    obtain ⟨queue, state, closed⟩ := @Channel.run_fields Value bound kept before
    rw [state] at same
    simp only at same
    rw [same] at state closed
    rw [expected_append, Channel.run_append, state]
    have offered := Channel.offer_eq_iff positive (expected_length_le bound before) closed
    cases move with
    | emitted payload => simpa [Move.delivery, Channel.step, expect] using offered payload
    | mirrored payload => simpa [Move.delivery, Channel.step, expect] using offered payload
    | read =>
      cases kept with
      | true => simp [Move.delivery, Channel.step, expect]
      | false => simp [Move.delivery, Channel.step, expect, closed rfl]
  constructor
  · intro exact' before move payload within delivers
    have shorter := (List.prefix_append before [move]).trans within
    exact (next before move (exact' before shorter)).mp (exact' _ within) payload delivers
  · intro roomy before
    induction before using List.reverseRecOn with
    | nil =>
      intro _
      rfl
    | append_singleton before move ih =>
      intro within
      have shorter := (List.prefix_append before [move]).trans within
      exact (next before move (ih shorter)).mpr fun payload => roomy before move payload within

/-- The inboxes are what they should be exactly if no payload is delivered to a Rust channel
that has lost its receiver or is full, copies of the same payload aside. -/
theorem bounded_inbox_iff (workdir : Option String) (id : String) (bound : Nat) (kept : Bool)
    (moves : List (Move Value)) (positive : 0 < bound) :
    Exact workdir id bound kept moves ↔ Roomy bound kept moves := by
  rw [← channel_exact_iff positive]
  have python : ∀ before : List (Move Value),
      (AsyncQueue.run { items := [], maxsize := bound } before).items =
        expected bound before := by
    intro before
    rw [AsyncQueue.run_eq positive]
  constructor
  · intro exact'
    exact exact'.rust
  · intro rust
    constructor
    · intro before _
      exact python before
    · exact rust
    · intro before _
      exact (Stream.run_held workdir bound id before).1
    · intro before within
      rw [rust before within, python before]

/-- A read between the deliveries leaves room for the third. -/
theorem read_inbox_is_exact :
    Exact none "client" 2 true
      [.emitted (.int 1), .mirrored (.int 2), .read, .emitted (.int 3)] := by
  rw [bounded_inbox_iff none "client" 2 true _ (by decide)]
  intro before move payload within delivers
  refine ⟨rfl, .inl ?_⟩
  have short : before.length < 4 := by
    have length := within.length_le
    simp only [List.length_append, List.length_cons, List.length_nil] at length
    omega
  have start : before = List.take before.length
      [.emitted (.int 1), .mirrored (.int 2), .read, .emitted (.int 3)] :=
    List.prefix_iff_eq_take.mp ((List.prefix_append before [move]).trans within)
  generalize before.length = count at short start
  subst start
  match count, short with
  | 0, _ => decide
  | 1, _ => decide
  | 3, _ => decide
  | 2, _ =>
    obtain ⟨rest, same⟩ := within
    simp at same
    rw [same.1] at delivers
    cases delivers

/-- The third payload in a row is refused by the Rust channel. -/
theorem third_delivery_is_refused :
    ¬ Exact none "client" 2 true [.emitted (.int 1), .emitted (.int 2), .emitted (.int 3)] := by
  intro exact'
  have refused := exact'.rust _ (List.prefix_refl _)
  revert refused
  decide

end Fantastic.Parity.Inbox

import Fantastic.Foundation.Runs
import Mathlib.Data.List.Perm.Basic

/-!
# The inbox of the Swift WebSocket client

`WSClientInbox` of `WebSocketClient.swift` with any number of threads. What runs under its lock is
one move; a continuation is resumed after the lock is released, which is a move of its own and
comes at any later time. Calls of `next` and their continuations are numbered in the order in
which they get the lock.
-/

namespace Fantastic.Swift

variable {Message Failure : Type}

/-! ### Under the lock -/

/-- What a continuation is resumed with. -/
inductive Resumption (Message Failure : Type) where
  | returning (message : Message)
  | throwing (failure : Failure)

structure WSClientInbox (Message Failure : Type) where
  queue : List Message
  waiters : List Nat
  failure : Option Failure

namespace WSClientInbox

/-- The inbox behind the lock, and what is resumed after it. -/
abbrev Unlocked (Message Failure : Type) :=
  WSClientInbox Message Failure × List (Nat × Resumption Message Failure)

def empty : WSClientInbox Message Failure where
  queue := []
  waiters := []
  failure := none

def deliver (inbox : WSClientInbox Message Failure) (message : Message) :
    Unlocked Message Failure :=
  match inbox.waiters with
  | waiter :: rest => ({ inbox with waiters := rest }, [(waiter, .returning message)])
  | [] => ({ inbox with queue := inbox.queue ++ [message] }, [])

def fail (inbox : WSClientInbox Message Failure) (error : Failure) : Unlocked Message Failure :=
  ({ inbox with
      failure := inbox.failure.or (some error)
      waiters := [] },
    inbox.waiters.map fun waiter => (waiter, .throwing error))

def next (inbox : WSClientInbox Message Failure) (call : Nat) : Unlocked Message Failure :=
  match inbox.queue with
  | message :: rest => ({ inbox with queue := rest }, [(call, .returning message)])
  | [] =>
    match inbox.failure with
    | some failure => (inbox, [(call, .throwing failure)])
    | none => ({ inbox with waiters := inbox.waiters ++ [call] }, [])

end WSClientInbox

/-! ### Threads -/

/-- What has happened under the lock, in its order. -/
inductive InboxEvent (Message Failure : Type) where
  | delivered (message : Message)
  | decided (call : Nat) (resumption : Resumption Message Failure)

/-- The inbox, how often `next` was called, the continuations that a thread has taken and is
about to resume, those that were resumed, and the history. -/
structure InboxWorld (Message Failure : Type) where
  inbox : WSClientInbox Message Failure
  calls : Nat
  pending : List (Nat × Resumption Message Failure)
  resumed : List (Nat × Resumption Message Failure)
  history : List (InboxEvent Message Failure)

inductive InboxMove (Message Failure : Type) where
  | deliver (message : Message)
  | fail (error : Failure)
  | next
  | resume (index : Nat)

namespace InboxWorld

open WSClientInbox (Unlocked)

def fresh : InboxWorld Message Failure where
  inbox := .empty
  calls := 0
  pending := []
  resumed := []
  history := []

def decisions (resumptions : List (Nat × Resumption Message Failure)) :
    List (InboxEvent Message Failure) :=
  resumptions.map fun resumption => .decided resumption.1 resumption.2

def unlock (world : InboxWorld Message Failure) (seen : List (InboxEvent Message Failure))
    (unlocked : Unlocked Message Failure) : InboxWorld Message Failure :=
  { world with
    inbox := unlocked.1
    pending := world.pending ++ unlocked.2
    history := world.history ++ seen ++ decisions unlocked.2 }

def step (world : InboxWorld Message Failure) :
    InboxMove Message Failure → InboxWorld Message Failure
  | .deliver message => world.unlock [.delivered message] (world.inbox.deliver message)
  | .fail error => world.unlock [] (world.inbox.fail error)
  | .next =>
    { world.unlock [] (world.inbox.next world.calls) with calls := world.calls + 1 }
  | .resume index =>
    match world.pending[index]? with
    | none => world
    | some resumption =>
      { world with
        pending := world.pending.eraseIdx index
        resumed := world.resumed ++ [resumption] }

end InboxWorld

/-! ### What the inbox is for -/

/-- The messages delivered so far. -/
def deliveredIn (history : List (InboxEvent Message Failure)) : List Message :=
  history.filterMap fun
    | .delivered message => some message
    | .decided _ _ => none

/-- The calls that got a message, and which. -/
def takenIn (history : List (InboxEvent Message Failure)) : List (Nat × Message) :=
  history.filterMap fun
    | .decided call (.returning message) => some (call, message)
    | _ => none

/-- The calls that are not waiting, and how each one ends. -/
def decidedIn (history : List (InboxEvent Message Failure)) :
    List (Nat × Resumption Message Failure) :=
  history.filterMap fun
    | .delivered _ => none
    | .decided call resumption => some (call, resumption)

/-- A call throws only when every message that was delivered before has been taken. -/
def Drained (history : List (InboxEvent Message Failure)) : Prop :=
  ∀ before call failure after, history = before ++ .decided call (.throwing failure) :: after →
    (takenIn before).map Prod.snd = deliveredIn before

/-- An exact FIFO. -/
structure InboxWorld.Exact (world : InboxWorld Message Failure) : Prop where
  exclusive : world.inbox.queue = [] ∨ world.inbox.waiters = []
  /-- What was delivered is what calls took, in this order, and what is left in the queue. -/
  fifo : (takenIn world.history).map Prod.snd ++ world.inbox.queue = deliveredIn world.history
  /-- Calls take messages in the order in which they asked, and those that wait came later. -/
  ordered : ((takenIn world.history).map Prod.fst ++ world.inbox.waiters).Pairwise (· < ·)
  /-- A call waits, or is about to be resumed, or was resumed, and only one of these, once. -/
  once : ∀ call, world.inbox.waiters.count call + (world.pending.map Prod.fst).count call +
    (world.resumed.map Prod.fst).count call = if call < world.calls then 1 else 0
  /-- A continuation is resumed with what was decided under the lock. -/
  kept : (world.pending ++ world.resumed).Perm (decidedIn world.history)
  drained : Drained world.history
  awake : world.inbox.failure.isSome → world.inbox.waiters = []

/-! ### Histories -/

section Histories

open InboxWorld (decisions)

variable {history : List (InboxEvent Message Failure)}

theorem deliveredIn_append (earlier later : List (InboxEvent Message Failure)) :
    deliveredIn (earlier ++ later) = deliveredIn earlier ++ deliveredIn later :=
  List.filterMap_append

theorem takenIn_append (earlier later : List (InboxEvent Message Failure)) :
    takenIn (earlier ++ later) = takenIn earlier ++ takenIn later :=
  List.filterMap_append

theorem decidedIn_append (earlier later : List (InboxEvent Message Failure)) :
    decidedIn (earlier ++ later) = decidedIn earlier ++ decidedIn later :=
  List.filterMap_append

@[simp] theorem deliveredIn_decisions (resumptions : List (Nat × Resumption Message Failure)) :
    deliveredIn (decisions resumptions) = [] := by
  induction resumptions with
  | nil => rfl
  | cons resumption rest ih => exact ih

@[simp] theorem decidedIn_decisions (resumptions : List (Nat × Resumption Message Failure)) :
    decidedIn (decisions resumptions) = resumptions := by
  induction resumptions with
  | nil => rfl
  | cons resumption rest ih => exact congrArg (resumption :: ·) ih

@[simp] theorem takenIn_throwing (waiters : List Nat) (failure : Failure) :
    @takenIn Message Failure
      (decisions (waiters.map fun waiter => (waiter, .throwing failure))) = [] := by
  induction waiters with
  | nil => rfl
  | cons waiter rest ih => exact ih

theorem Drained.concat {event : InboxEvent Message Failure} (drained : Drained history)
    (now : ∀ call failure, event = .decided call (.throwing failure) →
      (takenIn history).map Prod.snd = deliveredIn history) : Drained (history ++ [event]) := by
  intro before call failure after same
  obtain rfl | ⟨front, last, rfl⟩ := List.eq_nil_or_concat after
  · obtain ⟨rfl, one⟩ := List.append_inj' same rfl
    exact now call failure (List.singleton_inj.mp one)
  · rw [List.concat_eq_append, ← List.cons_append, ← List.append_assoc] at same
    exact drained before call failure front (List.append_inj' same rfl).1

/-- Calls may throw, one after the other, when nothing is left to take. -/
theorem Drained.throws (waiters : List Nat) (failure : Failure) :
    ∀ {history : List (InboxEvent Message Failure)}, Drained history →
      (waiters ≠ [] → (takenIn history).map Prod.snd = deliveredIn history) →
      Drained (history ++ decisions (waiters.map fun waiter => (waiter, .throwing failure))) := by
  induction waiters with
  | nil =>
    intro history drained _
    rw [List.map_nil, decisions, List.map_nil, List.append_nil]
    exact drained
  | cons waiter rest ih =>
    intro history drained taken
    have all := taken (List.cons_ne_nil waiter rest)
    have here : Drained (history ++ [.decided waiter (.throwing failure)]) :=
      drained.concat fun _ _ _ => all
    have further := ih here fun _ => by
      rw [takenIn_append, deliveredIn_append, List.map_append, all]
      rfl
    rw [List.append_assoc] at further
    exact further

end Histories

/-! ### Every move keeps it -/

namespace InboxWorld

variable {world : InboxWorld Message Failure}

theorem fresh_exact : (fresh : InboxWorld Message Failure).Exact where
  exclusive := .inl rfl
  fifo := rfl
  ordered := .nil
  once := fun call => by simp [fresh, WSClientInbox.empty]
  kept := .nil
  drained := by
    intro before call failure after same
    simp [fresh] at same
  awake := fun _ => rfl

namespace Exact

theorem taken_lt (holds : world.Exact) {call : Nat}
    (took : call ∈ (takenIn world.history).map Prod.fst) : call < world.calls := by
  have decided : call ∈ (decidedIn world.history).map Prod.fst := by
    obtain ⟨⟨same, message⟩, taken, rfl⟩ := List.mem_map.mp took
    obtain ⟨event, seen, shape⟩ := List.mem_filterMap.mp taken
    apply List.mem_map_of_mem (a := (same, Resumption.returning message))
    refine List.mem_filterMap.mpr ⟨event, seen, ?_⟩
    split at shape
    · cases shape
      rfl
    · cases shape
  have counted := List.count_pos_iff.mpr (((holds.kept.map Prod.fst).mem_iff).mpr decided)
  rw [List.map_append, List.count_append] at counted
  have once := holds.once call
  by_contra late
  rw [if_neg late] at once
  omega

theorem waiter_lt (holds : world.Exact) {call : Nat} (waits : call ∈ world.inbox.waiters) :
    call < world.calls := by
  have once := holds.once call
  have waiting := List.count_pos_iff.mpr waits
  by_contra late
  rw [if_neg late] at once
  omega

theorem unlock_kept (holds : world.Exact) {seen : List (InboxEvent Message Failure)}
    (unlocked : WSClientInbox.Unlocked Message Failure) (undecided : decidedIn seen = []) :
    ((world.unlock seen unlocked).pending ++ world.resumed).Perm
      (decidedIn (world.unlock seen unlocked).history) := by
  simp only [unlock, decidedIn_append, undecided, decidedIn_decisions,
    List.append_assoc]
  have swapped : (world.pending ++ (unlocked.2 ++ world.resumed)).Perm
      (world.pending ++ world.resumed ++ unlocked.2) := by
    rw [List.append_assoc]
    exact List.perm_append_comm.append_left world.pending
  exact swapped.trans (holds.kept.append_right unlocked.2)

theorem deliver (holds : world.Exact) (message : Message) :
    (world.step (.deliver message)).Exact := by
  have kept := holds.unlock_kept (world.inbox.deliver message)
    (show decidedIn [.delivered message] = [] from rfl)
  have fifo := holds.fifo
  have ordered := holds.ordered
  have once := holds.once
  have seen : Drained (world.history ++ [.delivered message]) :=
    holds.drained.concat fun _ _ same => by cases same
  change (world.unlock [.delivered message] (world.inbox.deliver message)).Exact
  obtain ⟨⟨queue, waiters, failure⟩, calls, pending, resumed, history⟩ := world
  cases waiters with
  | nil =>
    -- no one waits: the message joins the queue
    refine ⟨.inr rfl, ?_, ?_, ?_, kept, ?_, fun _ => rfl⟩ <;>
      simp only [unlock, WSClientInbox.deliver, decisions, List.map_nil, List.append_nil]
    · rw [takenIn_append, deliveredIn_append, ← fifo, List.map_append, List.append_assoc,
        List.append_assoc]
      rfl
    · rw [takenIn_append, List.map_append]
      simpa [takenIn] using ordered
    · exact once
    · exact seen
  | cons waiter rest =>
    -- the oldest call that waits takes it
    have empty : queue = [] := holds.exclusive.resolve_right (List.cons_ne_nil waiter rest)
    subst empty
    refine ⟨.inl rfl, ?_, ?_, ?_, kept, ?_, ?_⟩ <;>
      simp only [unlock, WSClientInbox.deliver, decisions, List.map_cons, List.map_nil]
    · rw [takenIn_append, deliveredIn_append, takenIn_append, deliveredIn_append, ← fifo]
      simp [takenIn, deliveredIn]
    · simpa [takenIn] using ordered
    · intro call
      have counted := once call
      simp only [List.count_cons] at counted
      simp only [List.map_append, List.map_cons, List.map_nil, List.count_append,
        List.count_cons, List.count_nil]
      omega
    · exact seen.concat fun _ _ same => by cases same
    · intro failed
      exact absurd (holds.awake failed) (List.cons_ne_nil waiter rest)

theorem fail (holds : world.Exact) (error : Failure) : (world.step (.fail error)).Exact := by
  have kept := holds.unlock_kept (world.inbox.fail error) (show decidedIn [] = [] from rfl)
  change (world.unlock [] (world.inbox.fail error)).Exact
  refine ⟨.inr rfl, ?_, ?_, ?_, kept, ?_, fun _ => rfl⟩ <;>
    simp only [unlock, WSClientInbox.fail, List.append_nil]
  · rw [takenIn_append, deliveredIn_append, takenIn_throwing, deliveredIn_decisions,
      List.append_nil, List.append_nil]
    exact holds.fifo
  · rw [takenIn_append, takenIn_throwing, List.append_nil]
    exact (List.pairwise_append.mp holds.ordered).1
  · intro call
    have counted := holds.once call
    rw [List.map_append, List.map_map, List.count_append, List.count_nil]
    simp only [Function.comp_def, List.map_id']
    omega
  · apply holds.drained.throws
    intro waiting
    have fifo := holds.fifo
    rwa [holds.exclusive.resolve_right waiting, List.append_nil] at fifo

theorem next (holds : world.Exact) : (world.step .next).Exact := by
  have kept := holds.unlock_kept (world.inbox.next world.calls) (show decidedIn [] = [] from rfl)
  have fifo := holds.fifo
  have ordered := holds.ordered
  have once := holds.once
  have drained := holds.drained
  have taken := fun call => @taken_lt _ _ _ holds call
  have waits := fun call => @waiter_lt _ _ _ holds call
  change { world.unlock [] (world.inbox.next world.calls) with calls := world.calls + 1 }.Exact
  obtain ⟨⟨queue, waiters, failure⟩, calls, pending, resumed, history⟩ := world
  cases queue with
  | cons message rest =>
    -- the call takes the oldest message
    have empty : waiters = [] := holds.exclusive.resolve_left (List.cons_ne_nil message rest)
    subst empty
    refine ⟨.inr rfl, ?_, ?_, ?_, kept, ?_, fun _ => rfl⟩ <;>
      simp only [unlock, WSClientInbox.next, decisions, List.map_cons,
        List.map_nil, List.append_nil]
    · rw [takenIn_append, deliveredIn_append, ← fifo]
      simp [takenIn, deliveredIn]
    · rw [takenIn_append, List.map_append]
      rw [List.append_nil] at ordered
      refine List.pairwise_append.mpr ⟨ordered, List.pairwise_singleton _ _, ?_⟩
      intro call took last one
      rw [List.mem_singleton.mp one]
      exact taken call took
    · intro call
      have counted := once call
      simp only [List.map_append, List.map_cons, List.map_nil, List.count_append,
        List.count_singleton, beq_iff_eq]
      grind
    · exact drained.concat fun _ _ same => by cases same
  | nil =>
    rw [List.append_nil] at fifo
    cases failure with
    | some error =>
      -- nothing is left and nothing is waited for: the call throws
      refine ⟨.inl rfl, ?_, ?_, ?_, kept, ?_, holds.awake⟩ <;>
        simp only [unlock, WSClientInbox.next, decisions, List.map_cons,
          List.map_nil, List.append_nil]
      · rw [takenIn_append, deliveredIn_append, ← fifo]
        simp [takenIn, deliveredIn]
      · rw [takenIn_append]
        simpa [takenIn] using ordered
      · intro call
        have counted := once call
        simp only [List.map_append, List.map_cons, List.map_nil, List.count_append,
          List.count_singleton, beq_iff_eq]
        grind
      · exact drained.concat fun _ _ _ => fifo
    | none =>
      refine ⟨.inl rfl, ?_, ?_, ?_, kept, ?_,
        fun failed => absurd failed Bool.false_ne_true⟩ <;>
        simp only [unlock, WSClientInbox.next, decisions, List.map_nil,
          List.append_nil]
      · exact fifo
      · rw [← List.append_assoc]
        refine List.pairwise_append.mpr ⟨ordered, List.pairwise_singleton _ _, ?_⟩
        intro call before last one
        rw [List.mem_singleton.mp one]
        exact (List.mem_append.mp before).elim (taken call) (waits call)
      · intro call
        have counted := once call
        simp only [List.count_append, List.count_singleton, beq_iff_eq]
        grind
      · exact drained

theorem resume (holds : world.Exact) (index : Nat) : (world.step (.resume index)).Exact := by
  simp only [InboxWorld.step]
  split
  case h_1 => exact holds
  case h_2 resumption found =>
    obtain ⟨inside, rfl⟩ := List.getElem?_eq_some_iff.mp found
    have apart := List.getElem_cons_eraseIdx_perm inside
    refine { holds with once := ?_, kept := ?_ }
    · intro call
      have once := holds.once call
      have counted := (apart.map Prod.fst).count_eq call
      simp only [List.map_cons, List.count_cons] at counted
      simp only [List.map_append, List.map_cons, List.map_nil, List.count_append, List.count_cons,
        List.count_nil]
      omega
    · have moved : (world.pending.eraseIdx index ++ (world.resumed ++ [world.pending[index]])).Perm
          (world.pending ++ world.resumed) := by
        rw [← List.append_assoc]
        exact (List.perm_append_singleton _ _).trans (apart.append_right world.resumed)
      exact moved.trans holds.kept

theorem step (holds : world.Exact) (move : InboxMove Message Failure) :
    (world.step move).Exact := by
  cases move with
  | deliver message => exact holds.deliver message
  | fail error => exact holds.fail error
  | next => exact holds.next
  | resume index => exact holds.resume index

end Exact

end InboxWorld

end Fantastic.Swift

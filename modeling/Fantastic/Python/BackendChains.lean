import Fantastic.Foundation.Loopless
import Fantastic.Python.BackendSend

/-!
# Backends that send to one another

Any number of backends (`ai_core/core.py`). A run calls tools, and a tool call may be a
`send` to another backend, with the call stack of the run and its own id appended
(`_exec_one`); or it goes through an agent that sends a payload it has stored, such as the
scheduler's `tick_now`, with whatever stack is in that payload. The run waits for the
answer in both cases.
-/

namespace Fantastic.Python.Ai.Sending

open Relation

/-- A send of a backend, with the run it started. -/
structure Caller where
  backend : String
  number : Nat
  deriving DecidableEq

/-- What a send was called with, and the run whose tool call it is. -/
structure Call where
  stack : List String
  parent : Option Caller
  deriving DecidableEq

structure Network where
  backends : String → Backend
  calls : String → Nat → Call

namespace Network

def fresh : Network where
  backends := Backend.fresh
  calls := fun _ _ => { stack := [], parent := none }

/-- `ask` is a send from outside; `within` is a move of one backend that is no call. -/
inductive Move where
  | ask (target : String) (stack : List String)
  | tool (caller : Caller) (target : String)
  | relay (caller : Caller) (target : String) (stack : List String)
  | within (backend : String) (move : Backend.Move)
  deriving DecidableEq

/-- The recursion guard lets the call in. -/
def Admits (network : Network) (target : String) (stack : List String) : Prop :=
  ¬ ((network.backends target).id ∈ stack ∨ maxCallDepth ≤ stack.length)

instance (network : Network) (target : String) (stack : List String) :
    Decidable (network.Admits target stack) :=
  inferInstanceAs (Decidable (¬ _))

def Executing (network : Network) (caller : Caller) : Prop :=
  (network.backends caller.backend).Executing caller.number

instance (network : Network) (caller : Caller) : Decidable (network.Executing caller) :=
  inferInstanceAs (Decidable ((network.backends caller.backend).Executing caller.number))

/-- A `send` arrives at a backend. -/
def enter (network : Network) (target : String) (call : Call) : Network :=
  let backend := network.backends target
  if network.Admits target call.stack then
    { backends := Function.update network.backends target (backend.call call.stack)
      calls := Function.update network.calls target
        (Function.update (network.calls target) backend.begun call) }
  else network

/-- The stack a run sends along: `call_stack + [self_id]`. -/
def extended (network : Network) (caller : Caller) : List String :=
  (network.calls caller.backend caller.number).stack ++ [caller.backend]

def step (network : Network) : Move → Network
  | .ask target stack => network.enter target { stack := stack, parent := none }
  | .tool caller target =>
    if network.Executing caller then
      network.enter target { stack := network.extended caller, parent := some caller }
    else network
  | .relay caller target stack =>
    if network.Executing caller then
      network.enter target { stack := stack, parent := some caller }
    else network
  | .within _ (.call _) => network
  | .within backend move =>
    { network with
      backends := Function.update network.backends backend
        ((network.backends backend).step move) }

def run (network : Network) (moves : List Move) : Network :=
  moves.foldl step network

/-- A send in line waits for the holder of the lock; a run waits for the sends of its tool
calls. -/
inductive Waits (network : Network) : Caller → Caller → Prop where
  | lock {backend : String} {waiter holder : Nat}
      (waiting : ((network.backends backend).sends waiter).phase = .waiting)
      (held : (network.backends backend).holder = some holder) :
      Waits network ⟨backend, waiter⟩ ⟨backend, holder⟩
  | tool {caller send : Caller} (executing : network.Executing caller)
      (issued : (network.calls send.backend send.number).parent = some caller)
      (unfinished : ((network.backends send.backend).sends send.number).phase ≠ .left) :
      Waits network caller send

/-- A run of one backend has an unfinished tool call at another. -/
def InFlight (network : Network) (source target : String) : Prop :=
  ∃ number caller, ((network.backends target).sends number).phase ≠ .left ∧
    (network.calls target number).parent = some caller ∧ caller.backend = source

/-- A call that the guard lets in goes to a backend from which no chain of unfinished tool
calls leads back to the backend of the run. -/
def Careful (network : Network) : Move → Prop
  | .tool caller target => network.Executing caller →
      network.Admits target (network.extended caller) →
        ¬ ReflTransGen network.InFlight target caller.backend
  | .relay caller target stack => network.Executing caller → network.Admits target stack →
      ¬ ReflTransGen network.InFlight target caller.backend
  | _ => True

def CarefulRun : Network → List Move → Prop
  | _, [] => True
  | network, move :: moves => network.Careful move ∧ CarefulRun (network.step move) moves

variable {network : Network} {move : Move}

/-! ### Unfinished calls -/

/-- A call adds one edge at most: from the backend of its run to the one it goes to. -/
theorem inFlight_enter {target : String} {call : Call} {low high : String}
    (flight : (network.enter target call).InFlight low high) :
    network.InFlight low high ∨
      network.Admits target call.stack ∧ high = target ∧
        ∃ caller, call.parent = some caller ∧ caller.backend = low := by
  unfold enter at flight
  split at flight
  case isFalse => exact .inl flight
  case isTrue admitted =>
    obtain ⟨number, caller, unfinished, issued, source⟩ := flight
    by_cases here : high = target
    · subst here
      simp only [Function.update_self] at unfinished issued
      by_cases new : number = (network.backends high).begun
      · subst new
        rw [Function.update_self] at issued
        exact .inr ⟨admitted, rfl, caller, issued, source⟩
      · rw [Backend.call_sends_of_ne _ _ new] at unfinished
        rw [Function.update_of_ne new] at issued
        exact .inl ⟨number, caller, unfinished, issued, source⟩
    · simp only [Function.update_of_ne here] at unfinished issued
      exact .inl ⟨number, caller, unfinished, issued, source⟩

theorem inFlight_within (locks : ∀ id, (network.backends id).Locking) {backend : String}
    {inner : Backend.Move} (plain : ∀ stack, inner ≠ .call stack) {low high : String}
    (flight : { network with
      backends := Function.update network.backends backend
        ((network.backends backend).step inner) }.InFlight low high) :
    network.InFlight low high := by
  obtain ⟨number, caller, unfinished, issued, source⟩ := flight
  refine ⟨number, caller, ?_, issued, source⟩
  intro left
  by_cases here : high = backend
  · subst here
    simp only [Function.update_self] at unfinished
    exact unfinished ((locks high).left_stays plain left)
  · simp only [Function.update_of_ne here] at unfinished
    exact unfinished left

/-! ### The invariant -/

structure Sound (network : Network) : Prop where
  locks : ∀ id, (network.backends id).Locking
  flights : Loopless network.InFlight

theorem sound_fresh : fresh.Sound where
  locks := Backend.fresh_locking
  flights := by
    intro id cycle
    obtain ⟨_, flight, _⟩ := TransGen.head'_iff.mp cycle
    obtain ⟨number, caller, unfinished, _⟩ := flight
    exact unfinished rfl

theorem locks_update {target : String} {backend : Backend}
    (locks : ∀ id, (network.backends id).Locking) (next : backend.Locking) (id : String) :
    (Function.update network.backends target backend id).Locking := by
  rw [Function.update_apply]
  split
  · exact next
  · exact locks id

theorem Sound.enter (sound : network.Sound) {target : String} {call : Call}
    (apart : ∀ caller, call.parent = some caller → network.Admits target call.stack →
      ¬ ReflTransGen network.InFlight target caller.backend) :
    (network.enter target call).Sound := by
  constructor
  · intro id
    unfold Network.enter
    split
    · exact locks_update sound.locks ((sound.locks target).call call.stack) id
    · exact sound.locks id
  · by_cases path : ∃ caller, call.parent = some caller ∧ network.Admits target call.stack
    · obtain ⟨caller, issued, admitted⟩ := path
      apply sound.flights.add_edge (apart caller issued admitted)
      intro low high flight
      rcases inFlight_enter flight with old | ⟨_, target, other, same, source⟩
      · exact .inl old
      · rw [issued] at same
        rw [← Option.some.inj same] at source
        exact .inr ⟨source.symm, target⟩
    · apply sound.flights.mono
      intro low high flight
      rcases inFlight_enter flight with old | ⟨admitted, _, caller, issued, _⟩
      · exact old
      · exact absurd ⟨caller, issued, admitted⟩ path

theorem Sound.step (sound : network.Sound) (careful : network.Careful move) :
    (network.step move).Sound := by
  cases move with
  | ask target stack => exact sound.enter nofun
  | tool caller target =>
    simp only [Network.step]
    split
    case isTrue executing =>
      apply sound.enter
      intro other same admitted
      rw [← Option.some.inj same]
      exact careful executing admitted
    case isFalse => exact sound
  | relay caller target stack =>
    simp only [Network.step]
    split
    case isTrue executing =>
      apply sound.enter
      intro other same admitted
      rw [← Option.some.inj same]
      exact careful executing admitted
    case isFalse => exact sound
  | within backend inner =>
    by_cases plain : ∀ stack, inner ≠ .call stack
    · have stepped : network.step (.within backend inner) = { network with
          backends := Function.update network.backends backend
            ((network.backends backend).step inner) } := by
        cases inner with
        | call stack => exact absurd rfl (plain stack)
        | _ => rfl
      rw [stepped]
      constructor
      · exact locks_update sound.locks ((sound.locks backend).step inner)
      · exact sound.flights.mono fun low high => inFlight_within sound.locks plain
    · push Not at plain
      obtain ⟨stack, rfl⟩ := plain
      exact sound

/-- A wait goes along an unfinished call, or from the line of a lock to its holder. -/
theorem Sound.loopless (sound : network.Sound) : Loopless network.Waits := by
  apply sound.flights.of_places Caller.backend fun caller =>
    ((network.backends caller.backend).sends caller.number).phase.inside = true
  intro low high waits
  cases waits with
  | lock waiting held =>
    refine .inr ⟨rfl, ?_, ?_⟩
    · simp [waiting, SendPhase.inside]
    · exact ((sound.locks _).inside _).mpr held
  | tool executing issued unfinished => exact .inl ⟨_, low, unfinished, issued, rfl⟩

theorem Sound.run (moves : List Move) : ∀ {network : Network}, network.Sound →
    network.CarefulRun moves → (network.run moves).Sound := by
  induction moves with
  | nil =>
    intro network sound _
    exact sound
  | cons move moves hypothesis =>
    intro network sound careful
    obtain ⟨first, rest⟩ := careful
    exact hypothesis (sound.step first) rest

/-- Any number of backends and any order of moves: no send and no run waits for itself. -/
theorem careful_networks_do_not_deadlock (moves : List Move) (careful : fresh.CarefulRun moves) :
    Loopless (fresh.run moves).Waits :=
  (sound_fresh.run moves careful).loopless

/-- One backend asks another, which asks back and is refused. -/
theorem refused_cycle_does_not_deadlock :
    let moves := [.ask "planner" [], .within "planner" (.launch 0), .tool ⟨"planner", 0⟩ "coder",
      .within "coder" (.launch 0), .tool ⟨"coder", 0⟩ "planner"]
    fresh.CarefulRun moves ∧ Loopless (fresh.run moves).Waits := by
  intro moves
  have careful : fresh.CarefulRun moves := by
    refine ⟨trivial, trivial, ?_, trivial, ?_, trivial⟩
    · intro _ _ chain
      rcases chain.cases_head with same | ⟨next, ⟨number, caller, _, issued, _⟩, _⟩
      · exact absurd same (by decide)
      · have none : ((fresh.enter "planner" { stack := [], parent := none }).calls next
            number).parent = none := by
          unfold enter
          rw [if_pos (by decide)]
          simp only [Function.update_apply, fresh]
          split
          · rw [Function.update_apply]
            split
            · rfl
            · rfl
          · rfl
        exact absurd (issued.symm.trans none) nofun
    · intro _ admitted
      exact absurd admitted (by decide)
  exact ⟨careful, careful_networks_do_not_deadlock moves careful⟩

/-- Two chains enter two backends in opposite order: each stack names one backend only, and
each run waits in line behind the other. -/
theorem opposite_chains_deadlock : ¬ ∀ moves, Loopless (fresh.run moves).Waits := by
  intro loopless
  let network := fresh.run [.ask "planner" [], .within "planner" (.launch 0), .ask "coder" [],
    .within "coder" (.launch 0), .tool ⟨"planner", 0⟩ "coder", .within "coder" (.announced 1),
    .tool ⟨"coder", 0⟩ "planner", .within "planner" (.announced 1)]
  have first : network.Waits ⟨"planner", 0⟩ ⟨"coder", 1⟩ :=
    .tool (by rfl) (by rfl) (by decide)
  have second : network.Waits ⟨"coder", 1⟩ ⟨"coder", 0⟩ :=
    .lock (by rfl) (by rfl)
  have third : network.Waits ⟨"coder", 0⟩ ⟨"planner", 1⟩ :=
    .tool (by rfl) (by rfl) (by decide)
  have fourth : network.Waits ⟨"planner", 1⟩ ⟨"planner", 0⟩ :=
    .lock (by rfl) (by rfl)
  exact loopless _ _ ((((TransGen.single first).tail second).tail third).tail fourth)

end Network

end Fantastic.Python.Ai.Sending

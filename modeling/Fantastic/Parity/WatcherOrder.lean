import Fantastic.Foundation.Value
import Mathlib.Data.List.Basic
import Mathlib.Data.List.Count
import Mathlib.Logic.Function.Basic

/-!
# What watchers hear, and in which order

`Agent._dispatch` of the Python kernel mirrors a request to the target's own inbox and to its
watchers and then runs the handler; `Kernel::send` of the Rust kernel runs the handler first
and never fills the target's own inbox. An emit reaches the target's inbox and its watchers in
both, but Python drops one to an unknown id where Rust delivers it.

What a handler does is a finite tree of sends and emits; a system verb is one too, with the
agents it registers and removes among its actions. Actions are numbered as they begin, and the
payload of an action is a function of its number, so a program is a tree together with such a
function. Targets are literal ids.
-/

namespace Fantastic.Parity.Watching

/-- `program` is what the dispatch to the target does, if there is such an agent. -/
inductive Action where
  | send (target : String) (program : List Action)
  | emit (target : String)
  | enroll (id : String)
  | retire (id : String)

/-- The registry with the watchers of each agent, and the number of the next action. -/
structure State where
  agents : List String
  watcherIds : String → List String
  next : Nat

/-- A payload on its way into an inbox, by the number of its action. -/
structure Delivery where
  inbox : String
  action : Nat
  deriving DecidableEq

namespace State

variable (state : State)

def begun : State :=
  { state with next := state.next + 1 }

mutual

/-- The registry after an action, the same in both kernels. A new agent has no watchers. -/
def after : State → Action → State
  | state, .send target program =>
    if target ∈ state.agents then state.begun.afterAll program else state.begun
  | state, .emit _ => state.begun
  | state, .enroll id =>
    { state with
      agents := id :: state.agents
      watcherIds := Function.update state.watcherIds id [] }
  | state, .retire id => { state with agents := state.agents.filter (· ≠ id) }

def afterAll : State → List Action → State
  | state, [] => state
  | state, action :: rest => (state.after action).afterAll rest

end

/-- The payload of the action that begins, into each of the inboxes. -/
def fan (inboxes : List String) : List Delivery :=
  inboxes.map fun inbox => { inbox := inbox, action := state.next }

end State

open State

/-! ### Python -/

mutual

/-- The deliveries of an action: `_fanout` puts the payload into the target's own inbox, then
into those of its watchers, and `_dispatch` calls it before the handler. -/
def python : State → Action → List Delivery
  | state, .send target program =>
    if target ∈ state.agents then
      state.fan (target :: state.watcherIds target) ++ pythonAll state.begun program
    else []
  | state, .emit target =>
    if target ∈ state.agents then state.fan (target :: state.watcherIds target) else []
  | _, .enroll _ => []
  | _, .retire _ => []

def pythonAll : State → List Action → List Delivery
  | _, [] => []
  | state, action :: rest => python state action ++ pythonAll (state.after action) rest

end

/-! ### Rust -/

section Rust

-- Whether the receiver of an id's channel is there to take what is sent.
variable (listening : String → Bool)

/-- `fanout_to_watchers` reads the watchers of the target it holds on to. -/
def fanoutToWatchers (state : State) (watchers : List String) : List Delivery :=
  state.fan (watchers.filter listening)

mutual

/-- `Kernel::send` and `Kernel::emit`. -/
def rust : State → Action → List Delivery
  | state, .send target program =>
    if target ∈ state.agents then
      rustAll state.begun program ++
        fanoutToWatchers listening state (state.watcherIds target)
    else []
  | state, .emit target =>
    state.fan ([target].filter listening) ++
      if target ∈ state.agents then
        fanoutToWatchers listening state (state.watcherIds target)
      else []
  | _, .enroll _ => []
  | _, .retire _ => []

def rustAll : State → List Action → List Delivery
  | _, [] => []
  | state, action :: rest => rust state action ++ rustAll (state.after action) rest

end

end Rust

/-! ### One watcher -/

/-- The numbers of the payloads in one inbox, in order. -/
def heard (watcher : String) (deliveries : List Delivery) : List Nat :=
  (deliveries.filter fun delivery => delivery.inbox = watcher).map Delivery.action

section Conditions

variable (listening : String → Bool) (watcher : String)

mutual

/-- Something of the action is for the watcher's inbox, in one of the kernels. -/
def Reaches : State → Action → Prop
  | state, .send target program =>
    target ∈ state.agents ∧ (target = watcher ∨ watcher ∈ state.watcherIds target ∨
      ReachesAny state.begun program)
  | state, .emit target =>
    target = watcher ∧ (target ∈ state.agents ∨ listening watcher = true) ∨
      target ∈ state.agents ∧ watcher ∈ state.watcherIds target
  | _, .enroll _ => False
  | _, .retire _ => False

def ReachesAny : State → List Action → Prop
  | _, [] => False
  | state, action :: rest => Reaches state action ∨ ReachesAny (state.after action) rest

end

mutual

/-- The watcher is never sent to, what is emitted to it finds both an agent and a receiver or
neither, its receiver is there for what it watches, and the handler of an agent it watches does
nothing that reaches it. -/
def Agreeing : State → Action → Prop
  | state, .send target program =>
    target ∈ state.agents → target ≠ watcher ∧
      (watcher ∈ state.watcherIds target →
        listening watcher = true ∧ ¬ ReachesAny listening watcher state.begun program) ∧
      AgreeingAll state.begun program
  | state, .emit target =>
    (target = watcher → (target ∈ state.agents ↔ listening watcher = true)) ∧
      (target ∈ state.agents → watcher ∈ state.watcherIds target → listening watcher = true)
  | _, .enroll _ => True
  | _, .retire _ => True

def AgreeingAll : State → List Action → Prop
  | _, [] => True
  | state, action :: rest => Agreeing state action ∧ AgreeingAll (state.after action) rest

end

end Conditions

/-! ### Numbers -/

theorem heard_append (watcher : String) (first rest : List Delivery) :
    heard watcher (first ++ rest) = heard watcher first ++ heard watcher rest := by
  rw [heard, List.filter_append, List.map_append]
  rfl

theorem heard_fan (watcher : String) (state : State) (inboxes : List String) :
    heard watcher (state.fan inboxes) = List.replicate (inboxes.count watcher) state.next := by
  induction inboxes with
  | nil => rfl
  | cons inbox inboxes ih =>
    rw [heard, fan] at ih ⊢
    rw [List.map_cons, List.filter_cons, List.count_cons]
    by_cases same : inbox = watcher
    · simp [same, ih, List.replicate_succ]
    · simp [same, ih]

theorem mem_heard {watcher : String} {deliveries : List Delivery} {number : Nat}
    (inside : number ∈ heard watcher deliveries) :
    ∃ delivery ∈ deliveries, delivery.action = number := by
  obtain ⟨delivery, there, same⟩ := List.mem_map.mp inside
  exact ⟨delivery, (List.mem_filter.mp there).1, same⟩

mutual

theorem after_next (state : State) : ∀ action : Action, state.next ≤ (state.after action).next
  | .send target program => by
      rw [after]
      split
      · exact Nat.le_trans (Nat.le_succ _) (afterAll_next state.begun program)
      · exact Nat.le_succ _
  | .emit _ => Nat.le_succ _
  | .enroll _ => Nat.le_refl _
  | .retire _ => Nat.le_refl _

theorem afterAll_next (state : State) : ∀ actions : List Action,
    state.next ≤ (state.afterAll actions).next
  | [] => Nat.le_refl _
  | action :: rest =>
    Nat.le_trans (after_next state action) (afterAll_next (state.after action) rest)

end

/-- The numbers of the actions from one state to a later one. -/
def Between (state later : State) (deliveries : List Delivery) : Prop :=
  ∀ delivery ∈ deliveries, state.next ≤ delivery.action ∧ delivery.action < later.next

theorem Between.append {state later : State} {first rest : List Delivery}
    (left : Between state later first) (right : Between state later rest) :
    Between state later (first ++ rest) := by
  intro delivery inside
  cases List.mem_append.mp inside with
  | inl there => exact left delivery there
  | inr there => exact right delivery there

theorem Between.widen {state later wider wideLater : State} {deliveries : List Delivery}
    (between : Between state later deliveries) (below : wider.next ≤ state.next)
    (above : later.next ≤ wideLater.next) : Between wider wideLater deliveries := by
  intro delivery inside
  have bounds := between delivery inside
  omega

theorem between_nil (state later : State) : Between state later [] := by
  intro delivery inside
  cases inside

theorem between_fan {state later : State} (below : state.next < later.next)
    (inboxes : List String) : Between state later (state.fan inboxes) := by
  intro delivery inside
  obtain ⟨inbox, _, same⟩ := List.mem_map.mp inside
  rw [← same]
  exact ⟨Nat.le_refl _, below⟩

theorem begun_next_le (state : State) (actions : List Action) :
    state.next < (state.begun.afterAll actions).next :=
  afterAll_next state.begun actions

mutual

theorem python_between (state : State) : ∀ action : Action,
    Between state (state.after action) (python state action)
  | .send target program => by
      rw [python, after]
      split
      · apply Between.append
        · exact between_fan (begun_next_le state program) _
        · exact (pythonAll_between state.begun program).widen (Nat.le_succ _) (Nat.le_refl _)
      · exact between_nil _ _
  | .emit target => by
      rw [python]
      split
      · exact between_fan (Nat.lt_succ_self _) _
      · exact between_nil _ _
  | .enroll _ => between_nil _ _
  | .retire _ => between_nil _ _

theorem pythonAll_between (state : State) : ∀ actions : List Action,
    Between state (state.afterAll actions) (pythonAll state actions)
  | [] => between_nil _ _
  | action :: rest => by
      rw [pythonAll, afterAll]
      apply Between.append
      · exact (python_between state action).widen (Nat.le_refl _) (afterAll_next _ rest)
      · exact (pythonAll_between (state.after action) rest).widen (after_next state action)
          (Nat.le_refl _)

end

variable {listening : String → Bool}

mutual

theorem rust_between (state : State) : ∀ action : Action,
    Between state (state.after action) (rust listening state action)
  | .send target program => by
      rw [rust, after]
      split
      · apply Between.append
        · exact (rustAll_between state.begun program).widen (Nat.le_succ _) (Nat.le_refl _)
        · exact between_fan (begun_next_le state program) _
      · exact between_nil _ _
  | .emit target => by
      rw [rust]
      apply Between.append
      · exact between_fan (Nat.lt_succ_self _) _
      · split
        · exact between_fan (Nat.lt_succ_self _) _
        · exact between_nil _ _
  | .enroll _ => between_nil _ _
  | .retire _ => between_nil _ _

theorem rustAll_between (state : State) : ∀ actions : List Action,
    Between state (state.afterAll actions) (rustAll listening state actions)
  | [] => between_nil _ _
  | action :: rest => by
      rw [rustAll, afterAll]
      apply Between.append
      · exact (rust_between state action).widen (Nat.le_refl _) (afterAll_next _ rest)
      · exact (rustAll_between (state.after action) rest).widen (after_next state action)
          (Nat.le_refl _)

end

theorem Between.heard {state later : State} {deliveries : List Delivery}
    (between : Between state later deliveries) (watcher : String) :
    ∀ number ∈ heard watcher deliveries, state.next ≤ number ∧ number < later.next := by
  intro number inside
  obtain ⟨delivery, there, same⟩ := mem_heard inside
  rw [← same]
  exact between delivery there

/-- Numbers below a bound and numbers from the bound on come apart. -/
theorem append_split {bound : Nat} {first first' rest rest' : List Nat}
    (same : first ++ rest = first' ++ rest') (low : ∀ number ∈ first, number < bound)
    (low' : ∀ number ∈ first', number < bound) (high : ∀ number ∈ rest, bound ≤ number)
    (high' : ∀ number ∈ rest', bound ≤ number) : first = first' ∧ rest = rest' := by
  have keep : ∀ {front back : List Nat}, (∀ number ∈ front, number < bound) →
      (∀ number ∈ back, bound ≤ number) →
      (front ++ back).filter (fun number => decide (number < bound)) = front := by
    intro front back small large
    rw [List.filter_append, List.filter_eq_self.mpr (by simpa using small),
      List.filter_eq_nil_iff.mpr (by simpa using large), List.append_nil]
  have fronts : first = first' := by
    rw [← keep low high, same, keep low' high']
  rw [fronts] at same
  exact ⟨fronts, List.append_cancel_left same⟩

/-! ### When the two orders are one -/

variable {watcher : String}

theorem count_listening (watchers : List String) :
    (watchers.filter listening).count watcher =
      if listening watcher = true then watchers.count watcher else 0 := by
  split
  case isTrue open' => exact List.count_filter open'
  case isFalse closed =>
    apply List.count_eq_zero_of_not_mem
    intro inside
    exact closed (List.mem_filter.mp inside).2

theorem heard_python_send {state : State} {target : String} (known : target ∈ state.agents)
    (program : List Action) :
    heard watcher (python state (.send target program)) =
      List.replicate ((target :: state.watcherIds target).count watcher) state.next ++
        heard watcher (pythonAll state.begun program) := by
  rw [python, if_pos known, heard_append, heard_fan]

theorem heard_rust_send {state : State} {target : String} (known : target ∈ state.agents)
    (program : List Action) :
    heard watcher (rust listening state (.send target program)) =
      heard watcher (rustAll listening state.begun program) ++
        List.replicate (if listening watcher = true then
          (state.watcherIds target).count watcher else 0) state.next := by
  rw [rust, if_pos known, heard_append, fanoutToWatchers, heard_fan, count_listening]

theorem heard_python_emit (state : State) (target : String) :
    heard watcher (python state (.emit target)) =
      List.replicate (if target ∈ state.agents then
        (target :: state.watcherIds target).count watcher else 0) state.next := by
  rw [python]
  split
  · exact heard_fan watcher state _
  · rfl

theorem heard_rust_emit (state : State) (target : String) :
    heard watcher (rust listening state (.emit target)) =
      List.replicate (if listening watcher = true then [target].count watcher +
        (if target ∈ state.agents then (state.watcherIds target).count watcher else 0)
        else 0) state.next := by
  rw [rust, heard_append, heard_fan, count_listening]
  by_cases known : target ∈ state.agents
  · rw [if_pos known, if_pos known, fanoutToWatchers, heard_fan, count_listening,
      List.replicate_append_replicate]
    split <;> rfl
  · rw [if_neg known, if_neg known, heard, List.filter_nil, List.map_nil, List.append_nil,
      Nat.add_zero]

theorem count_cons_self_or (target : String) (watchers : List String) :
    (target :: watchers).count watcher =
      watchers.count watcher + if target = watcher then 1 else 0 := by
  rw [List.count_cons]
  by_cases same : target = watcher
  · simp [same]
  · simp [same]

mutual

theorem silent (state : State) : ∀ action : Action, ¬ Reaches listening watcher state action →
    heard watcher (python state action) = [] ∧
      heard watcher (rust listening state action) = []
  | .send target program => by
      intro quiet
      by_cases known : target ∈ state.agents
      · rw [Reaches] at quiet
        have apart : target ≠ watcher := fun same => quiet ⟨known, .inl same⟩
        have unwatched : watcher ∉ state.watcherIds target := fun watches =>
          quiet ⟨known, .inr (.inl watches)⟩
        have inner := silentAll state.begun program fun reaches =>
          quiet ⟨known, .inr (.inr reaches)⟩
        rw [heard_python_send known, heard_rust_send known, inner.1, inner.2,
          count_cons_self_or, if_neg apart, List.count_eq_zero_of_not_mem unwatched]
        simp
      · simp [python, rust, known, heard]
  | .emit target => by
      intro quiet
      rw [Reaches, not_or] at quiet
      rw [heard_python_emit, heard_rust_emit, count_cons_self_or]
      by_cases known : target ∈ state.agents
      · have apart : target ≠ watcher := fun same => quiet.1 ⟨same, .inl known⟩
        have unwatched : watcher ∉ state.watcherIds target := fun watches =>
          quiet.2 ⟨known, watches⟩
        simp [known, List.count_eq_zero_of_not_mem unwatched, apart]
      · by_cases same : target = watcher
        · have closed : ¬ listening watcher = true := fun open' => quiet.1 ⟨same, .inr open'⟩
          simp [known, closed]
        · simp [known, same]
  | .enroll _ => fun _ => ⟨rfl, rfl⟩
  | .retire _ => fun _ => ⟨rfl, rfl⟩

theorem silentAll (state : State) : ∀ actions : List Action,
    ¬ ReachesAny listening watcher state actions →
      heard watcher (pythonAll state actions) = [] ∧
        heard watcher (rustAll listening state actions) = []
  | [] => fun _ => ⟨rfl, rfl⟩
  | action :: rest => by
      intro quiet
      rw [ReachesAny, not_or] at quiet
      have here := silent state action quiet.1
      have later := silentAll (state.after action) rest quiet.2
      rw [pythonAll, rustAll, heard_append, heard_append, here.1, here.2, later.1, later.2]
      exact ⟨rfl, rfl⟩

end

mutual

/-- Where the kernels agree, Python delivers all that is meant for the watcher. -/
theorem Agreeing.not_reaches (state : State) : ∀ action : Action,
    Agreeing listening watcher state action → heard watcher (python state action) = [] →
      ¬ Reaches listening watcher state action
  | .send target program => by
      intro agreeing nothing reaches
      rw [Reaches] at reaches
      obtain ⟨known, reaches⟩ := reaches
      have fine := agreeing known
      rw [heard_python_send known, List.append_eq_nil_iff, List.replicate_eq_nil_iff,
        count_cons_self_or] at nothing
      obtain same | watches | inner := reaches
      · exact fine.1 same
      · have counted := List.count_pos_iff.mpr watches
        omega
      · exact AgreeingAll.not_reaches state.begun program fine.2.2 nothing.2 inner
  | .emit target => by
      intro agreeing nothing reaches
      rw [Agreeing] at agreeing
      rw [heard_python_emit, List.replicate_eq_nil_iff, count_cons_self_or] at nothing
      obtain ⟨same, found⟩ | ⟨known, watches⟩ := reaches
      · have known : target ∈ state.agents := by
          cases found with
          | inl known => exact known
          | inr open' => exact (agreeing.1 same).mpr open'
        rw [if_pos known, if_pos same] at nothing
        omega
      · have counted := List.count_pos_iff.mpr watches
        rw [if_pos known] at nothing
        omega
  | .enroll _ => fun _ _ reaches => reaches
  | .retire _ => fun _ _ reaches => reaches

theorem AgreeingAll.not_reaches (state : State) : ∀ actions : List Action,
    AgreeingAll listening watcher state actions →
      heard watcher (pythonAll state actions) = [] → ¬ ReachesAny listening watcher state actions
  | [] => fun _ _ reaches => reaches
  | action :: rest => by
      intro agreeing nothing reaches
      rw [pythonAll, heard_append, List.append_eq_nil_iff] at nothing
      cases reaches with
      | inl here => exact Agreeing.not_reaches state action agreeing.1 nothing.1 here
      | inr later =>
        exact AgreeingAll.not_reaches (state.after action) rest agreeing.2 nothing.2 later

end

mutual

theorem Agreeing.same (state : State) : ∀ action : Action,
    Agreeing listening watcher state action →
      heard watcher (python state action) = heard watcher (rust listening state action)
  | .send target program => by
      intro agreeing
      by_cases known : target ∈ state.agents
      · obtain ⟨apart, watching, inner⟩ := agreeing known
        rw [heard_python_send known, heard_rust_send known, count_cons_self_or, if_neg apart,
          Nat.add_zero]
        by_cases watches : watcher ∈ state.watcherIds target
        · obtain ⟨open', quiet⟩ := watching watches
          have nothing := @silentAll listening watcher state.begun program quiet
          rw [nothing.1, nothing.2, if_pos open', List.append_nil, List.nil_append]
        · have same := AgreeingAll.same state.begun program inner
          rw [List.count_eq_zero_of_not_mem watches, same]
          simp
      · simp [python, rust, known]
  | .emit target => by
      intro agreeing
      rw [Agreeing] at agreeing
      rw [heard_python_emit, heard_rust_emit, count_cons_self_or]
      by_cases known : target ∈ state.agents
      · rw [if_pos known, if_pos known]
        by_cases open' : listening watcher = true
        · rw [if_pos open', List.count_singleton, Nat.add_comm]
          simp
        · have apart : target ≠ watcher := fun same => open' ((agreeing.1 same).mp known)
          have unwatched : watcher ∉ state.watcherIds target := fun watches =>
            open' (agreeing.2 known watches)
          rw [if_neg open', if_neg apart, List.count_eq_zero_of_not_mem unwatched]
      · by_cases same : target = watcher
        · have closed : ¬ listening watcher = true := fun open' =>
            known ((agreeing.1 same).mpr open')
          simp [known, closed]
        · simp [known, same]
  | .enroll _ => fun _ => rfl
  | .retire _ => fun _ => rfl

theorem AgreeingAll.same (state : State) : ∀ actions : List Action,
    AgreeingAll listening watcher state actions →
      heard watcher (pythonAll state actions) = heard watcher (rustAll listening state actions)
  | [] => fun _ => rfl
  | action :: rest => by
      intro agreeing
      rw [pythonAll, rustAll, heard_append, heard_append, Agreeing.same state action agreeing.1,
        AgreeingAll.same (state.after action) rest agreeing.2]

end

/-- A number in front of larger ones, or behind them. -/
theorem replicate_around {front back : Nat} {bound : Nat} {inner inner' : List Nat}
    (same : List.replicate front bound ++ inner = inner' ++ List.replicate back bound)
    (larger : ∀ number ∈ inner, bound < number) (larger' : ∀ number ∈ inner', bound < number) :
    front = back ∧ inner = inner' ∧ (0 < front → inner = []) := by
  have count : ∀ {numbers : List Nat}, (∀ number ∈ numbers, bound < number) →
      numbers.count bound = 0 := by
    intro numbers above
    apply List.count_eq_zero_of_not_mem
    intro inside
    exact Nat.lt_irrefl bound (above bound inside)
  have fronts : front = back := by
    have counts := congrArg (List.count bound) same
    rw [List.count_append, List.count_append, count larger, count larger',
      List.count_replicate_self, List.count_replicate_self] at counts
    omega
  cases front with
  | zero =>
    rw [← fronts, List.replicate_zero, List.nil_append, List.append_nil] at same
    exact ⟨fronts, same, fun positive => absurd positive (Nat.lt_irrefl 0)⟩
  | succ front =>
    rw [List.replicate_succ, List.cons_append] at same
    cases inner' with
    | cons number rest =>
      injection same with head _
      exact absurd (larger' number List.mem_cons_self) (by rw [head]; exact Nat.lt_irrefl _)
    | nil =>
      have lengths := congrArg List.length same
      simp only [List.length_cons, List.length_append, List.length_replicate,
        List.nil_append] at lengths
      have empty : inner = [] := List.length_eq_zero_iff.mp (by omega)
      exact ⟨fronts, empty, fun _ => empty⟩

mutual

theorem agreeing_of_same (state : State) : ∀ action : Action,
    heard watcher (python state action) = heard watcher (rust listening state action) →
      Agreeing listening watcher state action
  | .send target program => by
      intro same
      rw [Agreeing]
      intro known
      rw [heard_python_send known, heard_rust_send known] at same
      have later : ∀ number ∈ heard watcher (pythonAll state.begun program),
          state.next < number := fun number inside =>
        ((pythonAll_between state.begun program).heard watcher number inside).1
      have later' : ∀ number ∈ heard watcher (rustAll listening state.begun program),
          state.next < number := fun number inside =>
        ((rustAll_between state.begun program).heard watcher number inside).1
      obtain ⟨counts, inner, alone⟩ := replicate_around same later later'
      have agreeing := agreeingAll_of_same state.begun program inner
      rw [count_cons_self_or] at counts alone
      have apart : target ≠ watcher := by
        intro own
        rw [if_pos own] at counts
        split at counts <;> omega
      constructor
      · exact apart
      constructor
      · intro watches
        have counted := List.count_pos_iff.mpr watches
        constructor
        · by_contra closed
          rw [if_neg closed] at counts
          omega
        · exact agreeing.not_reaches state.begun program (alone (by omega))
      · exact agreeing
  | .emit target => by
      intro same
      rw [heard_python_emit, heard_rust_emit, count_cons_self_or] at same
      have counts := congrArg List.length same
      rw [List.length_replicate, List.length_replicate, List.count_singleton] at counts
      constructor
      · intro own
        subst own
        constructor
        · intro known
          by_contra closed
          simp [known, closed] at counts
        · intro open'
          by_contra unknown
          simp [unknown, open'] at counts
      · intro known watches
        have counted := List.count_pos_iff.mpr watches
        by_contra closed
        rw [if_neg closed, if_pos known] at counts
        omega
  | .enroll _ => fun _ => trivial
  | .retire _ => fun _ => trivial

theorem agreeingAll_of_same (state : State) : ∀ actions : List Action,
    heard watcher (pythonAll state actions) = heard watcher (rustAll listening state actions) →
      AgreeingAll listening watcher state actions
  | [] => fun _ => trivial
  | action :: rest => by
      intro same
      rw [pythonAll, rustAll, heard_append, heard_append] at same
      have here := fun number inside =>
        ((python_between state action).heard watcher number inside).2
      have here' := fun number inside =>
        ((@rust_between listening state action).heard watcher number inside).2
      have later := fun number inside =>
        ((pythonAll_between (state.after action) rest).heard watcher number inside).1
      have later' := fun number inside =>
        ((@rustAll_between listening (state.after action) rest).heard watcher number inside).1
      obtain ⟨first, others⟩ := append_split same here here' later later'
      exact ⟨agreeing_of_same state action first,
        agreeingAll_of_same (state.after action) rest others⟩

end

/-! ### All watchers -/

mutual

/-- The ids of the agents that an action registers or removes. -/
def Action.touched : Action → List String
  | .send _ program => touchedBy program
  | .emit _ => []
  | .enroll id => [id]
  | .retire id => [id]

def touchedBy : List Action → List String
  | [] => []
  | action :: rest => action.touched ++ touchedBy rest

end

/-- An id that watches an agent, and whose inbox is there from the first action to the last. -/
def Watcher (state : State) (action : Action) (watcher : String) : Prop :=
  (∃ target ∈ state.agents, watcher ∈ state.watcherIds target) ∧ watcher ∉ action.touched

/-- Every watcher hears the same payloads in the same order under both kernels, whatever the
payloads of the program are. -/
def SameOrder (listening : String → Bool) (state : State) (action : Action) : Prop :=
  ∀ watcher, Watcher state action watcher → ∀ payloads : Nat → Value,
    (heard watcher (python state action)).map payloads =
      (heard watcher (rust listening state action)).map payloads

/-- A client that watches the root. -/
def watchedRoot : State where
  agents := ["core"]
  watcherIds := fun id => if id = "core" then ["client"] else []
  next := 0

end Fantastic.Parity.Watching

import Fantastic.Python.BridgeReentry

/-!
# When forwards over a bridge complete

A loop that serves a handler reads nothing until the handler returns, so the reply a served
handler awaits is never read. If no handler that serves a call forwards over the bridge, every
call in flight is in an inbox or in a loop that can answer it, and everything completes; if
one does, the two kernels can be driven into a state that only a timeout leaves.
-/

namespace Fantastic.Python.Reentry

variable {Reply : Type}

/-! ### Steps, inverted -/

theorem taskStep_some {self peer : Side Reply} {index : Nat} {sides : Side Reply × Side Reply}
    (moved : taskStep self peer index = some sides) :
    ∃ task call more, self.tasks[index]? = some task ∧ task.waiting = none ∧
      task.rest = call :: more ∧ sides =
        ({ self with
            issued := self.issued ++ [call]
            tasks := self.tasks.set index
              { task with rest := more, waiting := some self.issued.length } },
          { peer with inbox := peer.inbox ++ [.call self.issued.length call] }) := by
  unfold taskStep at moved
  cases found : self.tasks[index]? with
  | none => simp [found] at moved
  | some task =>
    rw [found] at moved
    cases waiting : task.waiting with
    | some id => simp [waiting] at moved
    | none =>
      cases rest : task.rest with
      | nil => simp [waiting, rest] at moved
      | cons call more =>
        simp only [waiting, rest, Side.forward, Option.some.injEq] at moved
        exact ⟨task, call, more, rfl, waiting, rest, moved.symm⟩

/-- A loop takes a call, gives a reply to its future, forwards for the handler it serves, or
answers for it. -/
inductive LoopStep (self peer : Side Reply) : Side Reply × Side Reply → Prop where
  | take (id : Nat) (call : Call Reply) (more : List (Frame Reply))
      (idle : self.loop = none) (first : self.inbox = .call id call :: more) :
      LoopStep self peer ({ self with loop := some (id, call.task), inbox := more }, peer)
  | settle (id : Nat) (data : Reply) (more : List (Frame Reply))
      (idle : self.loop = none) (first : self.inbox = .reply id data :: more) :
      LoopStep self peer ({ self with
        tasks := self.tasks.map (Task.resume id data)
        settled := self.settled ++ [(id, data)]
        inbox := more }, peer)
  | forward (id : Nat) (task : Task Reply) (call : Call Reply) (more : List (Call Reply))
      (serves : self.loop = some (id, task)) (free : task.waiting = none)
      (next : task.rest = call :: more) :
      LoopStep self peer ({ self with
          issued := self.issued ++ [call]
          loop := some (id, { task with rest := more, waiting := some self.issued.length }) },
        { peer with inbox := peer.inbox ++ [.call self.issued.length call] })
  | answer (id : Nat) (task : Task Reply)
      (serves : self.loop = some (id, task)) (free : task.waiting = none) (last : task.rest = []) :
      LoopStep self peer ({ self with loop := none },
        { peer with inbox := peer.inbox ++ [.reply id (task.answer task.got)] })

theorem loopStep_some {self peer : Side Reply} {sides : Side Reply × Side Reply}
    (moved : loopStep self peer = some sides) : LoopStep self peer sides := by
  unfold loopStep at moved
  split at moved
  case h_1 idle =>
    split at moved
    · cases moved
    case h_2 id call more first =>
      cases moved
      exact .take id call more idle first
    case h_3 id data more first =>
      cases moved
      exact .settle id data more idle first
  case h_2 id task serves =>
    split at moved
    · cases moved
    case h_2 call more free next =>
      cases moved
      exact .forward id task call more serves free next
    case h_3 free last =>
      cases moved
      exact .answer id task serves free last

theorem LoopStep.moves {self peer : Side Reply} {sides : Side Reply × Side Reply}
    (move : LoopStep self peer sides) : loopStep self peer = some sides := by
  unfold loopStep
  cases move with
  | take id call more idle first => simp only [idle, first]
  | settle id data more idle first => simp only [idle, first]
  | forward id task call more serves free next => simp only [serves, free, next, Side.forward]
  | answer id task serves free last => simp only [serves, free, last]

/-! ### Every step uses up one of the four each forward takes -/

def Task.weight (task : Task Reply) : Nat :=
  4 * forwardsOf task.rest

def Frame.weight : Frame Reply → Nat
  | .call _ callee => 3 + 4 * callee.forwards
  | .reply _ _ => 1

def loopWeight : Option (Nat × Task Reply) → Nat
  | none => 0
  | some (_, task) => 2 + task.weight

def Side.weight (side : Side Reply) : Nat :=
  (side.tasks.map Task.weight).sum + loopWeight side.loop + (side.inbox.map Frame.weight).sum

theorem sum_set {numbers : List Nat} {index old : Nat} (new : Nat)
    (found : numbers[index]? = some old) :
    (numbers.set index new).sum + old = numbers.sum + new := by
  induction numbers generalizing index with
  | nil => simp at found
  | cons first rest ih =>
    cases index with
    | zero =>
      simp only [List.getElem?_cons_zero, Option.some.injEq] at found
      simp only [List.set_cons_zero, List.sum_cons]
      omega
    | succ index =>
      have inside := ih (by simpa using found)
      simp only [List.set_cons_succ, List.sum_cons]
      omega

theorem Call.task_weight (call : Call Reply) : call.task.weight = 4 * call.forwards := by
  cases call with
  | mk answer calls => simp [Call.task, Task.weight, Call.calls, Call.forwards]

theorem resume_weight (id : Nat) (data : Reply) (task : Task Reply) :
    (task.resume id data).weight = task.weight := by
  unfold Task.resume Task.weight
  split
  · rfl
  · rfl

theorem taskStep_weight {self peer : Side Reply} {index : Nat}
    {sides : Side Reply × Side Reply} (moved : taskStep self peer index = some sides) :
    sides.1.weight + sides.2.weight + 1 = self.weight + peer.weight := by
  obtain ⟨task, call, more, found, _, rest, rfl⟩ := taskStep_some moved
  have there : (self.tasks.map Task.weight)[index]? = some task.weight := by
    simp [found]
  have set := sum_set (Task.weight { task with
    rest := more, waiting := some self.issued.length }) there
  have old : task.weight = 4 * (1 + call.forwards + forwardsOf more) := by
    rw [Task.weight, rest, forwardsOf]
  have new : Task.weight { task with rest := more, waiting := some self.issued.length } =
      4 * forwardsOf more := rfl
  simp only [Side.weight, List.map_set, List.map_append, List.sum_append, List.map_cons,
    List.map_nil, List.sum_cons, List.sum_nil, Frame.weight]
  omega

theorem loopStep_weight {self peer : Side Reply} {sides : Side Reply × Side Reply}
    (moved : loopStep self peer = some sides) :
    sides.1.weight + sides.2.weight + 1 = self.weight + peer.weight := by
  cases loopStep_some moved with
  | take id call more idle first =>
    simp only [Side.weight, idle, first, loopWeight, Call.task_weight, List.map_cons,
      List.sum_cons, Frame.weight]
    omega
  | settle id data more idle first =>
    have same : (self.tasks.map (Task.resume id data)).map Task.weight =
        self.tasks.map Task.weight := by
      rw [List.map_map]
      apply List.map_congr_left
      intro task _
      exact resume_weight id data task
    simp only [Side.weight, idle, first, same, List.map_cons, List.sum_cons, Frame.weight]
    omega
  | forward id task call more serves free next =>
    simp only [Side.weight, serves, loopWeight, Task.weight, next, forwardsOf, List.map_append,
      List.sum_append, List.map_cons, List.map_nil, List.sum_cons, List.sum_nil, Frame.weight]
    omega
  | answer id task serves free last =>
    simp only [Side.weight, serves, loopWeight, Task.weight, last, forwardsOf, List.map_append,
      List.sum_append, List.map_cons, List.map_nil, List.sum_cons, List.sum_nil, Frame.weight]
    omega

@[simp] theorem Which.other_other (which : Which) : which.other.other = which := by
  cases which <;> rfl

theorem Which.other_ne (which : Which) : which.other ≠ which := by
  cases which <;> decide

theorem Which.eq_or_other (which side : Which) : side = which ∨ side = which.other := by
  cases which <;> cases side <;> decide

@[simp] theorem both_self (which : Which) (sides : Side Reply × Side Reply) :
    both which sides which = sides.1 := by
  simp [both]

@[simp] theorem both_other (which : Which) (sides : Side Reply × Side Reply) :
    both which sides which.other = sides.2 := by
  simp [both, which.other_ne]

def weight (state : State Reply) : Nat :=
  (state .left).weight + (state .right).weight

theorem weight_eq (state : State Reply) (which : Which) :
    weight state = (state which).weight + (state which.other).weight := by
  cases which with
  | left => rfl
  | right => exact Nat.add_comm _ _

theorem step_weight {state next : State Reply} {move : Step} (moved : step state move = some next) :
    weight next + 1 = weight state := by
  cases move with
  | task which index =>
    obtain ⟨sides, stepped, rfl⟩ := Option.map_eq_some_iff.mp moved
    rw [weight_eq _ which, weight_eq state which, both_self, both_other]
    exact taskStep_weight stepped
  | loop which =>
    obtain ⟨sides, stepped, rfl⟩ := Option.map_eq_some_iff.mp moved
    rw [weight_eq _ which, weight_eq state which, both_self, both_other]
    exact loopStep_weight stepped

theorem run_weight {steps : List Step} :
    ∀ {state last : State Reply}, run steps state = some last →
      steps.length + weight last = weight state := by
  induction steps with
  | nil =>
    intro state last ran
    cases ran
    simp
  | cons move rest ih =>
    intro state last ran
    obtain ⟨next, moved, ran⟩ := Option.bind_eq_some_iff.mp ran
    have first := step_weight moved
    have later := ih ran
    simp only [List.length_cons]
    omega

theorem start_weight (left right : List (Call Reply)) :
    weight (start left right) =
      4 * ((left.map Call.forwards).sum + (right.map Call.forwards).sum) := by
  have tasks : ∀ calls : List (Call Reply), ((calls.map Call.task).map Task.weight).sum =
      4 * (calls.map Call.forwards).sum := by
    intro calls
    induction calls with
    | nil => rfl
    | cons call rest ih =>
      simp only [List.map_cons, List.sum_cons, Call.task_weight, ih]
      omega
  simp only [weight, start, Side.start, Side.weight, tasks, loopWeight, List.map_nil,
    List.sum_nil]
  omega

theorem run_append (first second : List Step) (state : State Reply) :
    run (first ++ second) state = (run first state).bind (run second) := by
  induction first generalizing state with
  | nil => rfl
  | cons move rest ih =>
    simp only [List.cons_append, run, Option.bind_assoc]
    congr 1
    funext next
    exact ih next

/-! ### Handlers that forward nothing -/

/-- The forward with this id is on its way: its call waits for the other loop or is served by
it, or its reply waits for this one. -/
def InTransit (self peer : Side Reply) (id : Nat) : Prop :=
  (∃ call, .call id call ∈ peer.inbox) ∨ (∃ task, peer.loop = some (id, task)) ∨
    ∃ data, .reply id data ∈ self.inbox

/-- The forwards of one side when every callee is a leaf. -/
structure Half (own peer : Side Reply) : Prop where
  flat : ∀ task ∈ own.tasks, ∀ call ∈ task.rest, call.calls = []
  leaf : ∀ call ∈ own.issued, call.calls = []
  ahead : ∀ id call, .call id call ∈ peer.inbox → own.issued[id]? = some call
  served : ∀ id task, peer.loop = some (id, task) →
    ∃ call, own.issued[id]? = some call ∧ task = call.task
  answered : ∀ id data, .reply id data ∈ own.inbox →
    ∃ call, own.issued[id]? = some call ∧ data = call.reply
  transit : ∀ task ∈ own.tasks, ∀ id, task.waiting = some id → InTransit own peer id
  accounted : ∀ id call, own.issued[id]? = some call →
    InTransit own peer id ∨ (id, call.reply) ∈ own.settled

theorem getElem?_concat {Item : Type} {items : List Item} {index : Nat} {item : Item}
    (last : Item) (found : items[index]? = some item) : (items ++ [last])[index]? = some item := by
  rw [List.getElem?_append_left (List.getElem?_eq_some_iff.mp found).1]
  exact found

/-- A callee that forwards nothing answers with its reply. -/
theorem Call.leaf_reply {call : Call Reply} (leaf : call.calls = []) :
    call.answer [] = call.reply := by
  cases call with
  | mk answer calls =>
    simp only [Call.calls] at leaf
    subst leaf
    rfl

section Halves

variable {self peer : Side Reply}

theorem Half.forward (half : Half self peer) {index : Nat} {task : Task Reply} {call : Call Reply}
    {more : List (Call Reply)} (found : self.tasks[index]? = some task)
    (rest : task.rest = call :: more) :
    Half { self with
            issued := self.issued ++ [call]
            tasks := self.tasks.set index
              { task with rest := more, waiting := some self.issued.length } }
      { peer with inbox := peer.inbox ++ [.call self.issued.length call] } := by
  have inside : task ∈ self.tasks := List.mem_of_getElem? found
  have keep : ∀ id, InTransit self peer id → InTransit { self with
      issued := self.issued ++ [call]
      tasks := self.tasks.set index
        { task with rest := more, waiting := some self.issued.length } }
      { peer with inbox := peer.inbox ++ [.call self.issued.length call] } id := by
    intro id transit
    obtain ⟨callee, waits⟩ | ⟨handler, serves⟩ | ⟨data, waits⟩ := transit
    · exact .inl ⟨callee, List.mem_append_left _ waits⟩
    · exact .inr (.inl ⟨handler, serves⟩)
    · exact .inr (.inr ⟨data, waits⟩)
  have added : InTransit { self with
      issued := self.issued ++ [call]
      tasks := self.tasks.set index
        { task with rest := more, waiting := some self.issued.length } }
      { peer with inbox := peer.inbox ++ [.call self.issued.length call] } self.issued.length :=
    .inl ⟨call, by simp⟩
  constructor
  · intro other member callee later
    obtain old | new := List.mem_or_eq_of_mem_set member
    · exact half.flat other old callee later
    · subst new
      apply half.flat task inside callee
      rw [rest]
      exact List.mem_cons_of_mem _ later
  · intro callee issued
    obtain old | new := List.mem_append.mp issued
    · exact half.leaf callee old
    · rw [List.mem_singleton.mp new]
      apply half.flat task inside call
      rw [rest]
      exact List.mem_cons_self
  · intro id callee waits
    obtain old | new := List.mem_append.mp waits
    · exact getElem?_concat call (half.ahead id callee old)
    · cases List.mem_singleton.mp new
      simp
  · intro id handler serves
    obtain ⟨callee, issued, same⟩ := half.served id handler serves
    exact ⟨callee, getElem?_concat call issued, same⟩
  · intro id data waits
    obtain ⟨callee, issued, same⟩ := half.answered id data waits
    exact ⟨callee, getElem?_concat call issued, same⟩
  · intro other member id waiting
    obtain old | new := List.mem_or_eq_of_mem_set member
    · exact keep id (half.transit other old id waiting)
    · subst new
      cases waiting
      exact added
  · intro id callee issued
    by_cases fresh : id < self.issued.length
    · have old : self.issued[id]? = some callee := by
        rw [← issued, List.getElem?_append_left fresh]
      cases half.accounted id callee old with
      | inl transit => exact .inl (keep id transit)
      | inr settled => exact .inr settled
    · have bound := (List.getElem?_eq_some_iff.mp issued).1
      simp only [List.length_append, List.length_singleton] at bound
      have last : id = self.issued.length := by omega
      subst last
      exact .inl added

/-- The forwards of a side stay as they are while frames and loops move: what is on its way
stays on its way. -/
theorem Half.moved (half : Half self peer) {self' peer' : Side Reply}
    (tasks : self'.tasks = self.tasks) (issued : self'.issued = self.issued)
    (settled : self'.settled = self.settled)
    (ahead : ∀ id call, .call id call ∈ peer'.inbox → self.issued[id]? = some call)
    (served : ∀ id task, peer'.loop = some (id, task) →
      ∃ call, self.issued[id]? = some call ∧ task = call.task)
    (answered : ∀ id data, .reply id data ∈ self'.inbox →
      ∃ call, self.issued[id]? = some call ∧ data = call.reply)
    (keep : ∀ id, InTransit self peer id → InTransit self' peer' id) : Half self' peer' := by
  constructor
  · rw [tasks]
    exact half.flat
  · rw [issued]
    exact half.leaf
  · rw [issued]
    exact ahead
  · rw [issued]
    exact served
  · rw [issued]
    exact answered
  · rw [tasks]
    intro task member id waiting
    exact keep id (half.transit task member id waiting)
  · rw [issued, settled]
    intro id call there
    cases half.accounted id call there with
    | inl transit => exact .inl (keep id transit)
    | inr done => exact .inr done

/-- The other side's forwards while this one sends a call behind their replies. -/
theorem Half.extended (half : Half peer self) {tasks : List (Task Reply)}
    {issued : List (Call Reply)} (id : Nat) (call : Call Reply) :
    Half { peer with inbox := peer.inbox ++ [.call id call] }
      { self with issued := issued, tasks := tasks } := by
  apply half.moved
  · rfl
  · rfl
  · rfl
  · exact half.ahead
  · exact half.served
  · intro other data waits
    apply half.answered other data
    simpa using waits
  · intro other transit
    obtain waits | serves | ⟨data, waits⟩ := transit
    · exact .inl waits
    · exact .inr (.inl serves)
    · exact .inr (.inr ⟨data, List.mem_append_left _ waits⟩)

/-- A loop takes a call: nothing changes for the forwards of its own side. -/
theorem Half.take_own (half : Half self peer) {id : Nat} {call : Call Reply}
    {more : List (Frame Reply)} (first : self.inbox = .call id call :: more) :
    Half { self with loop := some (id, call.task), inbox := more } peer := by
  apply half.moved
  · rfl
  · rfl
  · rfl
  · exact half.ahead
  · exact half.served
  · intro other data waits
    apply half.answered other data
    rw [first]
    exact List.mem_cons_of_mem _ waits
  · intro other transit
    obtain waits | serves | ⟨data, waits⟩ := transit
    · exact .inl waits
    · exact .inr (.inl serves)
    · rw [first] at waits
      exact .inr (.inr ⟨data, by simpa using waits⟩)

/-- A loop takes a call: the forward of the other side is now served. -/
theorem Half.take_peer (half : Half peer self) {id : Nat} {call : Call Reply}
    {more : List (Frame Reply)} (idle : self.loop = none)
    (first : self.inbox = .call id call :: more) :
    Half peer { self with loop := some (id, call.task), inbox := more } := by
  apply half.moved
  · rfl
  · rfl
  · rfl
  · intro other callee waits
    apply half.ahead other callee
    rw [first]
    exact List.mem_cons_of_mem _ waits
  · intro other task serves
    cases serves
    apply Exists.intro call
    constructor
    · apply half.ahead
      rw [first]
      exact List.mem_cons_self
    · rfl
  · exact half.answered
  · intro other transit
    obtain ⟨callee, waits⟩ | ⟨task, serves⟩ | waits := transit
    · rw [first] at waits
      obtain taken | later := List.mem_cons.mp waits
      · injection taken with same _
        rw [same]
        exact .inr (.inl ⟨_, rfl⟩)
      · exact .inl ⟨callee, later⟩
    · rw [idle] at serves
      cases serves
    · exact .inr (.inr waits)

/-- A loop gives a reply to its future: that forward is settled with its callee's reply. -/
theorem Half.settle_own (half : Half self peer) {id : Nat} {data : Reply}
    {more : List (Frame Reply)} (first : self.inbox = .reply id data :: more) :
    Half { self with
      tasks := self.tasks.map (Task.resume id data)
      settled := self.settled ++ [(id, data)]
      inbox := more } peer := by
  have keep : ∀ other, other ≠ id → InTransit self peer other → InTransit { self with
      tasks := self.tasks.map (Task.resume id data)
      settled := self.settled ++ [(id, data)]
      inbox := more } peer other := by
    intro other apart transit
    obtain waits | serves | ⟨answer, waits⟩ := transit
    · exact .inl waits
    · exact .inr (.inl serves)
    · rw [first] at waits
      obtain taken | later := List.mem_cons.mp waits
      · injection taken with same _
        exact absurd same apart
      · exact .inr (.inr ⟨answer, later⟩)
  obtain ⟨own, issued, value⟩ := half.answered id data (by simp [first])
  constructor
  · intro resumed member
    obtain ⟨task, inside, rfl⟩ := List.mem_map.mp member
    have rest : (task.resume id data).rest = task.rest := by
      unfold Task.resume
      split
      · rfl
      · rfl
    rw [rest]
    exact half.flat task inside
  · exact half.leaf
  · exact half.ahead
  · exact half.served
  · intro other answer waits
    apply half.answered other answer
    rw [first]
    exact List.mem_cons_of_mem _ waits
  · intro resumed member other waiting
    obtain ⟨task, inside, rfl⟩ := List.mem_map.mp member
    unfold Task.resume at waiting
    split at waiting
    · cases waiting
    case isFalse awaits =>
      have apart : other ≠ id := by
        intro same
        rw [same] at waiting
        exact awaits waiting
      exact keep other apart (half.transit task inside other waiting)
  · intro other callee issued'
    by_cases same : other = id
    · subst same
      rw [issued] at issued'
      cases issued'
      exact .inr (by simp [value])
    · cases half.accounted other callee issued' with
      | inl transit => exact .inl (keep other same transit)
      | inr settled => exact .inr (List.mem_append_left _ settled)

theorem Half.settle_peer (half : Half peer self) {id : Nat} {data : Reply}
    {more : List (Frame Reply)} (first : self.inbox = .reply id data :: more) :
    Half peer { self with
      tasks := self.tasks.map (Task.resume id data)
      settled := self.settled ++ [(id, data)]
      inbox := more } := by
  apply half.moved
  · rfl
  · rfl
  · rfl
  · intro other callee waits
    apply half.ahead other callee
    rw [first]
    exact List.mem_cons_of_mem _ waits
  · exact half.served
  · exact half.answered
  · intro other transit
    obtain ⟨callee, waits⟩ | serves | waits := transit
    · rw [first] at waits
      exact .inl ⟨callee, by simpa using waits⟩
    · exact .inr (.inl serves)
    · exact .inr (.inr waits)

theorem Half.answer_own (half : Half self peer) (id : Nat) (data : Reply) :
    Half { self with loop := none } { peer with inbox := peer.inbox ++ [.reply id data] } := by
  apply half.moved
  · rfl
  · rfl
  · rfl
  · intro other callee waits
    apply half.ahead other callee
    simpa using waits
  · exact half.served
  · exact half.answered
  · intro other transit
    obtain ⟨callee, waits⟩ | serves | waits := transit
    · exact .inl ⟨callee, List.mem_append_left _ waits⟩
    · exact .inr (.inl serves)
    · exact .inr (.inr waits)

/-- A loop answers for the handler it served: the reply is on its way. -/
theorem Half.answer_peer (half : Half peer self) {id : Nat} {task : Task Reply}
    (serves : self.loop = some (id, task)) :
    Half { peer with inbox := peer.inbox ++ [.reply id (task.answer task.got)] }
      { self with loop := none } := by
  apply half.moved
  · rfl
  · rfl
  · rfl
  · exact half.ahead
  · intro other handler served
    cases served
  · intro other data waits
    obtain old | new := List.mem_append.mp waits
    · exact half.answered other data old
    · cases List.mem_singleton.mp new
      obtain ⟨call, issued, same⟩ := half.served id task serves
      have leaf := half.leaf call (List.mem_of_getElem? issued)
      apply Exists.intro call
      constructor
      · exact issued
      · rw [same]
        exact Call.leaf_reply leaf
  · intro other transit
    obtain waits | ⟨handler, served⟩ | ⟨data, waits⟩ := transit
    · exact .inl waits
    · rw [serves] at served
      cases served
      exact .inr (.inr ⟨_, List.mem_append_right _ List.mem_cons_self⟩)
    · exact .inr (.inr ⟨data, List.mem_append_left _ waits⟩)

/-- The loop that serves the other side's calls is never blocked. -/
theorem Half.moves (half : Half peer self) (busy : self.loop ≠ none ∨ self.inbox ≠ []) :
    (loopStep self peer).isSome := by
  unfold loopStep
  cases loop : self.loop with
  | none =>
    cases inbox : self.inbox with
    | nil => simp [loop, inbox] at busy
    | cons frame more => cases frame <;> rfl
  | some serving =>
    obtain ⟨id, task⟩ := serving
    obtain ⟨call, issued, same⟩ := half.served id task loop
    have leaf := half.leaf call (List.mem_of_getElem? issued)
    subst same
    simp [Call.task, leaf]

end Halves

def Inv (state : State Reply) : Prop :=
  ∀ which, Half (state which) (state which.other)

theorem both_inv {which : Which} {self peer : Side Reply} (own : Half self peer)
    (other : Half peer self) : Inv (both which (self, peer)) := by
  intro side
  cases which.eq_or_other side with
  | inl same =>
    subst same
    simpa using own
  | inr apart =>
    subst apart
    simpa using other

theorem Inv.step {state next : State Reply} {move : Step} (inv : Inv state)
    (moved : step state move = some next) : Inv next := by
  cases move with
  | task which index =>
    obtain ⟨sides, stepped, rfl⟩ := Option.map_eq_some_iff.mp moved
    obtain ⟨task, call, more, found, _, rest, rfl⟩ := taskStep_some stepped
    have peer := inv which.other
    rw [Which.other_other] at peer
    apply both_inv
    · exact (inv which).forward found rest
    · exact peer.extended _ _
  | loop which =>
    obtain ⟨sides, stepped, rfl⟩ := Option.map_eq_some_iff.mp moved
    have own := inv which
    have peer := inv which.other
    rw [Which.other_other] at peer
    cases loopStep_some stepped with
    | take id call more idle first =>
      exact both_inv (own.take_own first) (peer.take_peer idle first)
    | settle id data more idle first =>
      exact both_inv (own.settle_own first) (peer.settle_peer first)
    | forward id task call more serves free next =>
      -- A served handler is a leaf, so it has nothing to forward.
      obtain ⟨callee, issued, same⟩ := peer.served id task serves
      have leaf := peer.leaf callee (List.mem_of_getElem? issued)
      rw [same] at next
      simp [Call.task, leaf] at next
    | answer id task serves free last =>
      exact both_inv (own.answer_own id _) (peer.answer_peer serves)

theorem Inv.run {steps : List Step} : ∀ {state last : State Reply}, Inv state →
    run steps state = some last → Inv last := by
  induction steps with
  | nil =>
    intro state last inv ran
    cases ran
    exact inv
  | cons move rest ih =>
    intro state last inv ran
    obtain ⟨next, moved, ran⟩ := Option.bind_eq_some_iff.mp ran
    exact ih (inv.step moved) ran

theorem start_half {calls : List (Call Reply)} (flat : Flat calls) (others : List (Call Reply)) :
    Half (.start calls) (.start others) := by
  constructor
  · intro task member
    obtain ⟨handler, inside, rfl⟩ := List.mem_map.mp member
    exact flat handler inside
  · simp [Side.start]
  · simp [Side.start]
  · simp [Side.start]
  · simp [Side.start]
  · intro task member id waiting
    obtain ⟨handler, _, rfl⟩ := List.mem_map.mp member
    cases waiting
  · simp [Side.start]

theorem start_inv {left right : List (Call Reply)} (leftFlat : Flat left)
    (rightFlat : Flat right) : Inv (start left right) := by
  intro which
  cases which with
  | left => exact start_half leftFlat right
  | right => exact start_half rightFlat left

theorem Inv.loop_moves {state : State Reply} (inv : Inv state) (which : Which)
    (busy : (state which).loop ≠ none ∨ (state which).inbox ≠ []) : LoopMoves state := by
  have peer := inv which.other
  rw [Which.other_other] at peer
  apply Exists.intro which
  rw [Reentry.step, Option.isSome_map]
  exact peer.moves busy

theorem Inv.transit_moves {state : State Reply} (inv : Inv state) {which : Which} {id : Nat}
    (transit : InTransit (state which) (state which.other) id) : LoopMoves state := by
  obtain ⟨call, waits⟩ | ⟨task, serves⟩ | ⟨data, waits⟩ := transit
  · exact inv.loop_moves which.other (.inr (List.ne_nil_of_mem waits))
  · exact inv.loop_moves which.other (.inl (by simp [serves]))
  · exact inv.loop_moves which (.inr (List.ne_nil_of_mem waits))

theorem Inv.progress {state : State Reply} (inv : Inv state) (pending : Pending state) :
    LoopMoves state := by
  obtain ⟨which, ⟨task, member, waits⟩ | ⟨id, task, serves, _⟩⟩ := pending
  · obtain ⟨id, waiting⟩ := Option.isSome_iff_exists.mp waits
    exact inv.transit_moves ((inv which).transit task member id waiting)
  · exact inv.loop_moves which (.inl (by simp [serves]))

theorem Inv.completed {state : State Reply} (inv : Inv state)
    (ended : ∀ next, Reentry.step state next = none) : Completed state := by
  have still : ¬ LoopMoves state := by
    intro moves
    obtain ⟨which, moves⟩ := moves
    simp [ended] at moves
  intro which
  constructor
  · intro task member
    have free : task.waiting = none := by
      cases waiting : task.waiting with
      | none => rfl
      | some id =>
        exact absurd (inv.transit_moves ((inv which).transit task member id waiting)) still
    constructor
    · cases rest : task.rest with
      | nil => rfl
      | cons call more =>
        obtain ⟨index, found⟩ := List.mem_iff_getElem?.mp member
        have stuck := ended (.task which index)
        simp [Reentry.step, taskStep, found, free, rest] at stuck
    · exact free
  · intro id call issued
    cases (inv which).accounted id call issued with
    | inl transit => exact absurd (inv.transit_moves transit) still
    | inr settled => exact settled

theorem flat_completes {left right : List (Call Reply)} (leftFlat : Flat left)
    (rightFlat : Flat right) : Completes left right := by
  intro steps state ran
  have inv := (start_inv leftFlat rightFlat).run ran
  have used := run_weight ran
  rw [start_weight] at used
  exact ⟨by omega, inv.progress, inv.completed⟩

/-! ### A handler that forwards while it is served -/

/-- Nothing is on its way, and the task of that index is not waiting. -/
structure Calm (state : State Reply) (which : Which) (index : Nat) (task : Task Reply) : Prop where
  idle : ∀ side, (state side).loop = none ∧ (state side).inbox = []
  found : (state which).tasks[index]? = some task
  free : task.waiting = none

/-- A forward is pending and neither loop can move. -/
def Stuck (state : State Reply) : Prop :=
  Pending state ∧ ¬ LoopMoves state

theorem both_swap (which : Which) (self peer : Side Reply) :
    both which.other (peer, self) = both which (self, peer) := by
  funext side
  cases which.eq_or_other side with
  | inl same =>
    subst same
    rw [both_self]
    nth_rewrite 2 [← side.other_other]
    exact both_other _ _
  | inr apart =>
    subst apart
    rw [both_self, both_other]

/-- A step of the other side's loop, seen from this side. -/
theorem step_other {which : Which} {self peer self' peer' : Side Reply}
    (moved : loopStep peer self = some (peer', self')) :
    step (both which (self, peer)) (.loop which.other) = some (both which (self', peer')) := by
  rw [step, Which.other_other, both_self, both_other, moved, Option.map_some, both_swap]

theorem step_own {which : Which} {self peer : Side Reply} {sides : Side Reply × Side Reply}
    (moved : loopStep self peer = some sides) :
    step (both which (self, peer)) (.loop which) = some (both which sides) := by
  rw [step, both_self, both_other, moved, Option.map_some]

theorem step_task {which : Which} {state : State Reply} {index : Nat}
    {sides : Side Reply × Side Reply}
    (moved : taskStep (state which) (state which.other) index = some sides) :
    step state (.task which index) = some (both which sides) := by
  rw [step, moved, Option.map_some]

theorem run_cons {move : Step} {rest : List Step} {state next : State Reply}
    (moved : step state move = some next) : run (move :: rest) state = run rest next := by
  rw [run, moved, Option.bind_some]

section Driven

variable {state : State Reply} {which : Which} {index : Nat} {task : Task Reply}
  {call : Call Reply} {more : List (Call Reply)}

/-- The sides after the task has forwarded and the other loop has taken the call. -/
def served (self peer : Side Reply) (index : Nat) (task : Task Reply) (call : Call Reply)
    (more : List (Call Reply)) : Side Reply × Side Reply :=
  ({ self with
      issued := self.issued ++ [call]
      tasks := self.tasks.set index
        { task with rest := more, waiting := some self.issued.length } },
    { peer with loop := some (self.issued.length, call.task) })

theorem Calm.served (calm : Calm state which index task) (rest : task.rest = call :: more)
    (later : List Step) :
    run (.task which index :: .loop which.other :: later) state =
      run later (both which
        (Reentry.served (state which) (state which.other) index task call more)) := by
  obtain ⟨idle, empty⟩ := calm.idle which.other
  have forwarded : taskStep (state which) (state which.other) index =
      some ({ state which with
          issued := (state which).issued ++ [call]
          tasks := (state which).tasks.set index
            { task with rest := more, waiting := some (state which).issued.length } },
        { state which.other with inbox := [.call (state which).issued.length call] }) := by
    simp [taskStep, calm.found, calm.free, rest, Side.forward, empty]
  rw [run_cons (step_task forwarded)]
  apply run_cons
  apply step_other
  simp [loopStep, idle, empty]

/-- A call to a leaf comes back, and the task is where it was with one call less. -/
theorem Calm.round (calm : Calm state which index task) (rest : task.rest = call :: more)
    (leaf : call.calls = []) :
    ∃ steps last next, run steps state = some last ∧ Calm last which index next ∧
      next.rest = more := by
  obtain ⟨idle, empty⟩ := calm.idle which
  obtain ⟨_, peerEmpty⟩ := calm.idle which.other
  have inside := (List.getElem?_eq_some_iff.mp calm.found).1
  have answered : LoopStep
      (Reentry.served (state which) (state which.other) index task call more).2
      (Reentry.served (state which) (state which.other) index task call more).1 _ :=
    .answer (state which).issued.length call.task rfl rfl leaf
  have settled : LoopStep
      { (Reentry.served (state which) (state which.other) index task call more).1 with
        inbox := (state which).inbox ++ [.reply (state which).issued.length (call.answer [])] }
      { state which.other with loop := none } _ :=
    .settle (state which).issued.length (call.answer []) [] idle (by simp [empty])
  have ran := (calm.served rest [.loop which.other, .loop which]).trans
    ((run_cons (step_other answered.moves)).trans (run_cons (step_own settled.moves)))
  apply Exists.intro _
  apply Exists.intro _
  apply Exists.intro { task with
    got := task.got ++ [call.answer []], rest := more, waiting := none }
  apply And.intro ran
  constructor
  · constructor
    · intro side
      cases which.eq_or_other side with
      | inl same =>
        subst same
        simp [Reentry.served, idle]
      | inr apart =>
        subst apart
        simp [peerEmpty]
    · simp [Reentry.served, Task.resume, inside]
    · rfl
  · rfl

theorem stuck_of_blocked {self peer : Side Reply} {waiting : Task Reply} {id : Nat}
    {task : Task Reply} (member : waiting ∈ self.tasks) (waits : waiting.waiting.isSome)
    (served : peer.loop = some (id, task)) (blocked : task.waiting.isSome)
    (still : loopStep self peer = none) : Stuck (both which (self, peer)) := by
  constructor
  · apply Exists.intro which
    rw [both_self]
    exact .inl ⟨waiting, member, waits⟩
  · intro moves
    obtain ⟨side, moves⟩ := moves
    obtain ⟨other, awaits⟩ := Option.isSome_iff_exists.mp blocked
    cases which.eq_or_other side with
    | inl same =>
      subst same
      simp [step, still] at moves
    | inr apart =>
      subst apart
      simp [step, loopStep, served, awaits] at moves

/-- The sides after the callee has forwarded in its turn and this loop has taken that call. -/
def entered (self peer : Side Reply) (index : Nat) (task : Task Reply) (call : Call Reply)
    (more : List (Call Reply)) (callee : Call Reply) (others : List (Call Reply)) :
    Side Reply × Side Reply :=
  ({ (served self peer index task call more).1 with
      loop := some (peer.issued.length, callee.task)
      inbox := [] },
    { peer with
      issued := peer.issued ++ [callee]
      loop := some (self.issued.length,
        { call.task with rest := others, waiting := some peer.issued.length }) })

theorem Calm.entered (calm : Calm state which index task) (rest : task.rest = call :: more)
    {callee : Call Reply} {others : List (Call Reply)} (nested : call.calls = callee :: others)
    (later : List Step) :
    run (.task which index :: .loop which.other :: .loop which.other :: .loop which :: later) state =
      run later (both which
        (Reentry.entered (state which) (state which.other) index task call more callee others)) := by
  obtain ⟨idle, empty⟩ := calm.idle which
  have forwarded : LoopStep
      (Reentry.served (state which) (state which.other) index task call more).2
      (Reentry.served (state which) (state which.other) index task call more).1 _ :=
    .forward (state which).issued.length call.task callee others rfl rfl nested
  have taken : LoopStep
      { (Reentry.served (state which) (state which.other) index task call more).1 with
        inbox := (state which).inbox ++ [.call (state which.other).issued.length callee] }
      (Reentry.entered (state which) (state which.other) index task call more callee others).2 _ :=
    .take (state which.other).issued.length callee [] idle (by simp [empty])
  exact (calm.served rest _).trans
    ((run_cons (step_other forwarded.moves)).trans (run_cons (step_own taken.moves)))

/-- A callee that forwards is blocked in the loop that would have to read its reply. -/
theorem Calm.stuck (calm : Calm state which index task) (rest : task.rest = call :: more)
    {callee : Call Reply} {others : List (Call Reply)} (nested : call.calls = callee :: others) :
    ∃ steps last, run steps state = some last ∧ Stuck last := by
  have inside := (List.getElem?_eq_some_iff.mp calm.found).1
  have waits : { task with rest := more, waiting := some (state which).issued.length } ∈
      (state which).tasks.set index
        { task with rest := more, waiting := some (state which).issued.length } :=
    List.mem_set inside _
  cases calls : callee.calls with
  | nil =>
    -- The inner call is answered, but the loop it is for does not read.
    have answered : LoopStep
        (Reentry.entered (state which) (state which.other) index task call more callee others).1
        (Reentry.entered (state which) (state which.other) index task call more callee others).2
        _ :=
      .answer (state which.other).issued.length callee.task rfl rfl calls
    have ran := (calm.entered rest nested [.loop which]).trans
      (run_cons (step_own answered.moves))
    exact ⟨_, _, ran, stuck_of_blocked waits rfl rfl rfl rfl⟩
  | cons inner further =>
    -- The inner callee forwards too: both loops are blocked.
    have forwarded : LoopStep
        (Reentry.entered (state which) (state which.other) index task call more callee others).1
        (Reentry.entered (state which) (state which.other) index task call more callee others).2
        _ :=
      .forward (state which.other).issued.length callee.task inner further rfl rfl calls
    have ran := (calm.entered rest nested [.loop which]).trans
      (run_cons (step_own forwarded.moves))
    exact ⟨_, _, ran, stuck_of_blocked waits rfl rfl rfl rfl⟩

end Driven

/-- A task with a call whose callee forwards can be driven into a stuck state: the calls
before it come back one by one. -/
theorem Calm.stuck_of_nested {which : Which} {index : Nat} (rest : List (Call Reply)) :
    ∀ {state : State Reply} {task : Task Reply}, Calm state which index task →
      task.rest = rest → (∃ call ∈ rest, call.calls ≠ []) →
        ∃ steps last, run steps state = some last ∧ Stuck last := by
  induction rest with
  | nil =>
    intro state task _ _ nested
    obtain ⟨call, inside, _⟩ := nested
    cases inside
  | cons call more ih =>
    intro state task calm left nested
    cases calls : call.calls with
    | nil =>
      obtain ⟨steps, middle, next, ran, calm', left'⟩ := calm.round left calls
      have later : ∃ call ∈ more, call.calls ≠ [] := by
        obtain ⟨other, inside, forwards⟩ := nested
        obtain same | inside := List.mem_cons.mp inside
        · rw [same] at forwards
          exact absurd calls forwards
        · exact ⟨other, inside, forwards⟩
      obtain ⟨more', last, ran', stuck⟩ := ih calm' left' later
      apply Exists.intro (steps ++ more')
      apply Exists.intro last
      constructor
      · rw [run_append, ran]
        exact ran'
      · exact stuck
    | cons callee others => exact calm.stuck left calls

theorem start_calm {left right : List (Call Reply)} {which : Which} {index : Nat}
    {handler : Call Reply} (found : ((start left right) which).tasks[index]? = some handler.task) :
    Calm (start left right) which index handler.task := by
  constructor
  · intro side
    cases side <;> exact ⟨rfl, rfl⟩
  · exact found
  · rfl

theorem flat_of_completes {left right : List (Call Reply)} (completes : Completes left right)
    {which : Which} {calls : List (Call Reply)}
    (tasks : ((start left right) which).tasks = calls.map Call.task) : Flat calls := by
  intro handler inside call member
  by_contra forwards
  obtain ⟨index, found⟩ := List.mem_iff_getElem?.mp inside
  have calm : Calm (start left right) which index handler.task := by
    apply start_calm
    rw [tasks]
    simp [found]
  obtain ⟨steps, last, ran, pending, still⟩ :=
    calm.stuck_of_nested _ rfl ⟨call, member, forwards⟩
  exact still ((completes steps last ran).2.1 pending)

/-- The forwards of two joined kernels complete exactly if no handler that serves a call from
the bridge forwards over the bridge. -/
theorem completes_iff (left right : List (Call Reply)) :
    Completes left right ↔ Flat left ∧ Flat right := by
  constructor
  · intro completes
    constructor
    · exact @flat_of_completes Reply left right completes .left left rfl
    · exact @flat_of_completes Reply left right completes .right right rfl
  · intro flat
    exact flat_completes flat.1 flat.2

/-- A handler that asks its caller's kernel back. -/
def askBack : Call Nat :=
  .mk List.sum [.mk (fun _ => 7) []]

/-- One call to such a handler is enough for both loops to stand still. -/
theorem call_back_never_returns : ¬ Completes [.mk List.sum [askBack]] [] := by
  intro completes
  have flat := @flat_of_completes Nat _ _ completes .left _ rfl
  have leaf := flat _ List.mem_cons_self askBack List.mem_cons_self
  cases leaf

end Fantastic.Python.Reentry

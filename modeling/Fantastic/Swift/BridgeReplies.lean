import Fantastic.Swift.BridgeTransport

/-!
# No reply is lost, and no continuation is resumed twice

A continuation is stored only after its send has returned, so a frame that comes while the
send is under way finds nothing to resume. Where no frame comes then, nor after its forward
has given up, every answered forward returns its answer; and every continuation is resumed
once, at the latest by its own timer.
-/

namespace Fantastic.Swift.Transport

/-! ### What is claimed, and when it holds -/

/-- The calls of `resume` a forward has seen so far fit its phase. -/
def Forward.Accounted (forward : Forward) : Prop :=
  match forward.phase with
  | .sending => forward.resumptions = 0
  | .waiting => forward.resumptions = 0 ∧ forward.timer = true
  | .failed _ => forward.resumptions = 0
  | .resumed _ => forward.resumptions = 1

/-- A forward the open connection has brought an answer for has returned it. Every
continuation has been resumed once, or never, and then its timer is still to come and will
resume it. -/
def RepliesKept (state : State) : Prop :=
  (∀ index forward outcome, state.forwards index = some forward →
    forward.answered = some outcome → forward.phase = .resumed outcome) ∧
  (∀ index forward, state.forwards index = some forward → forward.Accounted) ∧
  ∀ index forward, state.forwards index = some forward → forward.phase = .waiting →
    ∃ after, (state.timeout index).forwards index = some after ∧ after.phase = .resumed .timeout ∧
      after.resumptions = 1

/-- A minted id is new; and the open connection brings no reply or error frame for a forward
that is still in its send, nor for one that has returned without an answer. -/
def Considerate (reader : Reader) (state : State) : Step → Prop
  | .forward _ => state.client = true →
      ∀ index forward, state.forwards index = some forward → forward.id ≠ state.mintId
  | .received message => state.loop = .receiving → state.client = true →
      ∀ parsed body id outcome, State.decoded reader message = some (parsed, body) →
        State.answerOf parsed body = some (id, outcome) →
          ∀ index forward, state.forwards index = some forward → forward.id = id →
            forward.phase = .waiting ∨ forward.answered ≠ none
  | _ => True

def ConsiderateRun (reader : Reader) : List Step → State → Prop
  | [], _ => True
  | step :: rest, state =>
    Considerate reader state step ∧ ConsiderateRun reader rest (state.step reader step)

/-! ### The invariant -/

structure Inv (state : State) : Prop where
  fresh : ∀ index, state.count ≤ index → state.forwards index = none
  distinct : ∀ first second forward other, state.forwards first = some forward →
    state.forwards second = some other → forward.id = other.id → first = second
  stored : ∀ binary id index, (state.pending binary).get? id = some index ↔
    ∃ forward, state.forwards index = some forward ∧ forward.id = id ∧ forward.binary = binary ∧
      forward.phase = .waiting
  accounted : ∀ index forward, state.forwards index = some forward → forward.Accounted
  answered : ∀ index forward outcome, state.forwards index = some forward →
    forward.answered = some outcome → forward.phase = .resumed outcome

/-- An edit of the forwards that keeps their ids keeps the invariant, if the tables and each
edited forward are right again. -/
theorem Inv.edited {state after : State} (inv : Inv state) (edit : Nat → Forward → Forward)
    (count : after.count = state.count)
    (forwards : ∀ index, after.forwards index = (state.forwards index).map (edit index))
    (sameId : ∀ index forward, (edit index forward).id = forward.id)
    (sameTable : ∀ index forward, (edit index forward).binary = forward.binary)
    (stored : ∀ binary id index, (after.pending binary).get? id = some index ↔
      ∃ forward, state.forwards index = some forward ∧ forward.id = id ∧ forward.binary = binary ∧
        (edit index forward).phase = .waiting)
    (accounted : ∀ index forward, state.forwards index = some forward →
      (edit index forward).Accounted)
    (answered : ∀ index forward outcome, state.forwards index = some forward →
      (edit index forward).answered = some outcome →
        (edit index forward).phase = .resumed outcome) : Inv after := by
  constructor
  · intro index outside
    rw [count] at outside
    rw [forwards, inv.fresh index outside, Option.map_none]
  · intro first second forward other found otherFound same
    rw [forwards] at found otherFound
    obtain ⟨before, beforeFound, rfl⟩ := Option.map_eq_some_iff.mp found
    obtain ⟨otherBefore, otherBeforeFound, rfl⟩ := Option.map_eq_some_iff.mp otherFound
    rw [sameId, sameId] at same
    exact inv.distinct first second before otherBefore beforeFound otherBeforeFound same
  · intro binary id index
    rw [stored, forwards]
    constructor
    · intro ⟨forward, found, named, table, waiting⟩
      exact ⟨edit index forward, by rw [found, Option.map_some], (sameId _ _).trans named,
        (sameTable _ _).trans table, waiting⟩
    · intro ⟨_, found, named, table, waiting⟩
      obtain ⟨forward, before, rfl⟩ := Option.map_eq_some_iff.mp found
      exact ⟨forward, before, (sameId _ _).symm.trans named, (sameTable _ _).symm.trans table,
        waiting⟩
  · intro index forward found
    rw [forwards] at found
    obtain ⟨before, beforeFound, rfl⟩ := Option.map_eq_some_iff.mp found
    exact accounted index before beforeFound
  · intro index forward outcome found
    rw [forwards] at found
    obtain ⟨before, beforeFound, rfl⟩ := Option.map_eq_some_iff.mp found
    exact answered index before outcome beforeFound

variable {reader : Reader} {state : State}

/-- The edit of one forward, and of no other. -/
def only (target : Nat) (edit : Forward → Forward) (index : Nat) (forward : Forward) : Forward :=
  if index = target then edit forward else forward

theorem change_forwards (target : Nat) (edit : Forward → Forward) (index : Nat) :
    (state.change target edit).forwards index =
      (state.forwards index).map (only target edit index) := by
  unfold State.change only
  by_cases same : index = target
  · subst same
    simp
  · simp [same]

theorem Inv.waiting_accounted (inv : Inv state) {index : Nat} {forward : Forward}
    (found : state.forwards index = some forward) (waiting : forward.phase = .waiting) :
    forward.resumptions = 0 ∧ forward.timer = true ∧ forward.answered = none := by
  have accounted := inv.accounted index forward found
  rw [Forward.Accounted, waiting] at accounted
  refine ⟨accounted.1, accounted.2, ?_⟩
  cases answered : forward.answered with
  | none => rfl
  | some outcome =>
    have resumed := inv.answered index forward outcome found answered
    rw [waiting] at resumed
    cases resumed

theorem only_self (target : Nat) (edit : Forward → Forward) (forward : Forward) :
    only target edit target forward = edit forward := by
  simp [only]

theorem only_of_ne {target index : Nat} (different : index ≠ target) (edit : Forward → Forward)
    (forward : Forward) : only target edit index forward = forward := by
  simp [only, different]

theorem only_comp (target : Nat) (first second : Forward → Forward) (index : Nat) :
    only target second index ∘ only target first index = only target (second ∘ first) index := by
  funext forward
  by_cases same : index = target
  · simp [only, same]
  · simp [only, same]

/-- The edit of one forward. Its own entry follows its new phase, and all others stay. -/
theorem Inv.edited_one {after : State} (inv : Inv state) {target : Nat} {forward : Forward}
    (found : state.forwards target = some forward) (edit : Forward → Forward)
    (count : after.count = state.count)
    (forwards : ∀ index, after.forwards index =
      (state.forwards index).map (only target edit index))
    (sameId : ∀ other, (edit other).id = other.id)
    (sameTable : ∀ other, (edit other).binary = other.binary)
    (stored : ∀ binary id index, (after.pending binary).get? id = some index ↔
      index ≠ target ∧ (state.pending binary).get? id = some index ∨
        index = target ∧ forward.id = id ∧ forward.binary = binary ∧
          (edit forward).phase = .waiting)
    (accounted : (edit forward).Accounted)
    (answered : ∀ outcome, (edit forward).answered = some outcome →
      (edit forward).phase = .resumed outcome) : Inv after := by
  have here : ∀ other, state.forwards target = some other → other = forward := by
    intro other otherFound
    exact Option.some.inj (otherFound.symm.trans found)
  apply inv.edited (only target edit) count forwards
  · intro index other
    unfold only
    split
    · exact sameId other
    · rfl
  · intro index other
    unfold only
    split
    · exact sameTable other
    · rfl
  · intro binary id index
    rw [stored, inv.stored]
    by_cases same : index = target
    · subst same
      simp only [ne_eq, not_true_eq_false, false_and, true_and, false_or, only_self]
      constructor
      · intro held
        exact ⟨forward, found, held⟩
      · intro ⟨other, otherFound, held⟩
        rw [here other otherFound] at held
        exact held
    · simp [same, only_of_ne same]
  · intro index other otherFound
    by_cases same : index = target
    · subst same
      rw [here other otherFound, only_self]
      exact accounted
    · rw [only_of_ne same]
      exact inv.accounted index other otherFound
  · intro index other outcome otherFound
    by_cases same : index = target
    · subst same
      rw [here other otherFound, only_self]
      exact answered outcome
    · rw [only_of_ne same]
      exact inv.answered index other outcome otherFound

/-- The entries of the others, told apart by the id and the table. -/
theorem Inv.other_entry_iff (inv : Inv state) {target : Nat} {forward : Forward}
    (found : state.forwards target = some forward) (binary : Bool) (id : String) (index : Nat) :
    index ≠ target ∧ (state.pending binary).get? id = some index ↔
      ¬ (id = forward.id ∧ binary = forward.binary) ∧
        (state.pending binary).get? id = some index := by
  apply and_congr_left
  intro held
  obtain ⟨other, otherFound, named, table, _⟩ := (inv.stored _ _ _).mp held
  constructor
  · intro different same
    exact different (inv.distinct index target other forward otherFound found
      (named.trans same.1))
  · intro different same
    subst same
    rw [Option.some.inj (otherFound.symm.trans found)] at named table
    exact different ⟨named.symm, table.symm⟩

/-- A waiting forward is taken out of its table and resumed. -/
theorem Inv.resumed {after : State} (inv : Inv state) {target : Nat} {forward : Forward}
    (found : state.forwards target = some forward) (edit : Forward → Forward)
    (count : after.count = state.count)
    (forwards : ∀ index, after.forwards index =
      (state.forwards index).map (only target edit index))
    (pending : after.pending = Function.update state.pending forward.binary
      ((state.pending forward.binary).erase forward.id))
    (sameId : ∀ other, (edit other).id = other.id)
    (sameTable : ∀ other, (edit other).binary = other.binary) {outcome : Outcome}
    (phase : (edit forward).phase = .resumed outcome) (once : (edit forward).resumptions = 1)
    (answer : ∀ other, (edit forward).answered = some other → other = outcome) : Inv after := by
  apply inv.edited_one found edit count forwards sameId sameTable
  · intro binary id index
    rw [inv.other_entry_iff found, pending, phase]
    by_cases table : binary = forward.binary
    · subst table
      rw [Function.update_self, OrderedDict.get?_erase]
      by_cases named : id = forward.id
      · simp [named]
      · simp [named]
    · rw [Function.update_of_ne table]
      simp [table]
  · rw [Forward.Accounted, phase]
    exact once
  · intro given answered
    rw [phase, answer given answered]

/-- A forward that does not wait, before or after, is in no table. -/
theorem Inv.adjusted {after : State} (inv : Inv state) {target : Nat} {forward : Forward}
    (found : state.forwards target = some forward) (awake : forward.phase ≠ .waiting)
    (edit : Forward → Forward) (count : after.count = state.count)
    (forwards : ∀ index, after.forwards index =
      (state.forwards index).map (only target edit index))
    (pending : after.pending = state.pending) (sameId : ∀ other, (edit other).id = other.id)
    (sameTable : ∀ other, (edit other).binary = other.binary)
    (still : (edit forward).phase ≠ .waiting) (accounted : (edit forward).Accounted)
    (answered : ∀ outcome, (edit forward).answered = some outcome →
      (edit forward).phase = .resumed outcome) : Inv after := by
  apply inv.edited_one found edit count forwards sameId sameTable _ accounted answered
  intro binary id index
  rw [pending]
  simp only [still, and_false, or_false]
  refine ⟨fun held => ⟨?_, held⟩, And.right⟩
  intro same
  subst same
  obtain ⟨other, otherFound, _, _, waiting⟩ := (inv.stored _ _ _).mp held
  rw [Option.some.inj (otherFound.symm.trans found)] at waiting
  exact awake waiting

/-- The entry of a waiting forward, looked up under its own id. -/
theorem Inv.entry (inv : Inv state) {index : Nat} {forward : Forward}
    (found : state.forwards index = some forward) (waiting : forward.phase = .waiting) :
    (state.pending forward.binary).get? forward.id = some index :=
  (inv.stored _ _ _).mpr ⟨forward, found, rfl, rfl, waiting⟩

/-- Nobody is looked up under the id of a forward that does not wait. -/
theorem Inv.no_entry (inv : Inv state) {index : Nat} {forward : Forward}
    (found : state.forwards index = some forward) (awake : forward.phase ≠ .waiting)
    (binary : Bool) : (state.pending binary).get? forward.id = none := by
  rw [Option.eq_none_iff_forall_ne_some]
  intro other held
  obtain ⟨holder, holderFound, named, _, waiting⟩ := (inv.stored _ _ _).mp held
  have same := inv.distinct other index holder forward holderFound found named
  subst same
  rw [Option.some.inj (holderFound.symm.trans found)] at waiting
  exact awake waiting

theorem timeout_eq {index : Nat} {forward : Forward} (inv : Inv state)
    (found : state.forwards index = some forward) (waiting : forward.phase = .waiting) :
    state.timeout index = ((state.change index fun forward =>
      { forward with timer := false }).setPending forward.binary
        ((state.pending forward.binary).erase forward.id)).resume .timeout index := by
  have timer := (inv.waiting_accounted found waiting).2.1
  have held : ((state.change index fun forward => { forward with timer := false }).pending
      forward.binary).get? forward.id = some index := inv.entry found waiting
  unfold State.timeout
  simp only [found, timer, if_true, State.settle, held]
  rfl

theorem Inv.timeout (inv : Inv state) (index : Nat) : Inv (state.timeout index) := by
  cases found : state.forwards index with
  | none =>
    unfold State.timeout
    rw [found]
    exact inv
  | some forward =>
    by_cases waiting : forward.phase = .waiting
    · have accounted := inv.waiting_accounted found waiting
      rw [timeout_eq inv found waiting]
      apply inv.resumed found ((fun forward : Forward => { forward with
        phase := .resumed .timeout, resumptions := forward.resumptions + 1 }) ∘
        fun forward => { forward with timer := false })
      · rfl
      · intro other
        rw [State.resume, change_forwards, ← only_comp, ← Option.map_map]
        congr 1
        exact change_forwards _ _ _
      · rfl
      · exact fun _ => rfl
      · exact fun _ => rfl
      · rfl
      · simp [accounted.1]
      · simp [accounted.2.2]
    · unfold State.timeout
      simp only [found]
      split
      · have nobody : ((state.change index fun forward =>
            { forward with timer := false }).pending forward.binary).get? forward.id = none :=
          inv.no_entry found waiting forward.binary
        simp only [State.settle, nobody]
        have accounted := inv.accounted index forward found
        apply inv.adjusted found waiting fun forward => { forward with timer := false }
        · rfl
        · exact change_forwards _ _
        · rfl
        · exact fun _ => rfl
        · exact fun _ => rfl
        · exact waiting
        · cases phase : forward.phase with
          | waiting => exact absurd phase waiting
          | _ => simpa [Forward.Accounted, phase] using accounted
        · exact fun outcome => inv.answered index forward outcome found
      · exact inv

theorem Inv.unsent (inv : Inv state) (index : Nat) (text : String) :
    Inv (state.unsent index text) := by
  unfold State.unsent
  cases found : state.forwards index with
  | none => exact inv
  | some forward =>
    by_cases sending : forward.phase = .sending
    · simp only [if_pos sending]
      have accounted := inv.accounted index forward found
      apply inv.adjusted found (by simp [sending])
        fun forward => { forward with phase := .failed (.sendFailed text) }
      · rfl
      · exact change_forwards _ _
      · rfl
      · exact fun _ => rfl
      · exact fun _ => rfl
      · simp
      · simpa [Forward.Accounted, sending] using accounted
      · exact fun outcome answered => absurd (inv.answered index forward outcome found answered)
          (by simp [sending])
    · simp only [if_neg sending]
      exact inv

theorem Inv.sent (inv : Inv state) (index : Nat) : Inv (state.sent index) := by
  unfold State.sent
  cases found : state.forwards index with
  | none => exact inv
  | some forward =>
    by_cases sending : forward.phase = .sending
    · simp only [if_pos sending]
      have accounted := inv.accounted index forward found
      apply inv.edited_one found fun forward => { forward with phase := .waiting, timer := true }
      · rfl
      · exact change_forwards _ _
      · exact fun _ => rfl
      · exact fun _ => rfl
      · intro binary id other
        rw [inv.other_entry_iff found]
        change ((Function.update state.pending forward.binary _) binary).get? id = _ ↔ _
        by_cases table : binary = forward.binary
        · subst table
          rw [Function.update_self, OrderedDict.get?_insert]
          by_cases named : id = forward.id
          · simp [named, eq_comm]
          · simp [named, Ne.symm named]
        · rw [Function.update_of_ne table]
          simp [table, Ne.symm table]
      · simpa [Forward.Accounted, sending] using accounted
      · exact fun outcome answered => absurd (inv.answered index forward outcome found answered)
          (by simp [sending])
    · simp only [if_neg sending]
      exact inv

/-- The invariant reads the forwards and the tables only. -/
theorem Inv.same {after : State} (inv : Inv state) (count : after.count = state.count)
    (forwards : after.forwards = state.forwards) (pending : after.pending = state.pending) :
    Inv after := by
  obtain ⟨fresh, distinct, stored, accounted, answered⟩ := inv
  rw [← count, ← forwards] at fresh
  rw [← forwards] at distinct stored accounted answered
  rw [← pending] at stored
  exact ⟨fresh, distinct, stored, accounted, answered⟩

theorem Inv.forward (inv : Inv state) {binary : Bool}
    (considerate : Considerate reader state (.forward binary)) : Inv (state.forward binary) := by
  unfold State.forward
  by_cases open' : state.client = true
  · rw [if_pos open']
    have unused := considerate open'
    have absent := inv.fresh state.count (Nat.le_refl _)
    have origin : ∀ index other, Function.update state.forwards state.count
        (some { id := state.mintId, binary := binary, phase := .sending, resumptions := 0
                timer := false, answered := none }) index = some other →
        index = state.count ∧ other.id = state.mintId ∧ other.phase = .sending ∧
            other.resumptions = 0 ∧ other.answered = none ∨
          index ≠ state.count ∧ state.forwards index = some other := by
      intro index other found
      by_cases new : index = state.count
      · subst new
        rw [Function.update_self] at found
        cases found
        exact .inl ⟨rfl, rfl, rfl, rfl, rfl⟩
      · rw [Function.update_of_ne new] at found
        exact .inr ⟨new, found⟩
    constructor
    · intro index outside
      change state.count + 1 ≤ index at outside
      have later : index ≠ state.count := by omega
      exact (Function.update_of_ne later _ _).trans (inv.fresh index (by omega))
    · intro first second forward other found otherFound same
      cases origin first forward found with
      | inl new =>
        cases origin second other otherFound with
        | inl otherNew => rw [new.1, otherNew.1]
        | inr otherOld => exact absurd (same.symm.trans new.2.1) (unused _ _ otherOld.2)
      | inr old =>
        cases origin second other otherFound with
        | inl otherNew => exact absurd (same.trans otherNew.2.1) (unused _ _ old.2)
        | inr otherOld => exact inv.distinct first second forward other old.2 otherOld.2 same
    · intro table id index
      change (state.pending table).get? id = some index ↔ _
      rw [inv.stored]
      constructor
      · intro ⟨forward, found, rest⟩
        have old : index ≠ state.count := by
          intro new
          rw [new, absent] at found
          cases found
        exact ⟨forward, (Function.update_of_ne old _ _).trans found, rest⟩
      · intro ⟨forward, found, named, inside, waiting⟩
        cases origin index forward found with
        | inl new =>
          rw [new.2.2.1] at waiting
          cases waiting
        | inr old => exact ⟨forward, old.2, named, inside, waiting⟩
    · intro index forward found
      cases origin index forward found with
      | inl new =>
        rw [Forward.Accounted, new.2.2.1]
        exact new.2.2.2.1
      | inr old => exact inv.accounted index forward old.2
    · intro index forward outcome found
      cases origin index forward found with
      | inl new => simp [new.2.2.2.2]
      | inr old => exact inv.answered index forward outcome old.2
  · rw [if_neg open']
    exact inv

/-! ### Draining a table -/

def resumedWith (outcome : Outcome) (forward : Forward) : Forward :=
  { forward with phase := .resumed outcome, resumptions := forward.resumptions + 1 }

theorem resume_all (outcome : Outcome) {items : List Nat} (nodup : items.Nodup) (state : State) :
    (items.foldl (fun state index => state.resume outcome index) state).count = state.count ∧
    (items.foldl (fun state index => state.resume outcome index) state).pending = state.pending ∧
    ∀ index, (items.foldl (fun state index => state.resume outcome index) state).forwards index =
      if index ∈ items then (state.forwards index).map (resumedWith outcome)
      else state.forwards index := by
  induction items generalizing state with
  | nil => simp
  | cons first items ih =>
    rw [List.nodup_cons] at nodup
    obtain ⟨count, pending, forwards⟩ := ih nodup.2 (state.resume outcome first)
    refine ⟨count, pending, ?_⟩
    intro index
    rw [List.foldl_cons, forwards, State.resume, change_forwards]
    by_cases here : index = first
    · subst here
      simp only [nodup.1, if_false, List.mem_cons_self, if_true]
      congr 1
      funext forward
      exact only_self _ _ _
    · have untouched : (state.forwards index).map (only first (fun forward =>
          { forward with phase := .resumed outcome, resumptions := forward.resumptions + 1 })
            index) = state.forwards index := by
        rw [Option.map_congr (fun forward _ => only_of_ne here _ forward), Option.map_id']
      rw [untouched]
      simp [here]

theorem Inv.items_nodup (inv : Inv state) (binary : Bool) : (state.pending binary).items.Nodup := by
  have entries : (state.pending binary).entries.Nodup := (state.pending binary).nodup.of_map
  apply List.Nodup.map_on _ entries
  intro first firstListed second secondListed same
  obtain ⟨id, index⟩ := first
  obtain ⟨other, otherIndex⟩ := second
  change index = otherIndex at same
  subst same
  obtain ⟨forward, found, named, _⟩ :=
    (inv.stored _ _ _).mp (OrderedDict.mem_entries_iff.mp firstListed)
  obtain ⟨twin, twinFound, twinNamed, _⟩ :=
    (inv.stored _ _ _).mp (OrderedDict.mem_entries_iff.mp secondListed)
  rw [Option.some.inj (twinFound.symm.trans found)] at twinNamed
  rw [← named, ← twinNamed]

theorem Inv.mem_items_iff (inv : Inv state) {binary : Bool} {index : Nat} :
    index ∈ (state.pending binary).items ↔ ∃ forward, state.forwards index = some forward ∧
      forward.binary = binary ∧ forward.phase = .waiting := by
  constructor
  · intro listed
    obtain ⟨⟨id, other⟩, entry, rfl⟩ := List.mem_map.mp listed
    obtain ⟨forward, found, _, table, waiting⟩ :=
      (inv.stored _ _ _).mp (OrderedDict.mem_entries_iff.mp entry)
    exact ⟨forward, found, table, waiting⟩
  · intro ⟨forward, found, table, waiting⟩
    have held := (inv.stored _ _ _).mpr ⟨forward, found, rfl, table, waiting⟩
    exact List.mem_map.mpr ⟨(forward.id, index), OrderedDict.mem_entries_iff.mpr held, rfl⟩

theorem Inv.drainTable (inv : Inv state) (outcome : Outcome) (binary : Bool) :
    Inv (state.drainTable outcome binary) := by
  obtain ⟨count, pending, forwards⟩ := resume_all outcome (inv.items_nodup binary) state
  apply inv.edited (fun _ forward => if forward.binary = binary ∧ forward.phase = .waiting then
    resumedWith outcome forward else forward)
  · exact count
  · intro index
    refine (forwards index).trans ?_
    cases found : state.forwards index with
    | none => simp
    | some forward =>
      have listed : index ∈ (state.pending binary).items ↔
          forward.binary = binary ∧ forward.phase = .waiting := by
        rw [inv.mem_items_iff, found]
        simp
      simp only [listed, Option.map_some]
      split <;> rfl
  · intro index forward
    split <;> rfl
  · intro index forward
    split <;> rfl
  · intro table id index
    have tables : (state.drainTable outcome binary).pending =
        Function.update state.pending binary .empty := by
      rw [State.drainTable, State.setPending, pending]
    rw [tables]
    by_cases same : table = binary
    · subst same
      rw [Function.update_self, OrderedDict.get?_empty]
      refine iff_of_false (by simp) ?_
      intro ⟨forward, found, named, inside, waiting⟩
      split at waiting
      · cases waiting
      case isFalse apart => exact apart ⟨inside, waiting⟩
    · rw [Function.update_of_ne same, inv.stored]
      apply exists_congr
      intro forward
      apply and_congr_right
      intro _
      apply and_congr_right
      intro _
      apply and_congr_right
      intro inside
      rw [if_neg (fun drained => same (inside.symm.trans drained.1))]
  · intro index forward found
    split
    case isTrue drained =>
      have accounted := inv.waiting_accounted found drained.2
      simp [Forward.Accounted, resumedWith, accounted.1]
    case isFalse => exact inv.accounted index forward found
  · intro index forward given found
    split
    case isTrue drained =>
      have accounted := inv.waiting_accounted found drained.2
      simp [resumedWith, accounted.2.2]
    case isFalse => exact inv.answered index forward given found

theorem Inv.drain (inv : Inv state) (outcome : Outcome) : Inv (state.drain outcome) :=
  (inv.drainTable outcome false).drainTable outcome true

/-! ### A frame -/

/-- What the frame leaves on a forward with its id. -/
def noted (client : Bool) (outcome : Outcome) (forward : Forward) : Forward :=
  if client ∧ forward.answered = none then { forward with answered := some outcome } else forward

theorem note_forwards (inv : Inv state) {target : Nat} {forward : Forward}
    (found : state.forwards target = some forward) (outcome : Outcome) (index : Nat) :
    (state.note forward.id outcome).forwards index =
      (state.forwards index).map (only target (noted state.client outcome) index) := by
  unfold State.note
  cases present : state.forwards index with
  | none => split <;> simp [present]
  | some other =>
    have named : other.id = forward.id ↔ index = target := by
      constructor
      · intro same
        exact inv.distinct index target other forward present found same
      · intro same
        subst same
        rw [Option.some.inj (present.symm.trans found)]
    by_cases open' : state.client = true
    · rw [if_pos open']
      simp only [present, Option.map_some, named, only, noted, open', true_and]
      by_cases same : index = target
      · simp [same]
      · simp [same]
    · rw [if_neg open', present, Option.map_some]
      simp [only, noted, open']

theorem note_pending (state : State) (id : String) (outcome : Outcome) :
    (state.note id outcome).pending = state.pending ∧
      (state.note id outcome).count = state.count := by
  unfold State.note
  split <;> exact ⟨rfl, rfl⟩

/-- The frame finds its forward waiting. -/
theorem Inv.answered_waiting (inv : Inv state) {target : Nat} {forward : Forward}
    (found : state.forwards target = some forward) (waiting : forward.phase = .waiting)
    (outcome : Outcome) :
    Inv ((state.note forward.id outcome).settleEither forward.id outcome) := by
  obtain ⟨samePending, sameCount⟩ := note_pending state forward.id outcome
  have accounted := inv.waiting_accounted found waiting
  have entry := inv.entry found waiting
  have settled : (state.note forward.id outcome).settleEither forward.id outcome =
      ((state.note forward.id outcome).setPending forward.binary
        ((state.pending forward.binary).erase forward.id)).resume outcome target := by
    unfold State.settleEither
    rw [samePending]
    by_cases text : forward.binary = false
    · have listed : (state.pending false).contains forward.id = true := by
        rw [OrderedDict.contains_iff, OrderedDict.mem_keys_iff]
        exact ⟨target, text ▸ entry⟩
      rw [if_pos listed, State.settle, samePending, ← text, entry]
    · have binary : forward.binary = true := by simpa using text
      have unlisted : ¬ (state.pending false).contains forward.id = true := by
        rw [OrderedDict.contains_iff, OrderedDict.mem_keys_iff]
        intro ⟨index, held⟩
        obtain ⟨other, otherFound, named, table, _⟩ := (inv.stored _ _ _).mp held
        have same := inv.distinct index target other forward otherFound found named
        subst same
        rw [Option.some.inj (otherFound.symm.trans found), binary] at table
        cases table
      rw [if_neg unlisted, State.settle, samePending, ← binary, entry]
  rw [settled]
  apply inv.resumed found (resumedWith outcome ∘ noted state.client outcome)
  · exact sameCount
  · intro index
    rw [State.resume, change_forwards, ← only_comp, ← Option.map_map]
    congr 1
    exact note_forwards inv found outcome index
  · change Function.update (state.note forward.id outcome).pending _ _ = _
    rw [samePending]
  · intro other
    simp only [Function.comp, resumedWith, noted]
    split <;> rfl
  · intro other
    simp only [Function.comp, resumedWith, noted]
    split <;> rfl
  · rfl
  · simp only [Function.comp, resumedWith, noted]
    split <;> simp [accounted.1]
  · intro other
    simp only [Function.comp, resumedWith, noted]
    split
    · intro given
      exact (Option.some.inj given).symm
    · simp [accounted.2.2]

/-- The frame finds nobody waiting for it. -/
theorem Inv.answered_nobody (inv : Inv state) {id : String} (outcome : Outcome)
    (nobody : ∀ index forward, state.forwards index = some forward → forward.id = id →
      forward.phase ≠ .waiting)
    (settled : state.client = true → ∀ index forward, state.forwards index = some forward →
      forward.id = id → forward.answered ≠ none) :
    Inv ((state.note id outcome).settleEither id outcome) := by
  obtain ⟨samePending, sameCount⟩ := note_pending state id outcome
  have empty : ∀ binary, ((state.note id outcome).pending binary).get? id = none := by
    intro binary
    rw [samePending, Option.eq_none_iff_forall_ne_some]
    intro index held
    obtain ⟨forward, found, named, _, waiting⟩ := (inv.stored _ _ _).mp held
    exact nobody index forward found named waiting
  have unchanged : (state.note id outcome).settleEither id outcome = state.note id outcome := by
    unfold State.settleEither State.settle
    simp only [empty]
    split <;> rfl
  rw [unchanged]
  apply inv.same sameCount _ samePending
  unfold State.note
  by_cases open' : state.client = true
  · rw [if_pos open']
    funext index
    cases found : state.forwards index with
    | none => simp [found]
    | some forward =>
      have kept : ¬ (forward.id = id ∧ forward.answered = none) :=
        fun both => settled open' index forward found both.1 both.2
      simp [found, kept]
  · rw [if_neg open']

theorem Inv.received (inv : Inv state) {message : Message}
    (considerate : Considerate reader state (.received message)) :
    Inv (state.received reader message) := by
  unfold State.received
  by_cases receiving : state.loop = .receiving
  · rw [if_pos receiving]
    cases read : State.decoded reader message with
    | none => exact inv
    | some pair =>
      obtain ⟨parsed, body⟩ := pair
      simp only [State.handleInboundFrame]
      cases meaning : State.answerOf parsed body with
      | none =>
        simp only
        split
        · exact inv.same rfl rfl rfl
        · exact inv
      | some answer =>
        obtain ⟨id, outcome⟩ := answer
        have fine := fun open' => considerate receiving open' parsed body id outcome read meaning
        by_cases somebody : ∃ index forward, state.forwards index = some forward ∧
            forward.id = id ∧ forward.phase = .waiting
        · obtain ⟨index, forward, found, rfl, waiting⟩ := somebody
          exact inv.answered_waiting found waiting outcome
        · apply inv.answered_nobody outcome
          · intro index forward found named waiting
            exact somebody ⟨index, forward, found, named, waiting⟩
          · intro open' index forward found named
            exact (fine open' index forward found named).resolve_left
              fun waiting => somebody ⟨index, forward, found, named, waiting⟩
  · rw [if_neg receiving]
    exact inv

/-! ### Runs -/

theorem Inv.step (inv : Inv state) {step : Step} (considerate : Considerate reader state step) :
    Inv (state.step reader step) := by
  cases step with
  | forward binary => exact inv.forward considerate
  | sent index => exact inv.sent index
  | unsent index text => exact inv.unsent index text
  | timeout index => exact inv.timeout index
  | loopStarted =>
    change Inv state.loopStarted
    unfold State.loopStarted
    split
    · exact inv.same rfl rfl rfl
    · exact inv
  | received message => exact inv.received considerate
  | emitted =>
    change Inv state.emitted
    unfold State.emitted
    split
    · exact inv.same rfl rfl rfl
    · exact inv
  | connectionDied =>
    change Inv state.connectionDied
    unfold State.connectionDied
    split
    · exact (inv.drain .dropped).same rfl rfl rfl
    · exact inv
  | close =>
    change Inv (State.drain { state with client := false } .closed)
    have closed : Inv { state with client := false } := inv.same rfl rfl rfl
    exact closed.drain .closed

theorem connected_inv (dialed sink : Bool) : Inv (.connected dialed sink) := by
  constructor <;> simp [State.connected]

theorem run_inv {steps : List Step} (inv : Inv state)
    (considerate : ConsiderateRun reader steps state) : Inv (State.run reader steps state) := by
  induction steps generalizing state with
  | nil => exact inv
  | cons step rest ih => exact ih (inv.step considerate.1) considerate.2

/-- A waiting forward is resumed by its own timer if nothing else comes before. -/
theorem Inv.timer_resumes (inv : Inv state) {index : Nat} {forward : Forward}
    (found : state.forwards index = some forward) (waiting : forward.phase = .waiting) :
    ∃ after, (state.timeout index).forwards index = some after ∧ after.phase = .resumed .timeout ∧
      after.resumptions = 1 := by
  have accounted := inv.waiting_accounted found waiting
  refine ⟨resumedWith .timeout { forward with timer := false }, ?_, rfl, ?_⟩
  · rw [timeout_eq inv found waiting, State.resume, change_forwards]
    change Option.map _ ((state.change index _).forwards index) = _
    rw [change_forwards, found]
    simp only [Option.map_some, only_self]
    rfl
  · simp [resumedWith, accounted.1]

/-- In every considerate run answered forwards return their answers, and every continuation
is resumed exactly once. -/
theorem considerate_runs_keep_replies (reader : Reader) (dialed sink : Bool) (steps : List Step)
    (considerate : ConsiderateRun reader steps (.connected dialed sink)) :
    RepliesKept (State.run reader steps (.connected dialed sink)) := by
  have inv := run_inv (connected_inv dialed sink) considerate
  refine ⟨inv.answered, inv.accounted, ?_⟩
  intro index forward found waiting
  exact inv.timer_resumes found waiting

def replyText : String :=
  "\x7b\"type\":\"reply\",\"id\":\"br_2\",\"data\":7\x7d"

/-- `JSON.parse` on the reply to the first forward. -/
def replyReader : Reader where
  parse := fun text =>
    if text = replyText then
      some (.dict [("type", .str "reply"), ("id", .str "br_2"), ("data", .int 7)])
    else none
  decode := fun _ => none

/-- The send of the first forward returns before its reply comes. -/
theorem prompt_send_keeps_the_reply :
    RepliesKept (State.run replyReader
      [.loopStarted, .forward false, .sent 0, .received (.text replyText)]
      (.connected true true)) := by
  apply considerate_runs_keep_replies
  refine ⟨trivial, ?_, trivial, ?_, trivial⟩
  · intro _ index forward found
    cases found
  · intro _ _ parsed body id outcome _ _ index forward found _
    by_cases first : index = 0
    · subst first
      cases found
      exact .inl rfl
    · have nobody : (State.run replyReader [.loopStarted, .forward false, .sent 0]
          (.connected true true)).forwards index = none := by
        change Function.update (Function.update (fun _ => none) 0 _) 0 _ index = none
        rw [Function.update_of_ne first, Function.update_of_ne first]
      exact absurd (nobody.symm.trans found) (by simp)

/-- The reply comes while the send of its forward is under way, and the forward times out. -/
theorem early_reply_is_lost :
    ∃ forward, (State.run replyReader
        [.loopStarted, .forward false, .received (.text replyText), .sent 0, .timeout 0]
        (.connected true true)).forwards 0 = some forward ∧
      forward.answered = some (.answer (.int 7) []) ∧ forward.phase = .resumed .timeout ∧
      ¬ RepliesKept (State.run replyReader
        [.loopStarted, .forward false, .received (.text replyText), .sent 0, .timeout 0]
        (.connected true true)) := by
  have run : (State.run replyReader
      [.loopStarted, .forward false, .received (.text replyText), .sent 0, .timeout 0]
      (.connected true true)).forwards 0 = some
        { id := "br_2", binary := false, phase := .resumed .timeout, resumptions := 1
          timer := false, answered := some (.answer (.int 7) []) } :=
    rfl
  refine ⟨_, run, rfl, rfl, ?_⟩
  intro kept
  have returned := kept.1 0 _ _ run rfl
  simp at returned

end Fantastic.Swift.Transport

import Fantastic.Foundation.MessageLoop
import Fantastic.Python.FrameCodec
import Fantastic.Python.SocketProxy

/-!
# What the receive loop of a WebSocket survives

The loop of `run` in `web_ws/_proxy.py` on an open socket, message by message. Calls become
tasks; the other handlers run in the loop, behind the gate of the leg's record, and what they
raise ends it. A subscription sends its snapshot before the next message is taken.
-/

namespace Fantastic.Python.Socket

open Fantastic.Bridge (ActionKind Environment)

section

variable (runtime : Runtime) (env : Environment) (client : String) (decoder : Decoder)

/-- One message, up to where the loop receives again or has ended. `agents` is the snapshot. -/
def deliver (agents : Value) (state : State) (message : Message) : State :=
  let taken := state.step runtime env client (.receive (decodeFrame decoder message))
  if taken.session.phase = .subscribing then
    taken.step runtime env client (.snapshotSent agents)
  else taken

/-- The inline handler of the frame raises nothing. -/
def Handles (record : Option Dict) (frame : List (String × Value)) : Prop :=
  match field frame "type" .null with
  | .str "emit" => ∃ decision, gate runtime env record .emit "emit" frame = .ok decision ∧
      (decision.allowed = true → ∃ key, hashKey (field frame "target" (.str "")) = .ok key)
  | .str "watch" => ∃ decision, gate runtime env record .watch "watch" frame = .ok decision ∧
      (decision.allowed = true → truthy (field frame "src" (.str "")) = true →
        ∃ key, hashKey (field frame "src" (.str "")) = .ok key)
  | .str "unwatch" => ∃ key, hashKey (field frame "src" (.str "")) = .ok key
  | .str "state_subscribe" => ∃ decision,
      gate runtime env record .stateSubscribe "state_subscribe" frame = .ok decision
  | .list _ => False
  | .dict _ => False
  | _ => True

def Harmless (record : Option Dict) (message : Message) : Prop :=
  ∃ frame, decodeFrame decoder message = some (.dict frame) ∧ Handles runtime env record frame

/-- A call that the leg admits. -/
structure GoodCall (record : Option Dict) (message : Message) (frame : List (String × Value)) :
    Prop where
  decodes : decodeFrame decoder message = some (.dict frame)
  call : field frame "type" .null = .str "call"
  admitted : ∃ decision, gate runtime env record .call "call" frame = .ok decision ∧
    decision.allowed = true

/-- After the messages the call becomes a task, and its task hands it to the kernel. -/
def Dispatches (agents : Value) (state : State) (bad : List Message) (call : Message)
    (frame : List (String × Value)) : Prop :=
  let reached := bad.foldl (deliver runtime env client decoder agents) state
  ((reached.step runtime env client (.receive (decodeFrame decoder call))).step runtime env client
      (.callStart reached.session.spawned)).session.effects =
    reached.session.effects ++
      [.dispatched (field frame "target" (.str "")) (field frame "payload" (object []))]

end

/-- No task has a number that was not given out. -/
def Unissued (session : Session) : Prop :=
  ∀ number, session.spawned ≤ number → (session.calls number).phase ≠ .spawned

/-- The loop receives, on a connected socket. -/
structure Receiving (record : Option Dict) (state : State) : Prop where
  phase : state.session.phase = .reading
  link : state.session.link = true
  rule : state.hub.record = record
  unissued : Unissued state.session

/-- The loop is over. -/
structure Over (state : State) : Prop where
  reading : state.session.phase ≠ .reading
  subscribing : state.session.phase ≠ .subscribing
  unissued : Unissued state.session

/-! ### Records and calls are left alone -/

theorem watch_record (hub : Hub) (src tgt : String) : (hub.watch src tgt).record = hub.record := by
  unfold Hub.watch
  split
  · exact ensureInbox_record _ _
  · rfl

theorem unwatch_record (hub : Hub) (src tgt : String) :
    (hub.unwatch src tgt).record = hub.record := by
  unfold Hub.unwatch
  split <;> rfl

theorem put_record (hub : Hub) (payload : Value) (id : String) :
    (hub.put payload id).record = hub.record := by
  unfold Hub.put
  split <;> rfl

theorem fanout_record (hub : Hub) (agent : String) (payload : Value) :
    (hub.fanout agent payload).record = hub.record := by
  unfold Hub.fanout
  generalize agent :: hub.watchers agent = ids
  induction ids generalizing hub with
  | nil => rfl
  | cons id ids ih => rw [List.foldl_cons, ih, put_record]

section

variable {runtime : Runtime} {env : Environment} {client : String} {decoder : Decoder}
  {agents : Value} {record : Option Dict} {state : State}

theorem leave_over (unissued : Unissued state.session) : Over (state.leave client) := by
  unfold State.leave State.cleanup
  split <;> exact ⟨by simp, by simp, unissued⟩

/-! ### One frame -/

theorem Receiving.onEmit (receiving : Receiving record state) {frame : List (String × Value)}
    {key : DictKey} (hashed : hashKey (field frame "target" (.str "")) = .ok key) :
    Receiving record (state.onEmit client frame) := by
  unfold State.onEmit
  dsimp only
  rw [hashed]
  dsimp only
  split
  · exact ⟨receiving.phase, receiving.link, (fanout_record _ _ _).trans receiving.rule,
      receiving.unissued⟩
  · exact ⟨receiving.phase, receiving.link, receiving.rule, receiving.unissued⟩

theorem Receiving.onWatch (receiving : Receiving record state) {frame : List (String × Value)}
    (hashed : truthy (field frame "src" (.str "")) = true →
      ∃ key, hashKey (field frame "src" (.str "")) = .ok key) :
    Receiving record (state.onWatch client frame) := by
  unfold State.onWatch
  dsimp only
  split
  case isTrue => exact receiving
  case isFalse named =>
      obtain ⟨key, same⟩ := hashed (by simpa using named)
      rw [same]
      split
      case h_1 impossible => cases impossible
      case h_2 =>
          split
          · exact receiving
          · exact ⟨receiving.phase, receiving.link, (watch_record _ _ _).trans receiving.rule,
              receiving.unissued⟩
      case h_3 => exact receiving

theorem Receiving.onUnwatch (receiving : Receiving record state) {frame : List (String × Value)}
    {key : DictKey} (hashed : hashKey (field frame "src" (.str "")) = .ok key) :
    Receiving record (state.onUnwatch client frame) := by
  unfold State.onUnwatch
  dsimp only
  rw [hashed]
  split
  case h_1 impossible => cases impossible
  case h_2 =>
      split
      · exact ⟨receiving.phase, receiving.link, (unwatch_record _ _ _).trans receiving.rule,
          receiving.unissued⟩
      · exact receiving
  case h_3 => exact receiving

theorem Receiving.gated (receiving : Receiving record state) {kind : ActionKind}
    {kindName : String} {frame : List (String × Value)} {allowed : State → State}
    {decision : Bridge.Python.Decision}
    (decided : gate runtime env record kind kindName frame = .ok decision) :
    state.gated runtime env client kind kindName frame allowed =
      if decision.allowed then allowed state else state := by
  unfold State.gated
  rw [receiving.rule, decided]

theorem Receiving.spawnCall (receiving : Receiving record state)
    (frame : List (String × Value)) :
    Receiving record { state with session := state.session.spawnCall frame } := by
  refine ⟨receiving.phase, receiving.link, receiving.rule, ?_⟩
  intro number later
  have beyond : state.session.spawned + 1 ≤ number := later
  have different : number ≠ state.session.spawned := by omega
  have same : ((state.session.spawnCall frame).calls number) = state.session.calls number :=
    Function.update_of_ne different _ _
  rw [same]
  exact receiving.unissued number (by omega)

/-- The loop receives again, or it waits for the snapshot to be sent. -/
theorem Receiving.onFrame (receiving : Receiving record state) {frame : List (String × Value)}
    (handles : Handles runtime env record frame) :
    Receiving record (state.onFrame runtime env client (.dict frame)) ∨
      (state.onFrame runtime env client (.dict frame)).session.phase = .subscribing ∧
        Receiving record (state.onFrame runtime env client (.dict frame)).subscribe := by
  unfold Handles at handles
  unfold State.onFrame
  dsimp only
  split
  case h_1 call => exact .inl (receiving.spawnCall frame)
  case h_2 emit =>
      rw [emit] at handles
      obtain ⟨decision, decided, hashed⟩ := handles
      rw [receiving.gated decided]
      left
      split
      case isTrue allowed =>
          obtain ⟨key, same⟩ := hashed allowed
          exact receiving.onEmit same
      case isFalse => exact receiving
  case h_3 watch =>
      rw [watch] at handles
      obtain ⟨decision, decided, hashed⟩ := handles
      rw [receiving.gated decided]
      left
      split
      case isTrue allowed => exact receiving.onWatch (hashed allowed)
      case isFalse => exact receiving
  case h_4 unwatch =>
      rw [unwatch] at handles
      obtain ⟨key, same⟩ := handles
      exact .inl (receiving.onUnwatch same)
  case h_5 subscribe =>
      rw [subscribe] at handles
      obtain ⟨decision, decided⟩ := handles
      rw [receiving.gated decided]
      split
      case isTrue =>
          right
          unfold State.onStateSubscribe
          rw [if_pos receiving.link]
          exact ⟨rfl, ⟨rfl, receiving.link, receiving.rule, receiving.unissued⟩⟩
      case isFalse => exact .inl receiving
  case h_6 =>
      exact .inl ⟨receiving.phase, receiving.link, receiving.rule, receiving.unissued⟩
  case h_7 items kind =>
      rw [kind] at handles
      exact handles.elim
  case h_8 members kind =>
      rw [kind] at handles
      exact handles.elim
  case h_9 => exact .inl receiving

theorem Receiving.deliver (receiving : Receiving record state) {message : Message}
    (harmless : Harmless runtime env decoder record message) :
    Receiving record (deliver runtime env client decoder agents state message) := by
  obtain ⟨frame, decodes, handles⟩ := harmless
  unfold Socket.deliver
  simp only [State.step, receiving.phase, if_true, decodes]
  cases receiving.onFrame handles with
  | inl again =>
    rw [if_neg]
    · exact again
    · rw [again.phase]
      exact LoopPhase.noConfusion
  | inr waiting =>
    rw [if_pos waiting.1, if_pos waiting.1]
    exact ⟨waiting.2.phase, waiting.2.link, waiting.2.rule, waiting.2.unissued⟩

theorem Receiving.gated_over (receiving : Receiving record state) {kind : ActionKind}
    {kindName : String} {frame : List (String × Value)} {allowed : State → State}
    (ends : ∀ decision, gate runtime env record kind kindName frame = .ok decision →
      decision.allowed = true ∧ Over (allowed state)) :
    Over (state.gated runtime env client kind kindName frame allowed) := by
  unfold State.gated
  rw [receiving.rule]
  split
  case h_1 => exact leave_over receiving.unissued
  case h_2 decision decided =>
      obtain ⟨admitted, done⟩ := ends decision decided
      rw [if_pos admitted]
      exact done

theorem hashKey_unkeyed {value : Value} (unkeyed : ¬ ∃ key, hashKey value = .ok key) :
    hashKey value = .error .typeError := by
  cases value <;> simp [hashKey] at unkeyed ⊢

theorem Receiving.onEmit_over (receiving : Receiving record state)
    {frame : List (String × Value)}
    (unkeyed : ¬ ∃ key, hashKey (field frame "target" (.str "")) = .ok key) :
    Over (state.onEmit client frame) := by
  unfold State.onEmit
  dsimp only
  rw [hashKey_unkeyed unkeyed]
  exact leave_over receiving.unissued

theorem Receiving.onWatch_over (receiving : Receiving record state)
    {frame : List (String × Value)} (named : truthy (field frame "src" (.str "")) = true)
    (unkeyed : ¬ ∃ key, hashKey (field frame "src" (.str "")) = .ok key) :
    Over (state.onWatch client frame) := by
  unfold State.onWatch
  dsimp only
  rw [named, hashKey_unkeyed unkeyed]
  exact leave_over receiving.unissued

theorem Receiving.onUnwatch_over (receiving : Receiving record state)
    {frame : List (String × Value)}
    (unkeyed : ¬ ∃ key, hashKey (field frame "src" (.str "")) = .ok key) :
    Over (state.onUnwatch client frame) := by
  unfold State.onUnwatch
  dsimp only
  rw [hashKey_unkeyed unkeyed]
  exact leave_over receiving.unissued

/-- What is not harmless ends the loop. -/
theorem Receiving.over_of_harmful (receiving : Receiving record state) {message : Message}
    (harmful : ¬ Harmless runtime env decoder record message) :
    Over (Socket.deliver runtime env client decoder agents state message) := by
  have settle {taken : State} (done : Over taken) :
      Over (if taken.session.phase = .subscribing then
        taken.step runtime env client (.snapshotSent agents) else taken) := by
    rw [if_neg done.subscribing]
    exact done
  unfold Socket.deliver
  simp only
  apply settle
  simp only [State.step, receiving.phase, if_true]
  cases decoded : decodeFrame decoder message with
  | none => exact leave_over receiving.unissued
  | some value =>
    cases value with
    | dict frame =>
      have raises : ¬ Handles runtime env record frame := by
        intro handles
        exact harmful ⟨frame, decoded, handles⟩
      unfold Handles at raises
      simp only [State.onFrame]
      split
      case h_1 call =>
          rw [call] at raises
          exact absurd trivial raises
      case h_2 emit =>
          rw [emit] at raises
          apply receiving.gated_over
          intro decision decided
          have unkeyed : decision.allowed = true ∧
              ¬ ∃ key, hashKey (field frame "target" (.str "")) = .ok key := by
            apply Classical.byContradiction
            intro fine
            exact raises ⟨decision, decided, fun allowed => Classical.byContradiction
              fun unkeyed => fine ⟨allowed, unkeyed⟩⟩
          exact ⟨unkeyed.1, receiving.onEmit_over unkeyed.2⟩
      case h_3 watch =>
          rw [watch] at raises
          apply receiving.gated_over
          intro decision decided
          have unkeyed : decision.allowed = true ∧ truthy (field frame "src" (.str "")) = true ∧
              ¬ ∃ key, hashKey (field frame "src" (.str "")) = .ok key := by
            apply Classical.byContradiction
            intro fine
            exact raises ⟨decision, decided, fun allowed named => Classical.byContradiction
              fun unkeyed => fine ⟨allowed, named, unkeyed⟩⟩
          exact ⟨unkeyed.1, receiving.onWatch_over unkeyed.2.1 unkeyed.2.2⟩
      case h_4 unwatch =>
          rw [unwatch] at raises
          exact receiving.onUnwatch_over raises
      case h_5 subscribe =>
          rw [subscribe] at raises
          apply receiving.gated_over
          intro decision decided
          exact absurd ⟨decision, decided⟩ raises
      case h_6 unsubscribe =>
          rw [unsubscribe] at raises
          exact absurd trivial raises
      case h_7 => exact leave_over receiving.unissued
      case h_8 => exact leave_over receiving.unissued
      case h_9 no1 no2 no3 no4 no5 no6 no7 no8 =>
          exfalso
          apply raises
          split
          case h_1 emit => exact absurd emit no2
          case h_2 watch => exact absurd watch no3
          case h_3 unwatch => exact absurd unwatch no4
          case h_4 subscribe => exact absurd subscribe no5
          case h_5 kind => exact absurd kind (no7 _)
          case h_6 kind => exact absurd kind (no8 _)
          case h_7 => exact trivial
    | _ => exact leave_over receiving.unissued

theorem Over.receive (done : Over state) (frame : Option Value) :
    state.step runtime env client (.receive frame) = state := by
  simp only [State.step]
  rw [if_neg done.reading]

theorem Over.deliver (done : Over state) (message : Message) :
    Socket.deliver runtime env client decoder agents state message = state := by
  unfold Socket.deliver
  simp only
  rw [done.receive, if_neg done.subscribing]

/-! ### A call that follows -/

theorem GoodCall.dispatched {message : Message} {frame : List (String × Value)}
    (good : GoodCall runtime env decoder record message frame)
    (receiving : Receiving record state) :
    ((state.step runtime env client (.receive (decodeFrame decoder message))).step runtime env
        client (.callStart state.session.spawned)).session.effects =
      state.session.effects ++
        [.dispatched (field frame "target" (.str "")) (field frame "payload" (object []))] := by
  obtain ⟨decision, decided, allowed⟩ := good.admitted
  have taken : state.step runtime env client (.receive (decodeFrame decoder message)) =
      { state with session := state.session.spawnCall frame } := by
    simp only [State.step, receiving.phase, if_true, good.decodes, State.onFrame, good.call]
  have spawned : (state.session.spawnCall frame).calls state.session.spawned =
      { frame := frame, phase := .spawned, answers := 0 } := Function.update_self _ _ _
  have reading : (state.session.spawnCall frame).phase = .reading := receiving.phase
  rw [taken]
  simp only [State.step, spawned, reading, ne_eq, reduceCtorEq, not_false_eq_true, and_self,
    if_true, State.callStart, receiving.rule, decided, allowed]
  rfl

/-- A good call is dispatched exactly after a sequence of harmless messages. -/
theorem dispatches_iff (receiving : Receiving record state) {call : Message}
    {frame : List (String × Value)} (good : GoodCall runtime env decoder record call frame)
    (bad : List Message) :
    Dispatches runtime env client decoder agents state bad call frame ↔
      ∀ message ∈ bad, Harmless runtime env decoder record message := by
  have stays (next : State) (message : Message) (receiving : Receiving record next)
      (harmless : Harmless runtime env decoder record message) :
      Receiving record (deliver runtime env client decoder agents next message) :=
    receiving.deliver harmless
  have ends (next : State) (message : Message) (receiving : Receiving record next)
      (harmful : ¬ Harmless runtime env decoder record message) :
      Over (deliver runtime env client decoder agents next message) :=
    receiving.over_of_harmful harmful
  have ended (next : State) (message : Message) (done : Over next) :
      Over (deliver runtime env client decoder agents next message) := by
    rw [done.deliver]
    exact done
  have hidden (next : State) (done : Over next) :
      ¬ ((next.step runtime env client (.receive (decodeFrame decoder call))).step runtime env
          client (.callStart next.session.spawned)).session.effects =
        next.session.effects ++
          [.dispatched (field frame "target" (.str "")) (field frame "payload" (object []))] := by
    rw [done.receive]
    simp only [State.step]
    rw [if_neg (fun started => done.unissued _ (Nat.le_refl _) started.1)]
    simp
  exact MessageLoop.shows_iff stays ends ended (fun next reading => good.dispatched reading) hidden
    bad state receiving

end

end Fantastic.Python.Socket

import Fantastic.Swift.WebSocket

/-!
# What a sealed Swift web leg lets through

The gate stands before the two kinds of call and nowhere else. The seal is kept when the
agent of the URL does not exist, when the peer sends no emit and watches no agent that is
there, and when nobody else addresses the client's inbox.
-/

namespace Fantastic.Swift

/-! ### Inboxes and watchers under the kernel's operations -/

namespace Kernel

/-- What lies in the inbox of an id. -/
def held (kernel : Kernel) (id : String) : List Value :=
  (kernel.inboxes.get? id).getD []

theorem ensureInbox_held (kernel : Kernel) (id other : String) :
    (kernel.ensureInbox id).held other = kernel.held other := by
  unfold ensureInbox held
  by_cases known : kernel.inboxes.contains id = true
  · rw [if_pos known]
  · rw [if_neg known, OrderedDict.get?_insert]
    by_cases same : other = id
    · subst same
      have absent : kernel.inboxes.get? other = none := by
        rw [OrderedDict.get?_eq_none_iff, ← OrderedDict.contains_iff]
        exact known
      rw [if_pos rfl, absent]
      rfl
    · rw [if_neg same]

@[simp] theorem deliverToInbox_heap (kernel : Kernel) (id : String) (payload : Value) :
    (kernel.deliverToInbox id payload).heap = kernel.heap := by
  simp [deliverToInbox]

theorem deliverToInbox_held {kernel : Kernel} {id other : String} (payload : Value)
    (different : other ≠ id) : (kernel.deliverToInbox id payload).held other = kernel.held other := by
  rw [← ensureInbox_held kernel id other]
  unfold deliverToInbox held
  rw [OrderedDict.get?_insert_of_ne _ _ different]

theorem fanoutToWatchers_heap (kernel : Kernel) (target : Agent) (payload : Value) :
    (kernel.fanoutToWatchers target payload).heap = kernel.heap := by
  unfold fanoutToWatchers
  induction target.watcherIds generalizing kernel with
  | nil => rfl
  | cons watcher watchers ih => simp [ih]

theorem fanoutToWatchers_held {kernel : Kernel} {target : Agent} {other : String} (payload : Value)
    (apart : other ∉ target.watcherIds) :
    (kernel.fanoutToWatchers target payload).held other = kernel.held other := by
  unfold fanoutToWatchers
  generalize target.watcherIds = watchers at apart
  induction watchers generalizing kernel with
  | nil => rfl
  | cons watcher watchers ih =>
    rw [List.mem_cons, not_or] at apart
    rw [List.foldl_cons, ih apart.2, deliverToInbox_held payload apart.1]

theorem emit_heap (kernel : Kernel) (target : String) (payload : Value) :
    (kernel.emit target payload).heap = kernel.heap := by
  unfold emit
  simp only
  split
  · exact deliverToInbox_heap kernel target payload
  · rw [fanoutToWatchers_heap, deliverToInbox_heap]

theorem emit_held {kernel : Kernel} {target other : String} (payload : Value)
    (different : other ≠ target) (apart : ∀ ref, other ∉ (kernel.heap ref).watcherIds) :
    (kernel.emit target payload).held other = kernel.held other := by
  unfold emit
  simp only
  split
  · exact deliverToInbox_held payload different
  case h_2 agent found =>
    rw [fanoutToWatchers_held, deliverToInbox_held payload different]
    obtain ⟨ref, _, rfl⟩ := Option.map_eq_some_iff.mp found
    rw [deliverToInbox_heap]
    exact apart ref

theorem modify_watchers {kernel : Kernel} {ref : Nat} {change : Agent → Agent} {id : String}
    (apart : ∀ other, id ∉ (kernel.heap other).watcherIds)
    (kept : id ∉ (change (kernel.heap ref)).watcherIds) (other : Nat) :
    id ∉ ((kernel.modify ref change).heap other).watcherIds := by
  unfold modify
  by_cases same : other = ref
  · subst same
    simpa using kept
  · simpa [same] using apart other

theorem unwatch_watchers {kernel : Kernel} {src watcher id : String}
    (apart : ∀ ref, id ∉ (kernel.heap ref).watcherIds) (ref : Nat) :
    id ∉ ((kernel.unwatch src watcher).heap ref).watcherIds := by
  unfold unwatch
  split
  · exact apart ref
  case h_2 found _ =>
    apply modify_watchers apart
    intro listed
    exact apart found (List.mem_of_mem_filter listed)

theorem unwatch_inboxes (kernel : Kernel) (src watcher : String) :
    (kernel.unwatch src watcher).inboxes = kernel.inboxes := by
  unfold unwatch
  split <;> rfl

theorem watch_watchers {kernel : Kernel} {src watcher id : String}
    (apart : ∀ ref, id ∉ (kernel.heap ref).watcherIds)
    (fine : id ≠ watcher ∨ kernel.agents.get? src = none) (ref : Nat) :
    id ∉ ((kernel.watch src watcher).heap ref).watcherIds := by
  unfold watch
  split
  · rw [ensureInbox_heap]
    exact apart ref
  case h_2 found present =>
    rw [ensureInbox_heap]
    apply modify_watchers apart
    cases fine with
    | inl different =>
      unfold Agent.addWatcher
      simp only
      split
      · exact apart found
      · simp [different, apart found]
    | inr absent =>
      rw [absent] at present
      cases present

theorem watch_held (kernel : Kernel) (src watcher other : String) :
    (kernel.watch src watcher).held other = kernel.held other := by
  unfold watch
  split
  · exact ensureInbox_held kernel watcher other
  · exact ensureInbox_held _ watcher other

end Kernel

namespace Proxy

/-! ### The seal -/

/-- Everything but a reply. -/
def Effect.crosses : Effect → Bool
  | .reply _ _ => false
  | .binaryReply _ _ _ => false
  | _ => true

/-- Nothing was done in the kernel for the peer and no event was written to it, and no agent
has the client for a watcher. -/
def SealKept (connection : Connection) : Prop :=
  (∀ effect ∈ connection.effects, effect.crosses = false) ∧
    ∀ id agent, connection.kernel.agent id = some agent → connection.clientId ∉ agent.watcherIds

/-- A client id that the kernel has not seen: no watcher set and no inbox with anything in
it has it. -/
def Unknown (kernel : Kernel) (clientId : String) : Prop :=
  (∀ ref, clientId ∉ (kernel.heap ref).watcherIds) ∧ kernel.held clientId = []

/-- The URL names no agent, the peer neither emits nor watches an agent that is there, and
nobody else emits to the client's id or watches under it. -/
def Considerate (host : Host) (connection : Connection) : Step → Prop
  | .handlerAdded => connection.kernel.agent connection.hostId = none
  | .text text => ∀ parsed, host.parse text = some parsed →
      asString (member parsed "type") ≠ some "emit" ∧
        (asString (member parsed "type") = some "watch" →
          ∀ src, asString (member parsed "src") = some src →
            src ∈ connection.watching ∨ connection.kernel.agent src = none)
  | .emitted target _ => target ≠ connection.clientId
  | .watched _ watcher => watcher ≠ connection.clientId
  | _ => True

/-- The leg is sealed before every step, and every step is considerate. -/
def SealedRun (host : Host) : List Step → Connection → Prop
  | [], _ => True
  | step :: rest, connection =>
    Sealed connection.kernel connection.legId ∧ Considerate host connection step ∧
      SealedRun host rest (connection.step host step)

/-- What every considerate step keeps. -/
structure Shut (connection : Connection) : Prop where
  quiet : ∀ effect ∈ connection.effects, effect.crosses = false
  unwatched : ∀ ref, connection.clientId ∉ (connection.kernel.heap ref).watcherIds
  empty : connection.kernel.held connection.clientId = []
  calls : ∀ target payload, .emit target payload ∉ connection.tasks

theorem Shut.sealKept {connection : Connection} (shut : Shut connection) : SealKept connection := by
  refine ⟨shut.quiet, ?_⟩
  intro id agent found
  obtain ⟨ref, _, rfl⟩ := Option.map_eq_some_iff.mp found
  exact shut.unwatched ref

variable {host : Host} {connection : Connection}

theorem Shut.elsewhere (shut : Shut connection) {change : Kernel → Kernel}
    (unwatched : ∀ ref, connection.clientId ∉ ((change connection.kernel).heap ref).watcherIds)
    (empty : (change connection.kernel).held connection.clientId = []) :
    Shut (connection.elsewhere change) :=
  ⟨shut.quiet, unwatched, empty, shut.calls⟩

theorem Shut.start (shut : Shut connection) {task : PeerTask}
    (call : ∀ target payload, task ≠ .emit target payload) : Shut (connection.start task) := by
  refine ⟨shut.quiet, shut.unwatched, shut.empty, ?_⟩
  intro target payload listed
  cases List.mem_append.mp listed with
  | inl old => exact shut.calls target payload old
  | inr new => exact call target payload (List.mem_singleton.mp new).symm

/-- A watch on an agent that is not there registers nothing. -/
theorem Shut.watchFor (shut : Shut connection) {src : String}
    (absent : connection.kernel.agent src = none) : Shut (connection.watchFor src) := by
  have unlisted : connection.kernel.agents.get? src = none := Option.map_eq_none_iff.mp absent
  refine ⟨?_, ?_, ?_, shut.calls⟩
  · simpa [Connection.watchFor, absent] using shut.quiet
  · exact Kernel.watch_watchers shut.unwatched (.inr unlisted)
  · rw [Connection.watchFor, Kernel.watch_held]
    exact shut.empty

theorem Shut.perform (shut : Shut connection) {id : String} {data : Value} :
    Shut (connection.perform [.reply id data]) := by
  refine ⟨?_, shut.unwatched, shut.empty, shut.calls⟩
  intro effect listed
  cases List.mem_append.mp listed with
  | inl old => exact shut.quiet effect old
  | inr new =>
    rw [List.mem_singleton.mp new]
    rfl

theorem Shut.unwatch (shut : Shut connection) (src : String) (watching : List String) :
    Shut { connection with
      kernel := connection.kernel.unwatch src connection.clientId
      watching := watching } := by
  refine ⟨shut.quiet, Kernel.unwatch_watchers shut.unwatched, ?_, shut.calls⟩
  rw [Kernel.held, Kernel.unwatch_inboxes]
  exact shut.empty

theorem Shut.handlerAdded (shut : Shut connection)
    (absent : connection.kernel.agent connection.hostId = none) :
    Shut connection.handlerAdded := by
  have still : (connection.kernel.ensureInbox connection.clientId).agent connection.hostId =
      none := by
    simpa [Kernel.agent] using absent
  unfold Connection.handlerAdded
  simp only [still, Option.isSome_none, Bool.false_eq_true, if_false]
  refine ⟨shut.quiet, ?_, ?_, shut.calls⟩
  · simpa using shut.unwatched
  · rw [Kernel.ensureInbox_held]
    exact shut.empty

theorem Shut.handleText (shut : Shut connection) {text : String}
    (considerate : Considerate host connection (.text text)) :
    Shut (connection.handleText host text) := by
  unfold Connection.handleText
  cases read : host.parse text with
  | none => exact shut
  | some parsed =>
    obtain ⟨notEmit, absent⟩ := considerate parsed read
    simp only
    split
    · exact shut.start (by simp)
    case h_2 emits => exact absurd emits notEmit
    case h_3 watches =>
      split
      · exact shut
      case h_2 src named =>
        split
        · exact shut
        case isFalse new =>
          exact shut.watchFor ((absent watches src named).resolve_left new)
    · split
      · exact shut
      · split
        · exact shut.unwatch _ _
        · exact shut
    · exact shut

theorem Shut.handleBinary (shut : Shut connection) (data : Bytes) :
    Shut (connection.handleBinary host data) := by
  unfold Connection.handleBinary
  split
  · exact shut
  · exact shut.start (by simp)

/-- Behind the seal both kinds of call end at the gate. -/
theorem Shut.execute (shut : Shut connection) (closed : Sealed connection.kernel connection.legId)
    {task : PeerTask} (call : ∀ target payload, task ≠ .emit target payload) :
    Shut (connection.execute host task) := by
  unfold Connection.execute
  split
  case h_1 target payload id token =>
    obtain ⟨denied, refused⟩ := gateWebLeg_sealed closed host.environment target
      ((asString (member payload "type")).getD "") token
    simp only [Connection.gate, refused]
    exact shut.perform
  case h_2 target payload => exact absurd rfl (call target payload)
  case h_3 target inner id token blob =>
    obtain ⟨denied, refused⟩ := gateWebLeg_sealed closed host.environment target
      ((asString (member inner "type")).getD "") token
    simp only [Connection.gate, refused]
    exact shut.perform

theorem Shut.runTask (shut : Shut connection) (closed : Sealed connection.kernel connection.legId)
    (index : Nat) : Shut (connection.runTask host index) := by
  unfold Connection.runTask
  split
  · exact shut
  case h_2 task found =>
    have listed := List.mem_of_getElem? found
    apply Shut.execute
    · refine ⟨shut.quiet, shut.unwatched, shut.empty, ?_⟩
      intro target payload remains
      exact shut.calls target payload (List.mem_of_mem_eraseIdx remains)
    · exact closed
    · intro target payload same
      exact shut.calls target payload (same ▸ listed)

theorem Shut.drain (shut : Shut connection) : Shut connection.drain := by
  have empty := shut.empty
  unfold Kernel.held at empty
  unfold Connection.drain
  rw [empty]
  cases connection.draining with
  | true => exact shut
  | false => exact shut

theorem Shut.teardown (shut : Shut connection) : Shut connection.teardown := by
  have folded : ∀ (watching : List String) (kernel : Kernel),
      (∀ ref, connection.clientId ∉ (kernel.heap ref).watcherIds) →
      (∀ ref, connection.clientId ∉ ((watching.foldl
        (fun kernel src => kernel.unwatch src connection.clientId) kernel).heap ref).watcherIds) ∧
      (watching.foldl (fun kernel src => kernel.unwatch src connection.clientId) kernel).inboxes =
        kernel.inboxes := by
    intro watching
    induction watching with
    | nil => exact fun kernel apart => ⟨apart, rfl⟩
    | cons src watching ih =>
      intro kernel apart
      obtain ⟨later, same⟩ := ih (kernel.unwatch src connection.clientId)
        (Kernel.unwatch_watchers apart)
      exact ⟨later, same.trans (Kernel.unwatch_inboxes kernel src connection.clientId)⟩
  obtain ⟨unwatched, same⟩ := folded connection.watching connection.kernel shut.unwatched
  refine ⟨shut.quiet, unwatched, ?_, shut.calls⟩
  rw [Kernel.held, Connection.teardown, same]
  exact shut.empty

theorem Shut.step (shut : Shut connection) (closed : Sealed connection.kernel connection.legId)
    {step : Step} (considerate : Considerate host connection step) :
    Shut (connection.step host step) := by
  cases step with
  | handlerAdded => exact shut.handlerAdded considerate
  | text text => exact shut.handleText considerate
  | binary data => exact shut.handleBinary data
  | runTask index => exact shut.runTask closed index
  | drain => exact shut.drain
  | teardown => exact shut.teardown
  | emitted target payload =>
    rw [Connection.step]
    apply shut.elsewhere
    · rw [Kernel.emit_heap]
      exact shut.unwatched
    · rw [Kernel.emit_held payload (Ne.symm considerate) shut.unwatched]
      exact shut.empty
  | fannedOut target payload =>
    rw [Connection.step]
    apply shut.elsewhere
    · split
      · exact shut.unwatched
      · rw [Kernel.fanoutToWatchers_heap]
        exact shut.unwatched
    · split
      · exact shut.empty
      case h_2 agent found =>
        obtain ⟨ref, _, rfl⟩ := Option.map_eq_some_iff.mp found
        rw [Kernel.fanoutToWatchers_held payload (shut.unwatched ref)]
        exact shut.empty
  | watched src watcher =>
    rw [Connection.step]
    apply shut.elsewhere
    · exact Kernel.watch_watchers shut.unwatched (.inl (Ne.symm considerate))
    · rw [Kernel.watch_held]
      exact shut.empty
  | unwatched src watcher =>
    rw [Connection.step]
    apply shut.elsewhere
    · exact Kernel.unwatch_watchers shut.unwatched
    · rw [Kernel.held, Kernel.unwatch_inboxes]
      exact shut.empty
  | registered record rootPath =>
    rw [Connection.step]
    apply shut.elsewhere
    · intro ref
      simp only [Kernel.register, Kernel.ensureInbox_heap, Kernel.allocate]
      by_cases same : ref = connection.kernel.allocated
      · subst same
        simp [Agent.new]
      · simpa [same] using shut.unwatched ref
    · rw [Kernel.register, Kernel.ensureInbox_held]
      exact shut.empty
  | unregistered id =>
    rw [Connection.step]
    apply shut.elsewhere
    · exact shut.unwatched
    · rw [Kernel.held, Kernel.unregister, OrderedDict.get?_erase]
      split
      · rfl
      · exact shut.empty
  | patched id patch =>
    rw [Connection.step]
    apply shut.elsewhere
    · intro ref
      split
      · exact shut.unwatched ref
      case h_2 found _ => exact Kernel.modify_watchers shut.unwatched (shut.unwatched found) ref
    · split
      · exact shut.empty
      · exact shut.empty

theorem run_shut {steps : List Step} (shut : Shut connection)
    (sealed : SealedRun host steps connection) : Shut (Connection.run host steps connection) := by
  induction steps generalizing connection with
  | nil => exact shut
  | cons step rest ih =>
    obtain ⟨closed, considerate, later⟩ := sealed
    exact ih (shut.step closed considerate) later

theorem fresh_shut {kernel : Kernel} {hostId legId clientId : String}
    (unknown : Unknown kernel clientId) : Shut (.fresh kernel hostId legId clientId) :=
  ⟨by simp [Connection.fresh], unknown.1, unknown.2, by simp [Connection.fresh]⟩

/-- In every run of considerate steps a sealed leg keeps its seal. -/
theorem considerate_runs_keep_the_seal (host : Host) (kernel : Kernel)
    (hostId legId clientId : String) (steps : List Step) (unknown : Unknown kernel clientId)
    (sealed : SealedRun host steps (.fresh kernel hostId legId clientId)) :
    SealKept (Connection.run host steps (.fresh kernel hostId legId clientId)) :=
  (run_shut (fresh_shut unknown) sealed).sealKept

/-- A leg without a rule. -/
def bareLeg : Agent :=
  Agent.new { id := "web", handlerModule := some "web_ws.tools", parentId := some "kernel"
              metadata := .empty } []

/-- A kernel with the leg alone. -/
def legKernel : Kernel :=
  ((Kernel.fresh none 256).allocate bareLeg).register 0

def callText : String :=
  "\x7b\"type\":\"call\",\"target\":\"chat\",\"id\":\"1\",\"payload\":\x7b\"type\":\"reflect\"\x7d\x7d"

/-- `JSON.parse` on one call frame, and a kernel that answers nothing. -/
def callHost : Host where
  parse := fun text =>
    if text = callText then some (.dict [("type", .str "call"), ("target", .str "chat"),
      ("id", .str "1"), ("payload", .dict [("type", .str "reflect")])])
    else none
  decode := fun _ => none
  environment := fun _ => none
  send := fun kernel _ _ => (kernel, .null)
  sendWithBinary := fun kernel _ _ _ => (kernel, .null, [])

/-- The peer of a sealed leg calls an agent that is not there, and is refused. -/
theorem refused_call_keeps_the_seal :
    SealKept (Connection.run callHost [.handlerAdded, .text callText, .runTask 0]
      (.fresh legKernel "chat" "web" "ws_client_1")) := by
  apply considerate_runs_keep_the_seal
  · constructor
    · intro ref
      by_cases leg : ref = 0
      · subst leg
        exact List.not_mem_nil
      · have bare : legKernel.heap ref = default := by
          simp [legKernel, Kernel.register, Kernel.allocate, Kernel.fresh, leg]
        rw [bare]
        exact List.not_mem_nil
    · rfl
  · refine ⟨⟨bareLeg, rfl, rfl⟩, rfl, ⟨bareLeg, rfl, rfl⟩, ?_, ⟨bareLeg, rfl, rfl⟩, trivial,
      trivial⟩
    intro parsed read
    have same : callHost.parse callText = some (.dict [("type", .str "call"),
        ("target", .str "chat"), ("id", .str "1"),
        ("payload", .dict [("type", .str "reflect")])]) := by
      simp [callHost]
    rw [same] at read
    cases read
    exact ⟨by decide, by decide⟩

/-- The same kernel with an agent beside the leg. -/
def chatKernel : Kernel :=
  (legKernel.allocate (Agent.new
    { id := "chat", handlerModule := none, parentId := some "kernel", metadata := .empty } [])).register 1

/-- With the agent of the URL in place the connection alone is enough: the sealed leg watches
it for the peer. -/
theorem connection_watches_through_the_seal :
    Sealed chatKernel "web" ∧
      ¬ SealKept (Connection.run callHost [.handlerAdded]
        (.fresh chatKernel "chat" "web" "ws_client_1")) := by
  refine ⟨⟨bareLeg, rfl, rfl⟩, ?_⟩
  intro kept
  have watched : Effect.watch "chat" ∈ (Connection.run callHost [.handlerAdded]
      (.fresh chatKernel "chat" "web" "ws_client_1")).effects := List.mem_singleton.mpr rfl
  exact absurd (kept.1 _ watched) (by decide)

end Proxy

end Fantastic.Swift

import Fantastic.Python.ChatStore

/-!
# What the chat store keeps

In every run the backend has at most one live chat store, and that is the one it uses. What an
acknowledged append put into it is loaded again as long as every load gets the file itself: a
conversation that is longer than one chunk of the stream comes back cut off.
-/

namespace Fantastic.Python.Ai.Chat

open YamlState (Yaml Answer Verdict Memory Alike listAt appended docOf sortKeys)

variable {runtime : Runtime} {yaml : Yaml} {table : CharTable} {backend : String}

theorem isChat_chatAgent (token : String) : isChat backend (chatAgent backend token) = true := by
  simp [isChat, chatAgent]

namespace World

variable {world : World} {client token id : String} {items : List Value}

/-- One chat store at most, and no other agent goes by the id that is remembered. -/
structure Settled (backend : String) (world : World) : Prop where
  distinct : (world.agents.map Agent.id).Nodup
  one : (world.agents.filter (isChat backend)).length ≤ 1
  remembered : ∀ id, world.cached = some id → ∀ agent ∈ world.agents, agent.id = id →
    isChat backend agent = true

theorem live_iff : world.live id = true ↔ ∃ agent ∈ world.agents, agent.id = id := by
  simp [live]

theorem store_mem (lives : world.store backend = some id) :
    ∃ agent ∈ world.agents, agent.id = id ∧ isChat backend agent = true := by
  unfold store at lives
  obtain ⟨agent, found, named⟩ := Option.map_eq_some_iff.mp lives
  exact ⟨agent, List.mem_of_find?_eq_some found, named, List.find?_some found⟩

theorem filter_of_no_store (absent : world.store backend = none) :
    world.agents.filter (isChat backend) = [] := by
  rw [store, Option.map_eq_none_iff, List.find?_eq_none] at absent
  rw [List.filter_eq_nil_iff]
  exact absent

/-- Where there is one chat store, any agent that is one is the store. -/
theorem Settled.store_eq (settled : world.Settled backend) {agent : Agent}
    (here : agent ∈ world.agents) (chat : isChat backend agent = true) :
    world.store backend = some agent.id := by
  have kept : agent ∈ world.agents.filter (isChat backend) := List.mem_filter.mpr ⟨here, chat⟩
  have some := List.length_pos_of_mem kept
  have single : (world.agents.filter (isChat backend)).length = 1 := by
    have most := settled.one
    omega
  obtain ⟨only, same⟩ := List.length_eq_one_iff.mp single
  rw [same] at kept
  rw [store, ← List.head?_filter, same, List.mem_singleton.mp kept]
  rfl

/-- What `_ensure_chat_agent` can do: find the store, fail, or create it. -/
theorem Settled.ensure_cases (settled : world.Settled backend) (token : String) :
    (∃ id, world.store backend = some id ∧
        world.ensureChatAgent backend token = ({ world with cached := some id }, some id)) ∨
      (world.store backend = none ∧
        world.ensureChatAgent backend token = ({ world with cached := none }, none)) ∨
      (world.store backend = none ∧ world.live (mintedId token) = false ∧
        world.ensureChatAgent backend token =
          ({ world with
              agents := world.agents ++ [chatAgent backend token]
              cached := some (mintedId token) },
            some (mintedId token))) := by
  unfold ensureChatAgent
  cases known : world.cached.filter world.live with
  | some id =>
    obtain ⟨held, lives⟩ := Option.filter_eq_some_iff.mp known
    obtain ⟨agent, here, named⟩ := live_iff.mp lives
    have stored := settled.store_eq here (settled.remembered id held agent here named)
    rw [named] at stored
    exact Or.inl ⟨id, stored, by simp [← held]⟩
  | none =>
    cases found : world.agents.find? (isChat backend) with
    | some agent => exact Or.inl ⟨agent.id, by simp [store, found], rfl⟩
    | none =>
      have absent : world.store backend = none := by simp [store, found]
      cases taken : world.live (mintedId token) with
      | true => exact Or.inr (Or.inl ⟨absent, rfl⟩)
      | false => exact Or.inr (Or.inr ⟨absent, rfl, rfl⟩)

theorem Settled.ensure (settled : world.Settled backend) (token : String) :
    (world.ensureChatAgent backend token).1.Settled backend := by
  obtain ⟨id, stored, does⟩ | ⟨absent, does⟩ | ⟨absent, unused, does⟩ :=
    settled.ensure_cases token
  · rw [does]
    refine ⟨settled.distinct, settled.one, ?_⟩
    intro other same agent here named
    obtain ⟨chat, held, called, isStore⟩ := store_mem stored
    have equal : agent = chat := by
      apply List.inj_on_of_nodup_map settled.distinct here held
      rw [named, called, ← Option.some.inj same]
    rw [equal]
    exact isStore
  · rw [does]
    refine ⟨settled.distinct, settled.one, ?_⟩
    intro other same
    cases same
  · rw [does]
    have fresh : ∀ agent ∈ world.agents, agent.id ≠ mintedId token := by
      intro agent here named
      rw [live_iff.mpr ⟨agent, here, named⟩] at unused
      cases unused
    refine ⟨?_, ?_, ?_⟩
    · simp only [List.map_append, List.map_cons, List.map_nil]
      rw [List.nodup_append_comm, List.singleton_append, List.nodup_cons]
      refine ⟨?_, settled.distinct⟩
      intro taken
      obtain ⟨agent, here, named⟩ := List.mem_map.mp taken
      exact fresh agent here named
    · simp [filter_of_no_store absent, isChat_chatAgent]
    · intro other same agent here named
      cases same
      rw [List.mem_append, List.mem_singleton] at here
      cases here with
      | inl old => exact absurd named (fresh agent old)
      | inr new =>
        rw [new]
        exact isChat_chatAgent token

/-- The id that is found or created is the store's. -/
theorem Settled.ensure_store (settled : world.Settled backend)
    (answers : (world.ensureChatAgent backend token).2 = some id) :
    (world.ensureChatAgent backend token).1.store backend = some id := by
  obtain ⟨other, stored, does⟩ | ⟨absent, does⟩ | ⟨absent, unused, does⟩ :=
    settled.ensure_cases token
  · rw [does] at answers ⊢
    rw [← Option.some.inj answers]
    exact stored
  · rw [does] at answers
    cases answers
  · have here := settled.ensure token
    rw [does] at answers here ⊢
    rw [← Option.some.inj answers]
    exact here.store_eq (List.mem_append_right _ (List.mem_singleton.mpr rfl))
      (isChat_chatAgent token)

/-- A store that is there is the one that is found. -/
theorem Settled.ensure_kept (settled : world.Settled backend)
    (lives : world.store backend = some id) (token : String) :
    world.ensureChatAgent backend token = ({ world with cached := some id }, some id) := by
  obtain ⟨other, stored, does⟩ | ⟨absent, _⟩ | ⟨absent, _⟩ := settled.ensure_cases token
  · rw [lives, Option.some.injEq] at stored
    rw [stored]
    exact does
  · rw [lives] at absent
    cases absent
  · rw [lives] at absent
    cases absent

@[simp] theorem ensure_memories (world : World) (backend token : String) :
    (world.ensureChatAgent backend token).1.memories = world.memories := by
  unfold ensureChatAgent
  split
  · rfl
  · split
    · rfl
    · split <;> rfl

/-- Agents go away; none becomes a store that was not one. -/
theorem Settled.filter (settled : world.Settled backend) (keep : Agent → Bool)
    (memories : String → Memory) {cached : Option String}
    (fewer : ∀ id, cached = some id → world.cached = some id) :
    ({ agents := world.agents.filter keep, cached := cached, memories := memories } :
      World).Settled backend := by
  refine ⟨?_, ?_, ?_⟩
  · exact settled.distinct.sublist (List.filter_sublist.map _)
  · have fewer : (world.agents.filter keep).Sublist world.agents := List.filter_sublist
    exact (fewer.filter (isChat backend)).length_le.trans settled.one
  · intro id held agent here
    exact settled.remembered id (fewer id held) agent (List.mem_filter.mp here).1

theorem Settled.ask (settled : world.Settled backend) (id : String) (move : YamlState.Move) :
    (world.ask runtime yaml id move).Settled backend :=
  ⟨settled.distinct, settled.one, settled.remembered⟩

theorem asked_memory (world : World) (id : String) (move : YamlState.Move) :
    (world.ask runtime yaml id move).memories id = (world.memories id).step runtime yaml move :=
  Function.update_self _ _ _

theorem unasked_memory {other : String} (world : World) (move : YamlState.Move)
    (apart : other ≠ id) :
    (world.ask runtime yaml id move).memories other = world.memories other :=
  Function.update_of_ne apart _ _

/-! ### What a load and an append come to -/

theorem parse_readPayload (runtime : Runtime) (key : String) :
    YamlState.parse runtime (readPayload key) = .ok (.read (.str key)) := by
  simp [YamlState.parse, readPayload, getD, OrderedDict.get?_insert]

theorem parse_appendPayload (runtime : Runtime) {key : String} (named : key ≠ "")
    (turns : List Value) :
    YamlState.parse runtime (appendPayload key turns) = .ok (.append key (.list turns)) := by
  simp [YamlState.parse, YamlState.keyAndValue, appendPayload, getD, OrderedDict.get?_insert,
    named]

theorem chatKey_ne_empty (table : CharTable) (client : String) : chatKey table client ≠ "" :=
  safeClient_ne_empty table _

theorem loadHistory_none {answer : Answer}
    (fails : (world.ensureChatAgent backend token).2 = none) :
    world.loadHistory runtime yaml table backend client token answer =
      ((world.ensureChatAgent backend token).1, .ok []) := by
  unfold loadHistory
  split
  case h_1 ready does => rw [does]
  case h_2 ready id does =>
    rw [does] at fails
    cases fails

theorem loadHistory_some {answer : Answer}
    (finds : (world.ensureChatAgent backend token).2 = some id) :
    world.loadHistory runtime yaml table backend client token answer =
      ((world.ensureChatAgent backend token).1.ask runtime yaml id
          (readMove (chatKey table client) answer),
        ((world.memories id).reply runtime yaml (readMove (chatKey table client) answer)).map
          fun reply => listAt (reply.get? "value")) := by
  have same := ensure_memories world backend token
  unfold loadHistory
  split
  case h_1 ready does =>
    rw [does] at finds
    cases finds
  case h_2 ready other does =>
    rw [does] at finds same ⊢
    cases finds
    simp only at same
    rw [same]

theorem saveHistory_none {turns : List Value} {answer : Answer} {verdict : Verdict}
    (fails : (world.ensureChatAgent backend token).2 = none) (some : turns ≠ []) :
    world.saveHistory runtime yaml table backend client turns token answer verdict =
      ((world.ensureChatAgent backend token).1, false) := by
  unfold saveHistory
  rw [if_neg some]
  split
  case h_1 ready does => rw [does]
  case h_2 ready id does =>
    rw [does] at fails
    cases fails

theorem saveHistory_some {turns : List Value} {answer : Answer} {verdict : Verdict}
    (finds : (world.ensureChatAgent backend token).2 = some id) (nonempty : turns ≠ []) :
    world.saveHistory runtime yaml table backend client turns token answer verdict =
      ((world.ensureChatAgent backend token).1.ask runtime yaml id
          (appendMove (chatKey table client) turns answer verdict),
        YamlState.acknowledged ((world.memories id).reply runtime yaml
          (appendMove (chatKey table client) turns answer verdict))) := by
  have same := ensure_memories world backend token
  unfold saveHistory
  rw [if_neg nonempty]
  split
  case h_1 ready does =>
    rw [does] at finds
    cases finds
  case h_2 ready other does =>
    rw [does] at finds same ⊢
    cases finds
    simp only at same
    rw [same]

/-- What any move does: nothing but to the agents, or one call to the store. -/
theorem Settled.step (settled : world.Settled backend) (move : Move) :
    (world.step runtime yaml table backend move).Settled backend := by
  cases move with
  | load client token answer =>
    rw [World.step]
    have ready := settled.ensure token
    cases finds : (world.ensureChatAgent backend token).2 with
    | none =>
      rw [loadHistory_none finds]
      exact ready
    | some id =>
      rw [loadHistory_some finds]
      exact ready.ask id _
  | append client turns token answer verdict =>
    rw [World.step]
    have ready := settled.ensure token
    by_cases nothing : turns = []
    · rw [saveHistory, if_pos nothing]
      exact settled
    · cases finds : (world.ensureChatAgent backend token).2 with
      | none =>
        rw [saveHistory_none finds nothing]
        exact ready
      | some id =>
        rw [saveHistory_some finds nothing]
        exact ready.ask id _
  | delete id => exact settled.filter _ _ (fun _ held => held)
  | restart flushed =>
    apply settled.filter
    intro id held
    cases held

theorem Settled.run (settled : world.Settled backend) (moves : List Move) :
    (world.run runtime yaml table backend moves).Settled backend :=
  Runs.invariant (fun _ move here => here.step move) moves settled

/-! ### What the files hold -/

/-- The file of every agent reads as its ledger does. -/
def Sound (yaml : Yaml) (world : World) : Prop :=
  ∀ id, (world.memories id).Sound yaml

theorem sound_opened (yaml : Yaml) {file : Option String}
    (fine : YamlState.Carried yaml.brings (docOf yaml file)) :
    (Memory.opened yaml file).Sound yaml :=
  ⟨fun _ => rfl, fine⟩

theorem Sound.update (sound : world.Sound yaml) {memory : Memory} (here : memory.Sound yaml)
    (other : String) : (Function.update world.memories id memory other).Sound yaml := by
  by_cases same : other = id
  · rw [same, Function.update_self]
    exact here
  · rw [Function.update_of_ne same]
    exact sound other

theorem Sound.ask (faithful : yaml.Faithful) (sound : world.Sound yaml)
    {move : YamlState.Move} (careful : (world.memories id).Careful runtime yaml move) :
    (world.ask runtime yaml id move).Sound yaml :=
  sound.update ((sound id).step faithful careful)

theorem Sound.ensure (sound : world.Sound yaml) (backend token : String) :
    (world.ensureChatAgent backend token).1.Sound yaml := by
  intro id
  rw [ensure_memories]
  exact sound id

theorem Sound.step (faithful : yaml.Faithful) (sound : world.Sound yaml) (move : Move)
    (careful : world.Careful runtime yaml table backend move) :
    (world.step runtime yaml table backend move).Sound yaml := by
  cases move with
  | load client token answer =>
    rw [World.step]
    have ready := sound.ensure backend token
    cases finds : (world.ensureChatAgent backend token).2 with
    | none =>
      rw [loadHistory_none finds]
      exact ready
    | some id =>
      rw [loadHistory_some finds]
      apply ready.ask faithful
      rw [ensure_memories]
      exact careful id finds
  | append client turns token answer verdict =>
    rw [World.step]
    have ready := sound.ensure backend token
    by_cases nothing : turns = []
    · rw [saveHistory, if_pos nothing]
      exact sound
    · cases finds : (world.ensureChatAgent backend token).2 with
      | none =>
        rw [saveHistory_none finds nothing]
        exact ready
      | some id =>
        rw [saveHistory_some finds nothing]
        apply ready.ask faithful
        rw [ensure_memories]
        exact careful nothing id finds
  | delete id => exact sound.update (sound_opened yaml (YamlState.carried_empty _))
  | restart flushed => exact sound

/-- A load answers with the acknowledged turns. -/
theorem Sound.load (faithful : yaml.Faithful) (sound : world.Sound yaml)
    (settled : world.Settled backend) (lives : world.store backend = some id)
    {answer : Answer}
    (careful : world.Careful runtime yaml table backend (.load client token answer)) :
    ∃ items, (world.loadHistory runtime yaml table backend client token answer).2 = .ok items ∧
      items.map sortKeys = (world.turns table backend client).map sortKeys := by
  have finds : (world.ensureChatAgent backend token).2 = some id := by
    rw [settled.ensure_kept lives]
  have honest := (sound id).honest faithful (careful id finds)
  obtain ⟨fields, replied, alike⟩ := honest.read _ (parse_readPayload runtime _)
  refine ⟨listAt (fields.get? "value"), ?_, ?_⟩
  · rw [loadHistory_some finds, replied]
    rfl
  · rw [Memory.listAt_map, alike, ← Memory.listAt_map]
    simp only [turns, lives]
    cases (world.memories id).ledger (chatKey table client) <;> rfl

/-! ### What is not lost -/

/-- The turns that were there are still there, in front. -/
def Extends (table : CharTable) (backend : String) (before after : World) : Prop :=
  ∀ client, before.turns table backend client <+: after.turns table backend client

theorem turns_of_store (lives : world.store backend = some id) (client : String) :
    world.turns table backend client =
      listAt ((world.memories id).ledger (chatKey table client)) := by
  simp only [turns, lives]

theorem ledger_read (memory : Memory) (key : String) (answer : Answer) :
    (memory.step runtime yaml (readMove key answer)).ledger = memory.ledger := by
  rw [Memory.step_of_parse (parse_readPayload runtime key)]
  simp [YamlState.Ledger.note]

theorem ledger_append (memory : Memory) {key : String} (named : key ≠ "") (turns : List Value)
    (answer : Answer) (verdict : Verdict) :
    (memory.step runtime yaml (appendMove key turns answer verdict)).ledger =
      if YamlState.acknowledged
          (memory.reply runtime yaml (appendMove key turns answer verdict)) then
        Function.update memory.ledger key
          (some (.list (listAt (memory.ledger key) ++ turns)))
      else memory.ledger := by
  have asks := parse_appendPayload runtime named turns
  rw [Memory.step_of_parse asks, Memory.reply_of_parse asks]
  rfl

/-- An append only adds, to whatever conversation. -/
theorem append_prefix (memory : Memory) {key : String} (named : key ≠ "") (turns : List Value)
    (answer : Answer) (verdict : Verdict) (other : String) :
    listAt (memory.ledger other) <+:
      listAt ((memory.step runtime yaml (appendMove key turns answer verdict)).ledger other) := by
  rw [ledger_append memory named]
  split
  case isTrue =>
    by_cases same : other = key
    · rw [same, Function.update_self]
      exact List.prefix_append _ _
    · rw [Function.update_of_ne same]
  case isFalse => exact List.prefix_rfl

theorem Settled.extends_step (settled : world.Settled backend)
    (lives : world.store backend = some id) (move : Move)
    (stays : Stays runtime yaml table backend id world move) :
    Extends table backend world (world.step runtime yaml table backend move) := by
  intro client
  rw [turns_of_store lives, turns_of_store stays]
  cases move with
  | load other token answer =>
    have finds : (world.ensureChatAgent backend token).2 = some id := by
      rw [settled.ensure_kept lives]
    rw [World.step, loadHistory_some finds]
    rw [asked_memory, ledger_read, ensure_memories]
  | append other turns token answer verdict =>
    by_cases nothing : turns = []
    · rw [World.step, saveHistory, if_pos nothing]
    · have finds : (world.ensureChatAgent backend token).2 = some id := by
        rw [settled.ensure_kept lives]
      rw [World.step, saveHistory_some finds nothing]
      rw [asked_memory, ensure_memories]
      exact append_prefix _ (chatKey_ne_empty table other) turns answer verdict _
  | delete other =>
    have apart : id ≠ other := by
      obtain ⟨agent, here, named, _⟩ := store_mem stays
      have kept := (List.mem_filter.mp here).2
      rw [named] at kept
      exact of_decide_eq_true kept
    simp only [World.step, Function.update_of_ne apart]
    exact List.prefix_rfl
  | restart flushed => exact List.prefix_rfl

theorem Extends.trans {first second third : World} (left : Extends table backend first second)
    (right : Extends table backend second third) : Extends table backend first third :=
  fun client => (left client).trans (right client)

/-- As long as the store stays, nothing that was acknowledged goes. -/
theorem Settled.extends_run (moves : List Move) : ∀ {world : World}, world.Settled backend →
    world.store backend = some id →
    Runs.Along (World.step runtime yaml table backend) (Stays runtime yaml table backend id) world moves →
      Extends table backend world (world.run runtime yaml table backend moves) ∧
        (world.run runtime yaml table backend moves).store backend = some id := by
  induction moves with
  | nil =>
    intro world _ lives _
    exact ⟨fun client => List.prefix_rfl, lives⟩
  | cons move moves ih =>
    intro world settled lives along
    obtain ⟨later, still⟩ := ih (settled.step move) along.1 along.2
    exact ⟨(settled.extends_step lives move along.1).trans later, still⟩

/-- An acknowledged append is in the store. -/
theorem Settled.recorded (settled : world.Settled backend) {turns : List Value}
    {answer : Answer} {verdict : Verdict}
    (told : (world.saveHistory runtime yaml table backend client turns token answer verdict).2 =
      true) :
    turns <:+ (world.step runtime yaml table backend
      (.append client turns token answer verdict)).turns table backend client := by
  by_cases nothing : turns = []
  · rw [nothing]
    exact List.nil_suffix
  · cases finds : (world.ensureChatAgent backend token).2 with
    | none =>
      rw [saveHistory_none finds nothing] at told
      cases told
    | some id =>
      have lives : (world.step runtime yaml table backend
          (.append client turns token answer verdict)).store backend = some id := by
        rw [World.step, saveHistory_some finds nothing]
        exact settled.ensure_store finds
      rw [saveHistory_some finds nothing] at told
      rw [turns_of_store lives, World.step, saveHistory_some finds nothing]
      rw [asked_memory, ensure_memories, ledger_append _ (chatKey_ne_empty table client), if_pos told, Function.update_self]
      exact List.suffix_append _ _

theorem Sound.run (faithful : yaml.Faithful) (sound : world.Sound yaml) (moves : List Move)
    (careful : Runs.Along (World.step runtime yaml table backend)
      (Careful runtime yaml table backend) world moves) :
    (world.run runtime yaml table backend moves).Sound yaml :=
  Runs.Along.invariant (fun _ move here calm => here.step faithful move calm) moves sound careful

theorem settled_opened (yaml : Yaml) {agents : List Agent} (files : String → Option String)
    (distinct : (agents.map Agent.id).Nodup)
    (one : (agents.filter (isChat backend)).length ≤ 1) :
    (opened yaml agents files).Settled backend := by
  refine ⟨distinct, one, ?_⟩
  intro id held
  cases held

theorem careful_load (world : World) (client token : String) :
    world.Careful runtime yaml table backend (.load client token .file) := by
  intro id _
  exact YamlState.careful_of_parse _ (parse_readPayload runtime _) rfl

theorem careful_append (world : World) {client : String} {turns : List Value} (token : String)
    (named : (chatKey table client).toList.all yaml.brings = true)
    (held : YamlState.carried yaml.brings (.list turns) = true) :
    world.Careful runtime yaml table backend (.append client turns token .file .stored) := by
  intro _ id _
  exact YamlState.careful_of_parse _
    (parse_appendPayload runtime (chatKey_ne_empty table client) turns) ⟨rfl, named, held⟩

end World

/-! ### A short conversation and a long one -/

def asciiTable : CharTable where
  isAlnum := Char.isAlphanum
  isSpace := fun char => char = ' '

def turn (role content : String) : Value :=
  .dict [("role", .str role), ("content", .str content)]

def conversation (turns : List Value) : Dict :=
  OrderedDict.empty.insert "ada" (.list turns)

/-- PyYAML on one conversation, on its text, and on the first chunk of the text. -/
def oneConversation (turns cut : List Value) (text chunk : String) : Yaml where
  safeDump := fun doc =>
    if doc.entries = (conversation turns).entries then .ok text else .error .typeError
  safeLoad := fun content =>
    if content = text then some (some (conversation turns))
    else if content = chunk then some (some (conversation cut))
    else none
  brings := fun char => char ≠ '\u0085'

theorem oneConversation_faithful (turns cut : List Value) {text : String} (chunk : String)
    (long : text ≠ "") : (oneConversation turns cut text chunk).Faithful := by
  intro doc dumped _ same
  simp only [oneConversation] at same ⊢
  split at same
  case isTrue equal =>
    cases same
    rw [OrderedDict.ext_entries equal]
    exact ⟨long, conversation turns, if_pos rfl, fun _ => rfl⟩
  case isFalse => cases same

def greeting : List Value := [turn "user" "hi", turn "assistant" "hello"]

def greetingText : String :=
  "ada:\n- content: hi\n  role: user\n- content: hello\n  role: assistant\n"

def greetingYaml : Yaml := oneConversation greeting [] greetingText ""

/-- What one `load_blob` brings of a text. -/
def firstChunk (text : String) : String :=
  String.ofList (decodeReplace ((utf8 text).take FileBridge.defaultLength))

def essay (count : Nat) : String := String.ofList (List.replicate count 'a')

theorem essay_length (count : Nat) : (utf8 (essay count)).length = count := by
  rw [essay, Loader.utf8_replicate_ascii, List.length_replicate]

theorem essay_append (first second : Nat) :
    essay first ++ essay second = essay (first + second) := by
  rw [essay, essay, essay, ← String.ofList_append, List.replicate_append_replicate]

/-- A first part of exactly one chunk is all that the chunk brings. -/
theorem firstChunk_append {front : String} (rest : String)
    (size : (utf8 front).length = FileBridge.defaultLength) :
    firstChunk (front ++ rest) = front := by
  have whole := (decodeReplace_take_eq_iff front.toList FileBridge.defaultLength).mpr
    (Or.inl (le_of_eq size))
  rw [firstChunk, utf8_append, List.take_append_of_le_length (le_of_eq size.symm), utf8, whole,
    String.ofList_toList]

def longTurns : List Value := [turn "user" "hi", turn "assistant" (essay 65536)]

def opening : String := "ada:\n- content: hi\n  role: user\n- content: "

def closing : String := "\n  role: assistant\n"

def longText : String := opening ++ (essay 65536 ++ closing)

/-- What is left of the second turn in the first chunk is a mapping of another shape. -/
def cutTurns : List Value :=
  [turn "user" "hi",
    .dict [("content", .str (essay 65493))]]

def longYaml : Yaml := oneConversation longTurns cutTurns longText (firstChunk longText)

theorem firstChunk_ne {text : String} (long : 65538 < (utf8 text).length) :
    firstChunk text ≠ text := by
  intro same
  have whole : decodeReplace ((utf8 text).take FileBridge.defaultLength) = text.toList := by
    rw [← congrArg String.toList same, firstChunk, String.toList_ofList]
  have fits := (decodeReplace_take_eq_iff text.toList FileBridge.defaultLength).mp whole
  rw [← utf8, FileBridge.defaultLength] at fits
  omega

theorem firstChunk_ne_empty {text : String} (some : 0 < (utf8 text).length) :
    firstChunk text ≠ "" := by
  intro empty
  have nothing := congrArg String.toList empty
  rw [firstChunk, String.toList_ofList, String.toList_empty] at nothing
  cases bytes : (utf8 text).take FileBridge.defaultLength with
  | nil =>
    have size := congrArg List.length bytes
    rw [List.length_take, FileBridge.defaultLength, List.length_nil] at size
    omega
  | cons lead rest =>
    rw [bytes, decodeReplace] at nothing
    split at nothing <;> cases nothing

theorem longText_length : 65538 < (utf8 longText).length := by
  have inner := essay_length 65536
  have front : (utf8 opening).length = 43 := rfl
  have parts : utf8 longText = utf8 opening ++ (utf8 (essay 65536) ++ utf8 closing) := by
    rw [longText, utf8_append, utf8_append]
  have total := congrArg List.length parts
  rw [List.length_append, List.length_append, inner, front] at total
  omega

/-- An append whose text is taken. -/
theorem append_taken {memory : Memory} {key text : String} {turns : List Value}
    {answer : Answer} (named : key ≠ "")
    (emitted : YamlState.emitYaml yaml
      ((YamlState.load yaml (answer.reply memory.file)).insert key
        (.list (listAt ((YamlState.load yaml (answer.reply memory.file)).get? key) ++ turns))) =
          .ok text) :
    YamlState.acknowledged (memory.reply runtime yaml
        (World.appendMove key turns answer .stored)) = true ∧
      (memory.step runtime yaml (World.appendMove key turns answer .stored)).file = some text := by
  have asks := World.parse_appendPayload runtime named turns
  constructor
  · rw [Memory.reply_of_parse asks]
    simp only [YamlState.perform, World.appendMove, appended, YamlState.persist, emitted]
    simp [YamlState.acknowledged, YamlState.keyReply, OrderedDict.get?_insert]
  · rw [Memory.step_of_parse asks]
    simp only [YamlState.perform, World.appendMove, appended, YamlState.persist, emitted]

/-- A conversation is stored, and the next load brings other content. -/
theorem stored_then_cut {turns cut : List Value} {text chunk : String} (nonempty : turns ≠ [])
    (apart : chunk ≠ text) (long : chunk ≠ "") :
    let yaml := oneConversation turns cut text chunk
    let world := World.opened yaml [] fun _ => none
    let stored := world.saveHistory workDir.runtime yaml asciiTable "ai" "ada" turns
      "0a1b2c" .file .stored
    stored.2 = true ∧ stored.1.store "ai" = some (mintedId "0a1b2c") ∧
      (stored.1.memories (mintedId "0a1b2c")).file = some text ∧
      (stored.1.loadHistory workDir.runtime yaml asciiTable "ai" "ada" "3d4e5f"
        (.another chunk)).2 = .ok cut := by
  intro yaml world stored
  have key : World.chatKey asciiTable "ada" = "ada" := by decide
  have finds : (world.ensureChatAgent "ai" "0a1b2c").2 = some (mintedId "0a1b2c") := rfl
  have emitted : YamlState.emitYaml yaml (conversation turns) = .ok text := by
    unfold YamlState.emitYaml
    rw [if_neg]
    · exact if_pos rfl
    · simp [conversation, OrderedDict.empty, OrderedDict.insert]
  have settled : world.Settled "ai" :=
    World.settled_opened yaml (fun _ => none) List.nodup_nil (Nat.zero_le 1)
  have saves : stored = _ := World.saveHistory_some finds nonempty
  rw [key] at saves
  obtain ⟨told, held⟩ := @append_taken workDir.runtime yaml (Memory.opened yaml none) "ada" text
    turns .file (by decide) emitted
  have lives : stored.1.store "ai" = some (mintedId "0a1b2c") := by
    rw [saves]
    exact settled.ensure_store finds
  refine ⟨?_, lives, ?_, ?_⟩
  · rw [saves]
    exact told
  · rw [saves]
    exact (congrArg Memory.file (World.asked_memory _ _ _)).trans held
  · have ready : stored.1.Settled "ai" := settled.step (.append "ada" turns "0a1b2c" .file .stored)
    have again : (stored.1.ensureChatAgent "ai" "3d4e5f").2 = some (mintedId "0a1b2c") := by
      rw [ready.ensure_kept lives]
    have read : YamlState.load yaml (YamlState.contentReply (.str chunk)) = conversation cut := by
      have loads : yaml.safeLoad chunk = some (some (conversation cut)) :=
        (if_neg apart).trans (if_pos rfl)
      rw [YamlState.load_content, if_neg long, loads]
    rw [World.loadHistory_some again, key, Memory.reply_of_parse (World.parse_readPayload _ _)]
    simp only [YamlState.perform, World.readMove, Answer.reply, read]
    rfl

end Fantastic.Python.Ai.Chat

import Fantastic.Python.ChatRuns
import Fantastic.Python.Exchanges

/-!
# The stored conversations

A backend's sends together with its chat store. A run appends its turns once, after its final
events, and returns. The stored list of a client is a row of whole exchanges, those of its sends
in the order of the lock, as long as every load gets the file itself and no run appends after
its send has given up on it.
-/

namespace Fantastic.Python.Ai

open YamlState (Yaml Answer Verdict Memory Alike listAt docOf sortKeys)

/-! ### What loads and appends do to the conversations -/

namespace Chat.World

variable {runtime : Runtime} {yaml : Yaml} {table : CharTable} {backend : String}
variable {world : World} {client token id : String} {answer : Answer} {verdict : Verdict}

theorem Settled.ensure_store_cases (settled : world.Settled backend) (token : String) :
    (world.ensureChatAgent backend token).1.store backend = world.store backend ∨
      world.store backend = none := by
  obtain ⟨id, stored, does⟩ | ⟨absent, _⟩ | ⟨absent, _⟩ := settled.ensure_cases token
  · rw [does]
    exact Or.inl rfl
  · exact Or.inr absent
  · exact Or.inr absent

theorem Settled.load_store (settled : world.Settled backend) :
    (world.loadHistory runtime yaml table backend client token answer).1.store backend =
        world.store backend ∨ world.store backend = none := by
  have ready := settled.ensure_store_cases token
  cases finds : (world.ensureChatAgent backend token).2 with
  | none =>
    rw [loadHistory_none finds]
    exact ready
  | some id =>
    rw [loadHistory_some finds]
    exact ready

theorem load_ledger (world : World) (other key : String) :
    ((world.loadHistory runtime yaml table backend client token answer).1.memories other).ledger
      key = (world.memories other).ledger key := by
  have kept := ensure_memories world backend token
  cases finds : (world.ensureChatAgent backend token).2 with
  | none => rw [loadHistory_none finds, kept]
  | some id =>
    rw [loadHistory_some finds]
    by_cases same : other = id
    · rw [same, asked_memory, ledger_read, kept]
    · rw [unasked_memory _ _ same, kept]

theorem Settled.save_store (settled : world.Settled backend) {turns : List Value} :
    (world.saveHistory runtime yaml table backend client turns token answer verdict).1.store
        backend = world.store backend ∨ world.store backend = none := by
  have ready := settled.ensure_store_cases token
  by_cases nothing : turns = []
  · rw [saveHistory, if_pos nothing]
    exact Or.inl rfl
  · cases finds : (world.ensureChatAgent backend token).2 with
    | none =>
      rw [saveHistory_none finds nothing]
      exact ready
    | some id =>
      rw [saveHistory_some finds nothing]
      exact ready

/-- An append that is not acknowledged notes nothing. -/
theorem save_ledger_untold {turns : List Value}
    (untold : (world.saveHistory runtime yaml table backend client turns token answer
      verdict).2 = false) (other key : String) :
    ((world.saveHistory runtime yaml table backend client turns token answer verdict).1.memories
      other).ledger key = (world.memories other).ledger key := by
  have kept := ensure_memories world backend token
  by_cases nothing : turns = []
  · rw [saveHistory, if_pos nothing]
  · cases finds : (world.ensureChatAgent backend token).2 with
    | none => rw [saveHistory_none finds nothing, kept]
    | some id =>
      rw [saveHistory_some finds nothing] at untold ⊢
      by_cases same : other = id
      · rw [same, asked_memory, kept, ledger_append _ (chatKey_ne_empty table client), if_neg]
        simpa using untold
      · rw [unasked_memory _ _ same, kept]

/-- One that is acknowledged adds its turns to the conversation of the client, in the store. -/
theorem Settled.save_ledger (settled : world.Settled backend) {turns : List Value}
    (told : (world.saveHistory runtime yaml table backend client turns token answer
      verdict).2 = true) :
    ∃ id, (world.saveHistory runtime yaml table backend client turns token answer
        verdict).1.store backend = some id ∧
      ∀ other key, ((world.saveHistory runtime yaml table backend client turns token answer
          verdict).1.memories other).ledger key =
        if other = id ∧ key = chatKey table client then
          some (.list (listAt ((world.memories other).ledger key) ++ turns))
        else (world.memories other).ledger key := by
  have kept := ensure_memories world backend token
  by_cases nothing : turns = []
  · rw [saveHistory, if_pos nothing] at told
    cases told
  · cases finds : (world.ensureChatAgent backend token).2 with
    | none =>
      rw [saveHistory_none finds nothing] at told
      cases told
    | some id =>
      rw [saveHistory_some finds nothing] at told ⊢
      refine ⟨id, settled.ensure_store finds, ?_⟩
      intro other key
      by_cases same : other = id
      · rw [same, asked_memory, kept, ledger_append _ (chatKey_ne_empty table client),
          if_pos told, Function.update_apply]
        by_cases here : key = chatKey table client
        · rw [if_pos here, if_pos ⟨rfl, here⟩, here]
        · rw [if_neg here, if_neg (fun both => here both.2)]
      · rw [if_neg (fun both => same both.1), unasked_memory _ _ same, kept]

end Chat.World

namespace Sending

open Chat (World)

/-- A backend with its chat store. `stored` lists the sends whose turns have been acknowledged
by the store that is there. -/
structure Keeping where
  session : Session
  world : World
  stored : List Nat

variable (runtime : Runtime) (yaml : Yaml) (table : CharTable) (format : TurnFormat)
variable (backend : String)

namespace Keeping

/-- What happens next: the sends and their runs go on, a run comes to `_save_history`, another
verb loads a conversation, the chat store is deleted. -/
inductive Move where
  | session (move : Session.Move)
  | append (number : Nat) (token : String) (answer : Answer) (verdict : Verdict)
  | load (client token : String) (answer : Answer)
  | delete (id : String)

def opened (agents : List Chat.Agent) (files : String → Option String) : Keeping where
  session := .fresh backend
  world := .opened yaml agents files
  stored := []

/-- The run would return without its append. -/
def skips (keeping : Keeping) (move : Session.Move) : Bool :=
  match move with
  | .endRun number .returned =>
    match (keeping.session.works number).stage with
    | .saving => !(keeping.session.works number).stateless
    | _ => false
  | _ => false

/-- `_save_history` with the run's new turns. -/
def save (keeping : Keeping) (number : Nat) (token : String) (answer : Answer)
    (verdict : Verdict) : World × Bool :=
  keeping.world.saveHistory runtime yaml table backend (keeping.session.works number).client
    (keeping.session.works number).newTurns token answer verdict

/-- What the run comes to: an append that raises makes it raise. -/
def saveEnd (keeping : Keeping) (number : Nat) (token : String) (answer : Answer)
    (verdict : Verdict) : RunEnd :=
  match (keeping.world.ensureChatAgent backend token).2 with
  | none => .returned
  | some id =>
    match (keeping.world.memories id).reply runtime yaml
        (World.appendMove (World.chatKey table (keeping.session.works number).client)
          (keeping.session.works number).newTurns answer verdict) with
    | .ok _ => .returned
    | .error _ => .raised

def step (keeping : Keeping) (move : Move) : Keeping :=
  match move with
  | .session move =>
    if keeping.skips move then keeping
    else { keeping with session := keeping.session.step format move }
  | .append number token answer verdict =>
    match (keeping.session.backend.sends number).run,
        (keeping.session.works number).stage with
    | .executing _, .saving =>
      if (keeping.session.works number).stateless then keeping
      else
        let saved := keeping.save runtime yaml table backend number token answer verdict
        { session :=
            keeping.session.step format
              (.endRun number
                (keeping.saveEnd runtime yaml table backend number token answer verdict))
          world := saved.1
          stored := if saved.2 then keeping.stored ++ [number] else keeping.stored }
    | _, _ => keeping
  | .load client token answer =>
    { keeping with
      world := (keeping.world.loadHistory runtime yaml table backend client token answer).1 }
  | .delete id =>
    let world := keeping.world.step runtime yaml table backend (.delete id)
    { keeping with
      world := world
      stored := if (world.store backend).isNone then [] else keeping.stored }

def run (keeping : Keeping) (moves : List Move) : Keeping :=
  moves.foldl (step runtime yaml table format backend) keeping

/-- Every load gets the file itself, what is written comes back, and a run appends only while
its send waits for it. -/
def Careful (keeping : Keeping) : Move → Prop
  | .append number token answer verdict =>
    (keeping.session.backend.sends number).phase = .awaiting ∧
      keeping.world.Careful runtime yaml table backend
        (.append (keeping.session.works number).client
          (keeping.session.works number).newTurns token answer verdict)
  | .load client token answer =>
    keeping.world.Careful runtime yaml table backend (.load client token answer)
  | _ => True

/-- The list that the file of an agent has for a client. -/
def conversation (keeping : Keeping) (id client : String) : List Value :=
  listAt ((docOf yaml (keeping.world.memories id).file).get? (World.chatKey table client))

/-- The sends of a client whose turns are in the store, in the order in which they were put
there. -/
def storedOf (keeping : Keeping) (client : String) : List Nat :=
  keeping.stored.filter fun number =>
    World.chatKey table (keeping.session.works number).client = World.chatKey table client

/-- The turns that the runs have put into an agent's file. -/
def added (keeping : Keeping) (id client : String) : List Value :=
  if keeping.world.store backend = some id then
    (keeping.storedOf table client).flatMap fun number =>
      (keeping.session.works number).newTurns
  else []

end Keeping

variable {runtime yaml table format backend}

/-- Whole exchanges, up to the order of the members of a mapping. -/
def WellFormed (format : TurnFormat) (items : List Value) : Prop :=
  ∃ exchanges : List Exchange,
    items.map sortKeys = (exchanges.flatMap (Exchange.turns format)).map sortKeys

theorem WellFormed.append {first second : List Value} (left : WellFormed format first)
    (right : WellFormed format second) : WellFormed format (first ++ second) := by
  obtain ⟨earlier, one⟩ := left
  obtain ⟨later, two⟩ := right
  refine ⟨earlier ++ later, ?_⟩
  rw [List.map_append, one, two, List.flatMap_append, List.map_append]

theorem wellFormed_nil : WellFormed format [] := ⟨[], rfl⟩

theorem WellFormed.of_alike {held noted : Option Value} (same : Alike held noted)
    (fine : WellFormed format (listAt noted)) : WellFormed format (listAt held) := by
  obtain ⟨exchanges, whole⟩ := fine
  refine ⟨exchanges, ?_⟩
  rw [Memory.listAt_map, same, ← Memory.listAt_map]
  exact whole

namespace Keeping

variable {keeping : Keeping} {number : Nat} {files : String → Option String}

/-- What the files had for a client when the backend was opened. -/
def initial (yaml : Yaml) (table : CharTable) (files : String → Option String)
    (id client : String) : List Value :=
  listAt ((docOf yaml (files id)).get? (World.chatKey table client))

/-- What every careful move keeps: above all, that a list is what it was at the start, unless
that was deleted, and then the turns of the stored sends. -/
structure Fine (yaml : Yaml) (table : CharTable) (format : TurnFormat) (backend : String)
    (files : String → Option String) (keeping : Keeping) : Prop where
  settled : keeping.world.Settled backend
  sound : keeping.world.Sound yaml
  collecting : keeping.session.Collecting format
  inOrder : keeping.session.InOrder
  complete : ∀ number ∈ keeping.stored, keeping.session.Complete number
  ordered : keeping.stored.Sublist keeping.session.admitted
  lists : ∀ id client, ∃ base, (base = initial yaml table files id client ∨ base = []) ∧
    listAt ((keeping.world.memories id).ledger (World.chatKey table client)) =
      base ++ keeping.added table backend id client
  nothing : keeping.world.store backend = none → keeping.stored = []

theorem added_congr (keeping : Keeping) {session : Session} (table : CharTable)
    (backend id client : String)
    (works : ∀ number ∈ keeping.stored, session.works number = keeping.session.works number) :
    ({ keeping with session := session } : Keeping).added table backend id client =
      keeping.added table backend id client := by
  have same : ({ keeping with session := session } : Keeping).storedOf table client =
      keeping.storedOf table client := by
    unfold storedOf
    apply List.filter_congr
    intro number listed
    rw [works number listed]
  unfold added
  rw [same]
  split
  · apply List.flatMap_congr
    intro number listed
    rw [works number (List.mem_of_mem_filter listed)]
  · rfl

theorem Fine.session (fine : keeping.Fine yaml table format backend files)
    (move : Session.Move) :
    ({ keeping with session := keeping.session.step format move } : Keeping).Fine
      yaml table format backend files := by
  have works : ∀ number ∈ keeping.stored,
      (keeping.session.step format move).works number = keeping.session.works number :=
    fun number listed => (fine.complete number listed).works move
  refine ⟨fine.settled, fine.sound, fine.collecting.step move, fine.inOrder.step move, ?_,
    fine.ordered.trans (keeping.session.step_admitted move).sublist, ?_, fine.nothing⟩
  · intro number listed
    exact (fine.complete number listed).step fine.inOrder move
  · intro id client
    rw [added_congr keeping table backend id client works]
    exact fine.lists id client

/-- The world changes, and no conversation does. -/
theorem Fine.world (fine : keeping.Fine yaml table format backend files) {world : World}
    (settled : world.Settled backend) (sound : world.Sound yaml)
    (ledgers : ∀ id key, (world.memories id).ledger key = (keeping.world.memories id).ledger key)
    (stores : world.store backend = keeping.world.store backend ∨
      keeping.world.store backend = none) :
    ({ keeping with world := world } : Keeping).Fine yaml table format backend files := by
  refine ⟨settled, sound, fine.collecting, fine.inOrder, fine.complete, fine.ordered, ?_, ?_⟩
  · intro id client
    have same : ({ keeping with world := world } : Keeping).added table backend id client =
        keeping.added table backend id client := by
      cases stores with
      | inl kept => simp only [added, kept, storedOf]
      | inr absent =>
        have nothing := fine.nothing absent
        simp [added, storedOf, nothing]
    rw [ledgers, same]
    exact fine.lists id client
  · intro absent
    apply fine.nothing
    cases stores with
    | inl same => exact same.symm.trans absent
    | inr before => exact before

theorem Fine.load (fine : keeping.Fine yaml table format backend files)
    (faithful : yaml.Faithful) {client token : String} {answer : Answer}
    (careful : keeping.world.Careful runtime yaml table backend (.load client token answer)) :
    (keeping.step runtime yaml table format backend (.load client token answer)).Fine
      yaml table format backend files :=
  fine.world (fine.settled.step (.load client token answer))
    (fine.sound.step faithful (.load client token answer) careful)
    (keeping.world.load_ledger) fine.settled.load_store

/-- What is left of the store after a deletion is the store that was there. -/
theorem store_of_delete (runtime : Runtime) (yaml : Yaml) (table : CharTable) {world : World}
    (settled : world.Settled backend) {id other : String} (apart : other ≠ id) :
    (world.step runtime yaml table backend (.delete id)).store backend = some other ↔
      world.store backend = some other := by
  have after : (world.step runtime yaml table backend (.delete id)).Settled backend :=
    settled.step (.delete id)
  constructor
  · intro lives
    obtain ⟨agent, here, named, chat⟩ := World.store_mem lives
    rw [← named]
    exact settled.store_eq (List.mem_filter.mp here).1 chat
  · intro lives
    obtain ⟨agent, here, named, chat⟩ := World.store_mem lives
    have kept : agent ∈ (world.step runtime yaml table backend (.delete id)).agents := by
      apply List.mem_filter.mpr
      rw [named]
      exact ⟨here, decide_eq_true apart⟩
    rw [← named]
    exact after.store_eq kept chat

theorem deleted_not_store (runtime : Runtime) (yaml : Yaml) (table : CharTable)
    (backend : String) (world : World) (id : String) :
    (world.step runtime yaml table backend (.delete id)).store backend ≠ some id := by
  intro lives
  obtain ⟨agent, here, named, _⟩ := World.store_mem lives
  exact of_decide_eq_true (List.mem_filter.mp here).2 named

theorem delete_ledger (world : World) (id other key : String) :
    ((world.step runtime yaml table backend (.delete id)).memories other).ledger key =
      if other = id then none else (world.memories other).ledger key := by
  simp only [World.step, Function.update_apply]
  split <;> rfl

theorem Fine.delete (fine : keeping.Fine yaml table format backend files)
    (faithful : yaml.Faithful) (id : String) :
    (keeping.step runtime yaml table format backend (.delete id)).Fine
      yaml table format backend files := by
  have settled : (keeping.world.step runtime yaml table backend (.delete id)).Settled backend :=
    fine.settled.step (.delete id)
  have sound : (keeping.world.step runtime yaml table backend (.delete id)).Sound yaml :=
    fine.sound.step faithful (.delete id) True.intro
  have few : (keeping.step runtime yaml table format backend (.delete id)).stored.Sublist
      keeping.stored := by
    simp only [Keeping.step]
    split
    · exact List.nil_sublist _
    · exact List.Sublist.refl _
  refine ⟨settled, sound, fine.collecting, fine.inOrder, ?_, few.trans fine.ordered, ?_, ?_⟩
  · intro number listed
    exact fine.complete number (few.subset listed)
  · intro other client
    by_cases same : other = id
    · refine ⟨[], Or.inr rfl, ?_⟩
      rw [added, if_neg (same ▸ deleted_not_store runtime yaml table backend keeping.world id)]
      simp only [Keeping.step, delete_ledger, if_pos same]
      rfl
    · obtain ⟨base, origin, list⟩ := fine.lists other client
      refine ⟨base, origin, ?_⟩
      have kept : (keeping.step runtime yaml table format backend (.delete id)).added table
          backend other client = keeping.added table backend other client := by
        have stays := store_of_delete runtime yaml table fine.settled same
        unfold added
        by_cases lives : keeping.world.store backend = some other
        · have still := stays.mpr lives
          simp only [Keeping.step, still, lives, if_true, Option.isNone_some, storedOf]
          rfl
        · have gone := fun after => lives (stays.mp after)
          rw [if_neg lives]
          exact if_neg gone
      rw [kept, ← list]
      simp only [Keeping.step, delete_ledger, if_neg same]
  · intro absent
    simp only [Keeping.step] at absent ⊢
    rw [absent]
    rfl

theorem endRun_works (session : Session) (number : Nat) (outcome : RunEnd) :
    (session.step format (.endRun number outcome)).works = session.works := by
  simp only [Session.step]
  split <;> rfl

/-- The run of an append ends with it. -/
theorem complete_of_append (order : keeping.session.InOrder) {requested : Bool}
    (executing : (keeping.session.backend.sends number).run = .executing requested)
    (saving : (keeping.session.works number).stage = .saving) {outcome : RunEnd} :
    (keeping.session.step format (.endRun number outcome)).Complete number := by
  have may : keeping.session.mayEnd number outcome = true := by
    simp only [Session.mayEnd, saving]
    cases outcome <;> rfl
  have does : keeping.session.step format (.endRun number outcome) =
      keeping.session.moved (.endRun number outcome) := if_pos may
  have bound : number < keeping.session.backend.begun := by
    apply order.locking.executing_bound
    simp [Backend.Executing, executing, Run.isExecuting]
  rw [does]
  refine ⟨Nat.lt_of_lt_of_le bound (Backend.begun_le _ _), saving, outcome, ?_⟩
  simp only [Session.moved, Backend.step, executing, Backend.setRun, Function.update_self]

/-- The send that waits for its run has had the lock after all whose turns are stored. -/
theorem Fine.ordered_append (fine : keeping.Fine yaml table format backend files)
    (awaiting : (keeping.session.backend.sends number).phase = .awaiting)
    (fresh : number ∉ keeping.stored) :
    (keeping.stored ++ [number]).Sublist keeping.session.admitted := by
  have held := (fine.inOrder.locking.inside number).mp (by rw [awaiting]; rfl)
  obtain ⟨front, admitted⟩ := fine.inOrder.last number held
  have ordered := fine.ordered
  rw [admitted] at ordered ⊢
  obtain ⟨first, second, split, early, late⟩ := List.sublist_append_iff.mp ordered
  have none : second = [] := by
    cases List.sublist_singleton.mp late with
    | inl nothing => exact nothing
    | inr single =>
      rw [split, single] at fresh
      simp at fresh
  rw [split, none, List.append_nil]
  exact early.append_right [number]

/-- The list of a client, with one more send stored. -/
theorem added_append (keeping : Keeping) (number : Nat) (outcome : RunEnd) {world : World}
    {id : String} (here : world.store backend = some id) (client : String) :
    ({ session := keeping.session.step format (.endRun number outcome)
       world := world
       stored := keeping.stored ++ [number] } : Keeping).added table backend id client =
      ((keeping.storedOf table client).flatMap fun other =>
        (keeping.session.works other).newTurns) ++
        if World.chatKey table client =
            World.chatKey table (keeping.session.works number).client then
          (keeping.session.works number).newTurns
        else [] := by
  simp only [added, here, if_true, storedOf, endRun_works, List.filter_append,
    List.flatMap_append]
  by_cases same : World.chatKey table client =
      World.chatKey table (keeping.session.works number).client
  · rw [if_pos same, List.filter_cons_of_pos (by simp [same]), List.filter_nil,
      List.flatMap_singleton]
  · rw [if_neg same, List.filter_cons_of_neg (by simpa using Ne.symm same), List.filter_nil,
      List.flatMap_nil]

/-- An acknowledged append puts one more exchange at the end of its client's list. -/
theorem Fine.append_told (fine : keeping.Fine yaml table format backend files) {world : World}
    {id : String} {requested : Bool} (settled : world.Settled backend)
    (sound : world.Sound yaml)
    (executing : (keeping.session.backend.sends number).run = .executing requested)
    (saving : (keeping.session.works number).stage = .saving)
    (awaiting : (keeping.session.backend.sends number).phase = .awaiting)
    (outcome : RunEnd) (here : world.store backend = some id)
    (stores : world.store backend = keeping.world.store backend ∨
      keeping.world.store backend = none)
    (ledgers : ∀ other key, (world.memories other).ledger key =
      if other = id ∧ key = World.chatKey table (keeping.session.works number).client then
        some (.list (listAt ((keeping.world.memories other).ledger key) ++
          (keeping.session.works number).newTurns))
      else (keeping.world.memories other).ledger key) :
    ({ session := keeping.session.step format (.endRun number outcome)
       world := world
       stored := keeping.stored ++ [number] } : Keeping).Fine
      yaml table format backend files := by
  have fresh : number ∉ keeping.stored := by
    intro listed
    obtain ⟨other, ended⟩ := (fine.complete number listed).ended
    rw [executing] at ended
    cases ended
  have grown : keeping.session.admitted <+:
      (keeping.session.step format (.endRun number outcome)).admitted :=
    keeping.session.step_admitted _
  have order : (keeping.session.step format (.endRun number outcome)).InOrder :=
    fine.inOrder.step _
  have complete : ∀ other ∈ keeping.stored ++ [number],
      (keeping.session.step format (.endRun number outcome)).Complete other := by
    intro other listed
    rw [List.mem_append, List.mem_singleton] at listed
    cases listed with
    | inl before => exact (fine.complete other before).step fine.inOrder _
    | inr new =>
      rw [new]
      exact complete_of_append fine.inOrder executing saving
  refine ⟨settled, sound, fine.collecting.step _, order, complete,
    (fine.ordered_append awaiting fresh).trans grown.sublist, ?_, ?_⟩
  · intro other client
    obtain ⟨base, origin, list⟩ := fine.lists other client
    refine ⟨base, origin, ?_⟩
    by_cases same : other = id
    · have before : keeping.added table backend other client =
          (keeping.storedOf table client).flatMap fun other =>
            (keeping.session.works other).newTurns := by
        cases stores with
        | inl kept => rw [added, if_pos (same ▸ kept.symm.trans here)]
        | inr absent => simp [added, storedOf, fine.nothing absent]
      have after := @added_append table format backend keeping number outcome world id here client
      rw [← same] at after here
      rw [after, ← List.append_assoc, ← before, ← list, ledgers]
      by_cases named : World.chatKey table client =
          World.chatKey table (keeping.session.works number).client
      · rw [if_pos ⟨same, named⟩, if_pos named]
        rfl
      · rw [if_neg (fun both => named both.2), if_neg named, List.append_nil]
    · have away : keeping.world.store backend ≠ some other := by
        intro lives
        cases stores with
        | inl kept => exact same (Option.some.inj (lives.symm.trans (kept.symm.trans here)))
        | inr absent => exact absurd (absent.symm.trans lives) (by simp)
      have gone : world.store backend ≠ some other := by
        intro lives
        exact same (Option.some.inj (lives.symm.trans here))
      rw [added, if_neg away] at list
      rw [added, if_neg gone, ledgers, if_neg (fun both => same both.1)]
      exact list
  · intro absent
    exact absurd (here.symm.trans absent) (by simp)

theorem Fine.append (fine : keeping.Fine yaml table format backend files)
    (faithful : yaml.Faithful) {token : String} {answer : Answer} {verdict : Verdict}
    (careful : keeping.Careful runtime yaml table backend (.append number token answer verdict)) :
    (keeping.step runtime yaml table format backend (.append number token answer verdict)).Fine
      yaml table format backend files := by
  obtain ⟨awaiting, calm⟩ := careful
  simp only [Keeping.step]
  split
  case h_2 => exact fine
  case h_1 requested executing saving =>
    split
    · exact fine
    · have settled : (keeping.save runtime yaml table backend number token answer verdict).1.Settled
          backend := fine.settled.step (.append _ _ token answer verdict)
      have sound : (keeping.save runtime yaml table backend number token answer verdict).1.Sound
          yaml := fine.sound.step faithful (.append _ _ token answer verdict) calm
      cases told : (keeping.save runtime yaml table backend number token answer verdict).2 with
      | false =>
        simp only [Bool.false_eq_true, if_false]
        exact (fine.session (.endRun number _)).world settled sound
          (World.save_ledger_untold told) fine.settled.save_store
      | true =>
        obtain ⟨id, here, ledgers⟩ := fine.settled.save_ledger told
        exact fine.append_told settled sound executing saving awaiting _ here
          fine.settled.save_store ledgers

theorem Fine.step (fine : keeping.Fine yaml table format backend files)
    (faithful : yaml.Faithful) {move : Move}
    (careful : keeping.Careful runtime yaml table backend move) :
    (keeping.step runtime yaml table format backend move).Fine
      yaml table format backend files := by
  cases move with
  | session move =>
    simp only [Keeping.step]
    split
    · exact fine
    · exact fine.session move
  | append number token answer verdict => exact fine.append faithful careful
  | load client token answer => exact fine.load faithful careful
  | delete id => exact fine.delete faithful id

theorem fine_opened {agents : List Chat.Agent} (distinct : (agents.map Chat.Agent.id).Nodup)
    (one : (agents.filter (Chat.isChat backend)).length ≤ 1)
    (carried : ∀ id, YamlState.Carried yaml.brings (docOf yaml (files id))) :
    (opened yaml backend agents files).Fine yaml table format backend files := by
  refine ⟨World.settled_opened yaml files distinct one, ?_, ?_, Session.fresh_inOrder backend,
    ?_, List.nil_sublist _, ?_, fun _ => rfl⟩
  · intro id
    exact World.sound_opened yaml (carried id)
  · intro number
    exact start_building "" .null false
  · intro number listed
    cases listed
  · intro id client
    refine ⟨initial yaml table files id client, Or.inl rfl, ?_⟩
    simp [added, storedOf, opened, initial, World.opened, Memory.opened]

/-- The turns of a stored send are one exchange. -/
theorem Fine.exchange (fine : keeping.Fine yaml table format backend files)
    (listed : number ∈ keeping.stored) : ∃ exchange : Exchange,
      exchange.text = (keeping.session.works number).text ∧
        (keeping.session.works number).newTurns = exchange.turns format := by
  have built := fine.collecting number
  unfold Work.Building at built
  rw [(fine.complete number listed).stage] at built
  exact built

theorem Fine.wellFormed_added (fine : keeping.Fine yaml table format backend files)
    (id client : String) : WellFormed format (keeping.added table backend id client) := by
  have whole : ∀ numbers : List Nat, (∀ number ∈ numbers, number ∈ keeping.stored) →
      WellFormed format (numbers.flatMap fun number =>
        (keeping.session.works number).newTurns) := by
    intro numbers
    induction numbers with
    | nil =>
      intro _
      exact wellFormed_nil
    | cons number numbers ih =>
      intro listed
      obtain ⟨exchange, _, turns⟩ := fine.exchange (listed number List.mem_cons_self)
      rw [List.flatMap_cons]
      refine WellFormed.append ⟨[exchange], ?_⟩
        (ih fun other later => listed other (List.mem_cons_of_mem _ later))
      rw [turns, List.flatMap_singleton]
  unfold added
  split
  · exact whole _ fun number listed => List.mem_of_mem_filter listed
  · exact wellFormed_nil

/-- A run of the session alone. -/
def sending (text answer : String) : List Move :=
  [.session (.send "ada" (.str text) false []), .session (.launch 0),
    .session (.advance 0 .begin), .session (.advance 0 (.chunk answer)),
    .session (.advance 0 .endStream), .session (.advance 0 .sayDone)]

theorem careful_sending (keeping : Keeping) (text answer : String) :
    Runs.Along (step runtime yaml table format backend) (Careful runtime yaml table backend)
      keeping (sending text answer) :=
  ⟨True.intro, True.intro, True.intro, True.intro, True.intro, True.intro, True.intro⟩

def greetingMoves : List Move :=
  sending "hi" "hello" ++ [.append 0 "0a1b2c" .file .stored, .session (.deliver 0)]

/-- A turn has a role and a content. -/
def Roled (item : Value) : Prop :=
  ∃ members, sortKeys item = .dict members ∧ 2 ≤ members.length

theorem roled_of_dict {members : List (String × Value)} (size : 2 ≤ members.length) :
    Roled (.dict members) := by
  refine ⟨_, rfl, ?_⟩
  rw [List.length_mergeSort]
  have same : (YamlState.sortMembers members).length = members.length := by
    clear size
    induction members with
    | nil => rfl
    | cons member rest ih => rw [YamlState.sortMembers, List.length_cons, ih, List.length_cons]
  rw [same]
  exact size

theorem exchange_roled (exchange : Exchange) :
    ∀ item ∈ exchange.turns format, Roled item := by
  intro item listed
  rw [Exchange.turns, List.mem_cons, List.mem_append, List.mem_singleton,
    List.mem_flatMap] at listed
  obtain rfl | ⟨round, _, here⟩ | rfl := listed
  · exact roled_of_dict (by simp)
  · rw [Round.turns, List.mem_cons, List.mem_map] at here
    obtain rfl | ⟨done, _, rfl⟩ := here
    · exact roled_of_dict (by simp)
    · exact roled_of_dict (by simp)
  · exact roled_of_dict (by simp)

theorem roled_of_wellFormed {items : List Value} (fine : WellFormed format items) :
    ∀ item ∈ items, Roled item := by
  intro item listed
  obtain ⟨exchanges, whole⟩ := fine
  have sorted : sortKeys item ∈ items.map sortKeys := List.mem_map_of_mem listed
  rw [whole] at sorted
  obtain ⟨other, there, same⟩ := List.mem_map.mp sorted
  obtain ⟨exchange, _, turn⟩ := List.mem_flatMap.mp there
  obtain ⟨members, shape, size⟩ := exchange_roled exchange other turn
  exact ⟨members, same.symm.trans shape, size⟩

theorem wellFormed_answered (text answer : String) :
    WellFormed plainFormat [Chat.turn "user" text, Chat.turn "assistant" answer] :=
  ⟨[{ text := .str text, rounds := [], final := answer }], rfl⟩

theorem append_does {token : String} {answer : Answer} {verdict : Verdict} {requested : Bool}
    (executing : (keeping.session.backend.sends number).run = .executing requested)
    (saving : (keeping.session.works number).stage = .saving)
    (own : (keeping.session.works number).stateless = false) :
    let saved := keeping.save runtime yaml table backend number token answer verdict
    let after := keeping.step runtime yaml table format backend
      (.append number token answer verdict)
    after.world = saved.1 ∧
      after.stored = if saved.2 then keeping.stored ++ [number] else keeping.stored := by
  simp only [Keeping.step, executing, saving, own, Bool.false_eq_true, if_false, and_self]

/-- PyYAML on a long conversation, its first chunk, and what is stored after that. -/
def resumedYaml (long cut resumed : List Value) (text chunk after : String) : Yaml where
  safeDump := fun doc =>
    if doc.entries = (Chat.conversation long).entries then .ok text
    else if doc.entries = (Chat.conversation resumed).entries then .ok after
    else .error .typeError
  safeLoad := fun content =>
    if content = text then some (some (Chat.conversation long))
    else if content = chunk then some (some (Chat.conversation cut))
    else if content = after then some (some (Chat.conversation resumed))
    else none
  brings := fun char => char ≠ '\u0085'

/-- A short exchange is appended to what the first chunk of a long conversation left. -/
theorem resumed_conversation {earlier cut : List Value} {text chunk after : String}
    (chunked : chunk ≠ text) (nonempty : chunk ≠ "") (apart : after ≠ text)
    (other : after ≠ chunk) (long : after ≠ "")
    (fresh : (Chat.conversation (cut ++ Chat.greeting)).entries ≠
      (Chat.conversation earlier).entries) :
    let yaml := resumedYaml earlier cut (cut ++ Chat.greeting) text chunk after
    let keeping := (opened yaml "ai" [Chat.chatAgent "ai" "0a1b2c"] fun _ => some text).run
      workDir.runtime yaml Chat.asciiTable plainFormat "ai"
      (sending "hi" "hello" ++ [.append 0 "3d4e5f" (.another chunk) .stored])
    keeping.stored = [0] ∧
      keeping.conversation yaml Chat.asciiTable (Chat.mintedId "0a1b2c") "ada" =
        cut ++ Chat.greeting := by
  intro yaml keeping
  have key : World.chatKey Chat.asciiTable "ada" = "ada" := by decide
  let before := (opened yaml "ai" [Chat.chatAgent "ai" "0a1b2c"] fun _ => some text).run
    workDir.runtime yaml Chat.asciiTable plainFormat "ai" (sending "hi" "hello")
  have executing : (before.session.backend.sends 0).run = .executing false := rfl
  have saving : (before.session.works 0).stage = .saving := rfl
  have own : (before.session.works 0).stateless = false := rfl
  have turns : (before.session.works 0).newTurns = Chat.greeting := rfl
  have client : (before.session.works 0).client = "ada" := rfl
  have finds : (before.world.ensureChatAgent "ai" "3d4e5f").2 =
    some (Chat.mintedId "0a1b2c") := rfl
  have loads : YamlState.load yaml ((Answer.another chunk).reply (some text)) =
      Chat.conversation cut := by
    have found : yaml.safeLoad chunk = some (some (Chat.conversation cut)) :=
      (if_neg chunked).trans (if_pos rfl)
    rw [Answer.reply, YamlState.load_content, if_neg nonempty, found]
  have emitted : YamlState.emitYaml yaml (Chat.conversation (cut ++ Chat.greeting)) =
      .ok after := (if_neg fresh).trans (if_pos rfl)
  have inserted : (Chat.conversation cut).insert "ada"
      (.list (listAt ((Chat.conversation cut).get? "ada") ++ Chat.greeting)) =
        Chat.conversation (cut ++ Chat.greeting) := rfl
  obtain ⟨told, file⟩ := @Chat.append_taken workDir.runtime yaml
    (Memory.opened yaml (some text)) "ada" after Chat.greeting (.another chunk) (by decide) (by
      rw [Memory.opened, loads, inserted]
      exact emitted)
  have given : Chat.greeting ≠ [] := List.cons_ne_nil _ _
  have held : (World.saveHistory workDir.runtime yaml Chat.asciiTable "ai" before.world "ada"
      Chat.greeting "3d4e5f" (.another chunk) .stored).2 = true ∧
      ((World.saveHistory workDir.runtime yaml Chat.asciiTable "ai" before.world "ada"
        Chat.greeting "3d4e5f" (.another chunk) .stored).1.memories
          (Chat.mintedId "0a1b2c")).file = some after := by
    rw [World.saveHistory_some finds given, key]
    exact ⟨told, (congrArg Memory.file (World.asked_memory _ _ _)).trans file⟩
  have saves : before.save workDir.runtime yaml Chat.asciiTable "ai" 0 "3d4e5f"
      (.another chunk) .stored = World.saveHistory workDir.runtime yaml Chat.asciiTable "ai"
        before.world "ada" Chat.greeting "3d4e5f" (.another chunk) .stored := by
    rw [save, client, turns]
  rw [← saves] at held
  have ends := @append_does workDir.runtime yaml Chat.asciiTable plainFormat "ai" before 0
    "3d4e5f" (.another chunk) .stored false executing saving own
  have does : keeping = before.step workDir.runtime yaml Chat.asciiTable plainFormat "ai"
      (.append 0 "3d4e5f" (.another chunk) .stored) := by
    simp only [keeping, Keeping.run, List.foldl_append]
    rfl
  rw [← does] at ends
  have found : yaml.safeLoad after = some (some (Chat.conversation (cut ++ Chat.greeting))) :=
    (if_neg apart).trans ((if_neg other).trans (if_pos rfl))
  constructor
  · rw [ends.2, if_pos held.1]
    rfl
  · rw [conversation, ends.1, held.2, key, docOf, Answer.reply, YamlState.load_content,
      if_neg long, found]
    rfl

/-- What is stored after the first chunk of the long conversation was taken for the whole. -/
def resumedText : String :=
  Chat.opening ++ (Chat.essay 65493 ++
    "\n- content: hi\n  role: user\n- content: hello\n  role: assistant\n")

def longYaml : Yaml :=
  resumedYaml Chat.longTurns Chat.cutTurns (Chat.cutTurns ++ Chat.greeting) Chat.longText
    (Chat.firstChunk Chat.longText) resumedText

theorem initial_resumed {long cut resumed : List Value} {text chunk after : String}
    (some : text ≠ "") :
    initial (resumedYaml long cut resumed text chunk after) Chat.asciiTable (fun _ => .some text)
      (Chat.mintedId "0a1b2c") "ada" = long := by
  have key : World.chatKey Chat.asciiTable "ada" = "ada" := by decide
  have found : (resumedYaml long cut resumed text chunk after).safeLoad text =
      .some (.some (Chat.conversation long)) := if_pos rfl
  rw [initial, key, docOf, Answer.reply, YamlState.load_content, if_neg some, found]
  rfl

theorem front_length (count : Nat) (rest : String) (size : Nat) (measured : rest.length = size) :
    (Chat.opening ++ (Chat.essay count ++ rest)).length = 43 + (count + size) := by
  have front : Chat.opening.length = 43 := rfl
  rw [String.length_append, String.length_append, front, measured, Chat.essay,
    String.length_ofList, List.length_replicate]

/-- The first chunk ends in the middle of the essay. -/
theorem firstChunk_longText :
    Chat.firstChunk Chat.longText = Chat.opening ++ Chat.essay 65493 := by
  have front : (utf8 Chat.opening).length = 43 := rfl
  have parts : Chat.longText = (Chat.opening ++ Chat.essay 65493) ++
      (Chat.essay 43 ++ Chat.closing) := by
    rw [Chat.longText, ← Chat.essay_append 65493 43]
    simp only [String.append_assoc]
  rw [parts, Chat.firstChunk_append]
  rw [utf8_append, List.length_append, front, Chat.essay_length, FileBridge.defaultLength]

end Keeping

end Sending

end Fantastic.Python.Ai

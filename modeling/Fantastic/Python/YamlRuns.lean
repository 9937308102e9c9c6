import Fantastic.Python.YamlState

/-!
# What `yaml_state` remembers

The store against a ledger of the acknowledged writes. They agree in every run in which
each load that leads to an answer gets the file itself; a load that failed and a write
that did not lose every other key.
-/

namespace Fantastic.Python.YamlState

variable {yaml : Yaml} {brings : Char → Bool} {doc : Dict} {key : String}

/-! ### Texts that come back -/

theorem carriedItems_eq_all (brings : Char → Bool) (items : List Value) :
    carriedItems brings items = items.all (carried brings) := by
  induction items with
  | nil => rfl
  | cons item rest hypothesis => rw [carriedItems, hypothesis, List.all_cons]

theorem carriedMembers_eq_all (brings : Char → Bool) (members : List (String × Value)) :
    carriedMembers brings members =
      members.all fun member => member.1.toList.all brings && carried brings member.2 := by
  induction members with
  | nil => rfl
  | cons member rest hypothesis => rw [carriedMembers, hypothesis, List.all_cons]

theorem sortItems_eq_map (items : List Value) : sortItems items = items.map sortKeys := by
  induction items with
  | nil => rfl
  | cons item rest hypothesis => rw [sortItems, hypothesis, List.map_cons]

mutual

theorem carried_sortKeys (brings : Char → Bool) (value : Value) :
    carried brings (sortKeys value) = carried brings value := by
  cases value with
  | list items =>
    rw [sortKeys, carried, carried]
    exact carriedItems_sortItems brings items
  | dict members =>
    rw [sortKeys, carried, carried, carriedMembers_eq_all,
      (List.mergeSort_perm _ _).all_eq, ← carriedMembers_eq_all]
    exact carriedMembers_sortMembers brings members
  | _ => rfl

theorem carriedItems_sortItems (brings : Char → Bool) (items : List Value) :
    carriedItems brings (sortItems items) = carriedItems brings items := by
  cases items with
  | nil => rfl
  | cons item rest =>
    rw [sortItems, carriedItems, carriedItems, carried_sortKeys brings item,
      carriedItems_sortItems brings rest]

theorem carriedMembers_sortMembers (brings : Char → Bool) (members : List (String × Value)) :
    carriedMembers brings (sortMembers members) = carriedMembers brings members := by
  cases members with
  | nil => rfl
  | cons member rest =>
    rw [sortMembers, carriedMembers, carriedMembers, carried_sortKeys brings member.2,
      carriedMembers_sortMembers brings rest]

end

theorem Carried.insert (fine : Carried brings doc) {value : Value}
    (named : key.toList.all brings = true) (held : carried brings value = true) :
    Carried brings (doc.insert key value) := by
  intro other item found
  rw [OrderedDict.get?_insert] at found
  split at found
  case isTrue same =>
    rw [same, ← Option.some.inj found]
    exact ⟨named, held⟩
  case isFalse => exact fine other item found

theorem Carried.erase (fine : Carried brings doc) (key : String) :
    Carried brings (doc.erase key) := by
  intro other item found
  rw [OrderedDict.get?_erase] at found
  split at found
  case isTrue => cases found
  case isFalse => exact fine other item found

theorem carried_empty (brings : Char → Bool) : Carried brings .empty := by
  intro key item found
  simp at found

theorem Carried.items_at (fine : Carried brings doc) (key : String) :
    (listAt (doc.get? key)).all (carried brings) = true := by
  cases found : doc.get? key with
  | none => rfl
  | some value =>
    have held := (fine key value found).2
    cases value with
    | list items =>
      rw [carried, carriedItems_eq_all] at held
      exact held
    | _ => rfl

theorem carried_appended {value : Value} (held : carried brings value = true) :
    (appended value).all (carried brings) = true := by
  cases value with
  | list items =>
    rw [carried, carriedItems_eq_all] at held
    exact held
  | _ => simpa [appended] using held

theorem Carried.append (fine : Carried brings doc) (key : String) {value : Value}
    (held : carried brings value = true) :
    carried brings (.list (listAt (doc.get? key) ++ appended value)) = true := by
  rw [carried, carriedItems_eq_all, List.all_append, Bool.and_eq_true]
  exact ⟨fine.items_at key, carried_appended held⟩

/-! ### The document in the file -/

/-- The document a load of the file gives. -/
def docOf (yaml : Yaml) (file : Option String) : Dict :=
  load yaml (Answer.file.reply file)

theorem load_content (yaml : Yaml) (content : String) :
    load yaml (contentReply (.str content)) =
      if content = "" then .empty
      else
        match yaml.safeLoad content with
        | some (some doc) => doc
        | _ => .empty := rfl

/-- What is written is what the next load of the file gives. -/
theorem docOf_emitted (faithful : yaml.Faithful) (fine : Carried yaml.brings doc) {text : String}
    (emitted : emitYaml yaml doc = .ok text) (key : String) :
    Alike ((docOf yaml (some text)).get? key) (doc.get? key) := by
  unfold emitYaml at emitted
  split at emitted
  case isTrue empty =>
    have blank : doc = .empty := OrderedDict.ext_entries (List.isEmpty_iff.mp empty)
    cases emitted
    rw [blank]
    rfl
  case isFalse =>
    obtain ⟨long, loaded, loads, same⟩ := faithful doc text fine emitted
    have read : docOf yaml (some text) = loaded := by
      rw [docOf, Answer.reply, load_content, if_neg long, loads]
    rw [read]
    exact same key

/-- A document that reads like one whose texts come back is one of them. -/
theorem Carried.of_alike {other : Dict} (fine : Carried brings doc)
    (same : ∀ key, Alike (other.get? key) (doc.get? key)) : Carried brings other := by
  intro key item found
  have alike := same key
  rw [Alike, found, Option.map_some] at alike
  cases held : doc.get? key with
  | none => simp [held] at alike
  | some value =>
    rw [held, Option.map_some, Option.some.injEq] at alike
    obtain ⟨named, good⟩ := fine key value held
    refine ⟨named, ?_⟩
    rw [← carried_sortKeys, alike, carried_sortKeys]
    exact good

/-! ### The ledger -/

/-- For each key the value of the last acknowledged write to it. -/
abbrev Ledger := String → Option Value

/-- What a request asks the ledger to become. -/
def Ledger.note (ledger : Ledger) : Request → Ledger
  | .set key value => Function.update ledger key (some value)
  | .append key value =>
    Function.update ledger key (some (.list (listAt (ledger key) ++ appended value)))
  | .delete key => Function.update ledger key none
  | .replace doc => fun key => doc.get? key
  | .readAll | .read _ => ledger

/-- The caller got a reply that is not an error. -/
def acknowledged (reply : Except PyError Dict) : Bool :=
  match reply with
  | .ok fields => (fields.get? "error").isNone
  | .error _ => false

/-- The file, and the ledger kept for the statements. -/
structure Memory where
  file : Option String
  ledger : Ledger

/-- One call to the agent, with what the store answers along the way. -/
structure Move where
  payload : Dict
  answer : Answer
  verdict : Verdict

namespace Memory

def opened (yaml : Yaml) (file : Option String) : Memory where
  file := file
  ledger := fun key => (docOf yaml file).get? key

def reply (runtime : Runtime) (yaml : Yaml) (memory : Memory) (move : Move) :
    Except PyError Dict :=
  (handler runtime yaml memory.file move.payload move.answer move.verdict).2

def step (runtime : Runtime) (yaml : Yaml) (memory : Memory) (move : Move) : Memory where
  file := (handler runtime yaml memory.file move.payload move.answer move.verdict).1
  ledger :=
    match parse runtime move.payload with
    | .ok request =>
      if acknowledged (memory.reply runtime yaml move) then memory.ledger.note request
      else memory.ledger
    | .error _ => memory.ledger

/-- The texts a request brings in come back from a dump. -/
def Writable (yaml : Yaml) : Request → Prop
  | .set key value | .append key value =>
    key.toList.all yaml.brings = true ∧ carried yaml.brings value = true
  | .replace doc => Carried yaml.brings doc
  | _ => True

/-- The load gets the file itself, unless the request does not load or its write is not
taken; a write that is taken brings in only texts that come back, and one that is not
leaves the file alone. -/
def Undisturbed (yaml : Yaml) (file : Option String) (request : Request) (answer : Answer)
    (verdict : Verdict) : Prop :=
  match request, verdict with
  | .readAll, _ | .read _, _ => answer = .file
  | .replace _, .stored => Writable yaml request
  | _, .stored => answer = .file ∧ Writable yaml request
  | _, .refused _ _ _ left | _, .silent left => left = file

def Careful (runtime : Runtime) (yaml : Yaml) (memory : Memory) (move : Move) : Prop :=
  ∀ request, parse runtime move.payload = .ok request →
    Undisturbed yaml memory.file request move.answer move.verdict

def CarefulRun (runtime : Runtime) (yaml : Yaml) : Memory → List Move → Prop
  | _, [] => True
  | memory, move :: rest =>
    memory.Careful runtime yaml move ∧ CarefulRun runtime yaml (memory.step runtime yaml move) rest

/-- The key of a request that writes one key. -/
def keyWritten : Request → Option String
  | .set key _ | .append key _ | .delete key => some key
  | _ => none

/-- What the ledger asks of one call: a read of a key answers the value of the last
acknowledged write to it, a read of all answers them all, and an acknowledged write to one
key leaves every other key of the stored document as it was. -/
structure Honest (runtime : Runtime) (yaml : Yaml) (memory : Memory) (move : Move) : Prop where
  read : ∀ key, parse runtime move.payload = .ok (.read (.str key)) → ∃ fields,
    memory.reply runtime yaml move = .ok fields ∧
      Alike (fields.get? "value") (some ((memory.ledger key).getD .null))
  readAll : parse runtime move.payload = .ok .readAll → ∃ doc : Dict,
    memory.reply runtime yaml move =
        .ok (OrderedDict.empty.insert "doc" (.dict doc.entries)) ∧
      ∀ key, Alike (doc.get? key) (memory.ledger key)
  others : ∀ request key, parse runtime move.payload = .ok request →
    keyWritten request = some key → acknowledged (memory.reply runtime yaml move) = true →
    ∀ other, other ≠ key →
      Alike ((docOf yaml (memory.step runtime yaml move).file).get? other)
        ((docOf yaml memory.file).get? other)

def HonestRun (runtime : Runtime) (yaml : Yaml) : Memory → List Move → Prop
  | _, [] => True
  | memory, move :: rest =>
    memory.Honest runtime yaml move ∧ HonestRun runtime yaml (memory.step runtime yaml move) rest

/-- The stored document reads as the ledger does, and its texts come back. -/
structure Sound (yaml : Yaml) (memory : Memory) : Prop where
  agrees : ∀ key, Alike ((docOf yaml memory.file).get? key) (memory.ledger key)
  fine : Carried yaml.brings (docOf yaml memory.file)

end Memory

/-! ### One write -/

theorem Alike.trans {first second third : Option Value} (left : Alike first second)
    (right : Alike second third) : Alike first third :=
  Eq.trans left right

/-- A write that is not taken leaves the file alone. -/
def Verdict.Fair (file : Option String) : Verdict → Prop
  | .stored => True
  | .refused _ _ _ left | .silent left => left = file

theorem persistError_error (verb error : String) (reason hint : Value) :
    (persistError verb error reason hint).get? "error" =
      some (.str ("yaml_state." ++ verb ++ ": persist_blob: " ++ error)) := by
  unfold persistError
  split <;> split <;> simp [OrderedDict.get?_insert]

/-- A write is taken and acknowledged, or neither. -/
theorem persist_cases (yaml : Yaml) (doc : Dict) (verb : String) (reply : Dict)
    {file : Option String} {verdict : Verdict} (fair : verdict.Fair file) :
    (∃ text, verdict = .stored ∧ emitYaml yaml doc = .ok text ∧
        persist yaml file doc verb verdict reply = (some text, .ok reply)) ∨
      ((persist yaml file doc verb verdict reply).1 = file ∧
        acknowledged (persist yaml file doc verb verdict reply).2 = false) := by
  unfold persist
  cases emitted : emitYaml yaml doc with
  | error failure => exact Or.inr ⟨rfl, rfl⟩
  | ok text =>
    cases verdict with
    | stored => exact Or.inl ⟨text, rfl, rfl, rfl⟩
    | refused error reason hint left =>
      refine Or.inr ⟨fair, ?_⟩
      simp [acknowledged, persistError_error]
    | silent left =>
      refine Or.inr ⟨fair, ?_⟩
      simp [acknowledged, Kernel.errorReply]

/-- What one write does to a sound memory: `target` is what the ledger becomes when the
write is acknowledged. -/
theorem persist_sound (faithful : yaml.Faithful) {memory : Memory} (sound : memory.Sound yaml)
    {verb : String} {reply : Dict} {verdict : Verdict} {target : Ledger}
    (fair : verdict.Fair memory.file) (clean : reply.get? "error" = none)
    (writes : verdict = .stored →
      Carried yaml.brings doc ∧ ∀ key, Alike (doc.get? key) (target key)) :
    Memory.Sound yaml
      { file := (persist yaml memory.file doc verb verdict reply).1
        ledger :=
          if acknowledged (persist yaml memory.file doc verb verdict reply).2 then target
          else memory.ledger } := by
  obtain ⟨text, stored, emitted, result⟩ | ⟨same, unacknowledged⟩ :=
    persist_cases yaml doc verb reply fair
  · obtain ⟨fine, alike⟩ := writes stored
    have reads := docOf_emitted faithful fine emitted
    have told : acknowledged (.ok reply) = true := by simp [acknowledged, clean]
    rw [result, told]
    constructor
    · intro key
      exact (reads key).trans (alike key)
    · exact fine.of_alike reads
  · rw [same, unacknowledged]
    exact sound

/-- The keys a write does not touch read as before. -/
theorem persist_others (faithful : yaml.Faithful) {file : Option String} {verb : String}
    {reply : Dict} {verdict : Verdict} {other : String} (fair : verdict.Fair file)
    (writes : verdict = .stored →
      Carried yaml.brings doc ∧ doc.get? other = (docOf yaml file).get? other)
    (told : acknowledged (persist yaml file doc verb verdict reply).2 = true) :
    Alike ((docOf yaml (persist yaml file doc verb verdict reply).1).get? other)
      ((docOf yaml file).get? other) := by
  obtain ⟨text, stored, emitted, result⟩ | ⟨same, unacknowledged⟩ :=
    persist_cases yaml doc verb reply fair
  · obtain ⟨fine, untouched⟩ := writes stored
    rw [result, ← untouched]
    exact docOf_emitted faithful fine emitted other
  · rw [unacknowledged] at told
    cases told

namespace Memory

variable {runtime : Runtime} {memory : Memory} {move : Move}

theorem Undisturbed.fair {file : Option String} {request : Request} {answer : Answer}
    {verdict : Verdict} (careful : Undisturbed yaml file request answer verdict)
    (writes : request ≠ .readAll ∧ ∀ key, request ≠ .read key) : verdict.Fair file := by
  cases verdict with
  | stored => exact True.intro
  | refused error reason hint left =>
    cases request with
    | readAll => exact absurd rfl writes.1
    | read key => exact absurd rfl (writes.2 key)
    | _ => exact careful
  | silent left =>
    cases request with
    | readAll => exact absurd rfl writes.1
    | read key => exact absurd rfl (writes.2 key)
    | _ => exact careful

theorem update_alike {ledger : Ledger} (agrees : ∀ key, Alike (doc.get? key) (ledger key))
    {value noted : Value} (same : sortKeys value = sortKeys noted) (other : String) :
    Alike ((doc.insert key value).get? other) (Function.update ledger key (some noted) other) := by
  rw [OrderedDict.get?_insert]
  by_cases here : other = key
  · subst here
    simp [Alike, same]
  · simpa [here] using agrees other

theorem erase_alike {ledger : Ledger} (agrees : ∀ key, Alike (doc.get? key) (ledger key))
    (other : String) :
    Alike ((doc.erase key).get? other) (Function.update ledger key none other) := by
  rw [OrderedDict.get?_erase]
  by_cases here : other = key
  · subst here
    simp [Alike]
  · simpa [here] using agrees other

theorem getD_alike {held noted : Option Value} (same : Alike held noted) :
    Alike (some (held.getD .null)) (some (noted.getD .null)) := by
  have pulled : ∀ value : Option Value,
      sortKeys (value.getD .null) = (value.map sortKeys).getD .null := by
    intro value
    cases value <;> rfl
  rw [Alike, Option.map_some, Option.map_some, pulled, pulled, same]

theorem listAt_map (held : Option Value) :
    (listAt held).map sortKeys = listAt (held.map sortKeys) := by
  cases held with
  | none => rfl
  | some value =>
    cases value with
    | list items => simp [listAt, sortKeys, sortItems_eq_map]
    | _ => rfl

/-- Lists that read alike stay alike when the same items are added. -/
theorem listAt_alike {held noted : Option Value} (same : Alike held noted) (added : List Value) :
    sortKeys (.list (listAt held ++ added)) = sortKeys (.list (listAt noted ++ added)) := by
  have items : (listAt held).map sortKeys = (listAt noted).map sortKeys := by
    rw [listAt_map, listAt_map, same]
  rw [sortKeys, sortKeys, sortItems_eq_map, sortItems_eq_map, List.map_append, List.map_append,
    items]

/-- A step that parses, in terms of what the request does. -/
theorem step_of_parse {request : Request} (asks : parse runtime move.payload = .ok request) :
    memory.step runtime yaml move =
      { file := (perform yaml memory.file request move.answer move.verdict).1
        ledger :=
          if acknowledged (perform yaml memory.file request move.answer move.verdict).2 then
            memory.ledger.note request
          else memory.ledger } := by
  simp only [step, reply, handler, asks]

theorem reply_of_parse {request : Request} (asks : parse runtime move.payload = .ok request) :
    memory.reply runtime yaml move =
      (perform yaml memory.file request move.answer move.verdict).2 := by
  simp only [reply, handler, asks]

theorem Sound.after (faithful : yaml.Faithful) (sound : memory.Sound yaml) (request : Request)
    {answer : Answer} {verdict : Verdict}
    (careful : Undisturbed yaml memory.file request answer verdict) :
    Memory.Sound yaml
      { file := (perform yaml memory.file request answer verdict).1
        ledger :=
          if acknowledged (perform yaml memory.file request answer verdict).2 then
            memory.ledger.note request
          else memory.ledger } := by
  cases request with
  | readAll =>
    rw [Ledger.note, ite_self]
    exact sound
  | read key =>
    rw [Ledger.note, ite_self]
    exact sound
  | set key value =>
    apply persist_sound faithful sound (careful.fair (by simp))
    · simp [keyReply, OrderedDict.get?_insert]
    · intro stored
      subst stored
      obtain ⟨rfl, named, held⟩ := careful
      exact ⟨sound.fine.insert named held, update_alike sound.agrees rfl⟩
  | append key value =>
    apply persist_sound faithful sound (careful.fair (by simp))
    · simp [keyReply, OrderedDict.get?_insert]
    · intro stored
      subst stored
      obtain ⟨rfl, named, held⟩ := careful
      constructor
      · exact sound.fine.insert named (sound.fine.append key held)
      · exact update_alike sound.agrees (listAt_alike (sound.agrees key) _)
  | delete key =>
    apply persist_sound faithful sound (careful.fair (by simp))
    · simp [keyReply, OrderedDict.get?_insert]
    · intro stored
      subst stored
      obtain ⟨rfl, _⟩ := careful
      exact ⟨sound.fine.erase key, erase_alike sound.agrees⟩
  | replace doc =>
    apply persist_sound faithful sound (careful.fair (by simp))
    · simp [OrderedDict.get?_insert]
    · intro stored
      subst stored
      exact ⟨careful, fun _ => rfl⟩

theorem Sound.step (faithful : yaml.Faithful) (sound : memory.Sound yaml)
    (careful : memory.Careful runtime yaml move) : (memory.step runtime yaml move).Sound yaml := by
  cases asks : parse runtime move.payload with
  | ok request =>
    rw [step_of_parse asks]
    exact sound.after faithful request (careful request asks)
  | error complaint =>
    simp only [Memory.step, handler, asks]
    exact sound

/-- The three parts of honesty, one request at a time. -/
theorem Sound.honest (faithful : yaml.Faithful) (sound : memory.Sound yaml)
    (careful : memory.Careful runtime yaml move) : memory.Honest runtime yaml move where
  read := by
    intro key asks
    have served : move.answer = .file := careful _ asks
    have answers : memory.reply runtime yaml move =
        .ok ((OrderedDict.empty.insert "key" (.str key)).insert "value"
          (getD (docOf yaml memory.file) key)) := by
      rw [reply_of_parse asks, perform, served]
      rfl
    refine ⟨_, answers, ?_⟩
    rw [OrderedDict.get?_insert_self]
    exact getD_alike (sound.agrees key)
  readAll := by
    intro asks
    have served : move.answer = .file := careful _ asks
    have answers : memory.reply runtime yaml move =
        .ok (OrderedDict.empty.insert "doc" (.dict (docOf yaml memory.file).entries)) := by
      rw [reply_of_parse asks, perform, served]
      rfl
    exact ⟨docOf yaml memory.file, answers, sound.agrees⟩
  others := by
    intro request key asks writes told other apart
    have calm := careful request asks
    rw [reply_of_parse asks] at told
    rw [step_of_parse asks]
    cases request with
    | readAll => cases writes
    | read any => cases writes
    | replace doc => cases writes
    | set written value =>
      obtain rfl : written = key := Option.some.inj writes
      apply persist_others faithful (calm.fair (by simp)) _ told
      intro stored
      rw [stored] at calm
      obtain ⟨served, named, held⟩ := calm
      rw [served, OrderedDict.get?_insert_of_ne _ _ apart]
      exact ⟨sound.fine.insert named held, rfl⟩
    | append written value =>
      obtain rfl : written = key := Option.some.inj writes
      apply persist_others faithful (calm.fair (by simp)) _ told
      intro stored
      rw [stored] at calm
      obtain ⟨served, named, held⟩ := calm
      rw [served, OrderedDict.get?_insert_of_ne _ _ apart]
      exact ⟨sound.fine.insert named (sound.fine.append _ held), rfl⟩
    | delete written =>
      obtain rfl : written = key := Option.some.inj writes
      apply persist_others faithful (calm.fair (by simp)) _ told
      intro stored
      rw [stored] at calm
      rw [calm.1, OrderedDict.get?_erase, if_neg apart]
      exact ⟨sound.fine.erase written, rfl⟩

theorem Sound.run (faithful : yaml.Faithful) (sound : memory.Sound yaml) (moves : List Move)
    (careful : CarefulRun runtime yaml memory moves) : HonestRun runtime yaml memory moves := by
  induction moves generalizing memory with
  | nil => exact True.intro
  | cons move rest hypothesis =>
    constructor
    · exact sound.honest faithful careful.1
    · exact hypothesis (sound.step faithful careful.1) careful.2

/-- From any file whose texts come back, every call of a run in which the loads get the
file is answered from the ledger of the acknowledged writes, and no acknowledged write to
one key touches another. -/
theorem careful_runs_are_honest (runtime : Runtime) (yaml : Yaml) (faithful : yaml.Faithful)
    (file : Option String) (fine : Carried yaml.brings (docOf yaml file)) (moves : List Move)
    (careful : CarefulRun runtime yaml (opened yaml file) moves) :
    HonestRun runtime yaml (opened yaml file) moves := by
  have sound : (opened yaml file).Sound yaml := by
    constructor
    · intro key
      rfl
    · exact fine
  exact sound.run faithful moves careful

end Memory

/-! ### The loader behind it -/

/-- A text that fits one chunk of the stream is served: once `persist_blob` has taken it,
a load through an open store finds the document of the file. -/
theorem loader_serves_the_file {process : Process} {kernel : Kernel} {self : Nat}
    {agentId text : String} {disk after later : ByteDisk} {reply : Dict}
    (done : Loader.persistBlob process kernel self
      (Loader.persistPayload agentId "state.yaml" text) disk = .ok (after, reply))
    (answered : reply.get? "ok" = some (.bool true))
    (untouched : ∀ place, Loader.blobPlace process kernel self agentId "state.yaml" =
      .ok (some place) → later.at? place = after.at? place)
    (fits : (utf8 text).length ≤ 65536) :
    ∃ answer, Loader.loadBlob process kernel self
        (Loader.loadPayload agentId "state.yaml") later = .ok answer ∧
      load yaml (.dict answer.entries) = docOf yaml (some text) := by
  obtain ⟨store, path, place, persisted⟩ := Loader.persistBlob_ok done answered
  have kept := persisted.later untouched
  have whole := (Loader.first_chunk_is_content_iff "state.yaml" text).mpr (Or.inl fits)
  refine ⟨_, Loader.loadBlob_first_chunk kept, ?_⟩
  simp only [getD, OrderedDict.get?_insert_self, Option.getD_some] at whole
  rw [whole]
  rfl

/-! ### Two facts and a damaged file -/

def nameDoc : Dict := OrderedDict.empty.insert "user.name" (.str "Ada")

def nameAndDb : Dict := nameDoc.insert "decision.db" (.str "sqlite")

def dbDoc : Dict := OrderedDict.empty.insert "decision.db" (.str "sqlite")

def dbAndName : Dict := dbDoc.insert "user.name" (.str "Ada")

/-- PyYAML on the documents of the runs below; it raises on the others here. -/
def notesYaml : Yaml where
  safeDump := fun doc =>
    if doc.entries = nameDoc.entries then .ok "user.name: Ada\n"
    else if doc.entries = dbDoc.entries then .ok "decision.db: sqlite\n"
    else if doc.entries = nameAndDb.entries then .ok "decision.db: sqlite\nuser.name: Ada\n"
    else .error .typeError
  safeLoad := fun text =>
    if text = "user.name: Ada\n" then some (some nameDoc)
    else if text = "decision.db: sqlite\n" then some (some dbDoc)
    else if text = "decision.db: sqlite\nuser.name: Ada\n" then some (some dbAndName)
    else none
  brings := fun char => char ≠ '\u0085'

theorem notesYaml_faithful : notesYaml.Faithful := by
  intro doc text _ dumped
  simp only [notesYaml] at dumped
  split at dumped
  case isTrue same =>
    cases dumped
    rw [OrderedDict.ext_entries same]
    exact ⟨by decide, nameDoc, rfl, fun _ => rfl⟩
  case isFalse =>
    split at dumped
    case isTrue same =>
      cases dumped
      rw [OrderedDict.ext_entries same]
      exact ⟨by decide, dbDoc, rfl, fun _ => rfl⟩
    case isFalse =>
      split at dumped
      case isTrue same =>
        cases dumped
        rw [OrderedDict.ext_entries same]
        refine ⟨by decide, dbAndName, rfl, ?_⟩
        intro key
        have reordered : dbAndName.get? key = nameAndDb.get? key := by
          simp only [dbAndName, nameAndDb, dbDoc, nameDoc, OrderedDict.get?_insert]
          by_cases name : key = "user.name"
          · simp [name]
          · simp [name]
        rw [reordered]
        rfl
      case isFalse => cases dumped

def setCall (key value : String) : Dict :=
  ((OrderedDict.empty.insert "type" (Value.str "set")).insert "key" (.str key)).insert
    "value" (.str value)

def readCall (key : String) : Dict :=
  (OrderedDict.empty.insert "type" (Value.str "read")).insert "key" (.str key)

def rememberName : Move :=
  { payload := setCall "user.name" "Ada", answer := .file, verdict := .stored }

def twoFacts : List Move :=
  [rememberName,
    { payload := setCall "decision.db" "sqlite", answer := .file, verdict := .stored },
    { payload := readCall "user.name", answer := .file, verdict := .stored }]

theorem careful_of_parse {runtime : Runtime} {memory : Memory} {move : Move} (request : Request)
    (asks : parse runtime move.payload = .ok request)
    (calm : Memory.Undisturbed yaml memory.file request move.answer move.verdict) :
    memory.Careful runtime yaml move := by
  intro other again
  rw [asks, Except.ok.injEq] at again
  rw [← again]
  exact calm

/-- Two facts are set and the first is read back. -/
theorem two_facts_are_remembered :
    Memory.CarefulRun workDir.runtime notesYaml (Memory.opened notesYaml none) twoFacts ∧
      Memory.HonestRun workDir.runtime notesYaml (Memory.opened notesYaml none) twoFacts := by
  have careful :
      Memory.CarefulRun workDir.runtime notesYaml (Memory.opened notesYaml none) twoFacts := by
    refine ⟨?_, ?_, ?_, True.intro⟩
    · exact careful_of_parse (.set "user.name" (.str "Ada")) rfl ⟨rfl, by decide, by decide⟩
    · exact careful_of_parse (.set "decision.db" (.str "sqlite")) rfl
        ⟨rfl, by decide, by decide⟩
    · exact careful_of_parse (.read (.str "user.name")) rfl rfl
  exact ⟨careful, Memory.careful_runs_are_honest workDir.runtime notesYaml notesYaml_faithful none
    (carried_empty _) twoFacts careful⟩

/-- The file is damaged by hand, and the next `set` stores a document without the name. -/
theorem set_after_damage_forgets :
    ¬ ∀ moves, Memory.HonestRun workDir.runtime notesYaml (Memory.opened notesYaml none) moves := by
  intro honest
  have run := honest [rememberName,
    { payload := setCall "decision.db" "sqlite"
      answer := .another "user.name: [Ada\n"
      verdict := .stored }]
  have kept := run.2.1.others (.set "decision.db" (.str "sqlite")) "decision.db" rfl rfl
    (by decide) "user.name" (by decide)
  exact absurd kept (by unfold Alike; decide)

end Fantastic.Python.YamlState

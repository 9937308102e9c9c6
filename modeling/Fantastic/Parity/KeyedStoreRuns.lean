import Fantastic.Parity.KeyedStore

/-!
# What the keyed store remembers while calls overlap

The store against the list of the writes that landed. A read gives for each key what the last
write to it left, and no write to one key touches another, in every run in which a read gets the
file itself, a write lands on the document that it was made from, and the bridge's answers say
what it did.
-/

namespace Fantastic.KeyedStore

open Python.YamlState (Alike)

variable {language : Language} {library : Library} {doc other initial loaded : Dict}
variable {key : String} {write : Write} {log : List (Nat × Write)} {number : Nat}

/-! ### Keys -/

/-- What a write says of a key: nothing, that it has a value, or that it is gone. -/
def Write.on (key : String) : Write → Option (Option Value)
  | .set named value => if named = key then some (some value) else none
  | .delete named => if named = key then some none else none
  | .replace doc => some (doc.get? key)

/-- What the last write to the key left, and what was there at first if there was none. -/
def last (key : String) (held : Option Value) (log : List (Nat × Write)) : Option Value :=
  log.foldl (fun held entry => (entry.2.on key).getD held) held

theorem last_append (key : String) (held : Option Value) (log : List (Nat × Write))
    (entry : Nat × Write) :
    last key held (log ++ [entry]) = (entry.2.on key).getD (last key held log) := by
  rw [last, List.foldl_append]
  rfl

theorem apply_get? (doc : Dict) (write : Write) (key : String) :
    (write.apply doc).get? key = (write.on key).getD (doc.get? key) := by
  cases write with
  | set named value =>
    rw [Write.apply, OrderedDict.get?_insert, Write.on]
    by_cases same : named = key
    · rw [if_pos same, if_pos same.symm]
      rfl
    · rw [if_neg same, if_neg (Ne.symm same)]
      rfl
  | delete named =>
    rw [Write.apply, OrderedDict.get?_erase, Write.on]
    by_cases same : named = key
    · rw [if_pos same, if_pos same.symm]
      rfl
    · rw [if_neg same, if_neg (Ne.symm same)]
      rfl
  | replace other => rfl

theorem alike_on {left right : Option Value} (same : Alike left right) (write : Write)
    (key : String) : Alike ((write.on key).getD left) ((write.on key).getD right) := by
  cases write.on key with
  | none => exact same
  | some held => exact rfl

/-- The document has under each key what the last write to it left. -/
def Recalls (initial : Dict) (log : List (Nat × Write)) (doc : Dict) : Prop :=
  ∀ key, Alike (doc.get? key) (last key (initial.get? key) log)

theorem Recalls.apply (recalls : Recalls initial log doc) (same : Same loaded doc)
    (number : Nat) (write : Write) :
    Recalls initial (log ++ [(number, write)]) (write.apply loaded) := by
  intro key
  rw [last_append, apply_get?]
  exact alike_on ((same key).trans (recalls key)) write key

theorem Recalls.replace (initial : Dict) (log : List (Nat × Write)) (number : Nat) (doc : Dict) :
    Recalls initial (log ++ [(number, .replace doc)]) doc := by
  intro key
  rw [last_append]
  exact rfl

theorem Recalls.of_same (recalls : Recalls initial log doc) (same : Same other doc) :
    Recalls initial log other :=
  fun key => (same key).trans (recalls key)

/-! ### Texts that come back -/

theorem parse_empty : parse library "" = .empty := rfl

/-- What is written is what the next load brings. -/
theorem Library.Faithful.parse_emit (faithful : library.Faithful)
    (brings : doc.entries ≠ [] → library.brings doc = true) :
    Same (parse library (emitYaml library doc)) doc := by
  by_cases nothing : doc.entries = []
  · have empty : doc = .empty := OrderedDict.ext_entries nothing
    rw [emitYaml, if_pos nothing, parse_empty, empty]
    exact fun _ => rfl
  · obtain ⟨back, loads, same⟩ := faithful.inverse doc (brings nothing) nothing
    rw [emitYaml, if_neg nothing, parse, faithful.solid doc (brings nothing) nothing, loads]
    exact same

/-! ### What is said of the calls -/

def isError (reply : Value) : Bool :=
  match reply with
  | .dict members => (field members "error").isSome
  | _ => false

/-- A read rests on the writes that had landed at one moment after it was called. A write that
is acknowledged has landed after it was called. -/
def Done.Honest (library : Library) (initial : Dict) (log : List (Nat × Write)) (done : Done) :
    Prop :=
  match done.verb with
  | .write write => isError done.reply = false → (done.number, write) ∈ log.drop done.since
  | verb => done.since ≤ done.seen ∧ done.seen ≤ log.length ∧
      ∃ doc, done.reply = readReply library doc verb ∧ Recalls initial (log.take done.seen) doc

namespace Store

/-- The write has been acknowledged, or its call waits for the answer. -/
def Told (store : Store) (number : Nat) (write : Write) : Prop :=
  (∃ done ∈ store.done, done.number = number ∧ done.verb = .write write ∧
    isError done.reply = false) ∨
  ∃ loaded since, store.tasks number =
    some { verb := .write write, phase := .landed loaded, since := since }

/-- The file has under each key what the last write to it left, the writes are those that were
acknowledged or are about to be, and every answer tells the truth. -/
structure Honest (library : Library) (initial : Dict) (store : Store) : Prop where
  file : Recalls initial store.landed (store.doc library)
  told : ∀ number write, (number, write) ∈ store.landed → store.Told number write
  done : ∀ done ∈ store.done, done.Honest library initial store.landed

/-- A read gets the file itself; what is written comes back, and lands on the document that it
was made from; the answer to it is no refusal; and a write that is refused is said to be, and
leaves the file. -/
def Undisturbed (language : Language) (library : Library) (store : Store) (task : Task)
    (move : Move) : Prop :=
  match move, task.phase with
  | .serve _ answer, .reading =>
    match task.verb with
    | .write _ => True
    | _ => answer = .file
  | .land _, .writing loaded doc =>
    (doc.entries ≠ [] → library.brings doc = true) ∧
      match task.verb with
      | .write (.replace _) => True
      | _ => Same loaded (store.doc library)
  | .answered _ reply, .landed _ =>
    ∀ write, task.verb = .write write → persistError language write.name reply = none
  | .refuse _ reply left, .writing _ _ => left = store.file ∧
      ∀ write, task.verb = .write write → persistError language write.name reply ≠ none
  | _, _ => True

def Careful (language : Language) (library : Library) (store : Store) (move : Move) : Prop :=
  match move with
  | .call _ => True
  | .serve number _ | .receive number | .land number | .answered number _ | .refuse number _ _ =>
    ∀ task ∈ store.tasks number, store.Undisturbed language library task move

end Store

/-- What is known of a call by where it waits. -/
def Task.Waits (library : Library) (initial : Dict) (store : Store) (number : Nat)
    (task : Task) : Prop :=
  match task.phase with
  | .reading => True
  | .served reply seen => task.since ≤ seen ∧ seen ≤ store.landed.length ∧
      match task.verb with
      | .write _ => True
      | _ => Recalls initial (store.landed.take seen) (load library reply)
  | .writing loaded doc => ∃ write, task.verb = .write write ∧
      (doc = write.apply loaded)
  | .landed _ => ∃ write, task.verb = .write write ∧
      (number, write) ∈ store.landed.drop task.since

structure Task.Fits (library : Library) (initial : Dict) (store : Store) (number : Nat)
    (task : Task) : Prop where
  begun : number < store.begun
  since : task.since ≤ store.landed.length
  wired : store.wired = true
  waits : task.Waits library initial store number

/-- What every careful move keeps. -/
structure Sound (library : Library) (initial : Dict) (store : Store) : Prop where
  honest : store.Honest library initial
  tasks : ∀ number task, store.tasks number = some task → task.Fits library initial store number

variable {store : Store} {task : Task} {reply : Value}

/-- One more write has landed. -/
theorem Done.Honest.grow {done : Done} (honest : done.Honest library initial log)
    (entry : Nat × Write) : done.Honest library initial (log ++ [entry]) := by
  unfold Done.Honest at honest ⊢
  split at honest
  case h_1 write verb =>
    intro fine
    have before := honest fine
    by_cases long : done.since ≤ log.length
    · rw [List.drop_append_of_le_length long]
      exact List.mem_append_left _ before
    · rw [List.drop_eq_nil_of_le (by omega)] at before
      cases before
  case h_2 =>
    obtain ⟨since, seen, doc, reply, recalls⟩ := honest
    refine ⟨since, ?_, doc, reply, ?_⟩
    · rw [List.length_append]
      omega
    · rw [List.take_append_of_le_length seen]
      exact recalls

theorem Task.Fits.grow (fits : task.Fits library initial store number) {after : Store}
    (entry : Nat × Write) (landed : after.landed = store.landed ++ [entry])
    (begun : after.begun = store.begun) (wired : after.wired = store.wired) :
    task.Fits library initial after number := by
  have since := fits.since
  have waits := fits.waits
  refine ⟨begun ▸ fits.begun, ?_, wired.trans fits.wired, ?_⟩
  · rw [landed, List.length_append]
    omega
  · unfold Task.Waits at waits ⊢
    cases phase : task.phase with
    | reading => trivial
    | served reply seen =>
      rw [phase] at waits
      obtain ⟨first, second, rest⟩ := waits
      refine ⟨first, ?_, ?_⟩
      · rw [landed, List.length_append]
        omega
      · rw [landed, List.take_append_of_le_length second]
        exact rest
    | writing loaded doc =>
      rw [phase] at waits
      exact waits
    | landed loaded =>
      rw [phase] at waits
      obtain ⟨write, verb, inside⟩ := waits
      refine ⟨write, verb, ?_⟩
      rw [landed, List.drop_append_of_le_length since]
      exact List.mem_append_left _ inside

theorem Task.Fits.same (fits : task.Fits library initial store number) {after : Store}
    (landed : after.landed = store.landed) (begun : store.begun ≤ after.begun)
    (wired : after.wired = store.wired) : task.Fits library initial after number := by
  have waits := fits.waits
  refine ⟨Nat.lt_of_lt_of_le fits.begun begun, landed ▸ fits.since, wired.trans fits.wired, ?_⟩
  unfold Task.Waits at waits ⊢
  rw [landed]
  exact waits

theorem Sound.opened (sound : Sound library initial store) :
    Sound library initial { store with begun := store.begun + 1 } where
  honest :=
    { file := sound.honest.file
      told := sound.honest.told
      done := sound.honest.done }
  tasks := by
    intro number task found
    exact (sound.tasks number task found).same rfl (Nat.le_succ _) rfl

/-- A call that does not wait for the answer to its write comes to its next wait. -/
theorem Sound.place (sound : Sound library initial store)
    (fits : task.Fits library initial store number)
    (idle : ∀ old, store.tasks number = some old → ∀ loaded, old.phase ≠ .landed loaded) :
    Sound library initial (store.setTask number (some task)) where
  honest :=
    { file := sound.honest.file
      told := by
        intro which write landed
        rcases sound.honest.told which write landed with done | ⟨loaded, since, waits⟩
        · exact Or.inl done
        · right
          have apart : which ≠ number := by
            intro same
            rw [same] at waits
            exact idle _ waits loaded rfl
          refine ⟨loaded, since, ?_⟩
          simpa [Store.setTask, apart] using waits
      done := sound.honest.done }
  tasks := by
    intro which next found
    by_cases same : which = number
    · subst same
      have here : task = next := by simpa [Store.setTask] using found
      exact here ▸ fits.same rfl (le_refl _) rfl
    · have before := sound.tasks which next (by simpa [Store.setTask, same] using found)
      exact before.same rfl (le_refl _) rfl

/-- A call is answered. -/
theorem Sound.finish (sound : Sound library initial store) {verb : Verb} {since seen : Nat}
    (honest : Done.Honest library initial store.landed
      { number := number, verb := verb, since := since, seen := seen, reply := reply })
    (tells : ∀ write loaded since, store.tasks number =
      some { verb := .write write, phase := .landed loaded, since := since } →
        verb = .write write ∧ isError reply = false) :
    Sound library initial (store.finish number verb since seen reply) where
  honest :=
    { file := sound.honest.file
      told := by
        intro which write landed
        rcases sound.honest.told which write landed with ⟨done, listed, told⟩ |
          ⟨loaded, other, waits⟩
        · exact Or.inl ⟨done, List.mem_append_left _ listed, told⟩
        · by_cases same : which = number
          · subst same
            obtain ⟨wrote, fine⟩ := tells write loaded other waits
            exact Or.inl ⟨_, List.mem_append_right _ (List.mem_singleton_self _), rfl, wrote,
              fine⟩
          · right
            refine ⟨loaded, other, ?_⟩
            simpa [Store.finish, Store.setTask, same] using waits
      done := by
        intro done listed
        rcases List.mem_append.mp listed with before | last
        · exact sound.honest.done done before
        · rw [List.mem_singleton] at last
          exact last ▸ honest }
  tasks := by
    intro which next found
    by_cases same : which = number
    · subst same
      simp [Store.finish, Store.setTask] at found
    · have before := sound.tasks which next (by
        simpa [Store.finish, Store.setTask, same] using found)
      exact before.same rfl (le_refl _) rfl

theorem isError_reply (write : Write) (loaded : Dict) : isError (write.reply loaded) = false := by
  cases write <;> rfl

theorem isError_persist {verb : String} {error : Value}
    (refused : persistError language verb reply = some error) : isError error = true := by
  cases reply with
  | dict members =>
    obtain ⟨reason, _, made⟩ := Option.map_eq_some_iff.mp refused
    rw [← made]
    rfl
  | _ =>
    have made := Option.some.inj refused
    rw [← made]
    rfl

/-- What a reading verb answers rests on the writes that had landed when it read. -/
theorem Sound.answers (sound : Sound library initial store) {verb : Verb} {since seen : Nat}
    (reads : ∀ write, verb ≠ .write write) (first : since ≤ seen)
    (second : seen ≤ store.landed.length)
    (recalls : Recalls initial (store.landed.take seen) doc)
    (idle : ∀ old, store.tasks number = some old → ∀ loaded, old.phase ≠ .landed loaded) :
    Sound library initial
      (store.finish number verb since seen (readReply library doc verb)) := by
  apply sound.finish
  · unfold Done.Honest
    cases verb with
    | write write => exact absurd rfl (reads write)
    | _ => exact ⟨first, second, doc, rfl, recalls⟩
  · intro write loaded since waits
    exact absurd rfl (idle _ waits loaded)

/-- What is known of a verb that starts: nothing is loaded without a file bridge, and then
nothing has been written either. -/
theorem Sound.start (sound : Sound library initial store) (verb : Verb)
    (new : store.tasks number = none) (bound : number < store.begun)
    (wired : ∀ write, verb = .write write → store.wired = true) :
    Sound library initial (store.start library number verb) := by
  have idle : ∀ old, store.tasks number = some old → ∀ loaded, old.phase ≠ .landed loaded := by
    intro old found
    rw [new] at found
    cases found
  have reads : ∀ verb : Verb, store.wired = true → Sound library initial
      (store.setTask number
        (some { verb := verb, phase := .reading, since := store.landed.length })) := by
    intro verb here
    exact sound.place ⟨bound, le_refl _, here, trivial⟩ idle
  have alone : ∀ verb : Verb, (∀ write, verb ≠ .write write) → Sound library initial
      (if store.wired then
        store.setTask number
          (some { verb := verb, phase := .reading, since := store.landed.length })
      else store.finish number verb store.landed.length store.landed.length
        (readReply library .empty verb)) := by
    intro verb plain
    split
    case isTrue here => exact reads verb here
    case isFalse unwired =>
      apply sound.answers plain (le_refl _) (le_refl _)
      · rw [List.take_length]
        have file := sound.honest.file
        rw [Store.doc, if_neg unwired] at file
        exact file
      · exact idle
  cases verb with
  | write write =>
    have here := wired write rfl
    cases write with
    | replace doc => exact sound.place ⟨bound, le_refl _, here, _, rfl, rfl⟩ idle
    | set key value =>
      simp only [Store.start, if_pos here]
      exact reads _ here
    | delete key =>
      simp only [Store.start, if_pos here]
      exact reads _ here
  | read key => exact alone _ (fun write same => by cases same)
  | stateYaml => exact alone _ (fun write same => by cases same)

theorem wired_of_parsed {wired : Bool} {payload : List (String × Value)}
    (accepted : parsed wired payload = .ok (.write write)) : wired = true := by
  have insists : ∀ {verb : String} {next : Except Value Verb},
      whenWired wired verb next = .ok (.write write) → wired = true := by
    intro verb next accepted
    cases wired with
    | true => rfl
    | false => cases accepted
  unfold parsed at accepted
  split at accepted
  case h_1 => cases accepted
  case h_2 => cases accepted
  case h_6 => cases accepted
  all_goals exact insists accepted

theorem Sound.call (sound : Sound library initial store) (payload : List (String × Value)) :
    Sound library initial (store.call library payload) := by
  unfold Store.call
  simp only
  split
  case h_1 verb accepted =>
    apply sound.opened.start verb
    · cases found : store.tasks store.begun with
      | none => rfl
      | some task => exact absurd (sound.tasks _ task found).begun (Nat.lt_irrefl _)
    · exact Nat.lt_succ_self _
    · intro write same
      rw [same] at accepted
      exact wired_of_parsed accepted
  case h_2 => exact sound.opened

theorem Sound.edit (sound : Sound library initial store) (found : store.tasks number = some task)
    {seen : Nat} (phase : task.phase = .served reply seen) :
    Sound library initial (store.edit library number task seen (load library reply)) := by
  have fits := sound.tasks number task found
  have waits := fits.waits
  have idle : ∀ old, store.tasks number = some old → ∀ loaded, old.phase ≠ .landed loaded := by
    intro old here loaded
    rw [found, Option.some.injEq] at here
    rw [← here, phase]
    exact fun impossible => by cases impossible
  unfold Task.Waits at waits
  rw [phase] at waits
  obtain ⟨first, second, recalls⟩ := waits
  unfold Store.edit
  cases verb : task.verb with
  | write write =>
    exact sound.place ⟨fits.begun, fits.since, fits.wired, write, rfl, rfl⟩ idle
  | read key =>
    rw [verb] at recalls
    exact sound.answers (fun write same => by cases same) first second recalls idle
  | stateYaml =>
    rw [verb] at recalls
    exact sound.answers (fun write same => by cases same) first second recalls idle

/-- The answer to a write ends its call: with an error if it was refused, else it has landed. -/
theorem Sound.conclude (sound : Sound library initial store)
    (found : store.tasks number = some task) (verb : task.verb = .write write)
    (landed : persistError language write.name reply = none →
      (number, write) ∈ store.landed.drop task.since)
    (tells : ∀ loaded, task.phase = .landed loaded →
      persistError language write.name reply = none) :
    Sound library initial (store.conclude language number task loaded reply) := by
  unfold Store.conclude
  rw [verb]
  simp only
  cases said : persistError language write.name reply with
  | none =>
    apply sound.finish
    · exact fun _ => landed said
    · intro other held since waits
      rw [found, Option.some.injEq] at waits
      rw [waits] at verb
      exact ⟨verb.symm, isError_reply write loaded⟩
  | some error =>
    apply sound.finish
    · intro fine
      rw [Option.getD_some, isError_persist said] at fine
      cases fine
    · intro other held since waits
      rw [found, Option.some.injEq] at waits
      have clean := tells held (by rw [waits])
      rw [said] at clean
      cases clean

/-- A write lands: the file has what was written, on top of what the other writes left. -/
theorem Sound.land (sound : Sound library initial store) (faithful : library.Faithful)
    {named : Nat} (found : store.tasks number = some task) (phase : task.phase = .writing loaded doc)
    (verb : task.verb = .write write)
    (careful : store.Undisturbed language library task (.land named)) :
    Sound library initial
      { store.setTask number (some { task with phase := .landed loaded }) with
        file := some (emitYaml library doc)
        landed := store.landed ++ [(number, write)] } := by
  have fits := sound.tasks number task found
  have made : doc = write.apply loaded := by
    have waits := fits.waits
    unfold Task.Waits at waits
    rw [phase] at waits
    obtain ⟨other, same, made⟩ := waits
    rw [verb, Verb.write.injEq] at same
    rw [same]
    exact made
  unfold Store.Undisturbed at careful
  rw [phase] at careful
  simp only [verb] at careful
  obtain ⟨brings, onto⟩ := careful
  have back := faithful.parse_emit brings
  have recalls : Recalls initial (store.landed ++ [(number, write)]) doc := by
    cases write with
    | replace other =>
      rw [made]
      exact Recalls.replace initial store.landed number other
    | set key value =>
      rw [made]
      exact sound.honest.file.apply onto number _
    | delete key =>
      rw [made]
      exact sound.honest.file.apply onto number _
  have inside : (number, write) ∈ (store.landed ++ [(number, write)]).drop task.since := by
    rw [List.drop_append_of_le_length fits.since]
    exact List.mem_append_right _ (List.mem_singleton_self _)
  constructor
  · constructor
    · have here : Store.doc library { store.setTask number (some { task with
          phase := .landed loaded }) with
            file := some (emitYaml library doc)
            landed := store.landed ++ [(number, write)] } = parse library (emitYaml library doc) :=
        if_pos fits.wired
      rw [here]
      exact recalls.of_same back
    · intro which wrote listed
      rcases List.mem_append.mp listed with before | new
      · rcases sound.honest.told which wrote before with done | ⟨held, since, waits⟩
        · exact Or.inl done
        · right
          have apart : which ≠ number := by
            intro same
            rw [same, found, Option.some.injEq] at waits
            rw [waits] at phase
            cases phase
          refine ⟨held, since, ?_⟩
          simpa [Store.setTask, apart] using waits
      · rw [List.mem_singleton, Prod.mk.injEq] at new
        right
        refine ⟨loaded, task.since, ?_⟩
        simp [Store.setTask, new.1, new.2, verb]
    · exact fun done listed => (sound.honest.done done listed).grow (number, write)
  · intro which next lives
    by_cases same : which = number
    · subst same
      have here : { task with phase := Phase.landed loaded } = next := by
        simpa [Store.setTask] using lives
      rw [← here]
      refine ⟨fits.begun, ?_, fits.wired, write, verb, inside⟩
      have since := fits.since
      simp only [List.length_append]
      omega
    · have before := sound.tasks which next (by simpa [Store.setTask, same] using lives)
      exact before.grow (number, write) rfl rfl rfl

theorem Sound.advance (sound : Sound library initial store) (faithful : library.Faithful)
    (found : store.tasks number = some task) {move : Move}
    (careful : store.Undisturbed language library task move) :
    Sound library initial (store.advance language library number task move) := by
  have fits := sound.tasks number task found
  have waits := fits.waits
  unfold Task.Waits at waits
  unfold Store.advance
  split
  case h_1 answer phase =>
    unfold Store.Undisturbed at careful
    rw [phase] at careful
    simp only at careful
    apply sound.place
    · refine ⟨fits.begun, fits.since, fits.wired, fits.since, le_refl _, ?_⟩
      have file : Recalls initial store.landed (load library (fileReply store.file)) := by
        have here := sound.honest.file
        rw [Store.doc, if_pos fits.wired] at here
        exact here
      cases verb : task.verb with
      | write write => trivial
      | read key =>
        rw [verb] at careful
        simp only at careful
        simp only [careful, Answer.reply, List.take_length]
        exact file
      | stateYaml =>
        rw [verb] at careful
        simp only at careful
        simp only [careful, Answer.reply, List.take_length]
        exact file
    · intro old here loaded
      rw [found, Option.some.injEq] at here
      rw [← here, phase]
      exact fun impossible => by cases impossible
  case h_2 reply seen phase => exact sound.edit found phase
  case h_3 loaded doc phase =>
    split
    case h_1 write verb => exact sound.land faithful found phase verb careful
    case h_2 => exact sound
  case h_4 reply loaded phase =>
    rw [phase] at waits
    obtain ⟨write, verb, inside⟩ := waits
    unfold Store.Undisturbed at careful
    rw [phase] at careful
    exact sound.conclude found verb (fun _ => inside) (fun _ _ => careful write verb)
  case h_5 reply left loaded doc phase =>
    rw [phase] at waits
    obtain ⟨write, verb, _⟩ := waits
    unfold Store.Undisturbed at careful
    rw [phase] at careful
    obtain ⟨same, refused⟩ := careful
    have after : Sound library initial (store.conclude language number task loaded reply) := by
      apply sound.conclude found verb
      · intro clean
        exact absurd clean (refused write verb)
      · intro held impossible
        rw [phase] at impossible
        cases impossible
    have kept : (store.conclude language number task loaded reply).file = left := by
      rw [same, Store.conclude, verb]
      rfl
    rw [← kept]
    exact after
  case h_6 => exact sound

theorem Sound.step (sound : Sound library initial store) (faithful : library.Faithful)
    {move : Move} (careful : store.Careful language library move) :
    Sound library initial (store.step language library move) := by
  have resumes : ∀ number, (∀ task ∈ store.tasks number,
      store.Undisturbed language library task move) →
        Sound library initial (store.resume language library number move) := by
    intro number calm
    unfold Store.resume
    split
    case h_1 task found => exact sound.advance faithful found (calm task found)
    case h_2 => exact sound
  cases move with
  | call payload => exact sound.call payload
  | serve number answer => exact resumes number careful
  | receive number => exact resumes number careful
  | land number => exact resumes number careful
  | answered number reply => exact resumes number careful
  | refuse number reply left => exact resumes number careful

theorem opened_sound (library : Library) (wired : Bool) (file : Option String) :
    Sound library ((Store.opened wired file).doc library) (.opened wired file) where
  honest :=
    { file := fun _ => rfl
      told := fun _ _ listed => by cases listed
      done := fun _ listed => by cases listed }
  tasks := fun _ _ found => by cases found

/-- In every interleaving, in Rust and in Swift, in which a read gets the file itself, a write
lands on the document that it was made from and the bridge says what it did, the file has under
each key what the last write to it left, every answer to a read rests on the writes that had
landed at one moment after it was called, and every acknowledged write has landed. -/
theorem careful_runs_recall_each_key (language : Language) (library : Library)
    (faithful : library.Faithful) (wired : Bool) (file : Option String) (moves : List Move)
    (careful : Runs.Along (Store.step language library) (Store.Careful language library)
      (.opened wired file) moves) :
    ((Store.opened wired file).run language library moves).Honest library
      ((Store.opened wired file).doc library) := by
  have sound : Sound library ((Store.opened wired file).doc library)
      ((Store.opened wired file).run language library moves) :=
    Runs.Along.invariant (fun _ _ here calm => here.step faithful calm) moves
      (opened_sound library wired file) careful
  exact sound.honest

/-! ### Two facts -/

def oneFact (key value : String) : Dict :=
  OrderedDict.empty.insert key (.str value)

/-- A YAML library on the documents with one fact each. -/
def factLibrary : Library where
  dump := fun doc =>
    if doc.entries = (oneFact "user.name" "Ada").entries then "user.name: Ada\n"
    else "decision.db: sqlite\n"
  load := fun text =>
    if text = "user.name: Ada\n" then some (oneFact "user.name" "Ada")
    else if text = "decision.db: sqlite\n" then some (oneFact "decision.db" "sqlite")
    else none
  brings := fun doc =>
    doc.entries = (oneFact "user.name" "Ada").entries ||
      doc.entries = (oneFact "decision.db" "sqlite").entries

theorem factLibrary_faithful : factLibrary.Faithful := by
  have cases : ∀ doc, factLibrary.brings doc = true →
      doc = oneFact "user.name" "Ada" ∨ doc = oneFact "decision.db" "sqlite" := by
    intro doc brings
    rcases Bool.or_eq_true_iff.mp brings with first | second
    · exact Or.inl (OrderedDict.ext_entries (of_decide_eq_true first))
    · exact Or.inr (OrderedDict.ext_entries (of_decide_eq_true second))
  constructor
  · intro doc brings _
    rcases cases doc brings with rfl | rfl
    · rfl
    · rfl
  · intro doc brings _
    rcases cases doc brings with rfl | rfl
    · exact ⟨_, rfl, fun _ => rfl⟩
    · exact ⟨_, rfl, fun _ => rfl⟩

def setFact (key value : String) : Move :=
  .call [("type", .str "set"), ("key", .str key), ("value", .str value)]

def written : Value := .dict [("path", .str "agents/memory/state.yaml"), ("written", .bool true)]

/-- A fact is stored and read. -/
def storedThenRead : List Move :=
  [setFact "user.name" "Ada", .serve 0 .file, .receive 0, .land 0, .answered 0 written,
    .call [("type", .str "read"), ("key", .str "user.name")], .serve 1 .file, .receive 1]

theorem fact_is_recalled :
    ((Store.opened true none).run .rust factLibrary storedThenRead).Honest factLibrary .empty := by
  have careful : Runs.Along (Store.step .rust factLibrary) (Store.Careful .rust factLibrary)
      (.opened true none) storedThenRead := by
    refine ⟨trivial, ?_, ?_, ?_, ?_, trivial, ?_, ?_, trivial⟩
    · intro task found
      cases found
      trivial
    · intro task found
      cases found
      trivial
    · intro task found
      cases found
      exact ⟨fun _ => rfl, fun _ => rfl⟩
    · intro task found
      cases found
      intro write same
      cases same
      rfl
    · intro task found
      cases found
      rfl
    · intro task found
      cases found
      trivial
  exact careful_runs_recall_each_key .rust factLibrary factLibrary_faithful true none
    storedThenRead careful

/-- Two calls load the empty document, and then both write. -/
def bothStored : List Move :=
  [setFact "user.name" "Ada", setFact "decision.db" "sqlite", .serve 0 .file, .serve 1 .file,
    .receive 0, .receive 1, .land 0, .answered 0 written, .land 1, .answered 1 written]

/-- Both writes are acknowledged, and one of the facts is gone. -/
theorem bothStored_dishonest (language : Language) :
    ¬ ((Store.opened true none).run language factLibrary bothStored).Honest factLibrary .empty := by
  intro honest
  have file := honest.file "user.name"
  have held : (((Store.opened true none).run language factLibrary bothStored).doc
      factLibrary).get? "user.name" = none := by
    cases language <;> rfl
  have meant : last "user.name" (OrderedDict.empty.get? "user.name")
      ((Store.opened true none).run language factLibrary bothStored).landed =
        some (.str "Ada") := by
    cases language <;> rfl
  rw [held, meant] at file
  exact absurd file (by simp [Alike])

/-- Two crossing calls break each of the two stores. -/
theorem second_fact_erases_the_first :
    (¬ ∀ moves, ((Store.opened true none).run .rust factLibrary moves).Honest
      factLibrary .empty) ∧
    ¬ ∀ moves, ((Store.opened true none).run .swift factLibrary moves).Honest
      factLibrary .empty := by
  constructor
  · intro honest
    exact bothStored_dishonest .rust (honest bothStored)
  · intro honest
    exact bothStored_dishonest .swift (honest bothStored)

end Fantastic.KeyedStore

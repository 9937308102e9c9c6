import Fantastic.Swift.AgentBundle
import Mathlib.Algebra.Group.Nat.Defs

/-!
# Agents of one bundle do not interfere

Everything that is kept under an agent's id is out of reach for the others, and so are its
chat files. The interrupt epoch is not: an interrupt for one agent is one for all. As long as
no other agent is interrupted while a stream of the agent reads, the agent's part of a run is
the same without the other's moves.
-/

namespace Fantastic.Swift.Ai.Sharing

open Fantastic.Ai
open Fantastic.Rust.Ai (ChatFile)
open Transcript (Config Chats Writing chatPath)
open Coordination (Backend Stage)

variable {Character : Type} [DecidableEq Character] {config : BundleConfig Character}

/-! ### Files of different agents -/

/-- Letters, numbers and the marks that `safeClient` keeps do not make a slash. -/
structure Slashless (strings : Strings String Character) : Prop where
  joined : ∀ characters : List Character,
    (∀ character ∈ characters, strings.isLetter character = true ∨
      strings.isNumber character = true ∨ character = strings.character '.' ∨
      character = strings.character '_' ∨ character = strings.character '-') →
    '/' ∉ (strings.joined characters).toList
  cli : '/' ∉ (strings.literal "cli").toList

theorem Slashless.safeClient {strings : Strings String Character}
    (slashless : Slashless strings) (client : String) :
    '/' ∉ (safeClient strings client).toList := by
  have mapped (raw : List Character) :
      '/' ∉ (strings.joined ((raw.map fun character =>
        if strings.isLetter character ∨ strings.isNumber character ∨
            character = strings.character '.' ∨ character = strings.character '_' ∨
            character = strings.character '-' then character
        else strings.character '_').take 64)).toList := by
    apply slashless.joined
    intro character inside
    obtain ⟨original, _, same⟩ := List.mem_map.mp (List.mem_of_mem_take inside)
    rw [← same]
    split
    · assumption
    · exact Or.inr (Or.inr (Or.inr (Or.inl rfl)))
  unfold Ai.safeClient
  simp only
  generalize (if strings.isEmpty (strings.trimmed client) = true then strings.literal "cli"
    else strings.trimmed client) = raw
  by_cases empty : strings.isEmpty (strings.joined
      (((strings.characters raw).map fun character =>
        if strings.isLetter character ∨ strings.isNumber character ∨
            character = strings.character '.' ∨ character = strings.character '_' ∨
            character = strings.character '-' then character
        else strings.character '_').take 64)) = true
  · rw [if_pos empty]
    exact slashless.cli
  · rw [if_neg empty]
    exact mapped _

/-- Lists are cut at their first slash in one way only. -/
theorem first_slash_inj : ∀ {front other tail rest : List Char}, '/' ∉ front → '/' ∉ other →
    front ++ '/' :: tail = other ++ '/' :: rest → tail = rest := by
  intro front
  induction front with
  | nil =>
    intro other tail rest _ two same
    cases other with
    | nil => exact (List.cons.inj same).2
    | cons head other =>
      have slash := (List.cons.inj same).1
      exact (two (slash ▸ List.mem_cons_self)).elim
  | cons head front ih =>
    intro other tail rest one two same
    cases other with
    | nil =>
      have slash := (List.cons.inj same).1
      exact (one (slash ▸ List.mem_cons_self)).elim
    | cons next other =>
      apply ih
      · exact fun inside => one (List.mem_cons_of_mem _ inside)
      · exact fun inside => two (List.mem_cons_of_mem _ inside)
      · exact (List.cons.inj same).2

/-- Lists are cut at their last slash in one way only. -/
theorem last_slash_inj {front other tail rest : List Char} (one : '/' ∉ tail) (two : '/' ∉ rest)
    (same : front ++ '/' :: tail = other ++ '/' :: rest) : front = other := by
  have reversed := congrArg List.reverse same
  simp only [List.reverse_append, List.reverse_cons, List.append_assoc, List.singleton_append]
    at reversed
  have fronts : front.reverse = other.reverse := by
    apply first_slash_inj _ _ reversed
    · simpa using one
    · simpa using two
  exact List.reverse_injective fronts

/-- Agents have chat files of their own. -/
theorem chatPath_apart (slashless : Slashless config.strings) {agent other : String}
    (apart : agent ≠ other) (one two : String) :
    chatPath (config.forAgent agent) one ≠ chatPath (config.forAgent other) two := by
  intro same
  apply apart
  unfold chatPath at same
  rw [← String.toList_inj] at same ⊢
  simp only [String.toList_append, List.append_assoc] at same
  have chat : "/chat_".toList = '/' :: "chat_".toList := rfl
  rw [chat] at same
  have plain (client : String) :
      '/' ∉ "chat_".toList ++ ((safeClient config.strings client).toList ++ ".json".toList) := by
    intro inside
    cases List.mem_append.mp inside with
    | inl mark => exact absurd mark (by decide)
    | inr rest =>
      cases List.mem_append.mp rest with
      | inl safe => exact slashless.safeClient client safe
      | inr ending => exact absurd ending (by decide)
  exact last_slash_inj (plain one) (plain two) (List.append_cancel_left same)

/-! ### Alike -/

/-- A stream goes on from another seat: no epoch is recorded anew, and who reads has read. -/
structure Continues (before after : Seat) : Prop where
  startedAt : after.startedAt = before.startedAt
  reads : ∀ number stream, after.streams number = some stream → ∃ earlier,
    before.streams number = some earlier ∧ (stream.phase = .reading → earlier.phase = .reading)

/-- Two bundles are the same to an agent. The recorded epochs may differ, but not in which of
the streams that read have been interrupted. -/
structure Alike (config : BundleConfig Character) (agent : String) (whole alone : Bundle) :
    Prop where
  seat : whole.seats agent =
    { alone.seats agent with startedAt := (whole.seats agent).startedAt }
  files : ∀ client, whole.files (chatPath (config.forAgent agent) client) =
    alone.files (chatPath (config.forAgent agent) client)
  uncancelled : whole.cancelledStreams = [] ∧ alone.cancelledStreams = []
  epochs : alone.interruptEpoch ≤ whole.interruptEpoch
  begun : ∀ number stream, (alone.seats agent).streams number = some stream →
    (whole.seats agent).startedAt number ≤ whole.interruptEpoch ∧
      (alone.seats agent).startedAt number ≤ alone.interruptEpoch
  interrupted : ∀ number stream, (alone.seats agent).streams number = some stream →
    stream.phase = .reading →
      ((whole.seats agent).startedAt number < whole.interruptEpoch ↔
        (alone.seats agent).startedAt number < alone.interruptEpoch)

variable {agent other : String} {whole alone bundle next : Bundle} {seat : Seat}

theorem fresh_alike (files : String → ChatFile) :
    Alike config agent (.fresh files) (.fresh files) where
  seat := rfl
  files := fun _ => rfl
  uncancelled := ⟨rfl, rfl⟩
  epochs := UInt64.le_refl _
  begun := fun _ _ absurd => (Option.some_ne_none _ absurd.symm).elim
  interrupted := fun _ _ absurd => (Option.some_ne_none _ absurd.symm).elim

/-! ### Moves for others -/

/-- Nothing of the agent's changes. -/
structure Elsewhere (config : BundleConfig Character) (agent : String) (bundle next : Bundle) :
    Prop where
  seat : next.seats agent = bundle.seats agent
  files : ∀ client, next.files (chatPath (config.forAgent agent) client) =
    bundle.files (chatPath (config.forAgent agent) client)
  uncancelled : bundle.cancelledStreams = [] → next.cancelledStreams = []
  epoch : next.interruptEpoch = bundle.interruptEpoch

theorem Alike.whole_elsewhere (alike : Alike config agent whole alone)
    (elsewhere : Elsewhere config agent whole next) : Alike config agent next alone where
  seat := by
    rw [elsewhere.seat]
    exact alike.seat
  files := fun client => (elsewhere.files client).trans (alike.files client)
  uncancelled := ⟨elsewhere.uncancelled alike.uncancelled.1, alike.uncancelled.2⟩
  epochs := by
    rw [elsewhere.epoch]
    exact alike.epochs
  begun := by
    rw [elsewhere.seat, elsewhere.epoch]
    exact alike.begun
  interrupted := by
    rw [elsewhere.seat, elsewhere.epoch]
    exact alike.interrupted

theorem Alike.alone_elsewhere (alike : Alike config agent whole alone)
    (elsewhere : Elsewhere config agent alone next) : Alike config agent whole next where
  seat := by
    rw [elsewhere.seat]
    exact alike.seat
  files := fun client => (alike.files client).trans (elsewhere.files client).symm
  uncancelled := ⟨alike.uncancelled.1, elsewhere.uncancelled alike.uncancelled.2⟩
  epochs := by
    rw [elsewhere.epoch]
    exact alike.epochs
  begun := by
    rw [elsewhere.seat, elsewhere.epoch]
    exact alike.begun
  interrupted := by
    rw [elsewhere.seat, elsewhere.epoch]
    exact alike.interrupted

theorem Elsewhere.refl (bundle : Bundle) : Elsewhere config agent bundle bundle :=
  ⟨rfl, fun _ => rfl, id, rfl⟩

theorem Elsewhere.trans {last : Bundle} (first : Elsewhere config agent bundle next)
    (second : Elsewhere config agent next last) : Elsewhere config agent bundle last where
  seat := second.seat.trans first.seat
  files := fun client => (second.files client).trans (first.files client)
  uncancelled := fun none => second.uncancelled (first.uncancelled none)
  epoch := second.epoch.trans first.epoch

theorem putSeat_elsewhere (apart : agent ≠ other) :
    Elsewhere config agent bundle (bundle.putSeat other seat) :=
  ⟨Function.update_of_ne apart _ _, fun _ => rfl, id, rfl⟩

theorem leave_elsewhere (other : String) (number : Nat) :
    Elsewhere config agent bundle (bundle.leave other number) := by
  unfold Bundle.leave
  split
  · split
    · constructor
      · rfl
      · intro client
        rfl
      · intro none
        simp [none]
      · rfl
    · exact Elsewhere.refl bundle
  · exact Elsewhere.refl bundle

theorem saveHistory_other {config : Config Character} {files : String → ChatFile}
    {client path : String} {rows : List Value} {written : Bool}
    (foreign : path ≠ chatPath config client) :
    Transcript.saveHistory config files client rows written path = files path := by
  unfold Transcript.saveHistory
  split
  · exact Function.update_of_ne foreign _ _
  · rfl

/-- A history step writes at the agent's own paths only. -/
theorem chats_files_other {config : Config Character} {chats : Chats} {path : String}
    (foreign : ∀ client, path ≠ chatPath config client) (move : Transcript.Move) :
    (chats.step config move).files path = chats.files path := by
  cases move with
  | coordinate move => rfl
  | load number reading =>
    simp only [Chats.step]
    split <;> rfl
  | saveBase number messageId written =>
    simp only [Chats.step]
    split
    · exact saveHistory_other (foreign _)
    · rfl
  | pass number content calls results =>
    simp only [Chats.step]
    split <;> rfl
  | saveFinal number messageId content written =>
    simp only [Chats.step]
    split
    · exact saveHistory_other (foreign _)
    · rfl

theorem history_elsewhere (slashless : Slashless config.strings) (apart : agent ≠ other)
    (move : Transcript.Move) :
    Elsewhere config agent bundle (bundle.history config other seat move) where
  seat := Function.update_of_ne apart _ _
  files := fun client =>
    chats_files_other (fun foreign => chatPath_apart slashless apart client foreign) move
  uncancelled := id
  epoch := rfl

/-- A move for another agent, other than an interrupt. -/
theorem step_elsewhere (slashless : Slashless config.strings) (apart : agent ≠ other)
    {move : Move} (calm : move ≠ .interrupt) :
    Elsewhere config agent bundle (bundle.step config other move) := by
  have put (seat : Seat) : Elsewhere config agent bundle (bundle.putSeat other seat) :=
    putSeat_elsewhere apart
  have left (seat : Seat) (number : Nat) :
      Elsewhere config agent bundle ((bundle.putSeat other seat).leave other number) :=
    (put seat).trans (leave_elsewhere other number)
  have wrote (seat : Seat) (move : Transcript.Move) :
      Elsewhere config agent bundle (bundle.history config other seat move) :=
    history_elsewhere slashless apart move
  cases move with
  | interrupt => exact (calm rfl).elim
  | coordinate move =>
    simp only [Bundle.step]
    split
    · have moved := wrote (bundle.seats other) (.coordinate move)
      exact ⟨moved.seat, moved.files, moved.uncancelled, moved.epoch⟩
    · exact Elsewhere.refl bundle
  | begin number streamId messageId =>
    simp only [Bundle.step]
    split
    · exact put _
    · exact Elsewhere.refl bundle
  | load number reading =>
    simp only [Bundle.step]
    split
    · exact wrote _ _
    · exact Elsewhere.refl bundle
  | saveBase number messageId written =>
    simp only [Bundle.step]
    split
    · exact wrote _ _
    · exact Elsewhere.refl bundle
  | assemble menu => exact put _
  | project number outcome =>
    simp only [Bundle.step]
    split
    · exact left _ _
    · exact Elsewhere.refl bundle
  | chunk number chunk late =>
    simp only [Bundle.step]
    split
    · exact left _ _
    · exact Elsewhere.refl bundle
  | endPass number results =>
    simp only [Bundle.step]
    split
    · exact put _
    · exact Elsewhere.refl bundle
  | fail number error =>
    simp only [Bundle.step]
    split
    · exact left _ _
    · exact Elsewhere.refl bundle
  | finish number written =>
    simp only [Bundle.step]
    split
    · split
      · exact (wrote _ _).trans (leave_elsewhere other _)
      · exact Elsewhere.refl bundle
    · exact Elsewhere.refl bundle
  | refreshMenu => exact put _

/-! ### The agent's own moves -/

theorem Continues.refl (seat : Seat) : Continues seat seat :=
  ⟨rfl, fun _ stream same => ⟨stream, same, id⟩⟩

theorem Continues.trans {first second third : Seat} (earlier : Continues first second)
    (later : Continues second third) : Continues first third where
  startedAt := later.startedAt.trans earlier.startedAt
  reads := by
    intro number stream last
    obtain ⟨between, here, reading⟩ := later.reads number stream last
    obtain ⟨before, there, was⟩ := earlier.reads number between here
    exact ⟨before, there, fun reads => was (reading reads)⟩

/-- One stream of the seat becomes another that reads only if it did. -/
theorem Continues.of_update {before after : Seat} {number : Nat} {stream later : Stream}
    (startedAt : after.startedAt = before.startedAt)
    (streams : after.streams = Function.update before.streams number (some later))
    (here : before.streams number = some stream)
    (reads : later.phase = .reading → stream.phase = .reading) : Continues before after where
  startedAt := startedAt
  reads := by
    intro other found last
    rw [streams] at last
    by_cases same : other = number
    · subst same
      rw [Function.update_self] at last
      rw [← Option.some.inj last]
      exact ⟨stream, here, reads⟩
    · rw [Function.update_of_ne same] at last
      exact ⟨found, last, id⟩

theorem Continues.of_same {before after : Seat} (startedAt : after.startedAt = before.startedAt)
    (streams : after.streams = before.streams) : Continues before after where
  startedAt := startedAt
  reads := by
    intro number stream last
    rw [streams] at last
    exact ⟨stream, last, id⟩

/-- Both bundles get the same seat, but for the recorded epochs. -/
theorem Alike.put (alike : Alike config agent whole alone)
    (continues : Continues (alone.seats agent) seat) :
    Alike config agent
      (whole.putSeat agent { seat with startedAt := (whole.seats agent).startedAt })
      (alone.putSeat agent seat) := by
  have wholeSeat : (whole.putSeat agent
      { seat with startedAt := (whole.seats agent).startedAt }).seats agent =
        { seat with startedAt := (whole.seats agent).startedAt } := Function.update_self _ _ _
  have aloneSeat : (alone.putSeat agent seat).seats agent = seat := Function.update_self _ _ _
  constructor
  · rw [wholeSeat, aloneSeat]
  · exact alike.files
  · exact alike.uncancelled
  · exact alike.epochs
  · intro number stream last
    rw [aloneSeat] at last
    obtain ⟨earlier, here, _⟩ := continues.reads number stream last
    rw [wholeSeat, aloneSeat, continues.startedAt]
    exact alike.begun number earlier here
  · intro number stream last reading
    rw [aloneSeat] at last
    obtain ⟨earlier, here, reads⟩ := continues.reads number stream last
    rw [wholeSeat, aloneSeat, continues.startedAt]
    exact alike.interrupted number earlier here (reads reading)

theorem Alike.leave (alike : Alike config agent whole alone) (number : Nat) :
    Alike config agent (whole.leave agent number) (alone.leave agent number) :=
  (alike.whole_elsewhere (leave_elsewhere agent number)).alone_elsewhere
    (leave_elsewhere agent number)

/-- A history step looks at the agent's own files only. -/
theorem chats_agree {config : Config Character} {backend : Backend} {runs : Nat → Writing}
    {files others : String → ChatFile}
    (agree : ∀ client, files (chatPath config client) = others (chatPath config client))
    (move : Transcript.Move) :
    (Chats.step config ⟨backend, files, runs⟩ move).backend =
        (Chats.step config ⟨backend, others, runs⟩ move).backend ∧
      (Chats.step config ⟨backend, files, runs⟩ move).runs =
        (Chats.step config ⟨backend, others, runs⟩ move).runs ∧
      ∀ client, (Chats.step config ⟨backend, files, runs⟩ move).files (chatPath config client) =
        (Chats.step config ⟨backend, others, runs⟩ move).files (chatPath config client) := by
  have saved (client : String) (rows : List Value) (written : Bool) (path : String) :
      Transcript.saveHistory config files client rows written (chatPath config path) =
        Transcript.saveHistory config others client rows written (chatPath config path) := by
    unfold Transcript.saveHistory
    split
    · by_cases same : chatPath config path = chatPath config client
      · rw [same, Function.update_self, Function.update_self]
      · rw [Function.update_of_ne same, Function.update_of_ne same]
        exact agree path
    · exact agree path
  cases move with
  | coordinate move => exact ⟨rfl, rfl, agree⟩
  | load number reading =>
    simp only [Chats.step]
    split
    · refine ⟨rfl, ?_, agree⟩
      simp only [Chats.setRun, agree]
      rfl
    · exact ⟨rfl, rfl, agree⟩
  | saveBase number messageId written =>
    simp only [Chats.step]
    split
    · exact ⟨rfl, rfl, fun client => saved _ _ _ client⟩
    · exact ⟨rfl, rfl, agree⟩
  | pass number content calls results =>
    simp only [Chats.step]
    split
    · exact ⟨rfl, rfl, agree⟩
    · exact ⟨rfl, rfl, agree⟩
  | saveFinal number messageId content written =>
    simp only [Chats.step]
    split
    · exact ⟨rfl, rfl, fun client => saved _ _ _ client⟩
    · exact ⟨rfl, rfl, agree⟩

theorem Alike.withFiles (alike : Alike config agent whole alone) {files others : String → ChatFile}
    (agree : ∀ client, files (chatPath (config.forAgent agent) client) =
      others (chatPath (config.forAgent agent) client)) :
    Alike config agent { whole with files := files } { alone with files := others } :=
  ⟨alike.seat, agree, alike.uncancelled, alike.epochs, alike.begun, alike.interrupted⟩

theorem Alike.history (alike : Alike config agent whole alone)
    (continues : Continues (alone.seats agent) seat) (move : Transcript.Move) :
    Alike config agent
      (whole.history config agent { seat with startedAt := (whole.seats agent).startedAt } move)
      (alone.history config agent seat move) := by
  have agreed := @chats_agree _ _ (config.forAgent agent) seat.backend seat.runs _ _
    alike.files move
  obtain ⟨backends, runs, files⟩ := agreed
  have later : Continues (alone.seats agent)
      { seat with
        backend := ((seat.chats alone.files).step (config.forAgent agent) move).backend
        runs := ((seat.chats alone.files).step (config.forAgent agent) move).runs } :=
    continues.trans (Continues.of_same rfl rfl)
  have put := (alike.put later).withFiles files
  simp only [Seat.chats, ← backends, ← runs] at put
  simp only [Bundle.history, Seat.chats, ← backends, ← runs]
  exact put

omit [DecidableEq Character] in
/-- A chunk leaves the epochs alone, whatever they are. -/
theorem chunk_startedAt (seat : Seat) (startedAt : Nat → UInt64) (number : Nat)
    (stream : Stream) (chunk : Chunk) (late cancelled : Bool) :
    Seat.chunk config { seat with startedAt := startedAt } number stream chunk late cancelled =
      { seat.chunk config number stream chunk late cancelled with startedAt := startedAt } := by
  unfold Seat.chunk
  split
  · rfl
  · split
    · split
      · rfl
      · rfl
    · split
      · rfl
      · rfl

omit [DecidableEq Character] in
theorem project_startedAt (seat : Seat) (startedAt : Nat → UInt64) (number : Nat)
    (stream : Stream) (outcome : Projection) :
    Seat.project config { seat with startedAt := startedAt } number stream outcome =
      { seat.project config number stream outcome with startedAt := startedAt } := by
  unfold Seat.project
  split <;> rfl

theorem endPass_startedAt (seat : Seat) (startedAt : Nat → UInt64) (number : Nat)
    (stream : Stream) (results : List Value) :
    Seat.endPass config { seat with startedAt := startedAt } agent number stream results =
      { seat.endPass config agent number stream results with startedAt := startedAt } := by
  unfold Seat.endPass
  split <;> rfl

theorem reading_startedAt (seat : Seat) (startedAt : Nat → UInt64) (number : Nat) :
    Seat.reading { seat with startedAt := startedAt } number = seat.reading number :=
  rfl

theorem returned_startedAt (seat : Seat) (startedAt : Nat → UInt64) (move : Backend.Move) :
    Seat.returned { seat with startedAt := startedAt } move = seat.returned move :=
  rfl

/-- The stream that a seat reads is one of its streams. -/
theorem reading_stream {number : Nat} {stream : Stream} (reads : seat.reading number = some stream) :
    seat.streams number = some stream ∧ stream.phase = .reading := by
  unfold Seat.reading at reads
  split at reads
  · rename_i found here
    split at reads
    · rename_i phase
      rw [← Option.some.inj reads]
      exact ⟨here, phase⟩
    · exact (Option.some_ne_none _ reads.symm).elim
  · exact (Option.some_ne_none _ reads.symm).elim

theorem setStream_continues {number : Nat} {stream later : Stream}
    (here : seat.streams number = some stream)
    (reads : later.phase = .reading → stream.phase = .reading) :
    Continues seat (seat.setStream number later) :=
  Continues.of_update rfl rfl here reads

omit [DecidableEq Character] in
theorem emitDone_continues {number : Nat} {stream : Stream} (error : Option String)
    (here : seat.streams number = some stream) :
    Continues seat (seat.emitDone config number stream error) :=
  Continues.of_update rfl rfl here fun absurd => StreamPhase.noConfusion absurd

omit [DecidableEq Character] in
theorem chunk_continues {number : Nat} {stream : Stream} {chunk : Chunk} {late cancelled : Bool}
    (here : seat.streams number = some stream) (reads : stream.phase = .reading) :
    Continues seat (seat.chunk config number stream chunk late cancelled) := by
  unfold Seat.chunk
  split
  · exact emitDone_continues _ here
  · split
    · split
      · exact emitDone_continues _ here
      · exact setStream_continues here fun _ => reads
    · split
      · exact Continues.of_update rfl rfl here fun _ => reads
      · exact setStream_continues here fun _ => reads

theorem endPass_continues {number : Nat} {stream : Stream} {results : List Value}
    (here : seat.streams number = some stream) (reads : stream.phase = .reading) :
    Continues seat (seat.endPass config agent number stream results) := by
  unfold Seat.endPass
  split
  · exact setStream_continues here fun _ => reads
  · exact Continues.of_update rfl rfl here fun _ => reads

omit [DecidableEq Character] in
theorem project_continues {number : Nat} {stream : Stream} {outcome : Projection}
    (here : seat.streams number = some stream) :
    Continues seat (seat.project config number stream outcome) := by
  unfold Seat.project
  split
  · exact Continues.of_same rfl rfl
  · exact Continues.of_same rfl rfl
  · exact Continues.of_update rfl rfl here fun absurd => StreamPhase.noConfusion absurd
  · exact emitDone_continues _ here

/-- The stream that reads is cancelled in both bundles or in neither. -/
theorem Alike.cancelled (alike : Alike config agent whole alone) {number : Nat} {stream : Stream}
    (here : (alone.seats agent).streams number = some stream) (reads : stream.phase = .reading) :
    whole.isStreamCancelled stream.streamId ((whole.seats agent).startedAt number) =
      alone.isStreamCancelled stream.streamId ((alone.seats agent).startedAt number) := by
  unfold Bundle.isStreamCancelled
  rw [alike.uncancelled.1, alike.uncancelled.2]
  simp [alike.interrupted number stream here reads]

theorem Alike.begin (alike : Alike config agent whole alone) {number : Nat} {stream : Stream} :
    Alike config agent
      (whole.putSeat agent
        { ({ alone.seats agent with startedAt := (whole.seats agent).startedAt } :
            Seat).setStream number stream with
          startedAt := Function.update (whole.seats agent).startedAt number
            whole.interruptEpoch })
      (alone.putSeat agent
        { (alone.seats agent).setStream number stream with
          startedAt := Function.update (alone.seats agent).startedAt number
            alone.interruptEpoch }) := by
  constructor
  · simp only [Bundle.putSeat, Function.update_self]
    rfl
  · exact alike.files
  · exact alike.uncancelled
  · exact alike.epochs
  · intro other found last
    simp only [Bundle.putSeat, Function.update_self, Seat.setStream] at last ⊢
    by_cases same : other = number
    · subst same
      simp only [Function.update_self]
      exact ⟨UInt64.le_refl _, UInt64.le_refl _⟩
    · rw [Function.update_of_ne same] at last
      rw [Function.update_of_ne same, Function.update_of_ne same]
      exact alike.begun other found last
  · intro other found last reads
    simp only [Bundle.putSeat, Function.update_self, Seat.setStream] at last ⊢
    by_cases same : other = number
    · subst same
      simp only [Function.update_self]
      simp
    · rw [Function.update_of_ne same] at last
      rw [Function.update_of_ne same, Function.update_of_ne same]
      exact alike.interrupted other found last reads

/-- A move of the agent's own, other than an interrupt. -/
theorem Alike.own (alike : Alike config agent whole alone) {move : Move}
    (calm : move ≠ .interrupt) :
    Alike config agent (whole.step config agent move) (alone.step config agent move) := by
  have same := alike.seat
  have started := Continues.refl (alone.seats agent)
  cases move with
  | interrupt => exact (calm rfl).elim
  | coordinate move =>
    simp only [Bundle.step]
    rw [same, returned_startedAt]
    split
    · have moved := alike.history started (.coordinate move)
      exact ⟨moved.seat, moved.files, moved.uncancelled, moved.epochs, moved.begun,
        moved.interrupted⟩
    · exact alike
  | begin number streamId messageId =>
    simp only [Bundle.step]
    rw [same]
    simp only
    split
    · exact alike.begin
    · exact alike
  | load number reading =>
    simp only [Bundle.step]
    rw [same]
    simp only
    split
    · exact alike.history started _
    · exact alike
  | saveBase number messageId written =>
    simp only [Bundle.step]
    rw [same]
    simp only
    split
    · exact alike.history started _
    · exact alike
  | assemble menu =>
    have kept : Continues (alone.seats agent) { alone.seats agent with
        menuCache := some ((alone.seats agent).menuCache.getD menu) } :=
      Continues.of_same rfl rfl
    simp only [Bundle.step]
    rw [same]
    exact alike.put kept
  | project number outcome =>
    simp only [Bundle.step]
    rw [same, reading_startedAt]
    split
    · rename_i stream here
      rw [project_startedAt]
      exact (alike.put (project_continues (reading_stream here).1)).leave number
    · exact alike
  | chunk number chunk late =>
    simp only [Bundle.step]
    rw [same, reading_startedAt]
    split
    · rename_i stream here
      obtain ⟨found, reads⟩ := reading_stream here
      rw [chunk_startedAt, alike.cancelled found reads]
      exact (alike.put (chunk_continues found reads)).leave number
    · exact alike
  | endPass number results =>
    simp only [Bundle.step]
    rw [same, reading_startedAt]
    split
    · rename_i stream here
      obtain ⟨found, reads⟩ := reading_stream here
      rw [endPass_startedAt]
      exact alike.put (endPass_continues found reads)
    · exact alike
  | fail number error =>
    simp only [Bundle.step]
    rw [same, reading_startedAt]
    split
    · rename_i stream here
      exact (alike.put (emitDone_continues _ (reading_stream here).1)).leave number
    · exact alike
  | finish number written =>
    simp only [Bundle.step]
    rw [same]
    simp only
    split
    · rename_i stream running here
      split
      · exact (alike.history (emitDone_continues _ here) _).leave number
      · exact alike
    · exact alike
  | refreshMenu =>
    have kept : Continues (alone.seats agent) { alone.seats agent with menuCache := none } :=
      Continues.of_same rfl rfl
    simp only [Bundle.step]
    rw [same]
    exact alike.put kept

/-! ### Interrupts -/

theorem epoch_lt_next {epoch : UInt64} (room : epoch.toNat + 1 < 2 ^ 64) : epoch < epoch + 1 := by
  rw [UInt64.lt_iff_toNat_lt, UInt64.toNat_add]
  have one : (1 : UInt64).toNat = 1 := rfl
  omega

theorem next_le_next {one two : UInt64} (below : one ≤ two) (room : two.toNat + 1 < 2 ^ 64) :
    one + 1 ≤ two + 1 := by
  rw [UInt64.le_iff_toNat_le] at below ⊢
  rw [UInt64.toNat_add, UInt64.toNat_add]
  have one : (1 : UInt64).toNat = 1 := rfl
  omega

/-- An interrupt that both bundles see cancels the same streams. -/
theorem Alike.interrupt (alike : Alike config agent whole alone)
    (room : whole.interruptEpoch.toNat + 1 < 2 ^ 64) (one two : String) :
    Alike config agent (whole.step config one .interrupt) (alone.step config two .interrupt) := by
  have small : alone.interruptEpoch.toNat + 1 < 2 ^ 64 := by
    have below := UInt64.le_iff_toNat_le.mp alike.epochs
    omega
  have wholeLater := epoch_lt_next room
  have aloneLater := epoch_lt_next small
  constructor
  · exact alike.seat
  · exact alike.files
  · exact alike.uncancelled
  · exact next_le_next alike.epochs room
  · intro number stream here
    obtain ⟨inWhole, inAlone⟩ := alike.begun number stream here
    exact ⟨UInt64.le_trans inWhole (UInt64.le_of_lt wholeLater),
      UInt64.le_trans inAlone (UInt64.le_of_lt aloneLater)⟩
  · intro number stream here _
    obtain ⟨inWhole, inAlone⟩ := alike.begun number stream here
    constructor
    · intro _
      exact UInt64.lt_of_le_of_lt inAlone aloneLater
    · intro _
      exact UInt64.lt_of_le_of_lt inWhole wholeLater

/-- An interrupt that only one bundle sees, with no stream of the agent left to cancel. -/
theorem Alike.erasedInterrupt (alike : Alike config agent whole alone)
    (room : whole.interruptEpoch.toNat + 1 < 2 ^ 64) (other : String)
    (quiet : ∀ number stream, (whole.seats agent).streams number = some stream →
      stream.phase = .reading → (whole.seats agent).startedAt number < whole.interruptEpoch) :
    Alike config agent (whole.step config other .interrupt) alone := by
  have later := epoch_lt_next room
  constructor
  · exact alike.seat
  · exact alike.files
  · exact alike.uncancelled
  · exact UInt64.le_trans alike.epochs (UInt64.le_of_lt later)
  · intro number stream here
    obtain ⟨inWhole, inAlone⟩ := alike.begun number stream here
    exact ⟨UInt64.le_trans inWhole (UInt64.le_of_lt later), inAlone⟩
  · intro number stream here reads
    have inWhole : (whole.seats agent).streams number = some stream := by
      rw [alike.seat]
      exact here
    have cancelled := quiet number stream inWhole reads
    rw [← alike.interrupted number stream here reads]
    constructor
    · intro _
      exact cancelled
    · intro _
      exact UInt64.lt_trans cancelled later

/-! ### Whole runs -/

/-- The epoch has not come to its end, and the other agent is not interrupted while a stream of
the agent reads that no interrupt has reached. -/
def Careful (agent other : String) (bundle : Bundle) (move : String × Move) : Prop :=
  move.2 = .interrupt → bundle.interruptEpoch.toNat + 1 < 2 ^ 64 ∧
    (move.1 = other → ∀ number stream, (bundle.seats agent).streams number = some stream →
      stream.phase = .reading → (bundle.seats agent).startedAt number < bundle.interruptEpoch)

variable (config) in
def CarefulRun (agent other : String) : Bundle → List (String × Move) → Prop :=
  Runs.Along (fun bundle move => bundle.step config move.1 move.2) (Careful agent other)

/-- A move that both bundles make. -/
theorem Alike.both (slashless : Slashless config.strings)
    (alike : Alike config agent whole alone) {move : String × Move}
    (careful : Careful agent other whole move) :
    Alike config agent (whole.step config move.1 move.2) (alone.step config move.1 move.2) := by
  by_cases calm : move.2 = .interrupt
  · rw [calm]
    exact alike.interrupt (careful calm).1 _ _
  · by_cases own : agent = move.1
    · rw [← own]
      exact alike.own calm
    · exact (alike.whole_elsewhere (step_elsewhere slashless own calm)).alone_elsewhere
        (step_elsewhere slashless own calm)

/-- A move for the other agent, left out of one of the bundles. -/
theorem Alike.one (slashless : Slashless config.strings) (apart : agent ≠ other)
    (alike : Alike config agent whole alone) {move : String × Move} (others : move.1 = other)
    (careful : Careful agent other whole move) :
    Alike config agent (whole.step config move.1 move.2) alone := by
  rw [others]
  by_cases calm : move.2 = .interrupt
  · rw [calm]
    exact alike.erasedInterrupt (careful calm).1 other ((careful calm).2 others)
  · exact alike.whole_elsewhere (step_elsewhere slashless apart calm)

theorem agents_do_not_interfere (slashless : Slashless config.strings) (apart : agent ≠ other)
    (files : String → ChatFile) (moves : List (String × Move))
    (careful : CarefulRun config agent other (.fresh files) moves) :
    let whole := (Bundle.fresh files).run config moves
    let alone := (Bundle.fresh files).run config (moves.filter fun move => move.1 ≠ other)
    (whole.seats agent).events = (alone.seats agent).events ∧
      ∀ client, whole.transcript config agent client = alone.transcript config agent client := by
  intro whole alone
  have alike : Alike config agent whole alone := by
    apply careful.erased _ _ moves (fresh_alike files)
    · intro state other move alike allowed _
      exact alike.both slashless allowed
    · intro state alone move alike allowed erased
      apply alike.one slashless apart _ allowed
      simpa using erased
  constructor
  · rw [alike.seat]
  · intro client
    exact congrArg ChatFile.turns (alike.files client)

def plainBundle : BundleConfig Char where
  strings := Chats.plainStrings
  stateless := false
  emitInterruptedError := false
  includeAccumulatedOnError := false
  sendTimeoutSeconds := 180
  wired := fun _ => true

theorem plain_slashless : Slashless plainBundle.strings where
  joined := by
    intro characters kept inside
    have here : '/' ∈ characters := by
      have text : (plainBundle.strings.joined characters).toList = characters :=
        String.toList_ofList
      rwa [text] at inside
    exact absurd (kept '/' here) (by decide)
  cli := by decide

/-- An agent sends up to the point where it reads from its provider. -/
def sendMoves : List Move :=
  [.coordinate (.call ⟨"web", "hello", "s0", .null⟩), .coordinate (.probe 0),
    .coordinate (.acquire 0), .coordinate (.pop 0 .null), .begin 0 "stm" "msg", .load 0 .served,
    .saveBase 0 "usr" true]

/-- One agent is interrupted before the other sends. -/
theorem early_interrupt_does_not_interfere :
    let moves : List (String × Move) := ("b", .interrupt) ::
      (sendMoves ++ [Move.chunk 0 (.token "hi") false]).map ("a", ·)
    let whole := (Bundle.fresh fun _ => .missing).run plainBundle moves
    let alone := (Bundle.fresh fun _ => .missing).run plainBundle
      (moves.filter fun move => move.1 ≠ "b")
    (whole.seats "a").events = (alone.seats "a").events ∧
      ∀ client, whole.transcript plainBundle "a" client =
        alone.transcript plainBundle "a" client := by
  apply agents_do_not_interfere plain_slashless (by decide)
  refine ⟨?_, ?_, ?_, ?_, ?_, ?_, ?_, ?_, ?_, trivial⟩
  · intro _
    constructor
    · decide
    · intro _ number stream absurd
      exact (Option.some_ne_none _ absurd.symm).elim
  all_goals
    intro absurd
    exact Move.noConfusion absurd

/-- An interrupt for one agent cancels the stream of another. -/
theorem interrupt_interferes :
    ¬ ∀ (agent other : String) (moves : List (String × Move)), agent ≠ other →
      (((Bundle.fresh fun _ => .missing).run plainBundle moves).seats agent).events =
        (((Bundle.fresh fun _ => .missing).run plainBundle
          (moves.filter fun move => move.1 ≠ other)).seats agent).events := by
  intro always
  have same := always "a" "b" (sendMoves.map ("a", ·) ++
    [("b", Move.interrupt), ("a", Move.chunk 0 (.token "hi") false)]) (by decide)
  exact absurd (congrArg List.length same) (by decide)

end Fantastic.Swift.Ai.Sharing

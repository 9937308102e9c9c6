import Fantastic.Rust.AiSend
import Fantastic.Swift.AiStatus
import Fantastic.Swift.SendCoordination
import Mathlib.Data.List.Infix

/-!
# The chat files of a Swift backend

`runStream` reads the whole chat file of its client when it begins, writes it back with the
user turn, and writes it again with all turns when it ends well (`AIBackend.swift`,
`loadHistory` and `saveHistory`). The sends of an agent take turns as `SendCoordination` has
it, so as long as the read is answered the file is what the run has in its hands.
-/

namespace Fantastic.Swift.Ai.Transcript

open Fantastic.Ai
open Fantastic.Rust.Ai (ChatFile Reading)
open Coordination (Backend Stage)

/-- One backend agent. `wired` tells whether it has a `file_bridge_id`. -/
structure Config (Character : Type) where
  strings : Strings String Character
  agentId : String
  stateless : Bool
  wired : Bool

variable {Character : Type} [DecidableEq Character] (config : Config Character)

def chatPath (client : String) : String :=
  "agents/" ++ config.agentId ++ "/chat_" ++ safeClient config.strings client ++ ".json"

/-- A row of the history; stateless backends give it an id. -/
def row (role id content : String) : Value :=
  .dict ((if config.stateless then [("id", .str id)] else []) ++
    [("role", .str role), ("content", .str content), ("complete", .bool true)])

def userTurn (id text : String) : Value :=
  row config "user" id text

/-- An assistant turn without tool calls. -/
def assistantTurn (id content : String) : Value :=
  row config "assistant" id content

/-- `assistantTurnWithTools`. -/
def callTurn (content : String) (calls : List Value) : Value :=
  .dict [("role", .str "assistant"), ("content", .str content), ("tool_calls", .list calls)]

/-- No provider, no content and no list are all an empty history. -/
def loadHistory (file : ChatFile) (reading : Reading) : List Value :=
  if config.wired then Rust.Ai.loadHistory file reading else []

/-- `written` tells whether the provider accepted the write, which nobody asks. -/
def saveHistory (files : String → ChatFile) (client : String) (rows : List Value)
    (written : Bool) : String → ChatFile :=
  if config.wired ∧ written then Function.update files (chatPath config client) (.list rows)
  else files

/-- How far a run is with the file. `rows` are `persistBase` and the turns after it. -/
inductive Writing where
  | starting
  | loaded (prior : List Value)
  | generating (rows : List Value)
  | saved

/-- The list that the run has in its hands. -/
def Writing.rows : Writing → Option (List Value)
  | .loaded prior => some prior
  | .generating rows => some rows
  | _ => none

structure Chats where
  backend : Backend
  files : String → ChatFile
  runs : Nat → Writing

/-- A run that has not been refused, cut off or ended goes on; `coordinate` is everything that
does not reach the files. -/
inductive Move where
  | coordinate (move : Backend.Move)
  | load (number : Nat) (reading : Reading)
  | saveBase (number : Nat) (messageId : String) (written : Bool)
  | pass (number : Nat) (content : String) (calls results : List Value)
  | saveFinal (number : Nat) (messageId content : String) (written : Bool)

namespace Chats

def fresh (files : String → ChatFile) : Chats where
  backend := .fresh
  files := files
  runs := fun _ => .starting

def client (chats : Chats) (number : Nat) : String :=
  (chats.backend.entries[number]?.map QueueEntry.client).getD ""

def text (chats : Chats) (number : Nat) : String :=
  (chats.backend.entries[number]?.map QueueEntry.text).getD ""

/-- What is stored for a client. -/
def transcript (chats : Chats) (client : String) : List Value :=
  (chats.files (chatPath config client)).turns

def setRun (chats : Chats) (number : Nat) (writing : Writing) : Chats :=
  { chats with runs := Function.update chats.runs number writing }

/-- The run writes the list and has it in its hands, or is through with it. -/
def save (chats : Chats) (number : Nat) (rows : List Value) (written : Bool)
    (writing : Writing) : Chats :=
  { chats.setRun number writing with
    files := saveHistory config chats.files (chats.client number) rows written }

def step (chats : Chats) (move : Move) : Chats :=
  match move with
  | .coordinate move => { chats with backend := chats.backend.step move }
  | .load number reading =>
    match chats.backend.stage number, chats.runs number with
    | .running _, .starting =>
      let file := chats.files (chatPath config (chats.client number))
      chats.setRun number (.loaded (loadHistory config file reading))
    | _, _ => chats
  | .saveBase number messageId written =>
    match chats.backend.stage number, chats.runs number with
    | .running _, .loaded prior =>
      let persistBase := prior ++ [userTurn config messageId (chats.text number)]
      chats.save config number persistBase written (.generating persistBase)
    | _, _ => chats
  | .pass number content calls results =>
    match chats.backend.stage number, chats.runs number with
    | .running _, .generating rows =>
      chats.setRun number (.generating (rows ++ callTurn content calls :: results))
    | _, _ => chats
  | .saveFinal number messageId content written =>
    match chats.backend.stage number, chats.runs number with
    | .running _, .generating rows =>
      chats.save config number (rows ++ [assistantTurn config messageId content]) written
        .saved
    | _, _ => chats

def run (chats : Chats) (moves : List Move) : Chats :=
  moves.foldl (step config) chats

/-- The read of a run is answered with the content, unless nothing is stored. -/
def Answered (chats : Chats) : Move → Prop
  | .load number reading =>
    config.wired = true → reading = .served ∨ chats.transcript config (chats.client number) = []
  | _ => True

/-- Writes are for clients with another sanitised id. -/
def Foreign (client : String) (chats : Chats) : Move → Prop
  | .saveBase number _ _ | .saveFinal number _ _ _ =>
    safeClient config.strings (chats.client number) ≠ safeClient config.strings client
  | _ => True

/-! ### Stages go forward -/

/-- Before `runStream`. -/
def Unstarted (stage : Stage) : Prop :=
  stage = .absent ∨ stage.queued = true

/-- A stage that another can follow: nobody comes back to before `runStream`, and who is in
`runStream` was in it or had not started. -/
structure Follows (before after : Stage) : Prop where
  unstarted : Unstarted after → Unstarted before
  running : ∀ phase, after = .running phase →
    Unstarted before ∨ ∃ earlier, before = .running earlier

theorem Follows.refl (stage : Stage) : Follows stage stage :=
  ⟨id, fun phase same => Or.inr ⟨phase, same⟩⟩

/-- Whatever follows a stage before `runStream` follows it well. -/
theorem Follows.of_unstarted {before after : Stage} (unstarted : Unstarted before) :
    Follows before after :=
  ⟨fun _ => unstarted, fun _ _ => Or.inl unstarted⟩

theorem follows_update {backend : Backend} {number : Nat} {stage : Stage}
    (here : Follows (backend.stage number) stage) (other : Nat) :
    Follows (backend.stage other) (Function.update backend.stage number stage other) := by
  by_cases same : other = number
  · rw [same, Function.update_self]
    exact here
  · rw [Function.update_of_ne same]
    exact Follows.refl _

theorem step_follows {backend : Backend} {holder : Option Nat}
    (locking : backend.Locking holder) (move : Backend.Move) (other : Nat) :
    Follows (backend.stage other) ((backend.step move).stage other) := by
  have effect := Backend.step_effect backend move
  generalize backend.step move = next at effect ⊢
  have unstarted {number : Nat} {stage : Stage} (here : backend.stage number = stage)
      (queued : stage.queued = true) : Unstarted (backend.stage number) :=
    Or.inr (here ▸ queued)
  cases effect with
  | idle => exact Follows.refl _
  | call entry =>
    apply follows_update
    exact Follows.of_unstarted (Or.inl (locking.absent _ (Nat.le_refl _)))
  | probe number stage here =>
    exact follows_update (Follows.of_unstarted (unstarted here rfl)) other
  | announce number here =>
    exact follows_update (Follows.of_unstarted (unstarted here rfl)) other
  | acquire number here =>
    exact follows_update (Follows.of_unstarted (unstarted here rfl)) other
  | pop number startedAt here =>
    exact follows_update (Follows.of_unstarted (unstarted here rfl)) other
  | emit number phase before here =>
    apply follows_update
    constructor
    · intro absurd
      cases absurd with
      | inl absent => exact Stage.noConfusion absent
      | inr queued => exact (Bool.false_ne_true queued).elim
    · intro later _
      exact Or.inr ⟨before, here⟩
  | update => exact Follows.refl _
  | clear number phase here =>
    apply follows_update
    constructor
    · intro absurd
      cases absurd with
      | inl absent => exact Stage.noConfusion absent
      | inr queued => exact (Bool.false_ne_true queued).elim
    · intro later absurd
      exact Stage.noConfusion absurd
  | release number here =>
    have finished : Follows (backend.stage number) .finished := by
      constructor
      · intro absurd
        cases absurd with
        | inl absent => exact Stage.noConfusion absent
        | inr queued => exact (Bool.false_ne_true queued).elim
      · intro later absurd
        exact Stage.noConfusion absurd
    cases handed : backend.state.fifo.release.2 with
    | none =>
      rw [Backend.release_of_none handed]
      exact follows_update finished other
    | some heir =>
      have waiting := (locking.waits heir).mp (FifoLock.Fair.mem_of_next handed)
      rw [Backend.release_of_some handed]
      by_cases chosen : other = heir
      · rw [chosen]
        exact Follows.of_unstarted (unstarted waiting rfl)
      · have kept := follows_update finished other
        simpa [Backend.setStage, chosen] using kept

/-- Accepted sends stay what they are. -/
theorem step_entries (backend : Backend) (move : Backend.Move) :
    ∃ more, (backend.step move).entries = backend.entries ++ more := by
  have effect := Backend.step_effect backend move
  generalize backend.step move = next at effect ⊢
  cases effect with
  | call entry => exact ⟨[entry], rfl⟩
  | release number here =>
    cases handed : backend.state.fifo.release.2 with
    | none =>
      rw [Backend.release_of_none handed]
      exact ⟨[], (List.append_nil _).symm⟩
    | some heir =>
      rw [Backend.release_of_some handed]
      exact ⟨[], (List.append_nil _).symm⟩
  | _ => exact ⟨[], (List.append_nil _).symm⟩

/-! ### What a run has in its hands -/

/-- A run has the file when it begins from nothing, and what it holds begins with what is
stored. -/
structure Covers (chats : Chats) : Prop where
  unstarted : ∀ number, Unstarted (chats.backend.stage number) →
    chats.runs number = .starting
  rows : config.wired = true → ∀ number phase rows,
    chats.backend.stage number = .running phase → (chats.runs number).rows = some rows →
      chats.transcript config (chats.client number) <+: rows

variable {config} {chats next : Chats} {number : Nat} {holder : Option Nat}

theorem fresh_covers (files : String → ChatFile) : (fresh files).Covers config where
  unstarted := fun _ _ => rfl
  rows := by
    intro _ number phase rows runs
    exact Stage.noConfusion runs

theorem coordinate_client {move : Backend.Move} {entry : QueueEntry String String}
    (known : chats.backend.entries[number]? = some entry) :
    (chats.step config (.coordinate move)).client number = chats.client number := by
  obtain ⟨more, entries⟩ := step_entries chats.backend move
  have same : (chats.step config (.coordinate move)).backend.entries[number]? =
      chats.backend.entries[number]? := by
    have bound := (List.getElem?_eq_some_iff.mp known).1
    have whole : (chats.step config (.coordinate move)).backend.entries =
        chats.backend.entries ++ more := entries
    rw [whole, List.getElem?_append_left bound]
  unfold client
  rw [same]

theorem Covers.coordinate (covers : chats.Covers config)
    (locking : chats.backend.Locking holder) (move : Backend.Move) :
    (chats.step config (.coordinate move)).Covers config := by
  constructor
  · intro number unstarted
    exact covers.unstarted number ((step_follows locking move number).unstarted unstarted)
  · intro wired number phase rows runs held
    cases (step_follows locking move number).running phase runs with
    | inl unstarted =>
      have starting : chats.runs number = .starting := covers.unstarted number unstarted
      have held' : (chats.runs number).rows = some rows := held
      rw [starting] at held'
      exact (Option.some_ne_none _ held'.symm).elim
    | inr before =>
      obtain ⟨earlier, running⟩ := before
      have heard : chats.backend.stage number ≠ .absent := by
        rw [running]
        exact Stage.noConfusion
      obtain ⟨entry, known⟩ := locking.entry heard
      rw [coordinate_client known]
      exact covers.rows wired number earlier rows running held

/-- The run in `runStream` goes on with another list, and the file may change with it. -/
theorem Covers.goOn {writing : Writing} {phase : Coordination.Phase} {files : String → ChatFile}
    (covers : chats.Covers config) (locking : chats.backend.Locking holder)
    (here : chats.backend.stage number = .running phase)
    (held : config.wired = true → ∀ rows, writing.rows = some rows →
      (files (chatPath config (chats.client number))).turns <+: rows) :
    Covers config { chats.setRun number writing with files := files } := by
  constructor
  · intro other unstarted
    have apart : other ≠ number := by
      intro same
      have started : ¬ Unstarted (chats.backend.stage number) := by
        rw [here]
        intro absurd
        cases absurd with
        | inl absent => exact Stage.noConfusion absent
        | inr queued => exact Bool.false_ne_true queued
      exact started (same ▸ unstarted)
    simp only [setRun, Function.update_of_ne apart]
    exact covers.unstarted other unstarted
  · intro wired other earlier rows runs has
    have same : other = number := by
      apply locking.inTurn.single other number
      · have stage : chats.backend.stage other = .running earlier := runs
        rw [stage]
        rfl
      · rw [here]
        rfl
    subst same
    simp only [setRun, Function.update_self] at has
    exact held wired rows has

/-- What the run holds covers the file before it writes. -/
theorem Covers.held (covers : chats.Covers config) (wired : config.wired = true)
    {phase : Coordination.Phase} (here : chats.backend.stage number = .running phase)
    {rows : List Value} (has : (chats.runs number).rows = some rows) :
    (chats.files (chatPath config (chats.client number))).turns <+: rows :=
  covers.rows wired number phase rows here has

theorem saveHistory_turns {files : String → ChatFile} {client : String} {rows : List Value}
    (written : Bool) (before : (files (chatPath config client)).turns <+: rows) :
    (saveHistory config files client rows written (chatPath config client)).turns <+: rows := by
  unfold saveHistory
  split
  · rw [Function.update_self]
    exact List.prefix_refl rows
  · exact before

omit [DecidableEq Character] in
theorem loadHistory_answered {file : ChatFile} {reading : Reading} (wired : config.wired = true)
    (answered : reading = .served ∨ file.turns = []) :
    loadHistory config file reading = file.turns := by
  unfold loadHistory
  rw [if_pos wired]
  cases reading with
  | served => cases file <;> rfl
  | denied =>
    cases answered with
    | inl absurd => exact Reading.noConfusion absurd
    | inr empty => exact empty.symm

theorem Covers.step (covers : chats.Covers config) (locking : chats.backend.Locking holder)
    {move : Move} (answered : chats.Answered config move) :
    (chats.step config move).Covers config := by
  cases move with
  | coordinate move => exact covers.coordinate locking move
  | load number reading =>
    simp only [Chats.step]
    split
    · rename_i phase here starting
      apply covers.goOn locking here
      intro wired rows has
      rw [← Option.some.inj has]
      rw [loadHistory_answered wired (answered wired)]
    · exact covers
  | saveBase number messageId written =>
    simp only [Chats.step]
    split
    · rename_i phase prior here loaded
      apply covers.goOn locking here
      intro wired rows has
      rw [← Option.some.inj has]
      apply saveHistory_turns
      have held : (chats.runs number).rows = some prior := by
        rw [loaded]
        rfl
      exact (covers.held wired here held).trans (List.prefix_append _ _)
    · exact covers
  | pass number content calls results =>
    simp only [Chats.step]
    split
    · rename_i phase rows here generating
      apply covers.goOn locking here
      intro wired later has
      rw [← Option.some.inj has]
      have held : (chats.runs number).rows = some rows := by
        rw [generating]
        rfl
      exact (covers.held wired here held).trans (List.prefix_append _ _)
    · exact covers
  | saveFinal number messageId content written =>
    simp only [Chats.step]
    split
    · rename_i phase rows here generating
      apply covers.goOn locking here
      intro wired later has
      exact (Option.some_ne_none _ has.symm).elim
    · exact covers

/-! ### What a step writes -/

theorem transcript_of_save {rows : List Value} {written : Bool} {writing : Writing}
    {client : String} : (chats.save config number rows written writing).transcript config client =
      (saveHistory config chats.files (chats.client number) rows written
        (chatPath config client)).turns :=
  rfl

/-- A write leaves the list of every client as it is or puts one over it that it begins. -/
theorem transcript_save {rows : List Value} {written : Bool} {writing : Writing}
    (before : config.wired = true →
      (chats.files (chatPath config (chats.client number))).turns <+: rows) (client : String) :
    chats.transcript config client <+:
      (chats.save config number rows written writing).transcript config client := by
  rw [transcript_of_save]
  unfold transcript saveHistory
  split
  · rename_i accepted
    by_cases same : chatPath config client = chatPath config (chats.client number)
    · rw [same, Function.update_self]
      exact before accepted.1
    · rw [Function.update_of_ne same]
  · exact List.prefix_refl _

theorem Covers.appends (covers : chats.Covers config) (move : Move) (client : String) :
    chats.transcript config client <+: (chats.step config move).transcript config client := by
  cases move with
  | coordinate move => exact List.prefix_refl _
  | load number reading =>
    simp only [Chats.step]
    split
    · exact List.prefix_refl _
    · exact List.prefix_refl _
  | saveBase number messageId written =>
    simp only [Chats.step]
    split
    · rename_i phase prior here loaded
      apply transcript_save
      intro wired
      have held : (chats.runs number).rows = some prior := by
        rw [loaded]
        rfl
      exact (covers.held wired here held).trans (List.prefix_append _ _)
    · exact List.prefix_refl _
  | pass number content calls results =>
    simp only [Chats.step]
    split
    · exact List.prefix_refl _
    · exact List.prefix_refl _
  | saveFinal number messageId content written =>
    simp only [Chats.step]
    split
    · rename_i phase rows here generating
      apply transcript_save
      intro wired
      have held : (chats.runs number).rows = some rows := by
        rw [generating]
        rfl
      exact (covers.held wired here held).trans (List.prefix_append _ _)
    · exact List.prefix_refl _

/-- Chat files of clients with different sanitised ids are different files. -/
theorem chatPath_injective {one two : String} (same : chatPath config one = chatPath config two) :
    safeClient config.strings one = safeClient config.strings two := by
  unfold chatPath at same
  rw [← String.toList_inj] at same ⊢
  simp only [String.toList_append, List.append_assoc] at same
  have middle := List.append_cancel_left (List.append_cancel_left (List.append_cancel_left same))
  exact List.append_cancel_right middle

theorem transcript_save_foreign {rows : List Value} {written : Bool} {writing : Writing}
    {client : String}
    (foreign : safeClient config.strings (chats.client number) ≠
      safeClient config.strings client) :
    (chats.save config number rows written writing).transcript config client =
      chats.transcript config client := by
  rw [transcript_of_save]
  unfold transcript saveHistory
  split
  · have apart : chatPath config client ≠ chatPath config (chats.client number) := by
      intro same
      exact foreign (chatPath_injective same).symm
    rw [Function.update_of_ne apart]
  · rfl

theorem transcript_foreign {client : String} {move : Move}
    (foreign : chats.Foreign config client move) :
    (chats.step config move).transcript config client = chats.transcript config client := by
  cases move with
  | coordinate move => rfl
  | load number reading =>
    simp only [Chats.step]
    split
    · rfl
    · rfl
  | saveBase number messageId written =>
    simp only [Chats.step]
    split
    · exact transcript_save_foreign foreign
    · rfl
  | pass number content calls results =>
    simp only [Chats.step]
    split
    · rfl
    · rfl
  | saveFinal number messageId content written =>
    simp only [Chats.step]
    split
    · exact transcript_save_foreign foreign
    · rfl

/-! ### Whole runs -/

variable (config)

/-- Every read on the way is answered. -/
def AnsweredRun : Chats → List Move → Prop :=
  Runs.Along (step config) (Answered config)

def ForeignRun (client : String) : Chats → List Move → Prop :=
  Runs.Along (step config) (Foreign config client)

/-- The lock is in order and every run covers the file of its client. -/
def Fine (chats : Chats) : Prop :=
  (∃ holder, chats.backend.Locking holder) ∧ chats.Covers config

theorem fresh_fine (files : String → ChatFile) : (fresh files).Fine config :=
  ⟨⟨none, Backend.fresh_locking⟩, fresh_covers files⟩

theorem Fine.step (chats : Chats) (move : Move) (fine : chats.Fine config)
    (answered : chats.Answered config move) : (chats.step config move).Fine config := by
  obtain ⟨⟨holder, locking⟩, covers⟩ := fine
  constructor
  · cases move with
    | coordinate move => exact locking.step move
    | load number reading =>
      simp only [Chats.step]
      split <;> exact ⟨holder, locking⟩
    | saveBase number messageId written =>
      simp only [Chats.step]
      split <;> exact ⟨holder, locking⟩
    | pass number content calls results =>
      simp only [Chats.step]
      split <;> exact ⟨holder, locking⟩
    | saveFinal number messageId content written =>
      simp only [Chats.step]
      split <;> exact ⟨holder, locking⟩
  · exact covers.step locking answered

theorem chats_append_only (files : String → ChatFile) (earlier later : List Move)
    (answered : AnsweredRun config (fresh files) (earlier ++ later)) (client : String) :
    ((fresh files).run config earlier).transcript config client <+:
        ((fresh files).run config (earlier ++ later)).transcript config client ∧
      (ForeignRun config client ((fresh files).run config earlier) later →
        ((fresh files).run config (earlier ++ later)).transcript config client =
          ((fresh files).run config earlier).transcript config client) := by
  have whole : (fresh files).run config (earlier ++ later) =
      ((fresh files).run config earlier).run config later :=
    List.foldl_append
  obtain ⟨before, after⟩ := (Runs.along_append earlier later (fresh files)).mp answered
  have fine := Runs.Along.invariant (Fine.step config) earlier (fresh_fine config files) before
  rw [whole]
  constructor
  · have kept : ∀ chats move,
        (Fine config chats ∧ ((fresh files).run config earlier).transcript config client <+:
          chats.transcript config client) →
        Answered config chats move →
          Fine config (chats.step config move) ∧
            ((fresh files).run config earlier).transcript config client <+:
              (chats.step config move).transcript config client := by
      intro chats move before allowed
      exact ⟨Fine.step config chats move before.1 allowed,
        before.2.trans (before.1.2.appends move client)⟩
    exact (Runs.Along.invariant kept later ⟨fine, List.prefix_refl _⟩ after).2
  · intro foreign
    have kept : ∀ (chats : Chats) move,
        chats.transcript config client =
            ((fresh files).run config earlier).transcript config client →
          Foreign config client chats move →
            (chats.step config move).transcript config client =
              ((fresh files).run config earlier).transcript config client :=
      fun _ _ before allowed => (transcript_foreign allowed).trans before
    exact Runs.Along.invariant kept later rfl foreign

/-- Ids are used as they are. -/
def plainStrings : Strings String Char where
  literal := id
  character := id
  trimmed := id
  isEmpty := fun text => text = ""
  characters := String.toList
  joined := String.ofList
  isLetter := Char.isAlpha
  isNumber := Char.isDigit

def plainConfig : Config Char where
  strings := plainStrings
  agentId := "ollama"
  stateless := false
  wired := true

theorem second_turn_appends :
    let files : String → ChatFile := fun _ => .list [userTurn plainConfig "" "hi"]
    let moves : List Move := [.coordinate (.call ⟨"web", "again", "s0", .null⟩),
      .coordinate (.probe 0), .coordinate (.acquire 0), .coordinate (.pop 0 .null),
      .load 0 .served, .saveBase 0 "m1" true, .saveFinal 0 "m2" "still here" true]
    ((fresh files).run plainConfig []).transcript plainConfig "web" <+:
        ((fresh files).run plainConfig ([] ++ moves)).transcript plainConfig "web" ∧
      (ForeignRun plainConfig "web" ((fresh files).run plainConfig []) moves →
        ((fresh files).run plainConfig ([] ++ moves)).transcript plainConfig "web" =
          ((fresh files).run plainConfig []).transcript plainConfig "web") := by
  intro files moves
  apply chats_append_only plainConfig files [] moves _ "web"
  refine ⟨trivial, trivial, trivial, trivial, ?_, trivial, trivial, trivial⟩
  intro _
  exact Or.inl rfl

/-- One read is denied, and the run writes a conversation that begins with its own turn. -/
theorem denied_read_erases_the_chat :
    ¬ ∀ (config : Config Char) (files : String → ChatFile) (earlier later : List Move)
      (client : String), ((fresh files).run config earlier).transcript config client <+:
        ((fresh files).run config (earlier ++ later)).transcript config client := by
  intro appends
  have kept := appends plainConfig (fun _ => .list [userTurn plainConfig "" "hi"]) []
    [.coordinate (.call ⟨"web", "again", "s0", .null⟩), .coordinate (.probe 0),
      .coordinate (.acquire 0), .coordinate (.pop 0 .null), .load 0 .denied,
      .saveBase 0 "m1" true] "web"
  exact absurd kept (by decide)

end Chats

end Fantastic.Swift.Ai.Transcript

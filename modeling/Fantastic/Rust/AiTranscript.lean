import Fantastic.Rust.AiCoordination
import Mathlib.Data.List.Infix

/-!
# The chat files

A run reads the whole history when it starts and writes the whole list back when it ends.
One run counts at a time, so as long as the read is answered and a run that was aborted
writes no more, the file is what the run has read until the run writes it.
-/

namespace Fantastic.Rust.Ai.Backend

variable {backend next : Backend} {number : Nat} {move : Move}

/-- What the history of a client is, as far as the file says. -/
def transcript (backend : Backend) (client : String) : List Value :=
  (backend.chats client).turns

/-- The read of a run is answered, unless nothing is stored; a run that was aborted does not
go on to write. -/
def Answered (backend : Backend) : Move → Prop
  | .load number _ reading =>
    reading = .served ∨ backend.transcript (backend.sends number).client = []
  | .save number _ _ => ∀ stage, (backend.sends number).task ≠ .running stage true
  | _ => True

def AnsweredRun : Backend → List Move → Prop
  | _, [] => True
  | backend, move :: moves => backend.Answered move ∧ AnsweredRun (backend.step move) moves

/-- The run that counts has in its messages what is in the file. -/
def Current (backend : Backend) : Prop :=
  ∀ number messages, (backend.sends number).task = .running (.generating messages) false →
    backend.transcript (backend.sends number).client <+: messages.drop 1

/-! ### Moves that neither read nor write -/

/-- The files are as they were, and so is every run that has read one. -/
structure Kept (next backend : Backend) : Prop where
  chats : next.chats = backend.chats
  runs : ∀ number messages, (next.sends number).task = .running (.generating messages) false →
    (backend.sends number).task = .running (.generating messages) false ∧
      (next.sends number).client = (backend.sends number).client

theorem Kept.of_sends (sends : next.sends = backend.sends) (chats : next.chats = backend.chats) :
    Kept next backend :=
  ⟨chats, fun number messages task => by rw [sends] at task ⊢; exact ⟨task, rfl⟩⟩

theorem Kept.trans {last : Backend} (later : Kept last next) (earlier : Kept next backend) :
    Kept last backend := by
  refine ⟨later.chats.trans earlier.chats, ?_⟩
  intro number messages task
  obtain ⟨here, client⟩ := later.runs number messages task
  obtain ⟨before, same⟩ := earlier.runs number messages here
  exact ⟨before, client.trans same⟩

theorem Kept.put {send : Send} (sends : next.sends = Function.update backend.sends number send)
    (chats : next.chats = backend.chats)
    (task : ∀ messages, send.task = .running (.generating messages) false →
      (backend.sends number).task = .running (.generating messages) false ∧
        send.client = (backend.sends number).client) : Kept next backend := by
  refine ⟨chats, ?_⟩
  intro other messages here
  rw [sends, Function.update_apply] at here ⊢
  split at here
  case isTrue same =>
    rw [if_pos same, same]
    exact task messages here
  case isFalse apart =>
    rw [if_neg apart]
    exact ⟨here, rfl⟩

theorem kept_setPhase (backend : Backend) (number : Nat) (phase : SendPhase) :
    Kept (backend.setPhase number phase) backend :=
  .put rfl rfl fun _ task => ⟨task, rfl⟩

theorem kept_setTask {task : Task}
    (finished : ∀ messages, task ≠ .running (.generating messages) false) :
    Kept (backend.setTask number task) backend :=
  .put rfl rfl fun messages same => absurd same (finished messages)

theorem kept_abortTask (backend : Backend) (number : Nat) :
    Kept (backend.abortTask number) backend := by
  apply kept_setTask
  intro messages same
  cases task : (backend.sends number).task <;> rw [task] at same <;> cases same

theorem kept_endTask (backend : Backend) (number : Nat) (result : Option Outcome) :
    Kept (backend.endTask number result) backend := by
  unfold endTask
  split
  · exact kept_setTask nofun
  · exact .of_sends rfl rfl

theorem kept_launch (backend : Backend) (number : Nat) : Kept (backend.launch number) backend := by
  have started : ∀ cleared : Backend, Kept cleared backend →
      Kept { (cleared.setTask number (.running .assembling false)).setPhase number .polling with
        currentTask := some number } backend := by
    intro cleared kept
    have spawned : Kept (cleared.setTask number (.running .assembling false)) backend := by
      apply Kept.trans _ kept
      apply kept_setTask
      intro messages same
      cases same
    have polling := (kept_setPhase _ number .polling).trans spawned
    exact ⟨polling.chats, polling.runs⟩
  unfold launch
  cases backend.currentTask with
  | none => exact started backend (.of_sends rfl rfl)
  | some previous => exact started _ (kept_abortTask backend previous)

theorem kept_take (backend : Backend) (number : Nat) : Kept (backend.take number) backend := by
  have kept := kept_setPhase backend number .thinking
  exact ⟨kept.chats, kept.runs⟩

theorem kept_leave (backend : Backend) (number : Nat) : Kept (backend.leave number) backend := by
  have kept := kept_setPhase backend number .left
  exact ⟨kept.chats, kept.runs⟩

theorem kept_call (backend : Backend) (client text : String) :
    Kept (backend.call client text) backend := by
  have entered : ∀ phase, Kept { backend with
      begun := backend.begun + 1
      queue := backend.queue ++ [backend.begun]
      sends := Function.update backend.sends backend.begun
        { client := client, text := text, phase := phase, task := .unborn } } backend :=
    fun phase => .put rfl rfl nofun
  unfold call
  simp only
  split
  · exact (kept_take _ _).trans (entered .left)
  · exact entered .announcing

theorem kept_acquire (backend : Backend) (number : Nat) :
    Kept (backend.acquire number) backend := by
  unfold acquire
  split
  · exact kept_take backend number
  · have kept := kept_setPhase backend number .waiting
    exact ⟨kept.chats, kept.runs⟩

theorem kept_collect (backend : Backend) (number : Nat) :
    Kept (backend.collect number) backend := by
  have cleared : Kept { backend with currentTask := none } backend := .of_sends rfl rfl
  unfold collect
  simp only
  split
  · exact (kept_leave _ number).trans cleared
  · exact (kept_setPhase _ number _).trans cleared
  · exact (kept_setPhase _ number _).trans cleared

theorem kept_drop (backend : Backend) (number : Nat) : Kept (backend.drop number) backend := by
  have kept := kept_setPhase backend number .left
  unfold drop
  split
  · exact .of_sends rfl rfl
  · exact kept
  · exact ⟨kept.chats, kept.runs⟩
  · exact ⟨kept.chats, kept.runs⟩

theorem kept_interrupt (backend : Backend) : Kept backend.interrupt backend := by
  unfold interrupt
  split
  case h_1 => exact .of_sends rfl rfl
  case h_2 number _ =>
    have kept := kept_abortTask backend number
    exact ⟨kept.chats, kept.runs⟩

/-- Not a read, a pass or a write of a run. -/
def Quiet : Move → Prop
  | .load _ _ _ | .pass _ _ _ _ | .save _ _ _ => False
  | _ => True

theorem kept_step (backend : Backend) (move : Move) (quiet : Quiet move) :
    Kept (backend.step move) backend := by
  have refl : Kept backend backend := .of_sends rfl rfl
  cases move with
  | load | pass | save => exact quiet.elim
  | call client text => exact kept_call backend client text
  | announced number =>
    simp only [step]
    split
    · exact kept_acquire backend number
    · exact refl
  | wake number =>
    simp only [step]
    split
    · have kept := kept_take backend number
      exact ⟨kept.chats, kept.runs⟩
    · exact refl
  | launch number =>
    simp only [step]
    split
    · exact kept_launch backend number
    · exact refl
  | poll number =>
    simp only [step]
    split
    · exact kept_setPhase ..
    · exact refl
  | expire number =>
    simp only [step]
    split
    · exact (kept_setPhase ..).trans (kept_abortTask backend number)
    · exact refl
  | collect number =>
    simp only [step]
    split
    · exact kept_collect backend number
    · exact refl
  | expired number =>
    simp only [step]
    split
    · have kept := kept_setPhase backend number (.closing .timeout)
      exact ⟨kept.chats, kept.runs⟩
    · exact refl
  | close number =>
    simp only [step]
    split
    · exact kept_leave backend number
    · exact refl
  | drop number => exact kept_drop backend number
  | interrupt => exact kept_interrupt backend
  | finish number =>
    simp only [step]
    split
    · exact kept_endTask ..
    · exact refl
  | fail number =>
    simp only [step]
    split
    · exact refl
    · exact kept_endTask ..
  | die number => exact kept_endTask ..

theorem Current.kept (current : backend.Current) (kept : Kept next backend) : next.Current := by
  intro number messages task
  obtain ⟨before, client⟩ := kept.runs number messages task
  rw [transcript, kept.chats, client]
  exact current number messages before

/-! ### Reads, passes and writes -/

/-- A run goes on with messages that begin with the transcript. -/
theorem Current.setStage (current : backend.Current) {stage : Stage} {aborted : Bool}
    (covers : ∀ messages, stage = .generating messages → aborted = false →
      backend.transcript (backend.sends number).client <+: messages.drop 1) :
    (backend.setTask number (.running stage aborted)).Current := by
  intro other messages task
  simp only [setTask, Function.update_apply] at task ⊢
  split at task
  case isTrue same =>
    rw [if_pos same]
    simp only [Task.running.injEq] at task
    exact covers messages task.1 task.2
  case isFalse apart =>
    rw [if_neg apart]
    exact current other messages task

theorem loadHistory_answered {file : ChatFile} {reading : Reading}
    (answered : reading = .served ∨ file.turns = []) : loadHistory file reading = file.turns := by
  cases reading with
  | served => cases file <;> rfl
  | denied =>
    rcases answered with impossible | empty
    · cases impossible
    · exact empty.symm

theorem Current.load (current : backend.Current) {system : String} {reading : Reading}
    (answered : backend.Answered (.load number system reading)) :
    (backend.step (.load number system reading)).Current := by
  simp only [Backend.step, runStep]
  split
  case h_2 => exact current
  case h_1 stage aborted _ =>
    cases stage with
    | generating messages => exact current
    | saved => exact current
    | assembling =>
      apply current.setStage
      intro messages same _
      rw [← Stage.generating.inj same, assembleMessages, loadHistory_answered answered]
      exact ⟨[turn "user" _], rfl⟩

theorem Current.pass (current : backend.Current) {content : String} {calls results : List Value} :
    (backend.step (.pass number content calls results)).Current := by
  simp only [Backend.step, runStep]
  split
  case h_2 => exact current
  case h_1 stage aborted task =>
    cases stage with
    | assembling => exact current
    | saved => exact current
    | generating messages =>
      apply current.setStage
      intro later same counts
      rw [counts] at task
      rw [← Stage.generating.inj same]
      have before := current number messages task
      exact before.trans (List.IsPrefix.drop (List.prefix_append _ _) 1)

/-- The run that writes is the one that counts, so no other run has read the file. -/
theorem Current.save (current : backend.Current) (slots : backend.Slots) {content : String}
    {written : Bool} (answered : backend.Answered (.save number content written)) :
    (backend.step (.save number content written)).Current := by
  simp only [Backend.step, Backend.save]
  split
  case h_2 => exact current
  case h_1 messages aborted task =>
    have saved : (backend.setTask number (.running .saved aborted)).Current :=
      current.setStage (by simp)
    split
    case isFalse => exact saved
    case isTrue =>
      have counts : aborted = false := by
        cases aborted with
        | false => rfl
        | true => exact absurd task (answered _)
      intro other later reading
      have apart : other ≠ number := by
        intro same
        subst same
        simp [setTask] at reading
      simp only [setTask, Function.update_of_ne apart] at reading
      have one : backend.Active other := by
        rw [Active, reading]
        rfl
      have two : backend.Active number := by
        rw [Active, task, counts]
        rfl
      exact absurd (slots.single other number one two) apart

theorem Current.step (current : backend.Current) (slots : backend.Slots)
    (answered : backend.Answered move) : (backend.step move).Current := by
  cases move with
  | load number system reading => exact current.load answered
  | pass number content calls results => exact current.pass
  | save number content written => exact current.save slots answered
  | _ => exact current.kept (kept_step backend _ trivial)

theorem runStep_chats (backend : Backend) (number : Nat) (later : Send → Stage → Option Stage) :
    (backend.runStep number later).chats = backend.chats := by
  unfold runStep
  split
  · split
    · rfl
    · rfl
  · rfl

/-- A move leaves the transcript as it is or appends to it. -/
theorem Current.appends (current : backend.Current) (answered : backend.Answered move)
    (client : String) : backend.transcript client <+: (backend.step move).transcript client := by
  have quiet : (backend.step move).chats = backend.chats →
      backend.transcript client <+: (backend.step move).transcript client := by
    intro same
    rw [transcript, transcript, same]
  cases move with
  | load number system reading =>
    apply quiet
    simp only [Backend.step]
    exact runStep_chats ..
  | pass number content calls results =>
    apply quiet
    simp only [Backend.step]
    exact runStep_chats ..
  | save number content written =>
    simp only [Backend.step, Backend.save] at quiet ⊢
    split at quiet
    case h_2 => exact quiet rfl
    case h_1 messages aborted task =>
      have counts : aborted = false := by
        cases aborted with
        | false => rfl
        | true => exact absurd task (answered _)
      rw [counts] at task
      have before := current number messages task
      cases written with
      | false => exact quiet rfl
      | true =>
        simp only [if_true, transcript, Function.update_apply]
        split
        case isFalse => exact List.prefix_refl _
        case isTrue same =>
          rw [same]
          exact before.trans (List.IsPrefix.drop (List.prefix_append _ _) 1)
  | _ =>
    apply quiet
    apply Kept.chats
    apply kept_step
    trivial

/-! ### Whole runs -/

theorem fresh_current (chats : String → ChatFile) : (fresh chats).Current := by
  intro number messages task
  cases task

theorem Current.run (moves : List Move) : ∀ {backend : Backend}, backend.Locking →
    backend.Slots → backend.Current → backend.AnsweredRun moves →
      ∀ client, backend.transcript client <+: (backend.run moves).transcript client := by
  induction moves with
  | nil =>
    intro backend _ _ _ _ client
    exact List.prefix_refl _
  | cons move moves hypothesis =>
    intro backend fine slots current answered client
    obtain ⟨first, rest⟩ := answered
    have later := hypothesis (fine.step move) (slots.step fine move)
      (current.step slots first) rest client
    exact (current.appends first client).trans later

theorem answeredRun_append (earlier later : List Move) : ∀ {backend : Backend},
    backend.AnsweredRun (earlier ++ later) →
      backend.AnsweredRun earlier ∧ (backend.run earlier).AnsweredRun later := by
  induction earlier with
  | nil =>
    intro backend answered
    exact ⟨trivial, answered⟩
  | cons move moves hypothesis =>
    intro backend answered
    obtain ⟨first, rest⟩ := answered
    obtain ⟨before, after⟩ := hypothesis rest
    exact ⟨⟨first, before⟩, after⟩

theorem run_invariant (moves : List Move) : ∀ {backend : Backend}, backend.Locking →
    backend.Slots → backend.Current → backend.AnsweredRun moves →
      (backend.run moves).Locking ∧ (backend.run moves).Slots ∧ (backend.run moves).Current := by
  induction moves with
  | nil =>
    intro backend fine slots current _
    exact ⟨fine, slots, current⟩
  | cons move moves hypothesis =>
    intro backend fine slots current answered
    obtain ⟨first, rest⟩ := answered
    exact hypothesis (fine.step move) (slots.step fine move) (current.step slots first) rest

/-- What is stored at one moment of a run is a prefix of what is stored at any later one. -/
theorem transcripts_append_only (chats : String → ChatFile) (earlier later : List Move)
    (answered : (fresh chats).AnsweredRun (earlier ++ later)) (client : String) :
    ((fresh chats).run earlier).transcript client <+:
      ((fresh chats).run (earlier ++ later)).transcript client := by
  obtain ⟨before, after⟩ := answeredRun_append earlier later answered
  obtain ⟨fine, slots, current⟩ := run_invariant earlier (fresh_locking chats) (fresh_slots chats)
    (fresh_current chats) before
  have appended := current.run later fine slots after client
  have whole : (fresh chats).run (earlier ++ later) = ((fresh chats).run earlier).run later :=
    List.foldl_append
  rw [whole]
  exact appended

theorem second_send_appends :
    let chats : String → ChatFile := fun _ => .list [turn "user" "hi", turn "assistant" "hello"]
    let moves := [.call "web" "again", .launch 0, .load 0 "primer" .served, .save 0 "still here" true]
    (fresh chats).AnsweredRun moves ∧
      chats "web" = .list [turn "user" "hi", turn "assistant" "hello"] ∧
      [turn "user" "hi", turn "assistant" "hello"] <+: ((fresh chats).run moves).transcript "web" := by
  intro chats moves
  have answered : (fresh chats).AnsweredRun ([] ++ moves) := by
    refine ⟨trivial, trivial, .inl rfl, ?_, trivial⟩
    intro stage same
    cases same
  exact ⟨answered, rfl, transcripts_append_only chats [] moves answered "web"⟩

/-- The file agent denies one read, and the run overwrites the conversation. -/
theorem denied_read_erases_the_transcript :
    ¬ ∀ (chats : String → ChatFile) (earlier later : List Move) (client : String),
      ((fresh chats).run earlier).transcript client <+:
        ((fresh chats).run (earlier ++ later)).transcript client := by
  intro appends
  have kept := appends (fun _ => .list [turn "user" "hi", turn "assistant" "hello"]) []
    [.call "web" "again", .launch 0, .load 0 "primer" .denied, .save 0 "who are you" true] "web"
  exact absurd kept (by decide)

end Fantastic.Rust.Ai.Backend

import Fantastic.Rust.Scheduler
import Mathlib.Data.List.Forall2

/-!
# What the scheduler remembers

An acknowledged change holds in the stored list until another change takes its place.
That is so in every run in which no list is stored over one that changed after it was
loaded; a verb that lands while a schedule fires is lost otherwise.
-/

namespace Fantastic.Rust.Scheduling

variable {f64 : F64} {id : String} {paused : Bool}
variable {entry schedule later : Value} {schedules before after loaded : List Value}

/-! ### Fields of a schedule -/

theorem lookup_setMember (members : List (String × Value)) (name key : String) (item : Value) :
    (setMember members name item).lookup key =
      if key = name then some item else members.lookup key := by
  induction members with
  | nil =>
    by_cases same : key = name
    · simp [setMember, same]
    · have differs : (key == name) = false := by simpa using same
      simp [setMember, List.lookup_cons, differs, same]
  | cons member rest hypothesis =>
    obtain ⟨other, held⟩ := member
    by_cases here : other = name
    · subst here
      rw [setMember, if_pos rfl]
      by_cases same : key = other
      · simp [same]
      · have differs : (key == other) = false := by simpa using same
        simp [List.lookup_cons, differs, same]
    · rw [setMember, if_neg here, List.lookup_cons, List.lookup_cons, hypothesis]
      by_cases same : key = other
      · simp [same, here]
      · have differs : (key == other) = false := by simpa using same
        simp [differs]

theorem field_setField {value result item : Value} {name : String}
    (set : setField value name item = some result) (key : String) :
    field result key = if key = name then some item else field value key := by
  cases value with
  | dict members =>
    simp only [setField, Option.some.injEq] at set
    subst set
    exact lookup_setMember members name key item
  | null =>
    simp only [setField, Option.some.injEq] at set
    subst set
    exact lookup_setMember [] name key item
  | _ => simp [setField] at set

/-- The same schedule, whatever became of its counters and its flag. -/
def SameSchedule (entry current : Value) : Prop :=
  ∀ key, key ∉ ["run_count", "next_run", "paused"] → field current key = field entry key

theorem SameSchedule.named (same : SameSchedule entry later) : idOf later = idOf entry := by
  unfold idOf
  rw [same "id" (by decide)]

theorem SameSchedule.trans {third : Value} (first : SameSchedule entry later)
    (second : SameSchedule later third) : SameSchedule entry third := by
  intro key other
  rw [second key other, first key other]

/-- What firing may do to a schedule. -/
structure Counted (entry later : Value) : Prop where
  same : SameSchedule entry later
  paused : isPaused later = isPaused entry

theorem Counted.refl (entry : Value) : Counted entry entry where
  same := fun _ _ => rfl
  paused := rfl

theorem Counted.trans {third : Value} (first : Counted entry later)
    (second : Counted later third) : Counted entry third where
  same := first.same.trans second.same
  paused := second.paused.trans first.paused

theorem counted_of_set {item : Value} {name : String}
    (counter : name = "run_count" ∨ name = "next_run")
    (set : setField entry name item = some later) : Counted entry later where
  same := by
    intro key other
    rw [field_setField set, if_neg]
    intro same
    subst same
    cases counter with
    | inl run => simp [run] at other
    | inr next => simp [next] at other
  paused := by
    unfold isPaused
    rw [field_setField set, if_neg]
    intro same
    subst same
    cases counter with
    | inl run => exact absurd run (by decide)
    | inr next => exact absurd next (by decide)

theorem countRun_counted (made : countRun entry = some later) : Counted entry later :=
  counted_of_set (Or.inl rfl) made

theorem countTick_counted {now : Dyadic} (made : countTick f64 now entry = some later) :
    Counted entry later := by
  obtain ⟨counted, run, next⟩ := Option.bind_eq_some_iff.mp made
  exact (countRun_counted run).trans (counted_of_set (Or.inr rfl) next)

/-- An entry with an id is an object, so marking it never panics. -/
theorem set_of_id (name : String) (item : Value) (named : idOf entry = some id) :
    ∃ result, setField entry name item = some result := by
  cases entry with
  | dict members => exact ⟨_, rfl⟩
  | _ => simp [idOf, field, asStr] at named

theorem mark_same (id : String) (paused : Bool) (entry : Value) :
    SameSchedule entry (if idOf entry = some id then
      (setField entry "paused" (.bool paused)).getD entry else entry) := by
  intro key other
  by_cases named : idOf entry = some id
  · obtain ⟨result, set⟩ := set_of_id "paused" (.bool paused) named
    rw [if_pos named, set, Option.getD_some, field_setField set, if_neg]
    intro same
    simp [same] at other
  · rw [if_neg named]

/-! ### What a change asks of the stored list -/

def Change.Holds (paused : Bool) (schedules : List Value) : Change → Prop
  | .scheduled entry => ∃ current ∈ schedules, SameSchedule entry current
  | .unscheduled id => ∀ current ∈ schedules, idOf current ≠ some id
  | .marked id value => ∀ current ∈ schedules, idOf current = some id → isPaused current = value
  | .switched value => paused = value

/-- A later change of the same schedule, or of the same flag. A schedule minted under an
id that was taken is another schedule of that id. -/
def Change.Overrides : Change → Change → Prop
  | .unscheduled id, .scheduled entry => idOf entry = some id
  | .scheduled entry, .unscheduled id => idOf entry = some id
  | .scheduled entry, .marked id _ => idOf entry = some id
  | .marked id _, .marked other _ => id = other
  | .switched _, .switched _ => True
  | _, _ => False

theorem Change.Holds.of_counted {change : Change} (holds : change.Holds paused before)
    (counted : List.Forall₂ Counted before after) : change.Holds paused after := by
  have back : ∀ current ∈ after, ∃ earlier ∈ before, Counted earlier current := by
    intro current listed
    obtain ⟨index, bound, found⟩ := List.mem_iff_getElem.mp listed
    have size := counted.length_eq
    refine ⟨before[index], List.getElem_mem _, ?_⟩
    rw [← found]
    exact counted.get _ _
  cases change with
  | scheduled entry =>
    obtain ⟨current, listed, same⟩ := holds
    obtain ⟨index, bound, found⟩ := List.mem_iff_getElem.mp listed
    have size := counted.length_eq
    refine ⟨after[index], List.getElem_mem _, ?_⟩
    rw [← found] at same
    exact same.trans (counted.get _ _).same
  | unscheduled id =>
    intro current listed
    obtain ⟨earlier, held, kept⟩ := back current listed
    rw [kept.same.named]
    exact holds earlier held
  | marked id value =>
    intro current listed named
    obtain ⟨earlier, held, kept⟩ := back current listed
    rw [kept.paused]
    exact holds earlier held (kept.same.named ▸ named)
  | switched value => exact holds

/-- What a job makes of a list: its own change holds afterwards, and so does every change
that held before and that it does not override. -/
structure Edits (job : Job) (before after : List Value) : Prop where
  made : ∀ change, job.change = some change → ∀ paused, change.Holds paused after
  kept : ∀ (earlier : Change) (paused : Bool),
    (∀ change, job.change = some change → ¬ change.Overrides earlier) →
    earlier.Holds paused before → earlier.Holds paused after

theorem edits_of_counted {job : Job} (silent : job.change = none)
    (counted : List.Forall₂ Counted before after) : Edits job before after where
  made := by
    intro change made
    simp [silent] at made
  kept := by
    intro earlier paused _ holds
    exact holds.of_counted counted

theorem schedule_edits (entry : Value) (schedules : List Value) :
    Edits (.schedule entry) schedules (schedules ++ [entry]) where
  made := by
    intro change made paused
    simp only [Job.change, Option.some.injEq] at made
    subst made
    exact ⟨entry, by simp, fun _ _ => rfl⟩
  kept := by
    intro earlier paused apart holds
    have differs := apart _ rfl
    cases earlier with
    | scheduled other =>
      obtain ⟨current, listed, same⟩ := holds
      exact ⟨current, List.mem_append_left _ listed, same⟩
    | unscheduled id =>
      intro current listed
      cases List.mem_append.mp listed with
      | inl old => exact holds current old
      | inr new =>
        rw [List.mem_singleton.mp new]
        exact differs
    | marked id value =>
      intro current listed named
      cases List.mem_append.mp listed with
      | inl old => exact holds current old named
      | inr new =>
        rw [List.mem_singleton.mp new] at named
        exact absurd named differs
    | switched value => exact holds

theorem unschedule_edits (id : String) (schedules : List Value) :
    Edits (.unschedule id) schedules
      (schedules.filter fun schedule => idOf schedule ≠ some id) where
  made := by
    intro change made paused
    simp only [Job.change, Option.some.injEq] at made
    subst made
    intro current listed
    simpa using (List.mem_filter.mp listed).2
  kept := by
    intro earlier paused apart holds
    have differs := apart _ rfl
    cases earlier with
    | scheduled other =>
      obtain ⟨current, listed, same⟩ := holds
      have stays : idOf current ≠ some id := by
        rw [same.named]
        exact differs
      exact ⟨current, List.mem_filter.mpr ⟨listed, by simpa using stays⟩, same⟩
    | unscheduled other =>
      intro current listed
      exact holds current (List.mem_filter.mp listed).1
    | marked other value =>
      intro current listed named
      exact holds current (List.mem_filter.mp listed).1 named
    | switched value => exact holds

theorem mark_edits {job : Job} (marks : job.change = some (.marked id paused))
    (schedules : List Value) : Edits job schedules (mark id paused schedules) where
  made := by
    intro change made flag
    rw [marks, Option.some.injEq] at made
    subst made
    intro current listed named
    obtain ⟨earlier, _, rfl⟩ := List.mem_map.mp listed
    have known : idOf earlier = some id := by
      rw [← (mark_same id paused earlier).named]
      exact named
    obtain ⟨result, set⟩ := set_of_id "paused" (.bool paused) known
    rw [if_pos known, set, Option.getD_some, isPaused, field_setField set, if_pos rfl]
    rfl
  kept := by
    intro earlier flag apart holds
    have differs := apart _ marks
    cases earlier with
    | scheduled other =>
      obtain ⟨current, listed, same⟩ := holds
      exact ⟨_, List.mem_map_of_mem listed, same.trans (mark_same id paused current)⟩
    | unscheduled other =>
      intro current listed
      obtain ⟨earlier, held, rfl⟩ := List.mem_map.mp listed
      rw [(mark_same id paused earlier).named]
      exact holds earlier held
    | marked other value =>
      intro current listed named
      obtain ⟨earlier, held, rfl⟩ := List.mem_map.mp listed
      rw [(mark_same id paused earlier).named] at named
      have unmarked : idOf earlier ≠ some id := by
        intro same
        rw [named, Option.some.injEq] at same
        exact differs same.symm
      rw [if_neg unmarked]
      exact holds earlier held named
    | switched value => exact holds

/-! ### What a job does between two waits -/

theorem splitFirst_eq {wanted : Value → Bool}
    (found : splitFirst wanted schedules = some (before, entry, after)) :
    schedules = before ++ entry :: after := by
  induction schedules generalizing before with
  | nil => simp [splitFirst] at found
  | cons head rest hypothesis =>
    rw [splitFirst] at found
    split at found
    case isTrue =>
      simp only [Option.some.injEq, Prod.mk.injEq] at found
      obtain ⟨rfl, rfl, rfl⟩ := found
      rfl
    case isFalse =>
      obtain ⟨inner, deeper, eq⟩ := Option.map_eq_some_iff.mp found
      obtain ⟨skipped, hit, tail⟩ := inner
      simp only [Prod.mk.injEq] at eq
      obtain ⟨rfl, rfl, rfl⟩ := eq
      rw [hypothesis deeper, List.cons_append]

/-- A save stores an edit of the loaded list, and a fired list has only been counted in. -/
def Next.Fits (job : Job) (loaded : List Value) : Next → Prop
  | .save schedules => Edits job loaded schedules
  | .fire before entry after =>
    job.change = none ∧ List.Forall₂ Counted loaded (before ++ entry :: after)
  | .done _ => True

theorem counted_refl (schedules : List Value) : List.Forall₂ Counted schedules schedules :=
  List.forall₂_same.mpr fun entry _ => Counted.refl entry

theorem counted_replace (counted : List.Forall₂ Counted loaded (before ++ entry :: after))
    (bumped : Counted entry later) : List.Forall₂ Counted loaded (before ++ later :: after) := by
  induction before generalizing loaded with
  | nil =>
    cases counted with
    | cons head rest => exact .cons (head.trans bumped) rest
  | cons first others hypothesis =>
    cases counted with
    | cons head rest => exact .cons head (hypothesis rest)

theorem scan_fits {job : Job} {now : Dyadic} {fired : Bool} {rest : List Value}
    (silent : job.change = none) (counted : List.Forall₂ Counted loaded (before ++ rest)) :
    (scan f64 now fired before rest).Fits job loaded := by
  unfold scan
  split
  case h_1 skipped entry after found =>
    constructor
    · exact silent
    · rw [List.append_assoc, ← splitFirst_eq found]
      exact counted
  case h_2 =>
    split
    · exact edits_of_counted silent counted
    · exact True.intro

theorem setPaused_fits {job : Job} (name : String)
    (marks : job.change = some (.marked id paused)) (schedules : List Value) :
    (setPaused name id paused schedules).Fits job schedules := by
  unfold setPaused
  split
  · exact mark_edits marks schedules
  · exact True.intro

theorem edit_fits (f64 : F64) (job : Job) (schedules : List Value) :
    (job.edit f64 schedules).Fits job schedules := by
  cases job with
  | schedule entry => exact schedule_edits entry schedules
  | unschedule id =>
    simp only [Job.edit]
    split
    · exact unschedule_edits id schedules
    · exact True.intro
  | list => exact True.intro
  | pause id => exact setPaused_fits "paused" rfl schedules
  | resume id => exact setPaused_fits "resumed" rfl schedules
  | tickNow id =>
    simp only [Job.edit]
    split
    case h_1 before entry after found =>
      rw [splitFirst_eq found]
      exact ⟨rfl, counted_refl _⟩
    case h_2 => exact True.intro
  | tick now => exact scan_fits rfl (counted_refl schedules)
  | switch value => exact True.intro

theorem afterFire_fits {job : Job} {now : Dyadic} {next : Next} (silent : job.change = none)
    (counted : List.Forall₂ Counted loaded (before ++ entry :: after))
    (goes : job.afterFire f64 now before entry after = some next) : next.Fits job loaded := by
  cases job with
  | tick start =>
    obtain ⟨done, made, rfl⟩ := Option.map_eq_some_iff.mp goes
    apply scan_fits silent
    rw [List.append_assoc]
    exact counted_replace counted (countTick_counted made)
  | _ =>
    obtain ⟨done, made, rfl⟩ := Option.map_eq_some_iff.mp goes
    exact edits_of_counted silent (counted_replace counted (countRun_counted made))

/-- A task holds an edit of what it loaded. -/
def Task.Fits (task : Task) : Prop :=
  match task.phase with
  | .firing before entry after =>
    task.job.change = none ∧ List.Forall₂ Counted task.loaded (before ++ entry :: after)
  | .saving schedules | .stored schedules => Edits task.job task.loaded schedules
  | .persisting => ∃ value, task.job = .switch value
  | _ => True

/-- The task has made the change and not yet replied. -/
def Task.Logged (task : Task) (change : Change) : Prop :=
  match task.phase with
  | .stored _ | .persisting => task.job.change = some change
  | _ => False

/-! ### Runs -/

namespace Scheduler

/-- The caller has been told that the task did what it asked for. -/
def Acked (state : Scheduler) (number : Nat) : Prop :=
  ∃ reply, (number, reply) ∈ state.replies ∧ field reply "error" = none

/-- Every acknowledged change that no later one overrides shows in the list. -/
def Keeps (state : Scheduler) (schedules : List Value) : Prop :=
  ∀ early number change late, state.changes = early ++ (number, change) :: late →
    state.Acked number → (∀ later ∈ late, ¬ later.2.Overrides change) →
    change.Holds state.paused schedules

/-- The stored list remembers what was acknowledged, on disk and in the cache. -/
structure Durable (state : Scheduler) : Prop where
  file : state.Keeps (parse state.file)
  cache : ∀ cached, state.cache = some cached → state.Keeps cached

/-- The task does not store over a list that changed since it was loaded: the cache still
holds what the task loaded when it writes, and the file still holds what it wrote when it
puts that into the cache. A list read from the file does not replace another one in
the cache, and a refused write leaves the file alone. -/
def Undisturbed (state : Scheduler) (task : Task) (move : Move) : Prop :=
  match move, task.phase with
  | .receive _, .answered content => ∀ cached ∈ state.cache, cached = parse content
  | .write _, .saving _ => state.cache = some task.loaded
  | .refuse _ _ left, .saving _ => left = state.file
  | .commit _, .stored schedules => state.file = some (.array schedules)
  | _, _ => True

instance (state : Scheduler) (task : Task) (move : Move) :
    Decidable (state.Undisturbed task move) := by
  unfold Undisturbed
  split <;> infer_instance

/-- The task that moves on is undisturbed. -/
def Careful (state : Scheduler) (move : Move) : Prop :=
  match move with
  | .receive number | .write number | .refuse number _ _ | .commit number =>
    ∀ task ∈ state.tasks number, state.Undisturbed task move
  | _ => True

instance (state : Scheduler) (move : Move) : Decidable (state.Careful move) := by
  unfold Careful
  split <;> infer_instance

def CarefulRun (f64 : F64) : Scheduler → List Move → Prop
  | _, [] => True
  | state, move :: rest => state.Careful move ∧ CarefulRun f64 (state.step f64 move) rest

def decideCarefulRun (f64 : F64) :
    (state : Scheduler) → (moves : List Move) → Decidable (CarefulRun f64 state moves)
  | _, [] => .isTrue True.intro
  | state, move :: rest =>
    have := decideCarefulRun f64 (state.step f64 move) rest
    inferInstanceAs (Decidable (state.Careful move ∧ CarefulRun f64 (state.step f64 move) rest))

instance (f64 : F64) (state : Scheduler) (moves : List Move) :
    Decidable (CarefulRun f64 state moves) :=
  decideCarefulRun f64 state moves

variable {state : Scheduler} {number : Nat} {job : Job}

structure Sound (state : Scheduler) : Prop where
  numbered : ∀ number task, state.tasks number = some task → number < state.begun
  fits : ∀ number task, state.tasks number = some task → task.Fits
  logged : ∀ number change, (number, change) ∈ state.changes → number < state.begun ∧
    ∀ task, state.tasks number = some task → task.Logged change
  replied : ∀ number reply, (number, reply) ∈ state.replies →
    number < state.begun ∧ state.tasks number = none
  cold : state.cache = none → ∀ number change, (number, change) ∈ state.changes →
    ∃ paused, change = .switched paused
  flag : ∀ early number value late, state.changes = early ++ (number, .switched value) :: late →
    (∀ later ∈ late, ¬ later.2.Overrides (.switched value)) → state.paused = value
  durable : state.Durable

theorem fresh_sound (id : String) (wired : Bool) (file : Option Content) (paused : Bool) :
    (fresh id wired file paused).Sound where
  numbered := by simp [fresh]
  fits := by simp [fresh]
  logged := by simp [fresh]
  replied := by simp [fresh]
  cold := by simp [fresh]
  flag := by simp [fresh]
  durable := by
    constructor
    · intro early number change late split
      simp [fresh] at split
    · intro cached held
      simp [fresh] at held

/-- The task has a number, has made no change yet and has not been replied to. -/
structure Idle (state : Scheduler) (number : Nat) : Prop where
  bound : number < state.begun
  unlogged : ∀ change, (number, change) ∉ state.changes
  unanswered : ∀ reply, (number, reply) ∉ state.replies

theorem Sound.idle_opened (sound : state.Sound) : state.opened.Idle state.begun where
  bound := Nat.lt_succ_self _
  unlogged := by
    intro change listed
    exact absurd (sound.logged _ _ listed).1 (Nat.lt_irrefl _)
  unanswered := by
    intro reply listed
    exact absurd (sound.replied _ _ listed).1 (Nat.lt_irrefl _)

theorem Sound.idle (sound : state.Sound) {task : Task} (found : state.tasks number = some task)
    (early : ∀ change, ¬ task.Logged change) : state.Idle number where
  bound := sound.numbered number task found
  unlogged := by
    intro change listed
    exact early change ((sound.logged number change listed).2 task found)
  unanswered := by
    intro reply listed
    have gone := (sound.replied number reply listed).2
    rw [found] at gone
    cases gone

theorem Sound.opened (sound : state.Sound) : state.opened.Sound where
  numbered := by
    intro number task found
    exact Nat.lt_succ_of_lt (sound.numbered number task found)
  fits := sound.fits
  logged := by
    intro number change listed
    obtain ⟨bound, tasks⟩ := sound.logged number change listed
    exact ⟨Nat.lt_succ_of_lt bound, tasks⟩
  replied := by
    intro number reply listed
    obtain ⟨bound, gone⟩ := sound.replied number reply listed
    exact ⟨Nat.lt_succ_of_lt bound, gone⟩
  cold := sound.cold
  flag := sound.flag
  durable := ⟨sound.durable.file, sound.durable.cache⟩

theorem Sound.setTask (sound : state.Sound) (idle : state.Idle number) {task : Task}
    (fits : task.Fits) : (state.setTask number (some task)).Sound where
  numbered := by
    intro other held found
    by_cases same : other = number
    · rw [same]
      exact idle.bound
    · exact sound.numbered other held (by simpa [Scheduler.setTask, same] using found)
  fits := by
    intro other held found
    by_cases same : other = number
    · subst same
      have this : task = held := by simpa [Scheduler.setTask] using found
      rw [← this]
      exact fits
    · exact sound.fits other held (by simpa [Scheduler.setTask, same] using found)
  logged := by
    intro other change listed
    have apart : other ≠ number := by
      intro same
      exact idle.unlogged change (same ▸ listed)
    obtain ⟨bound, tasks⟩ := sound.logged other change listed
    refine ⟨bound, ?_⟩
    intro held found
    exact tasks held (by simpa [Scheduler.setTask, apart] using found)
  replied := by
    intro other reply listed
    have apart : other ≠ number := by
      intro same
      exact idle.unanswered reply (same ▸ listed)
    obtain ⟨bound, gone⟩ := sound.replied other reply listed
    exact ⟨bound, by simpa [Scheduler.setTask, apart] using gone⟩
  cold := sound.cold
  flag := sound.flag
  durable := ⟨sound.durable.file, sound.durable.cache⟩

theorem Sound.dropTask (sound : state.Sound) (number : Nat) :
    (state.setTask number none).Sound := by
  have older : ∀ other task, (state.setTask number none).tasks other = some task →
      state.tasks other = some task := by
    intro other task found
    by_cases same : other = number
    · simp [Scheduler.setTask, same] at found
    · simpa [Scheduler.setTask, same] using found
  constructor
  · intro other task found
    exact sound.numbered other task (older other task found)
  · intro other task found
    exact sound.fits other task (older other task found)
  · intro other change listed
    obtain ⟨bound, tasks⟩ := sound.logged other change listed
    exact ⟨bound, fun task found => tasks task (older other task found)⟩
  · intro other reply listed
    obtain ⟨bound, gone⟩ := sound.replied other reply listed
    refine ⟨bound, ?_⟩
    by_cases same : other = number <;> simp [Scheduler.setTask, same, gone]
  · exact sound.cold
  · exact sound.flag
  · exact ⟨sound.durable.file, sound.durable.cache⟩

/-- A reply is sound when the change it acknowledges shows in the file and in the cache. -/
theorem Sound.finish (sound : state.Sound) (bound : number < state.begun) (reply : Option Value)
    (shows : ∀ early change late, state.changes = early ++ (number, change) :: late →
      (∀ later ∈ late, ¬ later.2.Overrides change) →
      change.Holds state.paused (parse state.file) ∧
        ∀ cached, state.cache = some cached → change.Holds state.paused cached) :
    (state.finish number reply).Sound := by
  have quiet := sound.dropTask number
  have acked : ∀ other, (state.finish number reply).Acked other →
      state.Acked other ∨ other = number := by
    intro other acked
    obtain ⟨value, listed, fine⟩ := acked
    cases List.mem_append.mp listed with
    | inl old => exact Or.inl ⟨value, old, fine⟩
    | inr new =>
      obtain ⟨_, _, same⟩ := List.mem_map.mp new
      exact Or.inr (Prod.mk.inj same).1.symm
  constructor
  · exact quiet.numbered
  · exact quiet.fits
  · exact quiet.logged
  · intro other value listed
    cases List.mem_append.mp listed with
    | inl old => exact quiet.replied other value old
    | inr new =>
      obtain ⟨_, _, same⟩ := List.mem_map.mp new
      rw [← (Prod.mk.inj same).1]
      exact ⟨bound, by simp [Scheduler.finish, Scheduler.setTask]⟩
  · exact quiet.cold
  · exact quiet.flag
  · constructor
    · intro early other change late split told apart
      cases acked other told with
      | inl old => exact sound.durable.file early other change late split old apart
      | inr same =>
        subst same
        exact (shows early change late split apart).1
    · intro cached held early other change late split told apart
      cases acked other told with
      | inl old => exact sound.durable.cache cached held early other change late split old apart
      | inr same =>
        subst same
        exact (shows early change late split apart).2 cached held

/-- A task that has not made its change may reply anything. -/
theorem Sound.finish_idle (sound : state.Sound) (idle : state.Idle number)
    (reply : Option Value) : (state.finish number reply).Sound := by
  apply sound.finish idle.bound
  intro early change late split
  exact absurd (by simp [split]) (idle.unlogged change)

theorem Sound.goOn (sound : state.Sound) (idle : state.Idle number) {next : Next}
    (fits : next.Fits job loaded) : (state.goOn number job loaded next).Sound := by
  cases next with
  | save schedules =>
    unfold Scheduler.goOn
    simp only
    split
    · exact sound.setTask idle fits
    · exact sound.finish_idle idle _
  | fire before entry after => exact sound.setTask idle fits
  | done reply => exact sound.finish_idle idle _

/-- Filling an empty cache, or filling it again with what it holds, loses nothing. -/
theorem Sound.cached (sound : state.Sound)
    (same : ∀ cached, state.cache = some cached → cached = schedules) :
    { state with cache := some schedules }.Sound where
  numbered := sound.numbered
  fits := sound.fits
  logged := sound.logged
  replied := sound.replied
  cold := by
    intro empty
    simp at empty
  flag := sound.flag
  durable := by
    refine ⟨sound.durable.file, ?_⟩
    intro cached held early number change late split told apart
    rw [← Option.some.inj held]
    cases before : state.cache with
    | some old =>
      rw [← same old before]
      exact sound.durable.cache old before early number change late split told apart
    | none =>
      have listed : (number, change) ∈ state.changes := by
        rw [show state.changes = _ from split]
        simp
      obtain ⟨value, rfl⟩ := sound.cold before number change listed
      exact sound.flag early number value late split apart

theorem Sound.fill (sound : state.Sound) (idle : state.Idle number)
    (same : ∀ cached, state.cache = some cached → cached = schedules) :
    (state.fill f64 number job schedules).Sound :=
  (sound.cached same).goOn ⟨idle.bound, idle.unlogged, idle.unanswered⟩
    (edit_fits f64 job schedules)

theorem Sound.start (sound : state.Sound) (f64 : F64) (job : Job) :
    (state.start f64 job).Sound := by
  unfold Scheduler.start
  split
  case h_1 cached held =>
    exact sound.opened.goOn sound.idle_opened (edit_fits f64 job cached)
  case h_2 empty =>
    split
    · exact sound.opened.setTask sound.idle_opened True.intro
    · apply sound.opened.fill sound.idle_opened
      intro cached held
      rw [show state.opened.cache = none from empty] at held
      cases held

theorem Sound.answer (sound : state.Sound) (reply : Value) : (state.answer reply).Sound :=
  sound.opened.finish_idle sound.idle_opened _

/-- How a log that grew at its end splits at an entry. -/
theorem split_concat {early late log : List (Nat × Change)} {entry last : Nat × Change}
    (split : log ++ [last] = early ++ entry :: late) :
    entry = last ∨ ∃ shorter, late = shorter ++ [last] ∧ log = early ++ entry :: shorter := by
  obtain rfl | ⟨shorter, final, rfl⟩ := List.eq_nil_or_concat late
  · obtain ⟨_, ends⟩ := List.append_inj' split rfl
    exact Or.inl (List.cons.inj ends).1.symm
  · rw [List.concat_eq_append, ← List.cons_append, ← List.append_assoc] at split
    obtain ⟨same, ends⟩ := List.append_inj' split rfl
    rw [← (List.cons.inj ends).1]
    exact Or.inr ⟨shorter, List.concat_eq_append, same⟩

/-- A change that is not acknowledged yet takes nothing from the others but what it
overrides. -/
theorem Keeps.grow {next : Scheduler} {change : Change} (keeps : state.Keeps before)
    (log : next.changes = state.changes ++ [(number, change)])
    (acks : ∀ other, next.Acked other → state.Acked other) (silent : ¬ state.Acked number)
    (carry : ∀ earlier : Change, ¬ change.Overrides earlier →
      earlier.Holds state.paused before → earlier.Holds next.paused after) :
    next.Keeps after := by
  intro early other earlier late split told apart
  rw [log] at split
  cases split_concat split with
  | inl last =>
    obtain ⟨rfl, rfl⟩ := Prod.mk.inj last
    exact absurd (acks _ told) silent
  | inr inside =>
    obtain ⟨shorter, rfl, older⟩ := inside
    apply carry
    · exact apart (number, change) (by simp)
    · apply keeps early other earlier shorter older (acks _ told)
      intro later listed
      exact apart later (List.mem_append_left _ listed)

theorem Idle.silent (idle : state.Idle number) : ¬ state.Acked number := by
  intro told
  obtain ⟨reply, listed, _⟩ := told
  exact idle.unanswered reply listed

theorem holds_of_flag {change : Change} {value : Bool} (schedules : List Value)
    (apart : ¬ (Change.switched value).Overrides change)
    (holds : change.Holds paused schedules) : change.Holds value schedules := by
  cases change with
  | switched other => exact absurd True.intro apart
  | _ => exact holds

/-- A task in its last phase makes its change: `file` and `value` are what the file and
the flag become, and the file keeps what a list that kept everything held. -/
theorem Sound.log (sound : state.Sound) (idle : state.Idle number) {task : Task}
    {change : Change} {file : Option Content} {value : Bool} (logs : task.Logged change)
    (fits : task.Fits) (cold : state.cache = none → ∃ flag, change = .switched flag)
    (settled : change = .switched value ∨ ((∀ flag, change ≠ .switched flag) ∧ value = state.paused))
    (keeps : state.Keeps before)
    (carry : ∀ earlier : Change, ¬ change.Overrides earlier →
      earlier.Holds state.paused before → earlier.Holds value (parse file)) :
    { state.setTask number (some task) with
      file := file
      paused := value
      changes := state.changes ++ [(number, change)] }.Sound := by
  have placed := sound.setTask idle fits
  constructor
  · exact placed.numbered
  · exact placed.fits
  · intro other entry listed
    cases List.mem_append.mp listed with
    | inl old => exact placed.logged other entry old
    | inr new =>
      obtain ⟨rfl, rfl⟩ := Prod.mk.inj (List.mem_singleton.mp new)
      refine ⟨idle.bound, ?_⟩
      intro held found
      have this : task = held := by simpa [Scheduler.setTask] using found
      rw [← this]
      exact logs
  · exact placed.replied
  · intro empty other entry listed
    cases List.mem_append.mp listed with
    | inl old => exact sound.cold empty other entry old
    | inr new =>
      obtain ⟨rfl, rfl⟩ := Prod.mk.inj (List.mem_singleton.mp new)
      exact cold empty
  · intro early other flag late split apart
    cases split_concat split with
    | inl last =>
      obtain ⟨_, rfl⟩ := Prod.mk.inj last
      cases settled with
      | inl set => exact (Change.switched.inj set).symm
      | inr kept => exact absurd rfl (kept.1 flag)
    | inr inside =>
      obtain ⟨shorter, rfl, older⟩ := inside
      cases settled with
      | inl set =>
        subst set
        exact absurd True.intro (apart (number, .switched value) (by simp))
      | inr kept =>
        refine kept.2.trans (sound.flag early other flag shorter older ?_)
        intro later listed
        exact apart later (List.mem_append_left _ listed)
  · constructor
    · exact keeps.grow rfl (fun _ told => told) idle.silent carry
    · intro cached held
      have carryCached : ∀ earlier : Change, ¬ change.Overrides earlier →
          earlier.Holds state.paused cached → earlier.Holds value cached := by
        intro earlier apart holds
        cases settled with
        | inl set =>
          subst set
          exact holds_of_flag cached apart holds
        | inr kept =>
          rw [kept.2]
          exact holds
      exact (sound.durable.cache cached held).grow rfl (fun _ told => told) idle.silent carryCached

theorem Sound.switch (sound : state.Sound) (value : Bool) : (state.switch value).Sound := by
  apply sound.opened.log sound.idle_opened
  · rfl
  · exact ⟨value, rfl⟩
  · intro _
    exact ⟨value, rfl⟩
  · exact Or.inl rfl
  · exact sound.opened.durable.file
  · intro earlier apart holds
    exact holds_of_flag _ apart holds

theorem Sound.write (sound : state.Sound) {task : Task} (found : state.tasks number = some task)
    (saving : task.phase = .saving schedules) (current : state.cache = some task.loaded) :
    { state.setTask number (some { task with phase := .stored schedules }) with
      file := some (.array schedules)
      changes := state.changes ++
        task.job.change.toList.map fun change => (number, change) }.Sound := by
  have edits : Edits task.job task.loaded schedules := by
    have fits := sound.fits number task found
    rw [Task.Fits, saving] at fits
    exact fits
  have idle : state.Idle number := by
    apply sound.idle found
    intro change logged
    rw [Task.Logged, saving] at logged
    exact logged
  have keeps := sound.durable.cache _ current
  cases makes : task.job.change with
  | none =>
    have placed := sound.setTask idle
      (show Task.Fits { task with phase := .stored schedules } from edits)
    simp only [Option.toList_none, List.map_nil, List.append_nil]
    refine ⟨placed.numbered, placed.fits, placed.logged, placed.replied, placed.cold,
      placed.flag, ?_, sound.durable.cache⟩
    intro early other change late split told apart
    apply edits.kept
    · intro own made
      rw [makes] at made
      cases made
    · exact keeps early other change late split told apart
  | some change =>
    apply sound.log idle
    · exact makes
    · exact edits
    · intro empty
      rw [current] at empty
      cases empty
    · refine Or.inr ⟨?_, rfl⟩
      intro flag same
      subst same
      -- a list cannot settle the flag, whatever the flag is
      have settled := edits.made _ makes (!flag)
      simp [Change.Holds] at settled
    · exact keeps
    · intro earlier apart holds
      apply edits.kept earlier _ _ holds
      intro own made
      rw [makes, Option.some.injEq] at made
      exact made ▸ apart

theorem Sound.commit (sound : state.Sound) {task : Task} (found : state.tasks number = some task)
    (stored : task.phase = .stored schedules) (landed : state.file = some (.array schedules)) :
    { state.finish number task.job.saved with cache := some schedules }.Sound := by
  have edits : Edits task.job task.loaded schedules := by
    have fits := sound.fits number task found
    rw [Task.Fits, stored] at fits
    exact fits
  have kept : state.Keeps schedules := by
    have file := sound.durable.file
    rw [landed] at file
    exact file
  have moved : { state with cache := some schedules }.Sound := by
    refine ⟨sound.numbered, sound.fits, sound.logged, sound.replied, ?_, sound.flag,
      sound.durable.file, ?_⟩
    · intro empty
      cases empty
    · intro cached held
      rw [← Option.some.inj held]
      exact kept
  apply moved.finish (sound.numbered number task found)
  intro early change late split _
  have own : task.job.change = some change := by
    have listed : (number, change) ∈ state.changes := by
      rw [show state.changes = _ from split]
      simp
    have logged := (sound.logged number change listed).2 task found
    rw [Task.Logged, stored] at logged
    exact logged
  constructor
  · have shown : change.Holds state.paused (parse state.file) := by
      rw [landed]
      exact edits.made change own _
    exact shown
  · intro cached held
    rw [← Option.some.inj held]
    exact edits.made change own _

theorem Sound.persisted (sound : state.Sound) {task : Task}
    (found : state.tasks number = some task) (persisting : task.phase = .persisting)
    (reply : Option Value) : (state.finish number reply).Sound := by
  have fits := sound.fits number task found
  rw [Task.Fits, persisting] at fits
  obtain ⟨value, switches⟩ := fits
  apply sound.finish (sound.numbered number task found)
  intro early change late split apart
  have listed : (number, change) ∈ state.changes := by
    rw [split]
    simp
  have logged := (sound.logged number change listed).2 task found
  rw [Task.Logged, persisting] at logged
  simp only [switches, Job.change, Option.some.injEq] at logged
  subst logged
  have settled := sound.flag early number value late split apart
  exact ⟨settled, fun _ _ => settled⟩

theorem Sound.refuse (sound : state.Sound) (idle : state.Idle number) (reply : Option Value)
    {left : Option Content} (untouched : left = state.file) :
    { state.finish number reply with file := left }.Sound := by
  subst untouched
  exact sound.finish_idle idle reply

/-- A waiting task keeps the scheduler sound when it moves on undisturbed. -/
theorem Sound.advance (sound : state.Sound) {task : Task} (found : state.tasks number = some task)
    {move : Move} (careful : state.Undisturbed task move) :
    (state.advance f64 number task move).Sound := by
  have fits := sound.fits number task found
  unfold Undisturbed at careful
  unfold Scheduler.advance
  split
  case h_1 served phase =>
    have idle := sound.idle found (by simp [Task.Logged, phase])
    exact sound.setTask idle True.intro
  case h_2 content phase =>
    have idle := sound.idle found (by simp [Task.Logged, phase])
    simp only [phase] at careful
    exact sound.fill idle careful
  case h_3 now before entry after phase =>
    have idle := sound.idle found (by simp [Task.Logged, phase])
    rw [Task.Fits, phase] at fits
    split
    case h_1 next goes => exact sound.goOn idle (afterFire_fits fits.1 fits.2 goes)
    case h_2 => exact sound.dropTask number
  case h_4 schedules phase =>
    simp only [phase] at careful
    exact sound.write found phase careful
  case h_5 error left schedules phase =>
    have idle := sound.idle found (by simp [Task.Logged, phase])
    simp only [phase] at careful
    exact sound.refuse idle _ careful
  case h_6 schedules phase =>
    simp only [phase] at careful
    exact sound.commit found phase careful
  case h_7 phase =>
    split
    · exact sound.persisted found phase _
    · exact sound.persisted found phase _
  case h_8 => exact sound

theorem Sound.resume (sound : state.Sound) {move : Move}
    (careful : ∀ task ∈ state.tasks number, state.Undisturbed task move) :
    (state.resume f64 number move).Sound := by
  unfold Scheduler.resume
  split
  case h_1 task found => exact sound.advance found (careful task found)
  case h_2 => exact sound

theorem Sound.handle (sound : state.Sound) (payload : Value) (now : Dyadic) (minted : String) :
    (state.handle f64 payload now minted).Sound := by
  have startOrSwitch : ∀ (job : String → Job) (value : Bool),
      (state.oneOrAll f64 payload job value).Sound := by
    intro job value
    unfold Scheduler.oneOrAll
    split
    · exact sound.start f64 _
    · exact sound.switch value
  have startOrAnswer : ∀ (verb : String) (job : String → Job),
      (state.withScheduleId f64 verb payload job).Sound := by
    intro verb job
    unfold Scheduler.withScheduleId
    split
    · exact sound.start f64 _
    · exact sound.answer _
  unfold Scheduler.handle
  split
  · unfold Scheduler.scheduleReply
    split
    · split
      · exact sound.answer _
      · exact sound.start f64 _
    · exact sound.answer _
  · exact startOrAnswer _ _
  · exact sound.start f64 _
  · exact startOrSwitch _ _
  · exact startOrSwitch _ _
  · exact startOrAnswer _ _
  · exact sound

theorem Sound.step (sound : state.Sound) (move : Move) (careful : state.Careful move) :
    (state.step f64 move).Sound := by
  cases move with
  | call payload now minted => exact sound.handle payload now minted
  | wake now =>
    simp only [Scheduler.step]
    split
    · exact sound
    · exact sound.start f64 _
  | receive number => exact sound.resume careful
  | write number => exact sound.resume careful
  | refuse number error left => exact sound.resume careful
  | commit number => exact sound.resume careful
  | read number served => exact sound.resume fun _ _ => True.intro
  | fired number now => exact sound.resume fun _ _ => True.intro
  | persisted number => exact sound.resume fun _ _ => True.intro

theorem Sound.run (sound : state.Sound) (moves : List Move)
    (careful : CarefulRun f64 state moves) : (state.run f64 moves).Sound := by
  induction moves generalizing state with
  | nil => exact sound
  | cons move rest hypothesis =>
    exact hypothesis (sound.step move careful.1) careful.2

/-- In every interleaving in which no task stores over a list that changed under it, the
stored list remembers every acknowledged change: a schedule is there until it is
unscheduled, an unscheduled one stays away, a paused one stays paused and a resumed one
stays resumed. -/
theorem careful_runs_are_durable (f64 : F64) (id : String) (wired : Bool)
    (file : Option Content) (paused : Bool) (moves : List Move)
    (careful : CarefulRun f64 (fresh id wired file paused) moves) :
    ((fresh id wired file paused).run f64 moves).Durable :=
  ((fresh_sound id wired file paused).run moves careful).durable

/-- Small whole seconds, on which `f64` is exact. -/
def wholeSeconds : F64 where
  ofInt := fun number => Dyadic.ofInt number
  add := fun left right => left + right

def pingEvery (seconds : Nat) : Value :=
  .dict [("type", .str "schedule"), ("target", .str "core"),
    ("payload", .dict [("type", .str "ping")]), ("interval_seconds", .int seconds)]

def pingSchedule (id : String) (interval : Nat) (created next : Dyadic) : Value :=
  .dict [("id", .str id), ("target", .str "core"), ("payload", .dict [("type", .str "ping")]),
    ("interval_seconds", .int interval), ("created_at", .float created),
    ("next_run", .float next), ("run_count", .int 0), ("paused", .bool false)]

def firstScheduled : List Move :=
  [.call (pingEvery 60) 0 "sch_000001", .read 0 true, .receive 0, .write 0, .commit 0]

def pauseFirst : Value :=
  .dict [("type", .str "pause"), ("schedule_id", .str "sch_000001")]

/-- A tick fires the first schedule to the end before the pause arrives. -/
theorem tick_then_pause_is_durable :
    CarefulRun wholeSeconds (fresh "sched" true none false)
        (firstScheduled ++ [.wake 61, .fired 1 62, .write 1, .commit 1,
          .call pauseFirst 63 "sch_000002", .write 2, .commit 2]) ∧
      ((fresh "sched" true none false).run wholeSeconds
        (firstScheduled ++ [.wake 61, .fired 1 62, .write 1, .commit 1,
          .call pauseFirst 63 "sch_000002", .write 2, .commit 2])).Durable := by
  have careful : CarefulRun wholeSeconds (fresh "sched" true none false)
      (firstScheduled ++ [.wake 61, .fired 1 62, .write 1, .commit 1,
        .call pauseFirst 63 "sch_000002", .write 2, .commit 2]) := by
    decide
  exact ⟨careful, careful_runs_are_durable wholeSeconds "sched" true none false _ careful⟩

/-- A second schedule is accepted while the first one fires. -/
def scheduledWhileFiring : List Move :=
  firstScheduled ++ [.wake 61, .call (pingEvery 5) 61 "sch_000002", .write 2, .commit 2,
    .fired 1 62, .write 1, .commit 1]

/-- The tick loop stores its copy from before the second schedule was accepted. -/
theorem tick_drops_an_accepted_schedule :
    ¬ ∀ moves, ((fresh "sched" true none false).run wholeSeconds moves).Durable := by
  intro durable
  have log : ((fresh "sched" true none false).run wholeSeconds scheduledWhileFiring).changes =
      [(0, .scheduled (pingSchedule "sch_000001" 60 0 60))] ++
        [(2, .scheduled (pingSchedule "sch_000002" 5 61 66))] :=
    rfl
  have told : ((fresh "sched" true none false).run wholeSeconds scheduledWhileFiring).Acked 2 := by
    refine ⟨.dict [("schedule_id", .str "sch_000002"),
      ("schedule", pingSchedule "sch_000002" 5 61 66)], ?_, rfl⟩
    decide
  have shows := (durable scheduledWhileFiring).file _ _ _ _ log told (by simp)
  obtain ⟨current, listed, same⟩ := shows
  have gone : ∀ entry ∈ parse
      ((fresh "sched" true none false).run wholeSeconds scheduledWhileFiring).file,
      idOf entry ≠ some "sch_000002" := by
    decide
  exact gone current listed same.named

end Scheduler

end Fantastic.Rust.Scheduling

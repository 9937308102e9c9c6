import Fantastic.Rust.Codec
import Mathlib.Logic.Function.Basic

/-!
# The scheduler and its stored list

`fantastic-scheduler/src/lib.rs`: the verbs that touch `schedules.json` and one pass of
`tick_loop`, cut at the points where another task can run. Each of them takes a copy of
the list (`load_schedules`), edits the copy, and stores the copy whole
(`save_schedules`); `tick_now` and the tick loop wait in `fire_schedule` with the copy in
hand. The file bridge may refuse a read or a write. What a fired target does in the
meantime is any other moves.
-/

namespace Fantastic.Rust.Scheduling

/-- The `f64` arithmetic of the clock. -/
structure F64 where
  ofInt : Int → Dyadic
  add : Dyadic → Dyadic → Dyadic

/-- `.and_then(Value::as_bool)`. -/
def asBool : Option Value → Option Bool
  | some (.bool value) => some value
  | _ => none

/-- `.and_then(Value::as_f64)`. -/
def asF64 (f64 : F64) : Option Value → Option Dyadic
  | some (.int number) => some (f64.ofInt number)
  | some (.float number) => some number
  | _ => none

/-- `Map::insert`, in place when the name is there and at the end when it is new. -/
def setMember : List (String × Value) → String → Value → List (String × Value)
  | [], name, item => [(name, item)]
  | (key, held) :: rest, name, item =>
    if key = name then (name, item) :: rest else (key, held) :: setMember rest name item

/-- `value[name] = item`: null turns into an object, any other scalar panics. -/
def setField (value : Value) (name : String) (item : Value) : Option Value :=
  match value with
  | .dict members => some (.dict (setMember members name item))
  | .null => some (.dict [(name, item)])
  | _ => none

/-- `s.get("id").and_then(Value::as_str)`. -/
def idOf (schedule : Value) : Option String :=
  asStr (field schedule "id")

def isPaused (schedule : Value) : Bool :=
  (asBool (field schedule "paused")).getD false

/-- The schedules the tick loop fires at `now`. -/
def isDue (f64 : F64) (now : Dyadic) (schedule : Value) : Bool :=
  !isPaused schedule && !decide (now < (asF64 f64 (field schedule "next_run")).getD 0)

/-- `run_count + 1`, on a 64-bit count. -/
def countRun (schedule : Value) : Option Value :=
  let count := (asU64 (field schedule "run_count")).getD 0
  setField schedule "run_count" (.int ((count + 1) % 2 ^ 64 : Nat))

/-- What the tick loop does to a schedule it has fired. -/
def countTick (f64 : F64) (now : Dyadic) (schedule : Value) : Option Value :=
  let interval := (asF64 f64 (field schedule "interval_seconds")).getD (f64.ofInt 60)
  (countRun schedule).bind fun counted =>
    setField counted "next_run" (.float (f64.add now interval))

/-- The text of `schedules.json`: a JSON array, or something else. -/
inductive Content where
  | array (schedules : List Value)
  | garbled
  deriving DecidableEq

/-- `serde_json::from_str(&s).unwrap_or_default()`, on what `file_read` gave. -/
def parse : Option Content → List Value
  | some (.array schedules) => schedules
  | _ => []

/-- What was asked for, with the arguments already checked. `tick` is one pass of the
loop and `switch` the `pause` or `resume` of the whole scheduler. -/
inductive Job where
  | schedule (entry : Value)
  | unschedule (id : String)
  | list
  | pause (id : String)
  | resume (id : String)
  | tickNow (id : String)
  | tick (now : Dyadic)
  | switch (paused : Bool)
  deriving DecidableEq

/-- Where a task waits: for the answer to a read, with the answer on its way, for a
target, for the answer to a write, with that answer on its way, or for the record of
the agent to be persisted. -/
inductive Phase where
  | reading
  | answered (content : Option Content)
  | firing (before : List Value) (entry : Value) (after : List Value)
  | saving (schedules : List Value)
  | stored (schedules : List Value)
  | persisting
  deriving DecidableEq

/-- `loaded` is the list the task's copy was taken from. -/
structure Task where
  job : Job
  loaded : List Value
  phase : Phase
  deriving DecidableEq

/-- What a task does once its list is loaded, up to the next wait. -/
inductive Next where
  | save (schedules : List Value)
  | fire (before : List Value) (entry : Value) (after : List Value)
  | done (reply : Option Value)
  deriving DecidableEq

/-- The first entry that `wanted` picks, with what is before and after it. -/
def splitFirst (wanted : Value → Bool) :
    List Value → Option (List Value × Value × List Value)
  | [] => none
  | entry :: rest =>
    if wanted entry then some ([], entry, rest)
    else (splitFirst wanted rest).map fun (before, found, after) => (entry :: before, found, after)

/-- The loop of `pause_reply` and `resume_reply` over the list. -/
def mark (id : String) (paused : Bool) (schedules : List Value) : List Value :=
  schedules.map fun schedule =>
    if idOf schedule = some id then (setField schedule "paused" (.bool paused)).getD schedule
    else schedule

/-- `pause_reply` and `resume_reply` with a `schedule_id`: `name` is the field of the reply. -/
def setPaused (name id : String) (paused : Bool) (schedules : List Value) : Next :=
  if schedules.any fun schedule => idOf schedule = some id then .save (mark id paused schedules)
  else .done (some (.dict [(name, .bool false), ("schedule_id", .str id)]))

/-- The loop goes on behind `before`; `fired` is its `any_fired`. -/
def scan (f64 : F64) (now : Dyadic) (fired : Bool) (before rest : List Value) : Next :=
  match splitFirst (isDue f64 now) rest with
  | some (skipped, entry, after) => .fire (before ++ skipped) entry after
  | none => if fired then .save (before ++ rest) else .done none

/-- The verbs from the end of `load_schedules` to their next wait. -/
def Job.edit (f64 : F64) (job : Job) (schedules : List Value) : Next :=
  match job with
  | .schedule entry => .save (schedules ++ [entry])
  | .unschedule id =>
    let kept := schedules.filter fun schedule => idOf schedule ≠ some id
    if kept.length < schedules.length then .save kept
    else .done (some (.dict [("removed", .bool false), ("schedule_id", .str id)]))
  | .list => .done (some (.dict [("schedules", .list schedules)]))
  | .pause id => setPaused "paused" id true schedules
  | .resume id => setPaused "resumed" id false schedules
  | .tickNow id =>
    match splitFirst (fun schedule => idOf schedule = some id) schedules with
    | some (before, entry, after) => .fire before entry after
    | none => .done (some (.dict [("error", .str ("schedule '" ++ id ++ "' not found"))]))
  | .tick now => scan f64 now false [] schedules
  | .switch _ => .done none

/-- The verbs after `fire_schedule`; nothing when the assignment panics. -/
def Job.afterFire (f64 : F64) (job : Job) (now : Dyadic) (before : List Value) (entry : Value)
    (after : List Value) : Option Next :=
  match job with
  | .tick start => (countTick f64 now entry).map fun counted =>
    scan f64 start true (before ++ [counted]) after
  | _ => (countRun entry).map fun counted => .save (before ++ counted :: after)

/-- What a verb replies when its save went through. -/
def Job.saved : Job → Option Value
  | .schedule entry => some (.dict [("schedule_id", (field entry "id").getD .null),
      ("schedule", entry)])
  | .unschedule id => some (.dict [("removed", .bool true), ("schedule_id", .str id)])
  | .pause id => some (.dict [("paused", .bool true), ("schedule_id", .str id)])
  | .resume id => some (.dict [("resumed", .bool true), ("schedule_id", .str id)])
  | .tickNow id => some (.dict [("fired", .bool true), ("schedule_id", .str id)])
  | _ => none

def persistFailed (verb error : String) : Value :=
  .dict [("error", .str (verb ++ ": persist failed: " ++ error))]

/-- What a verb replies when its save failed. The tick loop only logs it. -/
def Job.refused (job : Job) (error : String) : Option Value :=
  match job with
  | .schedule _ => some (persistFailed "schedule" error)
  | .unschedule _ => some (persistFailed "unschedule" error)
  | .pause _ => some (persistFailed "pause" error)
  | .resume _ => some (persistFailed "resume" error)
  | .tickNow _ => some (persistFailed "tick_now" error)
  | _ => none

/-- The schedule `schedule_reply` builds, or its complaint about the payload. -/
def newSchedule (f64 : F64) (payload : Value) (now : Dyadic) (minted : String) :
    Except Value Value :=
  let target := (asStr (field payload "target")).getD ""
  let inner := (field payload "payload").getD (.dict [])
  let interval := max ((asU64 (field payload "interval_seconds")).getD 60) 1
  if target = "" then .error (.dict [("error", .str "schedule: target required")])
  else if (asStr (field inner "type")).getD "" = "" then
    .error (.dict [("error", .str "schedule: payload.type required")])
  else .ok (.dict [("id", .str minted), ("target", .str target), ("payload", inner),
    ("interval_seconds", .int interval), ("created_at", .float now),
    ("next_run", .float (f64.add now (f64.ofInt interval))), ("run_count", .int 0),
    ("paused", .bool false)])

/-- A change that a verb makes and may acknowledge. -/
inductive Change where
  | scheduled (entry : Value)
  | unscheduled (id : String)
  | marked (id : String) (paused : Bool)
  | switched (paused : Bool)
  deriving DecidableEq

def Job.change : Job → Option Change
  | .schedule entry => some (.scheduled entry)
  | .unschedule id => some (.unscheduled id)
  | .pause id => some (.marked id true)
  | .resume id => some (.marked id false)
  | .switch paused => some (.switched paused)
  | _ => none

/-- `wired` says that `file_bridge_id` is set, `paused` is the flag of the agent's meta.
`changes` lists, for the statements only, the changes in the order they took effect. -/
structure Scheduler where
  id : String
  wired : Bool
  file : Option Content
  cache : Option (List Value)
  paused : Bool
  tasks : Nat → Option Task
  begun : Nat
  replies : List (Nat × Value)
  changes : List (Nat × Change)

/-- Every place where a verb, the tick loop or the file bridge moves on. -/
inductive Move where
  | call (payload : Value) (now : Dyadic) (minted : String)
  | wake (now : Dyadic)
  | read (task : Nat) (served : Bool)
  | receive (task : Nat)
  | fired (task : Nat) (now : Dyadic)
  | write (task : Nat)
  | refuse (task : Nat) (error : String) (left : Option Content)
  | commit (task : Nat)
  | persisted (task : Nat)

namespace Scheduler

def fresh (id : String) (wired : Bool) (file : Option Content) (paused : Bool) : Scheduler where
  id := id
  wired := wired
  file := file
  cache := none
  paused := paused
  tasks := fun _ => none
  begun := 0
  replies := []
  changes := []

def setTask (state : Scheduler) (number : Nat) (task : Option Task) : Scheduler :=
  { state with tasks := Function.update state.tasks number task }

def finish (state : Scheduler) (number : Nat) (reply : Option Value) : Scheduler :=
  { state.setTask number none with
    replies := state.replies ++ reply.toList.map fun value => (number, value) }

/-- On to the next wait. Without a file bridge a save fails at once. -/
def goOn (state : Scheduler) (number : Nat) (job : Job) (loaded : List Value) (next : Next) :
    Scheduler :=
  match next with
  | .save schedules =>
    if state.wired then
      state.setTask number (some { job := job, loaded := loaded, phase := .saving schedules })
    else state.finish number (job.refused "file_bridge_id unset")
  | .fire before entry after =>
    state.setTask number
      (some { job := job, loaded := loaded, phase := .firing before entry after })
  | .done reply => state.finish number reply

/-- The list is put into `SCHEDULE_CACHE`, and the task goes on with it. -/
def fill (f64 : F64) (state : Scheduler) (number : Nat) (job : Job) (schedules : List Value) :
    Scheduler :=
  { state with cache := some schedules }.goOn number job schedules (job.edit f64 schedules)

/-- The state once the next task has its number, `state.begun`. -/
def opened (state : Scheduler) : Scheduler :=
  { state with begun := state.begun + 1 }

/-- A task for the job, up to its first wait: `load_schedules` takes the cached list, and
asks the file bridge when there is none. -/
def start (f64 : F64) (state : Scheduler) (job : Job) : Scheduler :=
  match state.cache with
  | some cached => state.opened.goOn state.begun job cached (job.edit f64 cached)
  | none =>
    if state.wired then
      state.opened.setTask state.begun (some { job := job, loaded := [], phase := .reading })
    else state.opened.fill f64 state.begun job []

/-- `update_meta(…, "paused", …)`: the flag changes at once, the record is persisted. -/
def switch (state : Scheduler) (paused : Bool) : Scheduler :=
  { state.opened.setTask state.begun
      (some { job := .switch paused, loaded := [], phase := .persisting }) with
    paused := paused
    changes := state.changes ++ [(state.begun, .switched paused)] }

/-- A reply that needs no list. -/
def answer (state : Scheduler) (reply : Value) : Scheduler :=
  state.opened.finish state.begun (some reply)

def scheduleReply (f64 : F64) (state : Scheduler) (payload : Value) (now : Dyadic)
    (minted : String) : Scheduler :=
  if state.wired then
    match newSchedule f64 payload now minted with
    | .error complaint => state.answer complaint
    | .ok entry => state.start f64 (.schedule entry)
  else state.answer (.dict [("error", .str "scheduler: file_bridge_id required")])

/-- `unschedule_reply` and `tick_now_reply`, which insist on a `schedule_id`. -/
def withScheduleId (f64 : F64) (state : Scheduler) (verb : String) (payload : Value)
    (job : String → Job) : Scheduler :=
  match asStr (field payload "schedule_id") with
  | some id => state.start f64 (job id)
  | none => state.answer (.dict [("error", .str (verb ++ ": schedule_id required"))])

/-- `pause_reply` and `resume_reply`: of one schedule, or of the whole scheduler. -/
def oneOrAll (f64 : F64) (state : Scheduler) (payload : Value) (job : String → Job)
    (paused : Bool) : Scheduler :=
  match asStr (field payload "schedule_id") with
  | some id => state.start f64 (job id)
  | none => state.switch paused

/-- `handle`, for the verbs that read or write the list. -/
def handle (f64 : F64) (state : Scheduler) (payload : Value) (now : Dyadic) (minted : String) :
    Scheduler :=
  match (asStr (field payload "type")).getD "" with
  | "schedule" => state.scheduleReply f64 payload now minted
  | "unschedule" => state.withScheduleId f64 "unschedule" payload .unschedule
  | "list" => state.start f64 .list
  | "pause" => state.oneOrAll f64 payload .pause true
  | "resume" => state.oneOrAll f64 payload .resume false
  | "tick_now" => state.withScheduleId f64 "tick_now" payload .tickNow
  | _ => state

/-- What a waiting task does when `move` reaches it. -/
def advance (f64 : F64) (state : Scheduler) (number : Nat) (task : Task) (move : Move) :
    Scheduler :=
  match move, task.phase with
  | .read _ served, .reading =>
    state.setTask number
      (some { task with phase := .answered (if served then state.file else none) })
  | .receive _, .answered content => state.fill f64 number task.job (parse content)
  | .fired _ now, .firing before entry after =>
    match task.job.afterFire f64 now before entry after with
    | some next => state.goOn number task.job task.loaded next
    | none => state.setTask number none
  | .write _, .saving schedules =>
    { state.setTask number (some { task with phase := .stored schedules }) with
      file := some (.array schedules)
      changes := state.changes ++ task.job.change.toList.map fun change => (number, change) }
  | .refuse _ error left, .saving _ =>
    { state.finish number (task.job.refused error) with file := left }
  | .commit _, .stored schedules =>
    { state.finish number task.job.saved with cache := some schedules }
  | .persisted _, .persisting =>
    match task.job with
    | .switch true => state.finish number
        (some (.dict [("paused", .bool true), ("scheduler_id", .str state.id)]))
    | _ => state.finish number
        (some (.dict [("resumed", .bool true), ("scheduler_id", .str state.id)]))
  | _, _ => state

def resume (f64 : F64) (state : Scheduler) (number : Nat) (move : Move) : Scheduler :=
  match state.tasks number with
  | some task => state.advance f64 number task move
  | none => state

/-- One move. A paused scheduler skips its pass. -/
def step (f64 : F64) (state : Scheduler) (move : Move) : Scheduler :=
  match move with
  | .call payload now minted => state.handle f64 payload now minted
  | .wake now => if state.paused then state else state.start f64 (.tick now)
  | .read number _ | .receive number | .fired number _ | .write number | .refuse number _ _
  | .commit number | .persisted number => state.resume f64 number move

def run (f64 : F64) (state : Scheduler) (moves : List Move) : Scheduler :=
  moves.foldl (step f64) state

end Scheduler

end Fantastic.Rust.Scheduling

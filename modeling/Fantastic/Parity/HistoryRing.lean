import Fantastic.Foundation.LineJournal
import Fantastic.Parity.TokenBudget

/-!
# The history of a scheduler

`_append_history`, `_read_history` and `_history` of `scheduler/tools.py`, and the same in
`fantastic-scheduler`, over a store that returns what was last written. An event is what
`json.loads` or `serde_json` makes of its line.
-/

namespace Fantastic.Parity.History

open Fantastic.Python (Runtime PyError getD truthy)
open Fantastic.Python.Ai (Numerals intOf isSpace stripChars plainRuntime asciiNumerals)
open Fantastic.Rust (asU64)
open LineJournal

/-- `HISTORY_MAX`. -/
def historyMax : Nat := 500

/-- The JSON text of an event, and what the verbs see of one. -/
structure EventText (Event : Type*) where
  dumps : Event → List Char
  loads : List Char → Option Event
  scheduleId : Event → Option Value

/-- An event is written on one line, without blanks around it, and read back from it. -/
structure EventText.OneLine {Event : Type*} (text : EventText Event) (isBreak blank : Char → Bool) :
    Prop where
  unbroken : ∀ event, ∀ char ∈ text.dumps event, isBreak char = false ∧ char ≠ '\r'
  starts : ∀ event, ∃ char ∈ (text.dumps event).head?, blank char = false
  ends : ∀ event, ∃ char ∈ (text.dumps event).getLast?, blank char = false
  loaded : ∀ event, text.loads (text.dumps event) = some event

section Histories

variable {Event : Type*} (text : EventText Event)

/-! ### Python -/

/-- Where `str.splitlines` breaks. -/
def isLineBreak (char : Char) : Bool :=
  let code := char.toNat
  (10 ≤ code && code ≤ 13) || (28 ≤ code && code ≤ 30) || code == 0x85 || code == 0x2028 ||
    code == 0x2029

/-- A carriage return and a line feed are one break. -/
def mergeCrLf : List Char → List Char
  | '\r' :: '\n' :: rest => '\n' :: mergeCrLf rest
  | char :: rest => char :: mergeCrLf rest
  | [] => []

def splitlines (raw : List Char) : List (List Char) :=
  splitLines isLineBreak (mergeCrLf raw)

def pythonAppend (file : Option (List Char)) (event : Event) : Option (List Char) :=
  let appended := file.getD [] ++ text.dumps event ++ ['\n']
  let lines := splitlines appended
  if 2 * historyMax < lines.length then
    some (List.intercalate ['\n'] (lastOf historyMax lines) ++ ['\n'])
  else some appended

/-- The event of a line that is not blank and can be read. -/
def eventOf (blank : Char → Bool) (line : List Char) : Option Event :=
  let line := stripChars blank line
  if line = [] then none else text.loads line

def pythonRead (file : Option (List Char)) (limit : Nat) : List Event :=
  match file with
  | none | some [] => []
  | some raw => (lastOf limit (splitlines raw)).filterMap (eventOf text isSpace)

/-- `max(1, min(500, limit))`. -/
def clampLimit (limit : Int) : Nat :=
  (max 1 (min 500 limit)).toNat

/-- `_history`. -/
def pythonHistory (runtime : Runtime) (numerals : Numerals) (file : Option (List Char))
    (payload : Dict) : Except PyError (List Event) :=
  (intOf runtime numerals ((payload.get? "limit").getD (.int 100))).map fun limit =>
    let entries := pythonRead text file (clampLimit limit)
    let sid := getD payload "schedule_id"
    if truthy sid then entries.filter fun event => (text.scheduleId event).getD .null == sid
    else entries

/-! ### Rust -/

/-- `str::lines`. -/
def rustLines (raw : List Char) : List (List Char) :=
  (splitLines (· == '\n') raw).map fun line =>
    if line.getLast? = some '\r' then line.dropLast else line

def rustAppend (file : Option (List Char)) (event : Event) : Option (List Char) :=
  let combined := file.getD [] ++ text.dumps event ++ ['\n']
  let lines := splitLines (· == '\n') combined
  if 2 * historyMax < lines.length then
    some (List.intercalate ['\n'] (lines.reverse.take historyMax).reverse ++ ['\n'])
  else some combined

def rustRead (file : Option (List Char)) (limit : Nat) : List Event :=
  match file with
  | none => []
  | some raw =>
    (((rustLines raw).reverse.take limit).filterMap (eventOf text isWhiteSpace)).reverse

def rustLimit (payload : Dict) : Nat :=
  max 1 (min ((asU64 (payload.get? "limit")).getD 100) 500)

/-- `history_reply`. -/
def rustHistory (file : Option (List Char)) (payload : Dict) : List Event :=
  let entries := rustRead text file (rustLimit payload)
  match payload.get? "schedule_id" with
  | some (.str sid) => entries.filter fun event => text.scheduleId event == some (.str sid)
  | _ => entries

/-! ### The law -/

/-- A request for the last events, of one schedule or of all. -/
structure Asks (payload : Dict) (limit : Int) (schedule : Option String) : Prop where
  limited : payload.get? "limit" = some (.int limit) ∨
    payload.get? "limit" = none ∧ limit = 100
  scheduled : payload.get? "schedule_id" = schedule.map Value.str

def ofSchedule (schedule : Option String) (event : Event) : Bool :=
  schedule.all fun sid => text.scheduleId event == some (.str sid)

def fileOf (events : List Event) : List Char :=
  joinLines (events.map text.dumps)

/-- How many of as many events a ring holds. -/
def Within (count held : Nat) : Prop :=
  (count ≤ 2 * historyMax → held = count) ∧
    (2 * historyMax < count → historyMax ≤ held ∧ held ≤ 2 * historyMax)

/-- The file holds the last events, and the verb answers the last ones of the schedule. -/
def Keeps (log : List Event) (limit : Int) (schedule : Option String)
    (file : Option (List Char)) (answer : Except PyError (List Event)) : Prop :=
  ∃ held, Within log.length held ∧ file.getD [] = fileOf text (lastOf held log) ∧
    answer = .ok (lastOf (clampLimit limit) ((lastOf held log).filter (ofSchedule text schedule)))

/-- No event of the schedule stands before the lines that are read, and there are not too many in
all, or these lines hold as many as are wanted. -/
def Reaches (held : List Event) (schedule : Option String) (wanted read : Nat) : Prop :=
  ((∀ event ∈ held.take (held.length - read), ofSchedule text schedule event = false) ∧
      (held.filter (ofSchedule text schedule)).length ≤ wanted) ∨
    ((lastOf read held).filter (ofSchedule text schedule)).length = wanted

/-- As many lines as Rust reads: a limit that is no `u64` is taken for the default. -/
def rustReach (limit : Int) : Nat :=
  if 0 ≤ limit ∧ limit < 2 ^ 64 then clampLimit limit else 100

variable {text}

/-! ### Files of events -/

theorem stripChars_solid {blank : Char → Bool} {line : List Char}
    (starts : ∃ char ∈ line.head?, blank char = false)
    (ends : ∃ char ∈ line.getLast?, blank char = false) : stripChars blank line = line := by
  have solid : ∀ {chars : List Char}, (∃ char ∈ chars.head?, blank char = false) →
      chars.dropWhile blank = chars := by
    rintro chars ⟨char, head, plain⟩
    cases chars with
    | nil => rfl
    | cons first rest =>
      cases head
      rw [List.dropWhile_cons_of_neg (by simp [plain])]
  have back := @solid line.reverse (by rwa [List.head?_reverse])
  rw [stripChars, solid starts, back, List.reverse_reverse]

theorem eventOf_dumps {isBreak blank : Char → Bool} (one : text.OneLine isBreak blank)
    (event : Event) : eventOf text blank (text.dumps event) = some event := by
  have some' : text.dumps event ≠ [] := by
    intro none
    obtain ⟨char, head, _⟩ := one.starts event
    rw [none] at head
    cases head
  simp only [eventOf, stripChars_solid (one.starts event) (one.ends event), if_neg some',
    one.loaded]

theorem filterMap_eventOf {isBreak blank : Char → Bool} (one : text.OneLine isBreak blank)
    (events : List Event) :
    (events.map text.dumps).filterMap (eventOf text blank) = events := by
  rw [List.filterMap_map]
  have each : eventOf text blank ∘ text.dumps = some := funext (eventOf_dumps one)
  rw [each, List.filterMap_some]

theorem fileOf_append (held : List Event) (event : Event) :
    fileOf text held ++ text.dumps event ++ ['\n'] = fileOf text (held ++ [event]) := by
  simp [fileOf, joinLines]

theorem fileOf_lines {isBreak blank : Char → Bool} (one : text.OneLine isBreak blank)
    (feed : isBreak '\n' = true) (events : List Event) :
    splitLines isBreak (fileOf text events) = events.map text.dumps := by
  apply splitLines_joinLines feed
  intro line member char inside
  obtain ⟨event, _, rfl⟩ := List.mem_map.mp member
  exact (one.unbroken event char inside).1

theorem fileOf_return {isBreak blank : Char → Bool} (one : text.OneLine isBreak blank)
    (events : List Event) : '\r' ∉ fileOf text events := by
  intro member
  obtain ⟨line, among, inside⟩ := List.mem_flatMap.mp member
  obtain ⟨event, _, rfl⟩ := List.mem_map.mp among
  rcases List.mem_append.mp inside with char | feed
  · exact (one.unbroken event _ char).2 rfl
  · cases List.mem_singleton.mp feed

theorem mergeCrLf_plain (chars : List Char) (plain : '\r' ∉ chars) : mergeCrLf chars = chars := by
  fun_induction mergeCrLf chars with
  | case1 rest ih => exact absurd List.mem_cons_self plain
  | case2 char rest _ ih => rw [ih fun member => plain (List.mem_cons_of_mem _ member)]
  | case3 => rfl

theorem fileOf_splitlines {blank : Char → Bool} (one : text.OneLine isLineBreak blank)
    (events : List Event) : splitlines (fileOf text events) = events.map text.dumps := by
  rw [splitlines, mergeCrLf_plain _ (fileOf_return one events), fileOf_lines one rfl]

theorem fileOf_rustLines {blank : Char → Bool} (one : text.OneLine (· == '\n') blank)
    (events : List Event) : rustLines (fileOf text events) = events.map text.dumps := by
  rw [rustLines, fileOf_lines one rfl, List.map_map]
  apply List.map_congr_left
  intro event _
  apply if_neg
  intro last
  exact (one.unbroken event _ (List.mem_of_getLast? last)).2 rfl

/-- The lines that a ring keeps, put together again. -/
theorem fileOf_trim {held : List Event} (many : 2 * historyMax < held.length) :
    List.intercalate ['\n'] (lastOf historyMax (held.map text.dumps)) ++ ['\n'] =
      fileOf text (lastOf historyMax held) := by
  rw [fileOf, map_lastOf]
  apply intercalate_joinLines
  intro none
  have length := congrArg List.length none
  rw [lastOf_length, List.length_map, List.length_nil] at length
  unfold historyMax at many length
  omega

/-! ### Appends -/

theorem pythonAppend_fileOf {blank : Char → Bool} (one : text.OneLine isLineBreak blank)
    {file : Option (List Char)} {held : List Event} (holds : file.getD [] = fileOf text held)
    (event : Event) :
    pythonAppend text file event = some (fileOf text (push historyMax held event)) := by
  simp only [pythonAppend, holds, fileOf_append, fileOf_splitlines one, List.length_map, push]
  split
  case isTrue many => rw [fileOf_trim many]
  case isFalse => rfl

theorem rustAppend_fileOf {blank : Char → Bool} (one : text.OneLine (· == '\n') blank)
    {file : Option (List Char)} {held : List Event} (holds : file.getD [] = fileOf text held)
    (event : Event) :
    rustAppend text file event = some (fileOf text (push historyMax held event)) := by
  simp only [rustAppend, holds, fileOf_append, fileOf_lines one rfl, List.length_map, push,
    lastOf_eq_reverse]
  split
  case isTrue many => rw [fileOf_trim many]
  case isFalse => rfl

theorem appends_fileOf {append : Option (List Char) → Event → Option (List Char)}
    (appends : ∀ {file held}, file.getD [] = fileOf text held → ∀ event,
      append file event = some (fileOf text (push historyMax held event)))
    (log : List Event) : ∀ {file held}, file.getD [] = fileOf text held →
      (log.foldl append file).getD [] = fileOf text (log.foldl (push historyMax) held) := by
  induction log with
  | nil => exact fun holds => holds
  | cons event log ih =>
    intro file held holds
    rw [List.foldl_cons, List.foldl_cons, appends holds]
    exact ih rfl

/-! ### Reads -/

theorem pythonRead_fileOf (one : text.OneLine isLineBreak isSpace) {file : Option (List Char)}
    {held : List Event} (holds : file.getD [] = fileOf text held) (limit : Nat) :
    pythonRead text file limit = lastOf limit held := by
  have lines : (lastOf limit (splitlines (fileOf text held))).filterMap (eventOf text isSpace) =
      lastOf limit held := by
    rw [fileOf_splitlines one, ← map_lastOf, filterMap_eventOf one]
  rw [← lines, ← holds]
  have empty : splitlines [] = [] := by simp [splitlines, mergeCrLf, splitLines]
  unfold pythonRead
  split
  · simp [empty, lastOf]
  · simp [empty, lastOf]
  · rfl

theorem rustRead_fileOf (one : text.OneLine (· == '\n') isWhiteSpace)
    {file : Option (List Char)} {held : List Event} (holds : file.getD [] = fileOf text held)
    (limit : Nat) : rustRead text file limit = lastOf limit held := by
  have lines : (((rustLines (fileOf text held)).reverse.take limit).filterMap
      (eventOf text isWhiteSpace)).reverse = lastOf limit held := by
    rw [← List.filterMap_reverse, lastOf_eq_reverse, fileOf_rustLines one, ← map_lastOf,
      filterMap_eventOf one]
  rw [← lines, ← holds]
  unfold rustRead
  split
  · simp [rustLines, splitLines]
  · rfl

/-! ### Answers -/

theorem clampLimit_nat (limit : Nat) : clampLimit limit = max 1 (min limit 500) := by
  unfold clampLimit
  omega

theorem rustLimit_asked {payload : Dict} {limit : Int} {schedule : Option String}
    (asked : Asks payload limit schedule) : rustLimit payload = rustReach limit := by
  unfold rustReach
  rcases asked.limited with given | ⟨absent, rfl⟩
  · rw [rustLimit, given, asU64]
    split
    case isTrue range =>
      rw [Option.getD_some, ← clampLimit_nat, Int.toNat_of_nonneg range.1]
    case isFalse => rfl
  · rw [rustLimit, absent]
    rfl

theorem rustHistory_fileOf (one : text.OneLine (· == '\n') isWhiteSpace) {payload : Dict}
    {limit : Int} {schedule : Option String} (asked : Asks payload limit schedule)
    {file : Option (List Char)} {held : List Event} (holds : file.getD [] = fileOf text held) :
    rustHistory text file payload =
      (lastOf (rustReach limit) held).filter (ofSchedule text schedule) := by
  unfold rustHistory
  rw [asked.scheduled, rustLimit_asked asked, rustRead_fileOf one holds]
  cases schedule with
  | none => exact (List.filter_eq_self.mpr fun _ _ => rfl).symm
  | some sid => rfl

/-- An empty id asks Python for the events of all schedules. -/
theorem pythonHistory_fileOf (one : text.OneLine isLineBreak isSpace) (runtime : Runtime)
    (numerals : Numerals) {payload : Dict} {limit : Int} {schedule : Option String}
    (asked : Asks payload limit schedule) {file : Option (List Char)} {held : List Event}
    (holds : file.getD [] = fileOf text held) :
    pythonHistory text runtime numerals file payload =
      .ok ((lastOf (clampLimit limit) held).filter
        (ofSchedule text (if schedule = some "" then none else schedule))) := by
  have limited : intOf runtime numerals ((payload.get? "limit").getD (.int 100)) = .ok limit := by
    rcases asked.limited with given | ⟨absent, rfl⟩
    · rw [given]
      rfl
    · rw [absent]
      rfl
  unfold pythonHistory
  rw [limited]
  change Except.ok _ = _
  have asksId : getD payload "schedule_id" = (schedule.map Value.str).getD .null := by
    rw [getD, asked.scheduled]
  simp only [asksId, pythonRead_fileOf one holds]
  have whole : ∀ events : List Event, events.filter (ofSchedule text none) = events :=
    fun events => List.filter_eq_self.mpr fun _ _ => rfl
  cases schedule with
  | none =>
    rw [if_neg (by simp [truthy]), if_neg (by simp), whole]
  | some sid =>
    by_cases empty : sid = ""
    · subst empty
      rw [if_neg (by simp [truthy]), if_pos rfl, whole]
    · rw [if_pos (by simp [truthy, empty]), if_neg (by simp [empty])]
      congr 1
      apply List.filter_congr
      intro event _
      rw [ofSchedule, Option.all_some]
      cases text.scheduleId event <;> rfl

theorem fileOf_injective {isBreak blank : Char → Bool} (one : text.OneLine isBreak blank)
    (feed : isBreak '\n' = true) {first second : List Event}
    (same : fileOf text first = fileOf text second) : first = second := by
  have lines := congrArg (splitLines isBreak) same
  rw [fileOf_lines one feed, fileOf_lines one feed] at lines
  rw [← filterMap_eventOf one first, lines, filterMap_eventOf one]

/-- The file that a ring leaves settles what the law asks of an answer. -/
theorem keeps_iff {isBreak blank : Char → Bool} (one : text.OneLine isBreak blank)
    (feed : isBreak '\n' = true) {log : List Event} {limit : Int} {schedule : Option String}
    {file : Option (List Char)} (answer : Except PyError (List Event))
    (holds : file.getD [] = fileOf text (lastOf (kept historyMax log.length) log)) :
    Keeps text log limit schedule file answer ↔
      answer = .ok (lastOf (clampLimit limit)
        ((lastOf (kept historyMax log.length) log).filter (ofSchedule text schedule))) := by
  constructor
  · rintro ⟨held, _, stored, answered⟩
    rw [holds] at stored
    rw [answered, fileOf_injective one feed stored]
  · intro answered
    exact ⟨_, ⟨kept_of_le, kept_bounds⟩, holds, answered⟩

end Histories

/-! ### Both runtimes -/

section Both

variable {Event : Type*} (python rust : EventText Event) (runtime : Runtime) (numerals : Numerals)

/-- The law in both runtimes, after the appends and for a request. -/
def BothKeep (log : List Event) (payload : Dict) (limit : Int) (schedule : Option String) : Prop :=
  Keeps python log limit schedule (log.foldl (pythonAppend python) none)
      (pythonHistory python runtime numerals (log.foldl (pythonAppend python) none) payload) ∧
    Keeps rust log limit schedule (log.foldl (rustAppend rust) none)
      (.ok (rustHistory rust (log.foldl (rustAppend rust) none) payload))

/-- The lines that are read reach the wanted events; an empty id is one that all of them have. -/
structure Covered (held : List Event) (limit : Int) (schedule : Option String) : Prop where
  inPython : Reaches python held schedule (clampLimit limit) (clampLimit limit)
  inRust : Reaches rust held schedule (clampLimit limit) (rustReach limit)
  named : schedule = some "" →
    ∀ event ∈ lastOf (clampLimit limit) held, ofSchedule python schedule event = true

variable {python rust}

theorem pythonAnswer_iff (one : python.OneLine isLineBreak isSpace) {payload : Dict} {limit : Int}
    {schedule : Option String} (asked : Asks payload limit schedule)
    {file : Option (List Char)} {held : List Event} (holds : file.getD [] = fileOf python held) :
    pythonHistory python runtime numerals file payload =
        .ok (lastOf (clampLimit limit) (held.filter (ofSchedule python schedule))) ↔
      Reaches python held schedule (clampLimit limit) (clampLimit limit) ∧
        (schedule = some "" →
          ∀ event ∈ lastOf (clampLimit limit) held, ofSchedule python schedule event = true) := by
  rw [pythonHistory_fileOf one runtime numerals asked holds, Except.ok.injEq]
  have seen := filter_lastOf_iff (ofSchedule python schedule) (clampLimit limit)
    (clampLimit limit) held
  by_cases empty : schedule = some ""
  · have whole : ∀ events : List Event, events.filter (ofSchedule python none) = events :=
      fun events => List.filter_eq_self.mpr fun _ _ => rfl
    rw [if_pos empty, whole, ← List.filter_eq_self]
    constructor
    · intro same
      have all : (lastOf (clampLimit limit) held).filter (ofSchedule python schedule) =
          lastOf (clampLimit limit) held := by
        rw [List.filter_eq_self, same]
        intro event member
        exact (List.mem_filter.mp (List.mem_of_mem_drop member)).2
      exact ⟨seen.mp (all.trans same), fun _ => all⟩
    · rintro ⟨reaches, all⟩
      rw [← seen.mpr reaches, all empty]
  · rw [if_neg empty, seen]
    exact ⟨fun reaches => ⟨reaches, fun same => absurd same empty⟩, fun both => both.1⟩

theorem history_iff (pythonLine : python.OneLine isLineBreak isSpace)
    (rustLine : rust.OneLine (· == '\n') isWhiteSpace) (log : List Event) {payload : Dict}
    {limit : Int} {schedule : Option String} (asked : Asks payload limit schedule) :
    BothKeep python rust runtime numerals log payload limit schedule ↔
      Covered python rust (lastOf (kept historyMax log.length) log) limit schedule := by
  have inPython : (log.foldl (pythonAppend python) none).getD [] =
      fileOf python (lastOf (kept historyMax log.length) log) := by
    rw [← push_run]
    exact appends_fileOf (fun holds => pythonAppend_fileOf pythonLine holds) log rfl
  have inRust : (log.foldl (rustAppend rust) none).getD [] =
      fileOf rust (lastOf (kept historyMax log.length) log) := by
    rw [← push_run]
    exact appends_fileOf (fun holds => rustAppend_fileOf rustLine holds) log rfl
  rw [BothKeep, keeps_iff pythonLine rfl _ inPython, keeps_iff rustLine rfl _ inRust,
    pythonAnswer_iff runtime numerals pythonLine asked inPython,
    rustHistory_fileOf rustLine asked inRust, Except.ok.injEq, filter_lastOf_iff]
  exact ⟨fun both => ⟨both.1.1, both.2, both.1.2⟩,
    fun covered => ⟨⟨covered.inPython, covered.named⟩, covered.inRust⟩⟩

end Both

/-! ### Two schedules in turn -/

/-- The first schedule, or the second. -/
def scheduleName (first : Bool) : String :=
  if first then "sch_0000aa" else "sch_0000bb"

def textOfTwo (gap : String) : EventText Bool where
  dumps := fun first =>
    ("\x7b\"schedule_id\":" ++ gap ++ "\"" ++ scheduleName first ++ "\"\x7d").toList
  loads := fun line =>
    if line = ("\x7b\"schedule_id\":" ++ gap ++ "\"sch_0000aa\"\x7d").toList then some true
    else if line = ("\x7b\"schedule_id\":" ++ gap ++ "\"sch_0000bb\"\x7d").toList then some false
    else none
  scheduleId := fun first => some (.str (scheduleName first))

/-- On two texts all there is to a line can be computed. -/
theorem textOfTwo_oneLine {gap : String} {isBreak blank : Char → Bool}
    (unbroken : ∀ event, ((textOfTwo gap).dumps event).all
      (fun char => !(isBreak char) && decide (char ≠ '\r')) = true)
    (framed : ∀ event, ((textOfTwo gap).dumps event).head? = some '\x7b' ∧
      ((textOfTwo gap).dumps event).getLast? = some '\x7d')
    (visible : blank '\x7b' = false ∧ blank '\x7d' = false)
    (loaded : ∀ event, (textOfTwo gap).loads ((textOfTwo gap).dumps event) = some event) :
    (textOfTwo gap).OneLine isBreak blank where
  unbroken := fun event char held => by
    simpa using List.all_eq_true.mp (unbroken event) char held
  starts := fun event => ⟨'\x7b', (framed event).1, visible.1⟩
  ends := fun event => ⟨'\x7d', (framed event).2, visible.2⟩
  loaded := loaded

theorem pythonTwo_oneLine : (textOfTwo " ").OneLine isLineBreak isSpace :=
  textOfTwo_oneLine (by decide) (by decide) (by decide) (by decide)

theorem rustTwo_oneLine : (textOfTwo "").OneLine (· == '\n') isWhiteSpace :=
  textOfTwo_oneLine (by decide) (by decide) (by decide) (by decide)

def askFirst (limit : Int) : Dict where
  entries := [("limit", .int limit), ("schedule_id", .str "sch_0000aa")]
  nodup := (by decide : ["limit", "schedule_id"].Nodup)

theorem askFirst_asks (limit : Int) : Asks (askFirst limit) limit (some "sch_0000aa") :=
  ⟨.inl rfl, rfl⟩

theorem wide_limit_keeps : BothKeep (textOfTwo " ") (textOfTwo "") plainRuntime asciiNumerals
    [true, false] (askFirst 5) 5 (some "sch_0000aa") := by
  apply (history_iff plainRuntime asciiNumerals pythonTwo_oneLine rustTwo_oneLine [true, false]
    (askFirst_asks 5)).mpr
  exact ⟨.inl (by decide), .inl (by decide), fun same => absurd same (by decide)⟩

/-- The limit is spent on an event of the other schedule. -/
theorem limit_before_filter_misses : ¬BothKeep (textOfTwo " ") (textOfTwo "") plainRuntime
    asciiNumerals [true, false] (askFirst 1) 1 (some "sch_0000aa") := by
  rintro ⟨⟨held, within, _, answered⟩, _⟩
  have all : held = 2 := within.1 (by decide)
  subst all
  have holds : ([true, false].foldl (pythonAppend (textOfTwo " ")) none).getD [] =
      fileOf (textOfTwo " ") ([true, false].foldl (push historyMax) []) := by
    apply appends_fileOf (fun holds => pythonAppend_fileOf pythonTwo_oneLine holds)
    rfl
  rw [pythonHistory_fileOf pythonTwo_oneLine plainRuntime asciiNumerals (askFirst_asks 1) holds]
    at answered
  revert answered
  rw [Except.ok.injEq]
  decide

end Fantastic.Parity.History

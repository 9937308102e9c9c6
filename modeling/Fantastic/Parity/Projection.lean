import Fantastic.Parity.TokenBudget

/-!
# A projected conversation stays valid

`strategies.rs` and `projection.rs` of `fantastic-ai-core` and `Strategies.swift` and
`ContextProjection.swift`, which do the same with the estimates and the settings of their runtime,
beside `_project_context` of `ai_core`. A summary is any function of the turns it stands for, and
none when the provider fails. The events and the tables that `context_status` reads are left out.
-/

namespace Fantastic.Parity.Projection

open Fantastic.Python (Runtime PyError getD)
open Fantastic.Python.Ai (Numerals Strategy Projected Backend isTool message estimateOne
  estimateTokens noticeEnvelopeReserve stubSummary contextNotice tooSmall getStrategy recentN
  makeSummarizer recentSplit letters asciiNumerals plainRuntime projectContext Shortens)
open Fantastic.Swift (InInt64)
open TurnWindow (weight Exchange flatten Owned fitTail TailFit)

/-! ### Rust and Swift -/

/-- What a runtime brings: the estimate of a turn, and the summary of a span. -/
structure Provider where
  estimate : Dict → Nat
  summarize : List Dict → Option String
  trim : String → String

namespace Provider

def summary (provider : Provider) (overflow : List Dict) : String :=
  match provider.summarize overflow with
  | none => stubSummary
  | some text => if provider.trim text = "" then stubSummary else provider.trim text

def compact (provider : Provider) (body : List Dict) (recent : Nat) (budget : Int) :
    Python.Ai.Projection :=
  let (overflow, kept) := recentSplit body recent
  if overflow.isEmpty then ⟨fitTail provider.estimate isTool body budget, none, false⟩
  else
    let summary := provider.summary overflow
    let summaryCost := provider.estimate (message "user" (.str summary))
    let avail := max 0 (budget - noticeEnvelopeReserve - summaryCost)
    ⟨fitTail provider.estimate isTool kept avail, some summary, false⟩

def truncate (provider : Provider) (body : List Dict) (budget : Int) : Python.Ai.Projection :=
  match body with
  | first :: second :: rest =>
    let headCost := provider.estimate first + noticeEnvelopeReserve
    let tail := fitTail provider.estimate isTool (second :: rest) (max 0 (budget - headCost))
    ⟨first :: tail, none, true⟩
  | _ => ⟨fitTail provider.estimate isTool body budget, none, false⟩

def project (provider : Provider) (strategy : Strategy) (body : List Dict) (recent : Nat)
    (budget : Int) : Python.Ai.Projection :=
  match strategy with
  | .truncate => provider.truncate body budget
  | .compact => provider.compact body recent budget

end Provider

/-- The settings of an agent; `recent` is none where the conversion of `recent_n` traps. -/
structure Settings where
  kind : String
  limit : Int
  window : Int
  strategy : String
  recent : Option Nat

def unknownStrategy (settings : Settings) (shown : String) : String :=
  settings.kind ++ ": unknown context_strategy " ++ shown ++ " (valid: compact, truncate)"

/-- `is_known_strategy`, and the strategy that is then taken. -/
def strategyOf (name : String) : Option Strategy :=
  if name = "truncate" then some .truncate
  else if name = "compact" then some .compact
  else none

/-- The end of the seam: the notice, and the oldest turns that go until the list fits. -/
def compose (estimate : Dict → Nat) (limit : Int) (strategy : Strategy) (system : List Dict)
    (length : Nat) (projection : Python.Ai.Projection) : List Dict :=
  let notice := contextNotice strategy.name projection.summary projection.omittedMarker
    (length - projection.body.length)
  system ++ [notice] ++ TurnWindow.trim isTool
    (fun kept => decide (weight estimate (system ++ [notice] ++ kept) ≤ limit))
    projection.body.length projection.body

def projectMessages (provider : Provider) (settings : Settings) (shown : String)
    (messages : List Dict) : Option Projected :=
  if weight provider.estimate messages ≤ settings.limit then some (.messages messages)
  else
    let system := messages.take 1
    let body := messages.drop 1
    match body.getLast? with
    | none => some (.messages messages)
    | some live =>
      let sysTokens := weight provider.estimate system
      let bodyBudget := settings.limit - sysTokens
      if bodyBudget < provider.estimate live + noticeEnvelopeReserve then
        some (.refusal (tooSmall ⟨settings.kind, fun _ => none⟩ sysTokens settings.window))
      else
        match strategyOf settings.strategy with
        | none => some (.refusal (unknownStrategy settings shown))
        | some strategy =>
          settings.recent.map fun recent => .messages
            (compose provider.estimate settings.limit strategy system body.length
              (provider.project strategy body recent bodyBudget))

def strategyName (record : Dict) : String :=
  match record.get? "context_strategy" with
  | some (.str name) => name
  | _ => "compact"

def rustRecentN (record : Dict) : Nat :=
  let asked :=
    match getD record "recent_n" with
    | .int number => if InInt64 number then number else 6
    | .str text => (rustText64 text).getD 6
    | _ => 6
  (max 1 (min asked 50)).toNat

def rustSettings (kind : String) (record : Dict) (limit : Int) : Settings :=
  ⟨kind, limit, rustWindow record, strategyName record, some (rustRecentN record)⟩

/-- `project_context`; none where the budget overflows. -/
def rustProjectContext (provider : Provider) (debug : String → String) (kind : String)
    (record : Dict) (messages : List Dict) : Option Projected :=
  (rustBudget record).bind fun limit =>
    projectMessages provider (rustSettings kind record limit) (debug (strategyName record)) messages

def swiftRecentN (record : Dict) : Option Nat :=
  (swiftInt (getD record "recent_n")).map fun asked =>
    let asked :=
      match asked, getD record "recent_n" with
      | some number, _ => number
      | none, .str text => (parseInt64 text.toList).getD 6
      | none, _ => 6
    (min (max asked 1) 50).toNat

def swiftSettings (kind : String) (record : Dict) (window limit : Int) : Settings :=
  ⟨kind, limit, window, strategyName record, swiftRecentN record⟩

/-- `projectContext`; none where a number of the record traps. -/
def swiftProjectContext (provider : Provider) (kind : String) (record : Dict)
    (messages : List Dict) : Option Projected :=
  (swiftWindow record).bind fun window =>
    (swiftBudget record).bind fun limit =>
      projectMessages provider (swiftSettings kind record window limit) (strategyName record)
        messages

/-! ### The law -/

/-- An assistant turn that calls tools. -/
def isCalling (turn : Dict) : Bool :=
  getD turn "role" == .str "assistant" &&
    match turn.get? "tool_calls" with
    | some (.list (_ :: _)) => true
    | _ => false

/-- User and assistant turns, each that calls tools with its replies behind it, and the live user
turn at the end. -/
structure WellFormed (groups : List (Exchange Dict)) (live : Dict) : Prop where
  spoken : ∀ group ∈ groups, getD group.head "role" = .str "user" ∨
    getD group.head "role" = .str "assistant"
  answered : ∀ group ∈ groups, (∀ reply ∈ group.replies, isTool reply = true) ∧
    (group.replies ≠ [] ↔ isCalling group.head = true)
  last : groups.getLast? = some ⟨live, []⟩
  asked : getD live "role" = .str "user"

/-- The system turn, a notice and whole groups of the body, with the live turn at the end. -/
def Valid (groups : List (Exchange Dict)) (system : Dict) (out : List Dict) : Prop :=
  ∃ strategy summary omitted dropped kept, kept.Sublist groups ∧
    kept.getLast? = groups.getLast? ∧
    out = system :: contextNotice strategy summary omitted dropped :: flatten kept

/-- The body begins with a turn that calls tools, and it fits beside what `truncate` keeps. -/
def KeepsCaller (estimate : Dict → Nat) (limit : Int) (system : Dict) (body : List Dict) : Prop :=
  ∃ first rest, body = first :: rest ∧ isCalling first = true ∧
    let tail := fitTail estimate isTool rest
      (max 0 (limit - weight estimate [system] - (estimate first + noticeEnvelopeReserve : Nat)))
    let notice := contextNotice "truncate" none true (body.length - (first :: tail).length)
    weight estimate ([system] ++ [notice] ++ first :: tail) ≤ limit

/-- The list outgrows the limit, and there is room for the live turn. -/
def Shortened (estimate : Dict → Nat) (limit : Int) (system live : Dict) (body : List Dict) :
    Prop :=
  limit < weight estimate (system :: body) ∧
    estimate live + noticeEnvelopeReserve ≤ limit - weight estimate [system]

section Bodies

variable {groups : List (Exchange Dict)} {system live : Dict} {estimate : Dict → Nat} {limit : Int}

theorem WellFormed.owned (formed : WellFormed groups live) :
    ∀ group ∈ groups, Owned isTool isCalling group := by
  intro group member
  refine ⟨?_, formed.answered group member⟩
  unfold isTool
  rcases formed.spoken group member with role | role <;> rw [role] <;> decide

theorem WellFormed.live_isTool (formed : WellFormed groups live) : isTool live = false := by
  rw [isTool, formed.asked]
  decide

theorem WellFormed.getLast (formed : WellFormed groups live) :
    (flatten groups).getLast? = some live := by
  obtain ⟨front, shape⟩ := List.getLast?_eq_some_iff.mp formed.last
  rw [shape, flatten, List.flatMap_append, List.flatMap_singleton, List.getLast?_concat]

theorem flatten_ne_nil {rest : List (Exchange Dict)} {last : Dict}
    (ends : (flatten rest).getLast? = some last) : rest ≠ [] := by
  rintro rfl
  cases ends

theorem getLast_of_suffix {rest : List (Exchange Dict)} (suffix : rest <:+ groups)
    (some' : rest ≠ []) : rest.getLast? = groups.getLast? := by
  obtain ⟨front, rfl⟩ := suffix
  rw [List.getLast?_append_of_ne_nil _ some']

/-- A tail that fits is whole groups up to the live turn. -/
theorem fitTail_whole (formed : WellFormed groups live) (budget : Int) {turns : List Dict}
    (suffix : turns <:+ flatten groups) (ends : turns.getLast? = some live) :
    ∃ rest, rest <:+ groups ∧ rest ≠ [] ∧ fitTail estimate isTool turns budget = flatten rest := by
  obtain ⟨rest, whole, same⟩ :=
    TurnWindow.fitTail_groups formed.owned estimate suffix budget
  have last := TurnWindow.fitTail_getLast estimate budget ends formed.live_isTool
  rw [same] at last
  exact ⟨rest, whole, flatten_ne_nil last, same⟩

/-- Whole groups stay whole when they are trimmed. -/
theorem trimmed_valid (formed : WellFormed groups live) (fine : List Dict → Bool) (fuel : Nat)
    {rest : List (Exchange Dict)} (whole : rest <:+ groups) (some' : rest ≠ []) {notice : Dict}
    (composed : ∃ strategy summary omitted dropped,
      notice = contextNotice strategy summary omitted dropped) :
    Valid groups system
      ([system] ++ [notice] ++ TurnWindow.trim isTool fine fuel (flatten rest)) := by
  obtain ⟨strategy, summary, omitted, dropped, rfl⟩ := composed
  obtain ⟨kept, ends, same⟩ := TurnWindow.trim_groups formed.owned fine fuel whole
  have restLast : (flatten rest).getLast? = some live := by
    have shape := getLast_of_suffix whole some'
    rw [formed.last] at shape
    obtain ⟨front, shape⟩ := List.getLast?_eq_some_iff.mp shape
    rw [shape, flatten, List.flatMap_append, List.flatMap_singleton, List.getLast?_concat]
  have last := TurnWindow.trim_getLast fine formed.live_isTool fuel restLast
  rw [same] at last
  refine ⟨strategy, summary, omitted, dropped, kept, ends.sublist,
    getLast_of_suffix ends (flatten_ne_nil last), ?_⟩
  rw [same]
  rfl

theorem compose_whole (formed : WellFormed groups live) (strategy : Strategy) (length : Nat)
    {projection : Python.Ai.Projection} {rest : List (Exchange Dict)} (whole : rest <:+ groups)
    (some' : rest ≠ []) (body : projection.body = flatten rest) :
    Valid groups system (compose estimate limit strategy [system] length projection) := by
  simp only [compose, body]
  exact trimmed_valid formed _ _ whole some' ⟨_, _, _, _, rfl⟩

/-- A first turn without its replies is the beginning of no list of whole groups. -/
theorem caller_not_valid (formed : WellFormed groups live) {first : Dict} {notice : Dict}
    {rest : List (Exchange Dict)} (whole : rest <:+ groups) (calling : isCalling first = true) :
    ¬Valid groups system ([system] ++ [notice] ++ first :: flatten rest) := by
  rintro ⟨_, _, _, _, kept, part, _, same⟩
  have bodies : first :: flatten rest = flatten kept :=
    (List.cons.inj (List.cons.inj same).2).2
  cases kept with
  | nil => cases bodies
  | cons group kept =>
    rw [TurnWindow.flatten_cons, List.cons.injEq] at bodies
    obtain ⟨rfl, replies⟩ := bodies
    obtain ⟨_, orphans, answered⟩ := formed.owned group (part.subset List.mem_cons_self)
    cases reply : group.replies with
    | nil => exact answered.mpr calling reply
    | cons tool others =>
      rw [reply, List.cons_append] at replies
      cases rest with
      | nil => cases replies
      | cons next rest =>
        rw [TurnWindow.flatten_cons, List.cons.injEq] at replies
        have spoken := (formed.owned next (whole.subset List.mem_cons_self)).1
        rw [replies.1, orphans tool (by rw [reply]; exact List.mem_cons_self)] at spoken
        cases spoken

/-- The first turn, and what fits of the rest of the body. -/
theorem compose_caller_iff {group : Exchange Dict} {more : List (Exchange Dict)}
    (formed : WellFormed (group :: more) live) (strategy : Strategy) (length : Nat) (budget : Int)
    {turns : List Dict} (body : flatten (group :: more) = group.head :: turns)
    (some' : turns ≠ []) {summary : Option String} {omitted : Bool} :
    let tail := fitTail estimate isTool turns budget
    Valid (group :: more) system
        (compose estimate limit strategy [system] length ⟨group.head :: tail, summary, omitted⟩) ↔
      ¬(isCalling group.head = true ∧
        weight estimate ([system] ++ [contextNotice strategy.name summary omitted
          (length - (group.head :: tail).length)] ++ group.head :: tail) ≤ limit) := by
  intro tail
  have inside : turns <:+ flatten (group :: more) := body ▸ List.suffix_cons _ _
  have ends : turns.getLast? = some live := by
    have last := formed.getLast
    rw [body] at last
    cases turns with
    | nil => exact absurd rfl some'
    | cons turn turns => rwa [List.getLast?_cons_cons] at last
  obtain ⟨rest, whole, nonempty, same⟩ := @fitTail_whole _ _ estimate formed budget _ inside ends
  have short : rest <:+ more := by
    rcases List.suffix_cons_iff.mp whole with rfl | short
    · have longer := (@TurnWindow.fitTail_suffix _ isTool estimate turns budget).length_le
      rw [same, body, List.length_cons] at longer
      omega
    · exact short
  have tailIs : tail = flatten rest := same
  rw [tailIs]
  simp only [compose]
  have count : 1 < (group.head :: flatten rest).length := by
    cases rest with
    | nil => exact absurd rfl nonempty
    | cons next rest => simp [TurnWindow.flatten_cons]
  rw [List.length_cons, TurnWindow.trim]
  by_cases fits : (weight estimate ([system] ++ [contextNotice strategy.name summary omitted
      (length - (group.head :: flatten rest).length)] ++ group.head :: flatten rest) : Int) ≤ limit
  · rw [List.length_cons] at fits
    have fine := decide_eq_true fits
    rw [if_neg fun stops => absurd (fine.symm.trans stops.2) (by decide)]
    simp only [fits, and_true]
    constructor
    · exact fun valid calling => caller_not_valid formed whole calling valid
    · intro plain
      have noReplies : group.replies = [] := by
        by_contra replies
        exact plain ((formed.owned group List.mem_cons_self).2.2.mp replies)
      refine ⟨strategy.name, summary, omitted, length - ((flatten rest).length + 1 : Nat),
        group :: rest, short.sublist.cons_cons _, ?_, ?_⟩
      · rw [← getLast_of_suffix whole nonempty]
        cases rest with
        | nil => exact absurd rfl nonempty
        | cons next rest => rw [List.getLast?_cons_cons]
      · rw [TurnWindow.flatten_cons, noReplies]
        rfl
  · rw [List.length_cons] at fits
    rw [if_pos ⟨count, decide_eq_false fits⟩]
    simp only [fits, and_false, not_false_eq_true, iff_true]
    rw [List.tail_cons]
    have cut : TurnWindow.dropOrphans isTool (flatten rest) = flatten rest := by
      cases rest with
      | nil => rfl
      | cons next rest =>
        have spoken := (formed.owned next (whole.subset List.mem_cons_self)).1
        rw [TurnWindow.flatten_cons, TurnWindow.dropOrphans,
          List.dropWhile_cons_of_neg (by simp [spoken])]
    rw [cut]
    exact trimmed_valid formed _ _ whole nonempty ⟨_, _, _, _, rfl⟩

theorem recentSplit_whole (formed : WellFormed groups live) {recent : Nat} (positive : 0 < recent)
    (budget : Int) : ∃ rest, rest <:+ groups ∧ rest ≠ [] ∧
      fitTail estimate isTool (recentSplit (flatten groups) recent).2 budget = flatten rest := by
  apply fitTail_whole formed budget
  · exact List.drop_suffix _ _
  · exact TurnWindow.recentSplit_getLast positive formed.getLast

end Bodies

/-! ### Rust and Swift -/

section Seam

variable {groups : List (Exchange Dict)} {system live : Dict} (provider : Provider)

theorem compact_whole (formed : WellFormed groups live) {recent : Nat} (positive : 0 < recent)
    (budget : Int) : ∃ rest, rest <:+ groups ∧ rest ≠ [] ∧
      (provider.compact (flatten groups) recent budget).body = flatten rest := by
  unfold Provider.compact
  cases cut : recentSplit (flatten groups) recent with
  | mk overflow kept =>
    have whole := @recentSplit_whole _ _ provider.estimate formed recent positive
    rw [cut] at whole
    simp only
    split
    · exact fitTail_whole formed budget (List.suffix_refl _) formed.getLast
    · exact whole _

theorem truncate_valid_iff (formed : WellFormed groups live) (limit : Int) :
    Valid groups system (compose provider.estimate limit .truncate [system] (flatten groups).length
        (provider.truncate (flatten groups) (limit - weight provider.estimate [system]))) ↔
      ¬KeepsCaller provider.estimate limit system (flatten groups) := by
  cases groups with
  | nil => cases formed.last
  | cons group more =>
    cases shape : group.replies ++ flatten more with
    | nil =>
      have body : flatten (group :: more) = [group.head] := by
        rw [TurnWindow.flatten_cons, shape]
      have last := formed.getLast
      rw [body, List.getLast?_singleton, Option.some.injEq] at last
      have plain : isCalling group.head = false := by
        rw [isCalling, last, formed.asked]
        rfl
      obtain ⟨rest, whole, some', same⟩ := @fitTail_whole _ _ provider.estimate formed
        (limit - weight provider.estimate [system]) _ (List.suffix_refl _) formed.getLast
      constructor
      · rintro _ ⟨first, others, first_eq, calling, _⟩
        rw [body] at first_eq
        cases first_eq
        rw [plain] at calling
        cases calling
      · intro _
        apply compose_whole formed .truncate _ whole some'
        rw [body] at same ⊢
        exact same
    | cons second rest =>
      have body : flatten (group :: more) = group.head :: second :: rest := by
        rw [TurnWindow.flatten_cons, shape]
      have law := @compose_caller_iff system live provider.estimate limit group more formed
        .truncate (flatten (group :: more)).length (max 0 (limit -
          weight provider.estimate [system] -
            (provider.estimate group.head + noticeEnvelopeReserve : Nat)))
        _ body (List.cons_ne_nil _ _) none true
      rw [body] at law ⊢
      refine law.trans (not_congr ⟨fun fits => ⟨_, _, rfl, fits⟩, ?_⟩)
      rintro ⟨first, others, first_eq, fits⟩
      cases first_eq
      exact fits

theorem project_valid_iff (formed : WellFormed groups live) (strategy : Strategy) {recent : Nat}
    (positive : 0 < recent) (limit : Int) :
    Valid groups system (compose provider.estimate limit strategy [system] (flatten groups).length
        (provider.project strategy (flatten groups) recent
          (limit - weight provider.estimate [system]))) ↔
      ¬(strategy = .truncate ∧ KeepsCaller provider.estimate limit system (flatten groups)) := by
  cases strategy with
  | truncate =>
    rw [Provider.project, truncate_valid_iff provider formed]
    simp
  | compact =>
    obtain ⟨rest, whole, some', body⟩ := compact_whole provider formed positive
      (limit - weight provider.estimate [system])
    simp only [reduceCtorEq, false_and, not_false_eq_true, iff_true]
    exact compose_whole formed .compact _ whole some' body

/-- What is answered to a list that outgrows the limit. -/
def Keeps (groups : List (Exchange Dict)) (system : Dict) (estimate : Dict → Nat)
    (limit : Option Int) (answer : Option Projected) : Prop :=
  ∀ bound, limit = some bound → bound < weight estimate (system :: flatten groups) →
    ∀ out, answer = some (.messages out) → Valid groups system out

/-- `truncate` shortens the list and keeps a first turn that calls tools. -/
def Stuck (groups : List (Exchange Dict)) (system live : Dict) (estimate : Dict → Nat)
    (limit : Option Int) (chosen : Option Strategy) : Prop :=
  ∃ bound, limit = some bound ∧ chosen = some .truncate ∧
    Shortened estimate bound system live (flatten groups) ∧
    KeepsCaller estimate bound system (flatten groups)

/-- The law for a seam that answers a list it shortens with what its strategy leaves. -/
theorem keeps_iff (formed : WellFormed groups live) {limit : Option Int} {answer : Option Projected}
    {chosen : Option Strategy} {recent : Nat} (positive : 0 < recent)
    (shortens : ∀ bound strategy, limit = some bound → chosen = some strategy →
      Shortened provider.estimate bound system live (flatten groups) →
      answer = some (.messages (compose provider.estimate bound strategy [system]
        (flatten groups).length (provider.project strategy (flatten groups) recent
          (bound - weight provider.estimate [system])))))
    (only : ∀ bound out, limit = some bound →
      bound < weight provider.estimate (system :: flatten groups) →
      answer = some (.messages out) →
        chosen ≠ none ∧ Shortened provider.estimate bound system live (flatten groups)) :
    Keeps groups system provider.estimate limit answer ↔
      ¬Stuck groups system live provider.estimate limit chosen := by
  constructor
  · rintro keeps ⟨bound, limited, named, shortened, caller⟩
    have valid := keeps bound limited shortened.1 _
      (shortens bound .truncate limited named shortened)
    exact (project_valid_iff provider formed .truncate positive bound).mp valid ⟨rfl, caller⟩
  · intro free bound limited outgrows out answered
    obtain ⟨named, shortened⟩ := only bound out limited outgrows answered
    obtain ⟨strategy, named⟩ := Option.ne_none_iff_exists'.mp named
    rw [shortens bound strategy limited named shortened] at answered
    cases answered
    apply (project_valid_iff provider formed strategy positive bound).mpr
    rintro ⟨rfl, caller⟩
    exact free ⟨bound, limited, named, shortened, caller⟩

theorem projectMessages_answer (formed : WellFormed groups live) (settings : Settings)
    (shown : String)
    (outgrows : settings.limit < weight provider.estimate (system :: flatten groups)) :
    projectMessages provider settings shown (system :: flatten groups) =
      if settings.limit - weight provider.estimate [system] <
          provider.estimate live + noticeEnvelopeReserve then
        some (.refusal (tooSmall ⟨settings.kind, fun _ => none⟩
          (weight provider.estimate [system]) settings.window))
      else
        match strategyOf settings.strategy with
        | none => some (.refusal (unknownStrategy settings shown))
        | some strategy => settings.recent.map fun recent => .messages
            (compose provider.estimate settings.limit strategy [system] (flatten groups).length
              (provider.project strategy (flatten groups) recent
                (settings.limit - weight provider.estimate [system]))) := by
  have taken : (system :: flatten groups).take 1 = [system] := rfl
  have dropped : (system :: flatten groups).drop 1 = flatten groups := rfl
  unfold projectMessages
  rw [if_neg (by omega)]
  simp only [taken, dropped, formed.getLast]

/-- The strategy that is taken, where its arguments can be had. -/
def Settings.chosen (settings : Settings) : Option Strategy :=
  settings.recent.bind fun _ => strategyOf settings.strategy

theorem projectMessages_keeps_iff (formed : WellFormed groups live) {limit : Option Int}
    {answer : Option Projected} (settings : Settings) (shown : String)
    (positive : 0 < settings.recent.getD 1)
    (answers : ∀ bound, limit = some bound → settings.limit = bound ∧
      answer = projectMessages provider settings shown (system :: flatten groups)) :
    Keeps groups system provider.estimate limit answer ↔
      ¬Stuck groups system live provider.estimate limit settings.chosen := by
  apply keeps_iff provider formed positive
  · intro bound strategy limited named shortened
    obtain ⟨rfl, same⟩ := answers bound limited
    obtain ⟨recent, read, known⟩ := Option.bind_eq_some_iff.mp named
    have room := shortened.2
    rw [same, projectMessages_answer provider formed settings shown shortened.1,
      if_neg (by omega), known, read]
    rfl
  · intro bound out limited outgrows answered
    obtain ⟨rfl, same⟩ := answers bound limited
    rw [same, projectMessages_answer provider formed settings shown outgrows] at answered
    split at answered
    case isTrue => cases answered
    case isFalse room =>
      split at answered
      case h_1 => cases answered
      case h_2 strategy known =>
        obtain ⟨recent, read, _⟩ := Option.map_eq_some_iff.mp answered
        refine ⟨?_, outgrows, by omega⟩
        rw [Settings.chosen, read, Option.bind_some, known]
        exact Option.some_ne_none _

end Seam

/-! ### The three runtimes -/

section Runtimes

variable {groups : List (Exchange Dict)} {system live : Dict}

/-- `_context_strategy` of a list whose turns `json.dumps` can write. -/
def pythonChosen (record : Dict) (messages : List Dict) : Option Strategy :=
  if messages.all fun turn => Python.Json.dumpableMembers turn.entries then
    (getStrategy (Python.Ai.strategyName record)).toOption.join
  else none

variable (runtime : Runtime) (numerals : Numerals)

def pythonProvider (backend : Backend) : Provider where
  estimate := estimateOne runtime
  summarize := makeSummarizer runtime backend.chat
  trim := Python.Ai.strip

theorem toOption_eq_some {Failure Result : Type*} {result : Except Failure Result}
    {value : Result} : result.toOption = some value ↔ result = .ok value := by
  cases result <;> simp [Except.toOption]

theorem python_project (backend : Backend) (record : Dict) (strategy : Strategy) (budget : Int)
    (body : List Dict) :
    Python.Ai.strategyProjection runtime numerals backend record strategy budget body =
      (pythonProvider runtime backend).project strategy body (recentN runtime numerals record)
        budget := by
  cases strategy with
  | compact => rfl
  | truncate =>
    cases body with
    | nil => rfl
    | cons first rest => cases rest <;> rfl

theorem python_keeps_iff (formed : WellFormed groups live) (backend : Backend) (record : Dict) :
    Keeps groups system (estimateOne runtime) (Python.Ai.budget runtime numerals record).toOption
        (projectContext runtime numerals backend record (system :: flatten groups)).toOption ↔
      ¬Stuck groups system live (estimateOne runtime)
        (Python.Ai.budget runtime numerals record).toOption
        (pythonChosen record (system :: flatten groups)) := by
  obtain ⟨history, body⟩ := List.getLast?_eq_some_iff.mp formed.getLast
  have whole : system :: flatten groups = [system] ++ history ++ [live] := by
    rw [body]
    rfl
  apply keeps_iff (pythonProvider runtime backend) formed
    (Python.Ai.recentN_pos runtime numerals record)
  · intro bound strategy limited named shortened
    have allowed := toOption_eq_some.mp limited
    unfold pythonChosen at named
    split at named
    case isFalse => cases named
    case isTrue written =>
      obtain ⟨outgrows, room⟩ := shortened
      have chosen : getStrategy (Python.Ai.strategyName record) = .ok (some strategy) :=
        toOption_eq_some.mp (Option.join_eq_some_iff.mp named)
      rw [whole] at outgrows written ⊢
      have shortens : Shortens runtime numerals record system live history bound strategy := by
        refine ⟨allowed, chosen, List.all_eq_true.mp written, outgrows, ?_⟩
        exact room
      rw [Python.Ai.projectContext_shortens shortens, body]
      simp only [Python.Ai.insertedNotice, python_project, Python.Ai.noticeFor]
      rfl
  · intro bound out limited outgrows answered
    have allowed := toOption_eq_some.mp limited
    have returned := toOption_eq_some.mp answered
    have whole_outgrows := outgrows
    rw [whole] at outgrows returned ⊢
    rcases Python.Ai.projectContext_messages allowed returned with
      ⟨rfl, fits⟩ | ⟨strategy, shortens⟩
    · exact absurd fits (Int.not_le.mpr outgrows)
    · refine ⟨?_, whole_outgrows, shortens.reserved⟩
      have written := List.all_eq_true.mpr shortens.written
      rw [pythonChosen, if_pos written, shortens.chosen]
      exact Option.some_ne_none _

/-- Without a budget there is no answer. -/
theorem keeps_none {estimate : Dict → Nat} {answer : Option Projected} {chosen : Option Strategy} :
    Keeps groups system estimate none answer ↔ ¬Stuck groups system live estimate none chosen := by
  constructor
  · rintro _ ⟨_, limited, _⟩
    cases limited
  · intro _ _ limited
    cases limited

theorem clamped_pos (asked : Int) :
    0 < (max 1 (min asked 50)).toNat ∧ 0 < (min (max asked 1) 50).toNat := by omega

theorem rust_keeps_iff (formed : WellFormed groups live) (provider : Provider)
    (debug : String → String) (kind : String) (record : Dict) :
    Keeps groups system provider.estimate (rustBudget record)
        (rustProjectContext provider debug kind record (system :: flatten groups)) ↔
      ¬Stuck groups system live provider.estimate (rustBudget record)
        (strategyOf (strategyName record)) := by
  cases limit : rustBudget record with
  | none => exact keeps_none
  | some bound =>
    apply projectMessages_keeps_iff provider formed (rustSettings kind record bound)
      (debug (strategyName record)) (clamped_pos _).1
    intro other same
    cases same
    exact ⟨rfl, by rw [rustProjectContext, limit]; rfl⟩

theorem swift_keeps_iff (formed : WellFormed groups live) (provider : Provider) (kind : String)
    (record : Dict) :
    Keeps groups system provider.estimate (swiftBudget record)
        (swiftProjectContext provider kind record (system :: flatten groups)) ↔
      ¬Stuck groups system live provider.estimate (swiftBudget record)
        ((swiftRecentN record).bind fun _ => strategyOf (strategyName record)) := by
  cases limit : swiftBudget record with
  | none => exact keeps_none
  | some bound =>
    have read := limit
    rw [swiftBudget] at read
    obtain ⟨window, found, _⟩ := Option.bind_eq_some_iff.mp read
    have positive : 0 < (swiftRecentN record).getD 1 := by
      unfold swiftRecentN
      cases swiftInt (getD record "recent_n") with
      | none => exact Nat.one_pos
      | some asked =>
        rw [Option.map_some, Option.getD_some]
        exact (clamped_pos _).2
    apply projectMessages_keeps_iff provider formed (swiftSettings kind record window bound)
      (strategyName record) positive
    intro other same
    cases same
    exact ⟨rfl, by rw [swiftProjectContext, found, limit]; rfl⟩

/-- In all three runtimes a projection keeps the conversation valid, unless `truncate` keeps a first
turn that calls tools. -/
theorem projection_keeps_iff (formed : WellFormed groups live) (backend : Backend)
    (rust swift : Provider) (debug : String → String) (kind : String) (record : Dict) :
    (Keeps groups system (estimateOne runtime) (Python.Ai.budget runtime numerals record).toOption
        (projectContext runtime numerals backend record (system :: flatten groups)).toOption ∧
      Keeps groups system rust.estimate (rustBudget record)
        (rustProjectContext rust debug kind record (system :: flatten groups)) ∧
      Keeps groups system swift.estimate (swiftBudget record)
        (swiftProjectContext swift kind record (system :: flatten groups))) ↔
      ¬Stuck groups system live (estimateOne runtime)
          (Python.Ai.budget runtime numerals record).toOption
          (pythonChosen record (system :: flatten groups)) ∧
        ¬Stuck groups system live rust.estimate (rustBudget record)
          (strategyOf (strategyName record)) ∧
        ¬Stuck groups system live swift.estimate (swiftBudget record)
          ((swiftRecentN record).bind fun _ => strategyOf (strategyName record)) := by
  rw [python_keeps_iff runtime numerals formed, rust_keeps_iff formed, swift_keeps_iff formed]

end Runtimes

/-! ### A conversation that begins with a call -/

def quiet : Backend where
  name := "backend"
  chat := fun _ => none

/-- The estimates of Python, where they agree with those of the others. -/
def asciiProvider : Provider where
  estimate := estimateOne plainRuntime
  summarize := fun _ => none
  trim := id

/-- A budget of 7168 tokens. -/
def shortRecord : Dict where
  entries := [("context_window", .int 8192), ("context_strategy", .str "truncate")]
  nodup := (by decide : ["context_window", "context_strategy"].Nodup)

def instructions : Dict :=
  message "system" (.str (letters 1))

def question (length : Nat) : Exchange Dict :=
  ⟨message "user" (.str (letters length)), []⟩

def call : Exchange Dict where
  head :=
    { entries := [("role", .str "assistant"), ("content", .str ""),
        ("tool_calls", .list [.dict [("id", .str "c1")]])]
      nodup := (by decide : ["role", "content", "tool_calls"].Nodup) }
  replies := [message "tool" (.str "done")]

theorem question_not_calling (length : Nat) : isCalling (question length).head = false := rfl

theorem question_answered (length : Nat) :
    (∀ reply ∈ (question length).replies, isTool reply = true) ∧
      ((question length).replies ≠ [] ↔ isCalling (question length).head = true) := by
  rw [question_not_calling]
  exact ⟨fun _ member => absurd member List.not_mem_nil, by simp [question]⟩

theorem questions_formed :
    WellFormed [question 1, question 40000, question 2] (question 2).head where
  spoken := by
    intro group member
    simp only [List.mem_cons, List.not_mem_nil, or_false] at member
    rcases member with rfl | rfl | rfl <;> exact .inl rfl
  answered := by
    intro group member
    simp only [List.mem_cons, List.not_mem_nil, or_false] at member
    rcases member with rfl | rfl | rfl <;> exact question_answered _
  last := rfl
  asked := rfl

theorem questions_keep :
    Keeps [question 1, question 40000, question 2] instructions (estimateOne plainRuntime)
        (Python.Ai.budget plainRuntime asciiNumerals shortRecord).toOption
        (projectContext plainRuntime asciiNumerals quiet shortRecord
          (instructions :: flatten [question 1, question 40000, question 2])).toOption ∧
      Keeps [question 1, question 40000, question 2] instructions asciiProvider.estimate
        (rustBudget shortRecord) (rustProjectContext asciiProvider id "kind" shortRecord
          (instructions :: flatten [question 1, question 40000, question 2])) ∧
      Keeps [question 1, question 40000, question 2] instructions asciiProvider.estimate
        (swiftBudget shortRecord) (swiftProjectContext asciiProvider "kind" shortRecord
          (instructions :: flatten [question 1, question 40000, question 2])) := by
  have plain : ∀ estimate limit chosen, ¬Stuck [question 1, question 40000, question 2]
      instructions (question 2).head estimate limit chosen := by
    rintro _ _ _ ⟨_, _, _, _, first, rest, body, calling, _⟩
    rw [flatten, List.flatMap_cons, List.cons_append, List.cons.injEq] at body
    rw [← body.1, question_not_calling] at calling
    cases calling
  exact (projection_keeps_iff plainRuntime asciiNumerals questions_formed quiet asciiProvider
    asciiProvider id "kind" shortRecord).mpr ⟨plain _ _ _, plain _ _ _, plain _ _ _⟩

theorem call_formed : WellFormed [call, question 40000, question 2] (question 2).head where
  spoken := by
    intro group member
    simp only [List.mem_cons, List.not_mem_nil, or_false] at member
    rcases member with rfl | rfl | rfl
    · exact .inr rfl
    · exact .inl rfl
    · exact .inl rfl
  answered := by
    intro group member
    simp only [List.mem_cons, List.not_mem_nil, or_false] at member
    rcases member with rfl | rfl | rfl
    · exact ⟨by decide, by decide⟩
    · exact question_answered _
    · exact question_answered _
  last := rfl
  asked := rfl

/-- Before a turn that does not fit the tail is the last turn alone. -/
theorem fitTail_last {cost : Dict → Nat} {front : List Dict} {long last : Dict} {limit : Int}
    (large : limit < cost last + cost long) (spoken : isTool last = false) :
    fitTail cost isTool (front ++ [long, last]) limit = [last] := by
  have ends : (front ++ [long, last]).getLast? = some last := by
    rw [show front ++ [long, last] = front ++ [long] ++ [last] by simp, List.getLast?_concat]
  have older : (front ++ [long, last]).dropLast.reverse = long :: front.reverse := by
    rw [show front ++ [long, last] = front ++ [long] ++ [last] by simp, List.dropLast_concat,
      List.reverse_append]
    rfl
  unfold TurnWindow.fitTail
  rw [ends]
  simp only [older]
  rw [TurnWindow.gather, if_pos (by exact_mod_cast large), TurnWindow.dropOrphans,
    List.dropWhile_cons_of_neg (by simp [spoken])]

theorem escape_length_le (char : Char) : (Python.Json.escape char).length ≤ 12 := by
  unfold Python.Json.escape
  split_ifs <;> simp [Python.Json.unicodeEscape]

theorem quoted_length_le (text : String) :
    (Python.Json.quoted text).length ≤ 2 + 12 * text.utf8ByteSize := by
  have escaped : ∀ chars : List Char,
      (chars.flatMap Python.Json.escape).length ≤ 12 * (String.ofList chars).utf8ByteSize := by
    intro chars
    induction chars with
    | nil => exact Nat.le_refl 0
    | cons char rest ih =>
      have first := escape_length_le char
      have positive := char.utf8Size_pos
      rw [← List.singleton_append, String.ofList_append, String.utf8ByteSize_append,
        List.flatMap_append, List.length_append, List.flatMap_singleton]
      have single : (String.ofList [char]).utf8ByteSize = char.utf8Size :=
        String.utf8ByteSize_singleton
      omega
  have body := escaped text.toList
  rw [String.ofList_toList] at body
  simp only [Python.Json.quoted, List.length_append, List.length_singleton]
  omega

theorem message_estimate_le {text : String} (short : text.utf8ByteSize ≤ 900) :
    estimateOne plainRuntime (message "user" (.str text)) ≤ 3000 := by
  have role : (Python.Json.quoted "user").length = 6 := rfl
  have body := quoted_length_le text
  unfold estimateOne
  rw [Python.Ai.dumps_message, role, Python.Json.dumps_str]
  simp only [Python.Ai.charsPerToken]
  omega

/-- The notice of a truncation that drops two turns. -/
theorem notice_estimate_le :
    estimateOne plainRuntime (contextNotice "truncate" none true 2) ≤ 3000 := by
  apply message_estimate_le
  decide +kernel

theorem call_estimate_le : estimateOne plainRuntime call.head ≤ 100 := by decide

theorem weight_four (cost : Dict → Nat) (system notice first last : Dict) :
    weight cost ([system] ++ [notice] ++ [first, last]) =
      cost system + cost notice + (cost first + cost last) := by
  simp [weight]
  omega

theorem call_stuck : Stuck [call, question 40000, question 2] instructions (question 2).head
    (estimateOne plainRuntime) (Python.Ai.budget plainRuntime asciiNumerals shortRecord).toOption
    (pythonChosen shortRecord (instructions ::
      flatten [call, question 40000, question 2])) := by
  have system : estimateOne plainRuntime instructions = 9 := Python.Ai.estimate_system
  have long : estimateOne plainRuntime (question 40000).head = 10008 :=
    Python.Ai.estimate_user 40000
  have live : estimateOne plainRuntime (question 2).head = 9 := Python.Ai.estimate_user 2
  have first := call_estimate_le
  have notice := notice_estimate_le
  have block : weight (estimateOne plainRuntime) [instructions] = 9 := by
    rw [TurnWindow.weight_cons, system]
    rfl
  have body : flatten [call, question 40000, question 2] = call.head ::
      ([message "tool" (.str "done")] ++ [(question 40000).head, (question 2).head]) := rfl
  refine ⟨7168, by rfl, ?_, ⟨?_, ?_⟩, call.head, _, body, by rfl, ?_⟩
  · have written : ∀ turn ∈ instructions :: flatten [call, question 40000, question 2],
        Python.Json.dumpableMembers turn.entries = true := by
      intro turn member
      simp only [body, List.mem_cons, List.mem_append, List.not_mem_nil, or_false] at member
      rcases member with rfl | rfl | rfl | rfl | rfl
      · exact Python.Ai.dumpable_message _ _
      · rfl
      · exact Python.Ai.dumpable_message _ _
      · exact Python.Ai.dumpable_message _ _
      · exact Python.Ai.dumpable_message _ _
    rw [pythonChosen, if_pos (List.all_eq_true.mpr written)]
    rfl
  · rw [body]
    simp only [TurnWindow.weight_cons, TurnWindow.weight_append, system, long, live]
    omega
  · rw [block, live]
    decide
  · have tail := @fitTail_last (estimateOne plainRuntime) [message "tool" (.str "done")]
      (question 40000).head (question 2).head (max 0 (7168 - (9 : Nat) -
        (estimateOne plainRuntime call.head + noticeEnvelopeReserve : Nat)))
      (by rw [long, live]; omega) rfl
    have dropped : ((flatten [call, question 40000, question 2]).length : Int) -
        ([call.head, (question 2).head] : List Dict).length = 2 := rfl
    rw [block, tail]
    simp only [dropped]
    rw [weight_four, system, live]
    omega

/-- `truncate` drops the reply of the call that it keeps. -/
theorem call_not_kept : ¬(
    Keeps [call, question 40000, question 2] instructions (estimateOne plainRuntime)
        (Python.Ai.budget plainRuntime asciiNumerals shortRecord).toOption
        (projectContext plainRuntime asciiNumerals quiet shortRecord
          (instructions :: flatten [call, question 40000, question 2])).toOption ∧
      Keeps [call, question 40000, question 2] instructions asciiProvider.estimate
        (rustBudget shortRecord) (rustProjectContext asciiProvider id "kind" shortRecord
          (instructions :: flatten [call, question 40000, question 2])) ∧
      Keeps [call, question 40000, question 2] instructions asciiProvider.estimate
        (swiftBudget shortRecord) (swiftProjectContext asciiProvider "kind" shortRecord
          (instructions :: flatten [call, question 40000, question 2]))) := by
  rintro ⟨keeps, _⟩
  exact (python_keeps_iff plainRuntime asciiNumerals call_formed quiet shortRecord).mp keeps
    call_stuck

/-! ### The cut itself -/

/-- `fit_tail` of `strategies.rs` and `fitTail` of `Strategies.swift`. The estimates are parts of
texts in memory, so no sum of them leaves 64 bits. -/
def Provider.fitTail (provider : Provider) (turns : List Dict) (budget : Int) : List Dict :=
  TurnWindow.fitTail provider.estimate isTool turns budget

theorem tails_fit (runtime : Runtime) (rust swift : Provider) :
    TailFit (estimateOne runtime) isTool (Python.Ai.fitTail runtime) ∧
      TailFit rust.estimate isTool rust.fitTail ∧
      TailFit swift.estimate isTool swift.fitTail :=
  ⟨TurnWindow.fitTail_tailFit _ _, TurnWindow.fitTail_tailFit _ _,
    TurnWindow.fitTail_tailFit _ _⟩

end Fantastic.Parity.Projection

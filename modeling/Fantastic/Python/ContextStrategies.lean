import Fantastic.Python.ContextBudget

/-!
# Context strategies

`ai_core/strategies`: how a conversation body that outgrew its budget is shortened. A
strategy returns the turns it keeps together with what the notice should say about the
rest. `Chat` is the backend provider: the chunks one completion streams, or nothing when
the stream raises.
-/

namespace Fantastic.Python.Ai

abbrev Chat := List Dict → Option (List Value)

/-- A message with a role and a content, in that order. -/
def message (role : String) (content : Value) : Dict where
  entries := [("role", .str role), ("content", content)]
  nodup := by simp

/-! ### Shared helpers -/

def noticeEnvelopeReserve : Nat := 80

def stubSummary : String := "[Earlier conversation omitted — summary unavailable]"

def isTool (turn : Dict) : Bool :=
  getD turn "role" == .str "tool"

def dropOrphanTools (turns : List Dict) : List Dict :=
  TurnWindow.dropOrphans isTool turns

def fitTail (runtime : Runtime) (turns : List Dict) (limit : Int) : List Dict :=
  TurnWindow.fitTail (estimateOne runtime) isTool turns limit

def recentSplit (body : List Dict) (recent : Nat) : List Dict × List Dict :=
  TurnWindow.recentSplit isTool body recent

/-- What a strategy is told: the budget of the body, how many turns to keep, and the
summarizer, which may fail. -/
structure ProjectionCtx where
  budget : Int
  recentN : Nat
  summarize : Option (List Dict → Option String)

structure Projection where
  body : List Dict
  summary : Option String
  omittedMarker : Bool

def safeSummary (ctx : ProjectionCtx) (overflow : List Dict) : String :=
  match ctx.summarize with
  | none => stubSummary
  | some summarize =>
    match summarize overflow with
    | none => stubSummary
    | some text => if strip text = "" then stubSummary else strip text

/-! ### The strategies -/

def compact (runtime : Runtime) (body : List Dict) (ctx : ProjectionCtx) : Projection :=
  let (overflow, recent) := recentSplit body ctx.recentN
  if overflow.isEmpty then ⟨fitTail runtime body ctx.budget, none, false⟩
  else
    let summary := safeSummary ctx overflow
    let summaryCost := estimateOne runtime (message "user" (.str summary))
    let avail := max 0 (ctx.budget - noticeEnvelopeReserve - summaryCost)
    ⟨fitTail runtime recent avail, some summary, false⟩

/-- The first turn frames the task and stays, whatever it costs. -/
def truncate (runtime : Runtime) (body : List Dict) (ctx : ProjectionCtx) : Projection :=
  match body with
  | first :: second :: rest =>
    let headCost := estimateOne runtime first + noticeEnvelopeReserve
    let tail := fitTail runtime (second :: rest) (max 0 (ctx.budget - headCost))
    ⟨first :: tail, none, true⟩
  | _ => ⟨fitTail runtime body ctx.budget, none, false⟩

inductive Strategy where
  | compact
  | truncate
  deriving DecidableEq

namespace Strategy

def name : Strategy → String
  | .compact => "compact"
  | .truncate => "truncate"

def project (runtime : Runtime) : Strategy → List Dict → ProjectionCtx → Projection
  | .compact => Ai.compact runtime
  | .truncate => Ai.truncate runtime

end Strategy

def defaultStrategy : String := "compact"

/-- `_STRATEGIES.get(name)`: an unhashable name raises, an unknown one is `None`. -/
def getStrategy (name : Value) : Except PyError (Option Strategy) := do
  match ← hashKey name with
  | .str "compact" => .ok (some .compact)
  | .str "truncate" => .ok (some .truncate)
  | _ => .ok none

/-- `str(strategy_names())`. -/
def strategyNames : String := "['compact', 'truncate']"

/-! ### Every strategy keeps the live turn -/

section Live

variable {runtime : Runtime} {body : List Dict} {live : Dict} {ctx : ProjectionCtx}

theorem compact_getLast (recent : 0 < ctx.recentN) (ends : body.getLast? = some live)
    (spoken : isTool live = false) :
    (compact runtime body ctx).body.getLast? = some live := by
  unfold compact
  split
  rename_i overflow kept split
  have keptEnds : kept.getLast? = some live := by
    have second := @TurnWindow.recentSplit_getLast _ isTool _ _ _ recent ends
    rw [← recentSplit, split] at second
    exact second
  split
  · exact TurnWindow.fitTail_getLast _ _ ends spoken
  · exact TurnWindow.fitTail_getLast _ _ keptEnds spoken

theorem truncate_getLast (ends : body.getLast? = some live) (spoken : isTool live = false) :
    (truncate runtime body ctx).body.getLast? = some live := by
  unfold truncate
  split
  · rename_i first second rest
    have tailEnds : (second :: rest).getLast? = some live := by
      rw [List.getLast?_cons_cons] at ends
      exact ends
    have tail := TurnWindow.fitTail_getLast (estimateOne runtime)
      (max 0 (ctx.budget - (estimateOne runtime first + noticeEnvelopeReserve : Nat)))
      tailEnds spoken
    change (first :: fitTail runtime _ _).getLast? = some live
    rw [List.getLast?_cons, fitTail, tail]
    rfl
  · exact TurnWindow.fitTail_getLast _ _ ends spoken

theorem project_getLast (strategy : Strategy) (recent : 0 < ctx.recentN)
    (ends : body.getLast? = some live) (spoken : isTool live = false) :
    (strategy.project runtime body ctx).body.getLast? = some live := by
  cases strategy with
  | compact => exact compact_getLast recent ends spoken
  | truncate => exact truncate_getLast ends spoken

end Live

end Fantastic.Python.Ai

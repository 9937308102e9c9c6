import Fantastic.Python.ContextStrategies

/-!
# Projecting a conversation into its window

`_project_context` of `ai_core/core.py`: the messages of a turn as they are when they fit
the budget, a refusal when the live turn cannot fit, and otherwise the shortened body
behind one notice. The notice is composed after the strategy has fitted the body, and the
final loop can drop every turn but the live one.

Of the seam's arguments the model keeps the record, the backend's name, the provider and
the messages. The events sent to the caller and the two tables that `context_status`
reads are left out.
-/

namespace Fantastic.Python.Ai

/-! ### The summarizer -/

/-- An item as an f-string writes it. -/
def shown (runtime : Runtime) : Value → String
  | .str text => text
  | value => runtime.str value

def renderTurn (runtime : Runtime) (turn : Dict) : String :=
  shown runtime ((turn.get? "role").getD (.str "?")) ++ ": " ++
    shown runtime ((turn.get? "content").getD (.str ""))

def summarizeInstruction : String :=
  "Summarize the conversation excerpt below concisely, PRESERVING " ++
  "names, decisions, facts, preferences, and unresolved tasks. " ++
  "Output ONLY the summary."

def textOf? : Value → Option String
  | .str text => some text
  | _ => none

def makeSummarizer (runtime : Runtime) (chat : Chat) (turns : List Dict) : Option String :=
  let rendered := "\n".intercalate (turns.map (renderTurn runtime))
  let excerpt := String.ofList (rendered.toList.take 20000)
  let prompt := [message "system" (.str summarizeInstruction), message "user" (.str excerpt)]
  (chat prompt).map fun chunks => String.join (chunks.filterMap textOf?)

/-! ### The notice -/

def noticeHead (strategy : String) (droppedN : Int) : String :=
  "[context-notice] Your conversation exceeded the window and was compacted " ++
  "(strategy=" ++ strategy ++ ", " ++ toString droppedN ++
  " earlier turn(s) dropped from THIS view)."

def noticeArtifact : Option String → Bool → List String
  | some summary, _ => ["Summary of the dropped span:\n" ++ summary]
  | none, true => ["An earlier span was omitted in place."]
  | none, false => []

def noticeClosing : String :=
  "The full transcript is intact in durable storage. To page dropped turns back, " ++
  "send \x7btype:'recall', query?, limit?\x7d to your OWN id. If the dropped span holds " ++
  "durable facts (names, decisions, preferences), persist them to your memory agent " ++
  "now via the send tool — the earlier turns are leaving your live view."

def contextNotice (strategy : String) (summary : Option String) (omittedMarker : Bool)
    (droppedN : Int) : Dict :=
  message "user" (.str ("\n".intercalate
    ([noticeHead strategy droppedN] ++ noticeArtifact summary omittedMarker ++ [noticeClosing])))

/-! ### The seam -/

inductive Projected where
  | messages (turns : List Dict)
  | refusal (error : String)

structure Backend where
  name : String
  chat : Chat

section Seam

variable (runtime : Runtime) (numerals : Numerals)

def strategyName (record : Dict) : Value :=
  (record.get? "context_strategy").getD (.str defaultStrategy)

def tooSmall (backend : Backend) (sysTokens : Nat) (window : Int) : String :=
  backend.name ++ ": context_insufficient — " ++
    "the system prompt (" ++ toString sysTokens ++ " tok) leaves no room in the " ++
    toString window ++ "-token window for even one turn; " ++
    "reduce agents/menu or raise context_window"

def unknownStrategy (backend : Backend) (name : Value) : String :=
  backend.name ++ ": unknown context_strategy " ++ runtime.repr name ++
    " (valid: " ++ strategyNames ++ ")"

/-- What the chosen strategy makes of the body. -/
def strategyProjection (backend : Backend) (record : Dict) (strategy : Strategy)
    (bodyBudget : Int) (body : List Dict) : Projection :=
  strategy.project runtime body
    ⟨bodyBudget, recentN runtime numerals record, some (makeSummarizer runtime backend.chat)⟩

def noticeFor (strategy : Strategy) (body : List Dict) (projection : Projection) : Dict :=
  contextNotice strategy.name projection.summary projection.omittedMarker
    (body.length - projection.body.length)

def trimBody (systemBlock : List Dict) (notice : Dict) (limit : Int) (body : List Dict) :
    List Dict :=
  TurnWindow.trim isTool
    (fun kept => decide (estimateTokens runtime (systemBlock ++ [notice] ++ kept) ≤ limit))
    body.length body

def projectContext (backend : Backend) (record : Dict) (messages : List Dict) :
    Except PyError Projected := do
  let limit ← budget runtime numerals record
  if messages.any fun turn => !Json.dumpableMembers turn.entries then
    .error (.valueError ("Exceeds the limit (4300 digits) for integer string conversion; " ++
      "use sys.set_int_max_str_digits() to increase the limit"))
  else if estimateTokens runtime messages ≤ limit then .ok (.messages messages)
  else
    let systemBlock := messages.take 1
    let body := messages.drop 1
    match body.getLast? with
    | none => .ok (.messages messages)
    | some live =>
      let sysTokens := estimateTokens runtime systemBlock
      let bodyBudget := limit - sysTokens
      if bodyBudget < estimateOne runtime live + noticeEnvelopeReserve then do
        let window ← resolveContextWindow runtime numerals record
        .ok (.refusal (tooSmall backend sysTokens window))
      else
        match ← getStrategy (strategyName record) with
        | none => .ok (.refusal (unknownStrategy runtime backend (strategyName record)))
        | some strategy =>
          let projection :=
            strategyProjection runtime numerals backend record strategy bodyBudget body
          let notice := noticeFor strategy body projection
          let outBody := trimBody runtime systemBlock notice limit projection.body
          .ok (.messages (systemBlock ++ [notice] ++ outBody))

/-- `_assemble`: the system turn, the history, the live user turn. -/
def assemble (system : String) (history : List Dict) (text : Value) : List Dict :=
  [message "system" (.str system)] ++ history ++ [message "user" text]

end Seam

/-! ### When the projection fits -/

section Fits

variable (runtime : Runtime) (numerals : Numerals)

/-- The seam goes past its failsafe with this strategy: the messages outgrow the limit,
and beside the system turn there is room for the live turn and the reserve. -/
structure Shortens (record system live : Dict) (history : List Dict) (limit : Int)
    (strategy : Strategy) : Prop where
  allowed : budget runtime numerals record = .ok limit
  chosen : getStrategy (strategyName record) = .ok (some strategy)
  written : ∀ turn ∈ [system] ++ history ++ [live], Json.dumpableMembers turn.entries = true
  overflows : limit < estimateTokens runtime ([system] ++ history ++ [live])
  reserved : estimateOne runtime live + noticeEnvelopeReserve ≤
    limit - estimateTokens runtime [system]

/-- The notice that goes in front of the body for this strategy. -/
def insertedNotice (backend : Backend) (record system live : Dict) (history : List Dict)
    (limit : Int) (strategy : Strategy) : Dict :=
  noticeFor strategy (history ++ [live])
    (strategyProjection runtime numerals backend record strategy
      (limit - estimateTokens runtime [system]) (history ++ [live]))

variable {runtime numerals} {backend : Backend} {record system live : Dict}
  {history : List Dict} {limit : Int} {strategy : Strategy}

theorem projectContext_shortens
    (shortens : Shortens runtime numerals record system live history limit strategy) :
    projectContext runtime numerals backend record ([system] ++ history ++ [live]) =
      .ok (.messages ([system] ++
        [insertedNotice runtime numerals backend record system live history limit strategy] ++
        trimBody runtime [system]
          (insertedNotice runtime numerals backend record system live history limit strategy)
          limit
          (strategyProjection runtime numerals backend record strategy
            (limit - estimateTokens runtime [system]) (history ++ [live])).body)) := by
  have written : ([system] ++ history ++ [live]).any
      (fun turn => !Json.dumpableMembers turn.entries) = false := by
    rw [List.any_eq_false]
    intro turn member
    simp [shortens.written turn member]
  have overflows := shortens.overflows
  have reserved := shortens.reserved
  unfold projectContext
  rw [shortens.allowed]
  simp only [bind, Except.bind, written, Bool.false_eq_true, if_false]
  rw [if_neg (by omega)]
  have taken : ([system] ++ history ++ [live]).take 1 = [system] := by simp
  have dropped : ([system] ++ history ++ [live]).drop 1 = history ++ [live] := by simp
  rw [taken, dropped, List.getLast?_concat]
  simp only
  rw [if_neg (by omega), shortens.chosen]
  rfl

/-- A message list that comes back either fits as it was, or is what the strategy left. -/
theorem projectContext_messages {kept : List Dict}
    (allowed : budget runtime numerals record = .ok limit)
    (returned : projectContext runtime numerals backend record ([system] ++ history ++ [live]) =
      .ok (.messages kept)) :
    kept = [system] ++ history ++ [live] ∧ estimateTokens runtime kept ≤ limit ∨
      ∃ strategy, Shortens runtime numerals record system live history limit strategy := by
  unfold projectContext at returned
  rw [allowed] at returned
  simp only [bind, Except.bind] at returned
  split at returned
  · contradiction
  rename_i written
  split at returned
  · rename_i fits
    cases returned
    exact Or.inl ⟨rfl, fits⟩
  rename_i overflows
  have taken : ([system] ++ history ++ [live]).take 1 = [system] := by simp
  have dropped : ([system] ++ history ++ [live]).drop 1 = history ++ [live] := by simp
  rw [taken, dropped, List.getLast?_concat] at returned
  simp only at returned
  split at returned
  · cases window : resolveContextWindow runtime numerals record with
    | error failure => simp [window] at returned
    | ok tokens => simp [window] at returned
  rename_i reserved
  cases chosen : getStrategy (strategyName record) with
  | error failure => simp [chosen] at returned
  | ok known =>
    cases known with
    | none => simp [chosen] at returned
    | some strategy =>
      right
      refine ⟨strategy, allowed, chosen, ?_, by omega, by omega⟩
      intro turn member
      have spelled := List.any_eq_false.mp (Bool.eq_false_of_not_eq_true written) turn member
      simpa using spelled

theorem trimmed_fits_iff (notice : Dict) {body : List Dict} (ends : body.getLast? = some live)
    (spoken : isTool live = false) :
    (estimateTokens runtime ([system] ++ [notice] ++ trimBody runtime [system] notice limit body) :
        Int) ≤ limit ↔
      (estimateTokens runtime [system, notice, live] : Int) ≤ limit := by
  have split (kept : List Dict) : estimateTokens runtime ([system] ++ [notice] ++ kept) =
      estimateTokens runtime [system, notice] + TurnWindow.weight (estimateOne runtime) kept :=
    TurnWindow.weight_append _ [system, notice] kept
  have fitting : trimBody runtime [system] notice limit body =
      TurnWindow.trim isTool
        (fun kept => decide (((estimateTokens runtime [system, notice] +
          TurnWindow.weight (estimateOne runtime) kept : Nat) : Int) ≤ limit))
        body.length body := by
    unfold trimBody
    congr 1
    funext kept
    rw [split]
  have last : estimateTokens runtime [system, notice, live] =
      estimateTokens runtime [system, notice] + estimateOne runtime live := by
    have ended := split [live]
    simpa using ended
  rw [split, fitting, last]
  exact TurnWindow.trim_fits_iff _ limit ends spoken

theorem shortened_fits_iff (spoken : isTool live = false)
    (shortens : Shortens runtime numerals record system live history limit strategy) :
    (∀ kept, projectContext runtime numerals backend record ([system] ++ history ++ [live]) =
        .ok (.messages kept) → (estimateTokens runtime kept : Int) ≤ limit) ↔
      (estimateTokens runtime [system,
        insertedNotice runtime numerals backend record system live history limit strategy,
        live] : Int) ≤ limit := by
  have ends : (strategyProjection runtime numerals backend record strategy
      (limit - estimateTokens runtime [system]) (history ++ [live])).body.getLast? =
        some live := by
    apply project_getLast strategy (recentN_pos runtime numerals record) _ spoken
    exact List.getLast?_concat
  rw [← trimmed_fits_iff _ ends spoken, projectContext_shortens shortens]
  constructor
  · intro fits
    exact fits _ rfl
  · intro fits kept same
    cases same
    exact fits

theorem isTool_user (text : Value) : isTool (message "user" text) = false := by
  simp [isTool, getD, message, OrderedDict.get?]

end Fits

/-- Whatever the record, the system text, the history and the live turn: every message
list that comes back fits the budget, exactly when the system turn, the notice the chosen
strategy calls for and the live turn fit it by themselves whenever the seam shortens. -/
theorem projection_fits_iff (runtime : Runtime) (numerals : Numerals) (backend : Backend)
    (record : Dict) (system : String) (history : List Dict) (text : Value) :
    (∀ limit kept, budget runtime numerals record = .ok limit →
      projectContext runtime numerals backend record (assemble system history text) =
        .ok (.messages kept) →
      (estimateTokens runtime kept : Int) ≤ limit) ↔
    ∀ limit strategy,
      Shortens runtime numerals record (message "system" (.str system)) (message "user" text)
        history limit strategy →
      (estimateTokens runtime [message "system" (.str system),
        insertedNotice runtime numerals backend record (message "system" (.str system))
          (message "user" text) history limit strategy,
        message "user" text] : Int) ≤ limit := by
  constructor
  · intro fits limit strategy shortens
    apply (shortened_fits_iff (isTool_user text) shortens).mp
    intro kept returned
    exact fits limit kept shortens.allowed returned
  · intro room limit kept allowed returned
    obtain ⟨_, fits⟩ | ⟨strategy, shortens⟩ := projectContext_messages allowed returned
    · exact fits
    · have least := room limit strategy shortens
      exact (shortened_fits_iff (isTool_user text) shortens).mpr least kept returned

/-! ### The reserve is below every notice -/

/-- A text of literal pieces is as long as the pieces are together. -/
theorem length_append_literal {text : String} {chars : List Char} {before after : Nat}
    (front : text.length = before) (counted : chars.length = after) :
    (text ++ String.ofList chars).length = before + after := by
  rw [String.length_append, String.length_ofList, front, counted]

theorem noticeClosing_length : noticeClosing.length = 78 + 79 + 81 + 69 := by
  unfold noticeClosing
  apply length_append_literal _ rfl
  apply length_append_literal _ rfl
  apply length_append_literal _ rfl
  exact String.length_ofList

theorem noticeHead_length (strategy : String) (droppedN : Int) :
    73 + 10 + 41 ≤ (noticeHead strategy droppedN).length := by
  have opening : ("[context-notice] Your conversation exceeded the window and was compacted " ++
      "(strategy=").length = 73 + 10 := by
    apply length_append_literal _ rfl
    exact String.length_ofList
  have closing : " earlier turn(s) dropped from THIS view).".length = 41 := String.length_ofList
  unfold noticeHead
  generalize " earlier turn(s) dropped from THIS view)." = after at closing ⊢
  generalize "[context-notice] Your conversation exceeded the window and was compacted " ++
      "(strategy=" = before at opening ⊢
  simp only [String.length_append]
  omega

theorem intercalate_ends (separator last : String) (middle : List String) (first : String) :
    first.length + separator.length + last.length ≤
      (separator.intercalate (first :: (middle ++ [last]))).length := by
  induction middle generalizing first with
  | nil =>
    rw [List.nil_append, String.intercalate_cons_cons, String.intercalate_singleton]
    simp only [String.length_append]
    omega
  | cons next rest ih =>
    have inner := ih next
    rw [List.cons_append, String.intercalate_cons_cons]
    simp only [String.length_append]
    omega

theorem dumps_message (runtime : Runtime) (role : String) (content : Value) :
    (Json.dumps runtime (.dict (message role content).entries)).length =
      (Json.quoted role).length + (Json.dumps runtime content).length + 23 := by
  have roleKey : (Json.quoted "role").length = 6 := rfl
  have contentKey : (Json.quoted "content").length = 9 := rfl
  simp [message, Json.dumps, Json.dumpMembers, roleKey, contentKey]
  omega

/-- The wrapper alone costs more than the envelope reserve, whatever the notice reports. -/
theorem reserve_below_notice (runtime : Runtime) (strategy : String) (summary : Option String)
    (omittedMarker : Bool) (droppedN : Int) :
    noticeEnvelopeReserve + 35 ≤
      estimateOne runtime (contextNotice strategy summary omittedMarker droppedN) := by
  have head := noticeHead_length strategy droppedN
  have closing := noticeClosing_length
  have role : (Json.quoted "user").length = 6 := rfl
  have content := intercalate_ends "\n" noticeClosing (noticeArtifact summary omittedMarker)
    (noticeHead strategy droppedN)
  have escaped := Json.length_quoted ("\n".intercalate (noticeHead strategy droppedN ::
    (noticeArtifact summary omittedMarker ++ [noticeClosing])))
  unfold contextNotice estimateOne
  rw [dumps_message, role]
  simp only [List.cons_append, List.nil_append, Json.dumps_str, noticeEnvelopeReserve,
    charsPerToken]
  omega

theorem reserve_below_inserted (runtime : Runtime) (numerals : Numerals) (backend : Backend)
    (record system live : Dict) (history : List Dict) (limit : Int) (strategy : Strategy) :
    noticeEnvelopeReserve + 35 ≤ estimateOne runtime
      (insertedNotice runtime numerals backend record system live history limit strategy) :=
  reserve_below_notice runtime _ _ _ _

/-! ### A list that does not fit -/

def plainRuntime : Runtime where
  importable := fun _ => true
  repr := fun _ => ""
  str := fun _ => ""

def asciiNumerals : Numerals where
  isDigit := fun _ => false
  decimal := fun _ => none

def silentBackend : Backend where
  name := "ollama_backend"
  chat := fun _ => none

/-- A window of 300 tokens, all of it for the input. -/
def narrowRecord : Dict where
  entries := [("context_window", .int 300), ("output_reserve", .int 0),
    ("context_strategy", .str "truncate")]
  nodup := by decide

def letters (count : Nat) : String :=
  String.ofList (List.replicate count 'x')

theorem estimate_letters (role : String) (count : Nat) :
    estimateOne plainRuntime (message role (.str (letters count))) =
      ((Json.quoted role).length + count + 28) / 4 := by
  have plain : Json.escape 'x' = [ 'x'] := by decide
  have body : (Json.dumps plainRuntime (.str (letters count))).length = count + 2 := by
    simp [letters, Json.dumps_str, Json.quoted, List.flatMap_replicate, plain]
  unfold estimateOne
  rw [dumps_message, body]
  simp only [charsPerToken]
  omega

theorem estimate_system : estimateOne plainRuntime (message "system" (.str (letters 1))) = 9 := by
  have role : (Json.quoted "system").length = 8 := rfl
  rw [estimate_letters, role]

theorem estimate_user (count : Nat) :
    estimateOne plainRuntime (message "user" (.str (letters count))) = (count + 34) / 4 := by
  have role : (Json.quoted "user").length = 6 := rfl
  rw [estimate_letters, role]
  omega

-- The costs below are closed terms that must not be computed: the lemmas are about any
-- messages, so that the kernel only ever compares names.
theorem estimateTokens_one {runtime : Runtime} {first : Dict} {cost : Nat}
    (one : estimateOne runtime first = cost) : estimateTokens runtime [first] = cost := by
  simp [estimateTokens, one]

theorem estimateTokens_three {runtime : Runtime} {first second third : Dict}
    {costOne costTwo costThree : Nat} (one : estimateOne runtime first = costOne)
    (two : estimateOne runtime second = costTwo) (three : estimateOne runtime third = costThree) :
    estimateTokens runtime [first, second, third] = costOne + costTwo + costThree := by
  simp [estimateTokens, one, two, three, Nat.add_assoc]

theorem dumpable_message (role text : String) :
    Json.dumpableMembers (message role (.str text)).entries = true := rfl

theorem narrow_shortens : Shortens plainRuntime asciiNumerals narrowRecord
    (message "system" (.str (letters 1))) (message "user" (.str (letters 730)))
    [message "user" (.str (letters 1000))] 300 .truncate where
  allowed := rfl
  chosen := rfl
  written := by
    intro turn member
    simp only [List.cons_append, List.nil_append, List.mem_cons, List.not_mem_nil,
      or_false] at member
    obtain rfl | rfl | rfl := member
    all_goals exact dumpable_message _ _
  overflows := by
    have total := estimateTokens_three estimate_system (estimate_user 1000) (estimate_user 730)
    have same : [message "system" (.str (letters 1))] ++ [message "user" (.str (letters 1000))] ++
        [message "user" (.str (letters 730))] = [message "system" (.str (letters 1)),
          message "user" (.str (letters 1000)), message "user" (.str (letters 730))] := by
      simp only [List.cons_append, List.nil_append]
    rw [same, total]
    decide
  reserved := by
    rw [estimate_user, estimateTokens_one estimate_system]
    decide

/-- With a live turn of 191 tokens in a window of 300, the list that comes back is the
system turn, the notice and the live turn, and it costs more than 300. -/
theorem narrow_window_overflows :
    ¬ ∀ limit kept, budget plainRuntime asciiNumerals narrowRecord = .ok limit →
      projectContext plainRuntime asciiNumerals silentBackend narrowRecord
        (assemble (letters 1) [message "user" (.str (letters 1000))] (.str (letters 730))) =
          .ok (.messages kept) →
      (estimateTokens plainRuntime kept : Int) ≤ limit := by
  intro fits
  have least := (shortened_fits_iff (isTool_user _) narrow_shortens).mp
    fun kept returned => fits 300 kept rfl returned
  have cost := reserve_below_inserted plainRuntime asciiNumerals silentBackend narrowRecord
    (message "system" (.str (letters 1))) (message "user" (.str (letters 730)))
    [message "user" (.str (letters 1000))] 300 .truncate
  generalize insertedNotice _ _ _ _ _ _ _ _ _ = notice at least cost
  rw [estimateTokens_three estimate_system rfl (estimate_user 730)] at least
  unfold noticeEnvelopeReserve at cost
  omega

end Fantastic.Python.Ai

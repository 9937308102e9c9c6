import Fantastic.Python.Runtime
import Mathlib.Data.List.Forall2

/-!
# Messages for Anthropic

`_to_anthropic` of `anthropic_backend/provider.py`. `none` is an exception; `json.loads` is a
parameter that says `none` itself where it raises a `JSONDecodeError`.
-/

namespace Fantastic.Python.Anthropic

/-! ### The code -/

inductive Block where
  | text (text : Value)
  | toolUse (id name input : Value)
  | toolResult (toolUseId content : Value)

inductive Content where
  | plain (content : Value)
  | blocks (blocks : List Block)

structure Sent where
  role : String
  content : Content

structure Progress where
  system : Option Value
  out : List Sent
  pending : List Block

def start : Progress where
  system := none
  out := []
  pending := []

def flush (progress : Progress) : Progress :=
  if progress.pending.isEmpty then progress
  else { progress with
    out := progress.out ++ [⟨"user", .blocks progress.pending⟩]
    pending := [] }

/-- `value or default`. -/
def orElse (value default : Value) : Value :=
  if truthy value then value else default

/-- `m.get("content", "") or ""`. -/
def contentOf (message : Dict) : Value :=
  orElse (getD message "content") (.str "")

/-- One of the `tool_calls`. -/
def toolUse (loads : String → Option (Option Value)) : Value → Option Block
  | .dict call =>
    match orElse ((call.lookup "function").getD .null) (.dict []) with
    | .dict function => do
        let arguments ← match (function.lookup "arguments").getD .null with
          | .str text => (loads text).map fun read => read.getD (.dict [])
          | value => some value
        return .toolUse ((call.lookup "id").getD .null) ((function.lookup "name").getD .null)
          (orElse arguments (.dict []))
    | _ => none
  | _ => none

/-- `m.get("tool_calls") or []`: to iterate over anything but a list raises, at once or at the
first item. -/
def toolCalls (message : Dict) : Option (List Value) :=
  match orElse (getD message "tool_calls") (.list []) with
  | .list calls => some calls
  | _ => none

def assistantBlocks (loads : String → Option (Option Value)) (message : Dict) :
    Option (List Block) := do
  let text := contentOf message
  let uses ← (← toolCalls message).mapM (toolUse loads)
  let blocks := (if truthy text then [.text text] else []) ++ uses
  return if blocks.isEmpty then [.text (.str "(no content)")] else blocks

/-- One round of the loop over the messages. -/
def translate (loads : String → Option (Option Value)) (progress : Progress) (message : Dict) :
    Option Progress :=
  let role := getD message "role"
  if role = .str "system" then some { progress with system := some (contentOf message) }
  else if role = .str "tool" then
    some { progress with
      pending := progress.pending ++
        [.toolResult (getD message "tool_call_id") (contentOf message)] }
  else
    let flushed := flush progress
    if role = .str "user" then
      some { flushed with out := flushed.out ++ [⟨"user", .plain (contentOf message)⟩] }
    else if role = .str "assistant" then do
      let blocks ← assistantBlocks loads message
      return { flushed with out := flushed.out ++ [⟨"assistant", .blocks blocks⟩] }
    else some flushed

def toAnthropic (loads : String → Option (Option Value)) (messages : List Dict) :
    Option (Option Value × List Sent) :=
  (messages.foldlM (translate loads) start).map fun progress =>
    ((flush progress).system, (flush progress).out)

/-! ### Conversations -/

structure Call where
  id : String
  name : String
  arguments : List (String × Value)

structure Reply where
  id : String
  text : String

/-- A turn with all that belongs to it. A text may be empty. -/
inductive Turn where
  | system (text : String)
  | user (text : String)
  | assistant (text : String) (calls : List Call) (replies : List Reply)

def systemText : Turn → Option String
  | .system text => some text
  | _ => none

/-- One system turn, and for every call one reply. -/
structure WellFormed (turns : List Turn) (system : String) : Prop where
  system : turns.filterMap systemText = [system]
  answered : ∀ text calls replies, .assistant text calls replies ∈ turns →
    (replies.map Reply.id).Perm (calls.map Call.id)

/-- An empty text may also be left out, or be `None`. -/
def Says (message : Dict) (role text : String) : Prop :=
  getD message "role" = .str role ∧
    (getD message "content" = .str text ∨ text = "" ∧ getD message "content" = .null)

/-- The arguments of a call are there as an object or as its JSON text. -/
def IsCall (loads : String → Option (Option Value)) (call : Call) (stored : Value) : Prop :=
  ∃ members function, stored = .dict members ∧ members.lookup "id" = some (.str call.id) ∧
    members.lookup "function" = some (.dict function) ∧
    function.lookup "name" = some (.str call.name) ∧
    (function.lookup "arguments" = some (.dict call.arguments) ∨
      ∃ text, function.lookup "arguments" = some (.str text) ∧
        loads text = some (some (.dict call.arguments)))

/-- `tool_calls` with the calls, or nothing there where there is none. -/
def Makes (loads : String → Option (Option Value)) (message : Dict) (calls : List Call) : Prop :=
  (∃ stored, getD message "tool_calls" = .list stored ∧ calls.Forall₂ (IsCall loads) stored) ∨
    calls = [] ∧ getD message "tool_calls" = .null

def IsReply (reply : Reply) (message : Dict) : Prop :=
  Says message "tool" reply.text ∧ getD message "tool_call_id" = .str reply.id

/-- The messages of a turn. -/
def Stored (loads : String → Option (Option Value)) (turn : Turn) (messages : List Dict) : Prop :=
  match turn with
  | .system text => ∃ message, messages = [message] ∧ Says message "system" text
  | .user text => ∃ message, messages = [message] ∧ Says message "user" text
  | .assistant text calls replies => ∃ message answers, messages = message :: answers ∧
      Says message "assistant" text ∧ Makes loads message calls ∧
      replies.Forall₂ IsReply answers

/-! ### What is kept -/

def Call.block (call : Call) : Block :=
  .toolUse (.str call.id) (.str call.name) (.dict call.arguments)

def Reply.block (reply : Reply) : Block :=
  .toolResult (.str reply.id) (.str reply.text)

def shown (text : String) : List Block :=
  if text = "" then [] else [.text (.str text)]

/-- The blocks of an assistant turn, which must not be empty. -/
def spoken (text : String) (calls : List Call) : List Block :=
  match shown text ++ calls.map Call.block with
  | [] => [.text (.str "(no content)")]
  | blocks => blocks

/-- The texts that are not empty, the calls and the replies of a turn, in order. -/
def Turn.items : Turn → List Block
  | .system _ => []
  | .user text => shown text
  | .assistant text calls replies => spoken text calls ++ replies.map Reply.block

def Sent.items (sent : Sent) : List Block :=
  match sent.content with
  | .plain content => if truthy content then [.text content] else []
  | .blocks blocks => blocks

def Block.call? : Block → Option Value
  | .toolUse id _ _ => some id
  | _ => none

/-- The ids of the `tool_use` blocks. -/
def Sent.calls (sent : Sent) : List Value :=
  sent.items.filterMap Block.call?

def answer (replies : List Reply) : Sent where
  role := "user"
  content := .blocks (replies.map Reply.block)

/-- The replies of every turn are in the order of its calls. -/
def InOrder (turns : List Turn) : Prop :=
  ∀ text calls replies, .assistant text calls replies ∈ turns →
    replies.map Reply.id = calls.map Call.id

/-- The message behind one with calls holds the replies to them. -/
def Answered (turns : List Turn) (out : List Sent) : Prop :=
  ∀ before message after, out = before ++ message :: after → message.calls ≠ [] →
    ∃ replies rest, after = answer replies :: rest ∧
      (replies.map fun reply => Value.str reply.id).Perm message.calls ∧
      (InOrder turns → (replies.map fun reply => Value.str reply.id) = message.calls)

/-! ### One turn -/

/-- The messages a turn is sent as. -/
def sentOf : Turn → List Sent
  | .system _ => []
  | .user text => [⟨"user", .plain (.str text)⟩]
  | .assistant text calls replies =>
    ⟨"assistant", .blocks (spoken text calls)⟩ :: if replies.isEmpty then [] else [answer replies]

section Turns

variable {loads : String → Option (Option Value)}

theorem truthy_str (text : String) : truthy (.str text) = decide (text ≠ "") := rfl

theorem contentOf_of_says {message : Dict} {role text : String} (said : Says message role text) :
    contentOf message = .str text := by
  unfold contentOf orElse
  obtain there | ⟨rfl, missing⟩ := said.2
  · rw [there]
    by_cases empty : text = ""
    · rw [empty]
      rfl
    · rw [if_pos (by simpa [truthy_str] using empty)]
  · rw [missing]
    rfl

theorem toolUse_of_isCall {call : Call} {stored : Value} (made : IsCall loads call stored) :
    toolUse loads stored = some call.block := by
  obtain ⟨members, function, rfl, id, there, name, arguments⟩ := made
  have full : function ≠ [] := by
    rintro rfl
    cases name
  have kept : orElse (.dict call.arguments) (.dict []) = .dict call.arguments := by
    unfold orElse
    by_cases empty : call.arguments = []
    · rw [empty]
      rfl
    · rw [if_pos (by simpa [truthy] using empty)]
  have function_kept : orElse (.dict function) (.dict []) = .dict function := by
    unfold orElse
    rw [if_pos (by simpa [truthy] using full)]
  simp only [toolUse, there, Option.getD_some, function_kept]
  obtain object | ⟨text, written, read⟩ := arguments
  · rw [object]
    simp [kept, id, name, Call.block]
  · rw [written]
    simp [read, kept, id, name, Call.block]

theorem mapM_toolUse {calls : List Call} {stored : List Value}
    (made : calls.Forall₂ (IsCall loads) stored) :
    stored.mapM (toolUse loads) = some (calls.map Call.block) := by
  induction made with
  | nil => rfl
  | cons head _ ih =>
    rw [List.mapM_cons, toolUse_of_isCall head, ih]
    rfl

theorem assistantBlocks_of_makes {message : Dict} {text : String} {calls : List Call}
    (said : Says message "assistant" text) (made : Makes loads message calls) :
    assistantBlocks loads message = some (spoken text calls) := by
  have uses : ∃ stored, toolCalls message = some stored ∧
      stored.mapM (toolUse loads) = some (calls.map Call.block) := by
    obtain ⟨stored, there, each⟩ | ⟨rfl, missing⟩ := made
    · refine ⟨stored, ?_, mapM_toolUse each⟩
      unfold toolCalls orElse
      rw [there]
      cases stored <;> rfl
    · refine ⟨[], ?_, rfl⟩
      unfold toolCalls
      rw [missing]
      rfl
  obtain ⟨stored, listed, mapped⟩ := uses
  have texts : (if truthy (.str text) then [Block.text (.str text)] else []) = shown text := by
    by_cases empty : text = "" <;> simp [truthy_str, shown, empty]
  simp only [assistantBlocks, contentOf_of_says said, listed, mapped, texts, Option.bind_eq_bind,
    Option.bind_some, Option.pure_def, spoken]
  cases shown text ++ calls.map Call.block <;> rfl

/-- The replies of a turn wait for the next flush. -/
theorem foldlM_replies {replies : List Reply} {answers : List Dict}
    (given : replies.Forall₂ IsReply answers) :
    ∀ progress, answers.foldlM (translate loads) progress =
      some { progress with pending := progress.pending ++ replies.map Reply.block } := by
  induction given with
  | nil => simp
  | @cons reply message _ _ head _ ih =>
    intro progress
    have step : translate loads progress message =
        some { progress with pending := progress.pending ++ [reply.block] } := by
      rw [translate, if_neg (by simp [head.1.1]), if_pos head.1.1, head.2,
        contentOf_of_says head.1]
      rfl
    rw [List.foldlM_cons, step]
    simp [ih]

@[simp] theorem flush_system (progress : Progress) :
    (flush progress).system = progress.system := by
  unfold flush
  split <;> rfl

/-- One turn adds its messages behind those of the turns before it. -/
theorem foldlM_turn {turn : Turn} {messages : List Dict} (stored : Stored loads turn messages)
    (progress : Progress) :
    ∃ later, messages.foldlM (translate loads) progress = some later ∧
      (flush later).out = (flush progress).out ++ sentOf turn ∧
      later.system = ((systemText turn).map Value.str).or progress.system := by
  match turn with
  | .system text =>
    obtain ⟨message, rfl, said⟩ := stored
    refine ⟨{ progress with system := some (.str text) }, ?_, ?_, rfl⟩
    · simp [translate, said.1, contentOf_of_says said]
    · unfold flush
      cases progress.pending <;> simp [sentOf]
  | .user text =>
    obtain ⟨message, rfl, said⟩ := stored
    refine ⟨{ flush progress with
      out := (flush progress).out ++ [⟨"user", .plain (.str text)⟩] }, ?_, ?_, ?_⟩
    · simp [translate, said.1, contentOf_of_says said]
    · unfold flush
      split <;> simp_all [sentOf]
    · simp [systemText]
  | .assistant text calls replies =>
    obtain ⟨message, answers, rfl, said, made, given⟩ := stored
    have first : translate loads progress message = some { flush progress with
        out := (flush progress).out ++ [⟨"assistant", .blocks (spoken text calls)⟩] } := by
      simp [translate, said.1, assistantBlocks_of_makes said made]
    have emptied : (flush progress).pending = [] := by
      unfold flush
      split
      case isTrue empty => exact List.isEmpty_iff.mp empty
      case isFalse => rfl
    rw [List.foldlM_cons, first]
    refine ⟨_, foldlM_replies given _, ?_, ?_⟩
    · simp only [emptied, List.nil_append, sentOf]
      cases replies <;> simp [flush, answer]
    · simp [systemText]

end Turns

/-! ### Whole conversations -/

theorem toAnthropic_eq {loads : String → Option (Option Value)} {turns : List Turn}
    {stored : List (List Dict)} (there : turns.Forall₂ (Stored loads) stored)
    {system : String} (formed : WellFormed turns system) :
    toAnthropic loads stored.flatten = some (some (.str system), turns.flatMap sentOf) := by
  have run : ∀ progress, ∃ later, stored.flatten.foldlM (translate loads) progress = some later ∧
      (flush later).out = (flush progress).out ++ turns.flatMap sentOf ∧
      later.system =
        ((turns.filterMap systemText).getLast?.map Value.str).or progress.system := by
    clear formed
    induction there with
    | nil =>
      intro progress
      exact ⟨progress, rfl, (List.append_nil _).symm, rfl⟩
    | @cons turn messages turns _ head _ ih =>
      intro progress
      obtain ⟨between, first, sent, system⟩ := foldlM_turn head progress
      obtain ⟨later, rest, all, last⟩ := ih between
      refine ⟨later, ?_, ?_, ?_⟩
      · rw [List.flatten_cons, List.foldlM_append, first]
        exact rest
      · rw [all, sent, List.flatMap_cons, List.append_assoc]
      · rw [last, system, List.filterMap_cons]
        cases systemText turn <;>
          cases ended : (turns.filterMap systemText).getLast? <;>
          simp [List.getLast?_cons, ended]
  obtain ⟨later, done, out, system⟩ := run start
  rw [formed.system] at system
  rw [toAnthropic, done, Option.map_some, out, flush_system, system]
  rfl

theorem items_sentOf (turn : Turn) : (sentOf turn).flatMap Sent.items = turn.items := by
  match turn with
  | .system _ => rfl
  | .user text => by_cases empty : text = "" <;>
      simp [sentOf, Sent.items, Turn.items, truthy_str, shown, empty]
  | .assistant text calls replies =>
    cases replies <;> simp [sentOf, Sent.items, Turn.items, answer]

theorem calls_spoken (text : String) (calls : List Call) :
    Sent.calls ⟨"assistant", .blocks (spoken text calls)⟩ =
      calls.map fun call => Value.str call.id := by
  have each : (calls.map Call.block).filterMap Block.call? =
      calls.map fun call => Value.str call.id := by
    rw [List.filterMap_map, ← List.filterMap_eq_map]
    rfl
  have text_apart : (shown text).filterMap Block.call? = [] := by
    unfold shown
    split <;> rfl
  have all : (shown text ++ calls.map Call.block).filterMap Block.call? =
      calls.map fun call => Value.str call.id := by
    rw [List.filterMap_append, text_apart, each, List.nil_append]
  unfold Sent.calls Sent.items spoken
  rw [← all]
  cases shown text ++ calls.map Call.block <;> rfl

theorem calls_answer (replies : List Reply) : (answer replies).calls = [] := by
  simp [Sent.calls, Sent.items, answer, Reply.block, List.filterMap_map, Block.call?]

theorem calls_user (text : String) : Sent.calls ⟨"user", .plain (.str text)⟩ = [] := by
  change (if truthy (.str text) then [Block.text (.str text)] else []).filterMap Block.call? = []
  split <;> rfl

/-- The message is that of an assistant turn, and behind it are the replies of the turn. -/
def MadeBy (turns : List Turn) (message : Sent) (after : List Sent) : Prop :=
  ∃ text calls replies rest, .assistant text calls replies ∈ turns ∧
    message = ⟨"assistant", .blocks (spoken text calls)⟩ ∧
    after = (if replies.isEmpty then [] else [answer replies]) ++ rest

/-- Only the messages of assistant turns make calls. -/
theorem sentOf_split {turns : List Turn} {message : Sent} (makes : message.calls ≠ []) :
    ∀ {before after}, turns.flatMap sentOf = before ++ message :: after →
      MadeBy turns message after := by
  induction turns with
  | nil =>
    intro before after split
    simp at split
  | cons turn turns ih =>
    intro before after split
    have later {before : List Sent} (split : turns.flatMap sentOf = before ++ message :: after) :
        MadeBy (turn :: turns) message after := by
      obtain ⟨text, calls, replies, rest, member, same⟩ := ih split
      exact ⟨text, calls, replies, rest, List.mem_cons_of_mem _ member, same⟩
    rw [List.flatMap_cons] at split
    match turn with
    | .system _ => exact later split
    | .user text =>
      cases before with
      | nil =>
        injection split with first _
        exact absurd (first ▸ calls_user text) makes
      | cons _ before =>
        injection split with _ split
        exact later split
    | .assistant text calls replies =>
      cases before with
      | nil =>
        injection split with first behind
        exact ⟨text, calls, replies, _, List.mem_cons_self, first.symm, behind.symm⟩
      | cons _ before =>
        injection split with _ split
        cases replies with
        | nil => exact later split
        | cons reply replies =>
          cases before with
          | nil =>
            injection split with first _
            exact absurd (first ▸ calls_answer _) makes
          | cons _ before =>
            injection split with _ split
            exact later split

theorem answered_sentOf {turns : List Turn} {system : String} (formed : WellFormed turns system) :
    Answered turns (turns.flatMap sentOf) := by
  intro before message after split makes
  obtain ⟨text, calls, replies, rest, member, rfl, rfl⟩ := sentOf_split makes split
  rw [calls_spoken] at makes ⊢
  have matched := formed.answered text calls replies member
  have some' : replies.isEmpty = false := by
    cases replies with
    | nil =>
      have none' := List.map_eq_nil_iff.mp matched.symm.eq_nil
      exact absurd (by rw [none', List.map_nil]) makes
    | cons => rfl
  refine ⟨replies, rest, by rw [some']; rfl, ?_, fun ordered => ?_⟩
  · simpa [Function.comp_def] using matched.map Value.str
  · simpa [Function.comp_def] using congrArg (List.map Value.str) (ordered _ _ _ member)

/-- Texts, calls and replies arrive once and in order, and the replies to a message's calls
are the next message. -/
theorem conversation_preserved {loads : String → Option (Option Value)} {turns : List Turn}
    {system : String} {stored : List (List Dict)} (formed : WellFormed turns system)
    (there : turns.Forall₂ (Stored loads) stored) :
    ∃ out, toAnthropic loads stored.flatten = some (some (.str system), out) ∧
      out.flatMap Sent.items = turns.flatMap Turn.items ∧ Answered turns out := by
  refine ⟨turns.flatMap sentOf, toAnthropic_eq there formed, ?_, answered_sentOf formed⟩
  rw [List.flatMap_assoc]
  exact List.flatMap_congr fun turn _ => items_sentOf turn

/-- A call whose arguments are stored as text, with a reply and an answer behind it. -/
theorem weather_preserved :
    ∃ turns : List Turn, turns.flatMap Turn.items =
        [.text (.str "rain?"), .toolUse (.str "c1") (.str "send") (.dict [("a", .int 1)]),
          .toolResult (.str "c1") (.str "no"), .text (.str "It is dry.")] ∧
      ∃ stored out, toAnthropic (fun _ => some (some (.dict [("a", .int 1)]))) stored =
          some (some (.str "Be brief."), out) ∧
        out.flatMap Sent.items = turns.flatMap Turn.items ∧ Answered turns out := by
  let message (role : String) (content : Value) : Dict :=
    (OrderedDict.empty.insert "role" (.str role)).insert "content" content
  let call : Value := .dict [("id", .str "c1"),
    ("function", .dict [("name", .str "send"), ("arguments", .str "\x7b\"a\": 1\x7d")])]
  let turns : List Turn := [.system "Be brief.", .user "rain?",
    .assistant "" [⟨"c1", "send", [("a", .int 1)]⟩] [⟨"c1", "no"⟩], .assistant "It is dry." [] []]
  let stored : List (List Dict) := [[message "system" (.str "Be brief.")],
    [message "user" (.str "rain?")],
    [(message "assistant" .null).insert "tool_calls" (.list [call]),
      (message "tool" (.str "no")).insert "tool_call_id" (.str "c1")],
    [message "assistant" (.str "It is dry.")]]
  refine ⟨turns, rfl, _, @conversation_preserved _ turns "Be brief." stored ⟨rfl, ?_⟩ ?_⟩
  · intro text calls replies member
    simp only [turns, List.mem_cons, reduceCtorEq, Turn.assistant.injEq, List.not_mem_nil,
      or_false, false_or] at member
    rcases member with ⟨_, rfl, rfl⟩ | ⟨_, rfl, rfl⟩
    · exact List.Perm.refl _
    · exact List.Perm.refl _
  · refine .cons ⟨_, rfl, rfl, .inl rfl⟩ (.cons ⟨_, rfl, rfl, .inl rfl⟩ (.cons ?_ (.cons ?_ .nil)))
    · refine ⟨_, _, rfl, ⟨rfl, .inr ⟨rfl, rfl⟩⟩, .inl ⟨[call], rfl, .cons ?_ .nil⟩, ?_⟩
      · exact ⟨_, _, rfl, rfl, rfl, rfl, .inr ⟨_, rfl, rfl⟩⟩
      · exact .cons ⟨⟨rfl, .inl rfl⟩, rfl⟩ .nil
    · exact ⟨_, [], rfl, ⟨rfl, .inl rfl⟩, .inr ⟨rfl, rfl⟩, .nil⟩

end Fantastic.Python.Anthropic

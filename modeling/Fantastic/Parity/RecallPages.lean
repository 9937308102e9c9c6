import Fantastic.Foundation.LineJournal
import Fantastic.Parity.TokenBudget

/-!
# The pages of recall

`_recall` of `ai_core`, `recall` of `fantastic-ai-core` and `recallVerb` of `FantasticAICore`, and a
caller that pages back with the smallest index of the page before. A message is a turn with its
index; the rendering that shortens its content is left out, as is the choice of the transcript by
`client_id`. Lower case, the trimming of a query and the JSON text of a turn are any functions.
-/

namespace Fantastic.Parity.Recall

open Fantastic.Python (Runtime PyError getD truthy)
open Fantastic.Python.Ai (Numerals intOf plainRuntime asciiNumerals)
open Fantastic.Rust (asU64)
open Fantastic.Swift (InInt64)
open LineJournal (lastOf)

/-- A reply: `messages`, `total` and `truncated`. -/
structure Page where
  messages : List (Value × Nat)
  total : Nat
  truncated : Bool

/-- What the three verbs do with the transcript once they have read their arguments. -/
def pageOf (full : List Value) (finds : Value → Bool) (limit : Nat) (before : Option Int) : Page :=
  let indexed := full.zipIdx
  let indexed :=
    match before with
    | some bound => indexed.filter fun (message : Value × Nat) => (message.2 : Int) < bound
    | none => indexed
  let indexed := indexed.filter fun (message : Value × Nat) => finds message.1
  { messages := lastOf limit indexed
    total := indexed.length
    truncated := decide (limit < indexed.length) }

/-- The functions of a runtime that a query goes through. -/
structure Texts where
  serialize : Value → String
  lower : String → String
  trim : String → String

/-- A query that is empty finds every turn. -/
def Texts.finds (texts : Texts) (query : String) (turn : Value) : Bool :=
  let query := texts.trim (texts.lower query)
  decide (query = "") ||
    decide (query.toList <:+: (texts.lower (texts.serialize turn)).toList)

/-! ### Python -/

def pythonLimit (runtime : Runtime) (numerals : Numerals) (payload : Dict) : Nat :=
  let given := getD payload "limit"
  let limit :=
    match intOf runtime numerals (if truthy given then given else .int 20) with
    | .ok limit => limit
    | .error _ => 20
  (max 1 (min limit 100)).toNat

def pythonBefore (payload : Dict) : Option Int :=
  match getD payload "before" with
  | .int bound => some bound
  | _ => none

/-- `str(payload.get("query") or "")`. -/
def pythonQuery (runtime : Runtime) (payload : Dict) : String :=
  let query := getD payload "query"
  if truthy query then runtime.str query else ""

def pythonRecall (runtime : Runtime) (numerals : Numerals) (texts : Texts) (full : List Value)
    (payload : Dict) : Page :=
  pageOf full (texts.finds (pythonQuery runtime payload)) (pythonLimit runtime numerals payload)
    (pythonBefore payload)

/-! ### Rust -/

def rustI64 : Option Value → Option Int
  | some (.int number) => if InInt64 number then some number else none
  | _ => none

def rustLimit (payload : Dict) : Nat :=
  (max 1 (min ((rustI64 (payload.get? "limit")).getD 20) 100)).toNat

def textQuery (payload : Dict) : String :=
  match payload.get? "query" with
  | some (.str query) => query
  | _ => ""

def rustRecall (texts : Texts) (full : List Value) (payload : Dict) : Page :=
  pageOf full (texts.finds (textQuery payload)) (rustLimit payload)
    ((asU64 (payload.get? "before")).map Int.ofNat)

/-! ### Swift -/

def swiftMember (payload : Dict) (key : String) : Option (Option Int) :=
  match payload.get? key with
  | some value => swiftInt value
  | none => some none

/-- None where `asInt` traps. -/
def swiftRecall (texts : Texts) (full : List Value) (payload : Dict) : Option Page :=
  (swiftMember payload "limit").bind fun limit =>
    (swiftMember payload "before").map fun before =>
      pageOf full (texts.finds (textQuery payload)) (min (max (limit.getD 20) 1) 100).toNat before

/-! ### A caller that pages back -/

def withBefore (payload : Dict) (before : Option Nat) : Dict :=
  match before with
  | none => payload
  | some index => payload.insert "before" (.int index)

def smallest (page : Page) : Option Nat :=
  (page.messages.map Prod.snd).min?

/-- The pages of a whole sequence of calls, the first with number `call`, if it ends within the
fuel. The transcript may be another one at each call. -/
def pages (recalls : List Value → Dict → Option Page) (payload : Dict) (stored : Nat → List Value) :
    Nat → Nat → Option Nat → Option (List Page)
  | 0, _, _ => none
  | fuel + 1, call, before =>
    (recalls (stored call) (withBefore payload before)).bind fun page =>
      if page.truncated then
        (smallest page).bind fun index =>
          (pages recalls payload stored fuel (call + 1) (some index)).map (page :: ·)
      else some [page]

def matching (finds : Value → Bool) (full : List Value) : List (Value × Nat) :=
  full.zipIdx.filter fun message => finds message.1

/-- The calls end, and their pages hold what matched at the first one, each turn once: from the
last page to the first in the order of the transcript. -/
def Lossless (recalls : List Value → Dict → Option Page) (finds : Value → Bool) (payload : Dict)
    (limit : Int) (stored : Nat → List Value) : Prop :=
  ∃ fuel found, pages recalls payload stored fuel 0 none = some found ∧
    found.reverse.flatMap Page.messages = matching finds (stored 0) ∧
    (∀ page ∈ found, page.messages.Pairwise (fun first second => first.2 < second.2) ∧
      (page.messages.length : Int) ≤ min limit 100) ∧
    found.Pairwise fun newer older => ∀ later ∈ newer.messages, ∀ earlier ∈ older.messages,
      earlier.2 < later.2

/-- A request for pages, with a positive limit. -/
structure Asks (payload : Dict) (limit : Int) : Prop where
  limited : payload.get? "limit" = some (.int limit)
  positive : 0 < limit
  first : payload.get? "before" = none

/-! ### One page -/

/-- Turns in the order of the transcript. -/
def Ordered (messages : List (Value × Nat)) : Prop :=
  messages.Pairwise fun first second => first.2 < second.2

def cut (limit : Nat) (indexed : List (Value × Nat)) : Page where
  messages := lastOf limit indexed
  total := indexed.length
  truncated := decide (limit < indexed.length)

variable {finds : Value → Bool}

theorem matching_ordered (full : List Value) : Ordered (matching finds full) := by
  have indices : (full.zipIdx.map Prod.snd).Pairwise (· < ·) := by
    rw [List.zipIdx_map_snd]
    exact List.pairwise_lt_range'
  exact (List.pairwise_map.mp indices).filter _

theorem matching_below {full : List Value} {message : Value × Nat}
    (member : message ∈ matching finds full) : message.2 < full.length := by
  have bound := List.snd_lt_of_mem_zipIdx (List.mem_of_mem_filter member)
  omega

/-- Turns that were appended are not among those before an index of the older transcript. -/
theorem pageOf_before {older full : List Value} (grown : older <+: full) (limit : Nat)
    {bound : Nat} (inside : bound ≤ older.length) :
    pageOf full finds limit (some (bound : Int)) =
      cut limit ((matching finds older).filter fun message => decide (message.2 < bound)) := by
  obtain ⟨added, rfl⟩ := grown
  have same : ((older ++ added).zipIdx.filter fun message =>
      decide ((message.2 : Int) < (bound : Int))).filter (fun message => finds message.1) =
        (matching finds older).filter fun message => decide (message.2 < bound) := by
    have late : (added.zipIdx (0 + older.length)).filter
        (fun message => decide ((message.2 : Int) < (bound : Int))) = [] := by
      rw [List.filter_eq_nil_iff]
      intro message member
      have := List.le_snd_of_mem_zipIdx member
      simp only [decide_eq_true_eq]
      omega
    rw [List.zipIdx_append, List.filter_append, late, List.append_nil, matching,
      List.filter_filter, List.filter_filter]
    apply List.filter_congr
    intro message _
    rw [Bool.and_comm]
    simp
  simp only [pageOf, same, cut]

theorem filter_before {front back : List (Value × Nat)} {message : Value × Nat}
    (ordered : Ordered (front ++ message :: back)) :
    (front ++ message :: back).filter (fun other => decide (other.2 < message.2)) = front := by
  obtain ⟨_, rest, across⟩ := List.pairwise_append.mp ordered
  have after := (List.pairwise_cons.mp rest).1
  have first : front.filter (fun other => decide (other.2 < message.2)) = front := by
    rw [List.filter_eq_self]
    intro other member
    exact decide_eq_true (across other member message List.mem_cons_self)
  have second : (message :: back).filter (fun other => decide (other.2 < message.2)) = [] := by
    rw [List.filter_eq_nil_iff]
    intro other member
    simp only [decide_eq_true_eq]
    rcases List.mem_cons.mp member with rfl | later
    · omega
    · have := after other later
      omega
  rw [List.filter_append, first, second, List.append_nil]

theorem smallest_ordered {page : Page} {message : Value × Nat} {rest : List (Value × Nat)}
    (holds : page.messages = message :: rest) (ordered : Ordered (message :: rest)) :
    smallest page = some message.2 := by
  rw [smallest, holds, List.min?_eq_some_iff]
  refine ⟨List.mem_map_of_mem List.mem_cons_self, ?_⟩
  intro index member
  obtain ⟨other, among, rfl⟩ := List.mem_map.mp member
  rcases List.mem_cons.mp among with rfl | later
  · exact Nat.le_refl _
  · exact Nat.le_of_lt ((List.pairwise_cons.mp ordered).1 other later)

/-! ### All pages -/

section Calls

variable {recalls : List Value → Dict → Option Page} {payload : Dict} {stored : Nat → List Value}
  {limit : Nat}

/-- What the pages of the calls from some one on hold. -/
structure Holds (limit : Nat) (found : List Page) (indexed : List (Value × Nat)) : Prop where
  all : found.reverse.flatMap Page.messages = indexed
  page : ∀ page ∈ found, Ordered page.messages ∧ page.messages.length ≤ limit
  apart : found.Pairwise fun newer older => ∀ later ∈ newer.messages, ∀ earlier ∈ older.messages,
    earlier.2 < later.2

theorem pages_hold (positive : 0 < limit) (grows : ∀ call, stored 0 <+: stored call)
    (serves : ∀ call index, index < (stored 0).length →
      recalls (stored call) (withBefore payload (some index)) =
        some (pageOf (stored call) finds limit (some (index : Int))))
    (fuel : Nat) : ∀ (indexed : List (Value × Nat)) (call : Nat) (before : Option Nat),
      indexed.length < fuel → indexed <+: matching finds (stored 0) →
      recalls (stored call) (withBefore payload before) = some (cut limit indexed) →
      ∃ found, pages recalls payload stored fuel call before = some found ∧
        Holds limit found indexed := by
  induction fuel with
  | zero => exact fun _ _ _ few => absurd few (Nat.not_lt_zero _)
  | succ fuel ih =>
    intro indexed call before few inFront answered
    have ordered : Ordered indexed := (matching_ordered (stored 0)).sublist inFront.sublist
    have page : Ordered (lastOf limit indexed) ∧ (lastOf limit indexed).length ≤ limit := by
      refine ⟨List.Pairwise.sublist (List.drop_sublist _ _) ordered, ?_⟩
      rw [LineJournal.lastOf_length]
      exact Nat.min_le_left _ _
    rw [pages, answered, Option.bind_some]
    by_cases more : limit < indexed.length
    · have length := LineJournal.lastOf_length limit indexed
      cases last : lastOf limit indexed with
      | nil =>
        rw [last, List.length_nil] at length
        omega
      | cons message rest =>
        have split : indexed = indexed.take (indexed.length - limit) ++ message :: rest := by
          rw [← last]
          exact (List.take_append_drop _ _).symm
        generalize front' : indexed.take (indexed.length - limit) = front at split
        subst split
        obtain ⟨back, whole⟩ := inFront
        have member : message ∈ matching finds (stored 0) := by
          rw [← whole]
          simp
        have inside := matching_below member
        have index : smallest (cut limit (front ++ message :: rest)) = some message.2 :=
          smallest_ordered last (last ▸ page.1)
        have next : recalls (stored (call + 1)) (withBefore payload (some message.2)) =
            some (cut limit front) := by
          rw [serves _ _ inside, pageOf_before (grows _) limit (Nat.le_of_lt inside), ← whole,
            List.append_assoc, List.cons_append]
          rw [filter_before]
          rw [List.append_assoc, List.cons_append] at whole
          rw [whole]
          exact matching_ordered _
        have fewer : front.length < fuel := by
          rw [List.length_append, List.length_cons] at few
          omega
        obtain ⟨found, rest', holds⟩ := ih front (call + 1) (some message.2) fewer
          ⟨message :: rest ++ back, by rw [← whole]; simp⟩ next
        refine ⟨cut limit (front ++ message :: rest) :: found, ?_, ?_, ?_, ?_⟩
        · have truncated : (cut limit (front ++ message :: rest)).truncated = true :=
            decide_eq_true more
          rw [if_pos truncated, index, Option.bind_some, rest']
          rfl
        · rw [List.reverse_cons, List.flatMap_append, holds.all, List.flatMap_singleton]
          exact congrArg (front ++ ·) last
        · intro other among
          rcases List.mem_cons.mp among with rfl | later
          · exact page
          · exact holds.page other later
        · rw [List.pairwise_cons]
          refine ⟨?_, holds.apart⟩
          intro older among later inPage earlier inOlder
          have before' : earlier ∈ front := by
            rw [← holds.all]
            exact List.mem_flatMap.mpr ⟨older, List.mem_reverse.mpr among, inOlder⟩
          have after : later ∈ message :: rest := by
            rw [← last]
            exact inPage
          exact (List.pairwise_append.mp ordered).2.2 earlier before' later after
    · have whole : lastOf limit indexed = indexed := LineJournal.lastOf_all (by omega)
      refine ⟨[cut limit indexed], ?_, ?_, ?_, List.pairwise_singleton _ _⟩
      · have complete : (cut limit indexed).truncated = false := decide_eq_false more
        rw [complete]
        rfl
      · rw [List.reverse_singleton, List.flatMap_singleton]
        exact whole
      · intro other among
        rw [List.mem_singleton.mp among]
        exact page

end Calls

/-- A runtime whose pages are those of the transcript loses nothing. -/
theorem serves_lossless {recalls : List Value → Dict → Option Page} {payload : Dict}
    {stored : Nat → List Value} {limit : Int} {most : Nat} (positive : 0 < most)
    (within : (most : Int) ≤ min limit 100) (grows : ∀ call, stored 0 <+: stored call)
    (serves : ∀ full before, (∀ index ∈ before, index < (stored 0).length) →
      recalls full (withBefore payload before) =
        some (pageOf full finds most (before.map Int.ofNat))) :
    Lossless recalls finds payload limit stored := by
  obtain ⟨found, called, holds⟩ := pages_hold positive grows
    (fun call index inside => serves (stored call) (some index) fun _ same => by
      cases same
      exact inside)
    ((matching finds (stored 0)).length + 1) (matching finds (stored 0)) 0 none
    (Nat.lt_succ_self _) (List.prefix_refl _)
    (serves (stored 0) none fun _ same => absurd same (by simp))
  refine ⟨_, found, called, holds.all, ?_, holds.apart⟩
  intro page member
  have each := holds.page page member
  exact ⟨each.1, by omega⟩

/-! ### The three runtimes -/

theorem withBefore_other {key : String} (other : key ≠ "before") (payload : Dict)
    (before : Option Nat) : (withBefore payload before).get? key = payload.get? key := by
  cases before with
  | none => rfl
  | some index => exact payload.get?_insert_of_ne _ other

theorem withBefore_before {payload : Dict} (first : payload.get? "before" = none)
    (before : Option Nat) : (withBefore payload before).get? "before" =
      before.map fun index => .int index := by
  cases before with
  | none => exact first
  | some index => exact payload.get?_insert_self _ _

variable (runtime : Runtime) (numerals : Numerals)

theorem python_serves {payload : Dict} {limit : Int} (asked : Asks payload limit) (texts : Texts)
    (full : List Value) (before : Option Nat) :
    pythonRecall runtime numerals texts full (withBefore payload before) =
      pageOf full (texts.finds (pythonQuery runtime payload)) (max 1 (min limit 100)).toNat
        (before.map Int.ofNat) := by
  have query : pythonQuery runtime (withBefore payload before) = pythonQuery runtime payload := by
    rw [pythonQuery, getD, withBefore_other (by decide)]
    rfl
  have limited : pythonLimit runtime numerals (withBefore payload before) =
      (max 1 (min limit 100)).toNat := by
    have given : getD (withBefore payload before) "limit" = .int limit := by
      rw [getD, withBefore_other (by decide), asked.limited]
      rfl
    have some' : truthy (.int limit) = true := decide_eq_true (by have := asked.positive; omega)
    simp only [pythonLimit, given, if_pos some', intOf]
  have bound : pythonBefore (withBefore payload before) = before.map Int.ofNat := by
    rw [pythonBefore, getD, withBefore_before asked.first]
    cases before <;> rfl
  rw [pythonRecall, query, limited, bound]

theorem rust_serves {payload : Dict} {limit : Int} (asked : Asks payload limit) (texts : Texts)
    (full : List Value) {before : Option Nat} (small : ∀ index ∈ before, index < 2 ^ 63) :
    rustRecall texts full (withBefore payload before) =
      pageOf full (texts.finds (textQuery payload)) (rustLimit payload)
        (before.map Int.ofNat) := by
  have query : textQuery (withBefore payload before) = textQuery payload := by
    rw [textQuery, withBefore_other (by decide)]
    rfl
  have bound : (asU64 ((withBefore payload before).get? "before")).map Int.ofNat =
      before.map Int.ofNat := by
    rw [withBefore_before asked.first]
    cases before with
    | none => rfl
    | some index =>
      have range := small index rfl
      have fits : 0 ≤ (index : Int) ∧ (index : Int) < 2 ^ 64 := by omega
      rw [Option.map_some, asU64, if_pos fits]
      rfl
  rw [rustRecall, query, bound, rustLimit, withBefore_other (by decide)]
  rfl

/-- A limit that rounds to the double 2^63. -/
def Traps (limit : Int) : Prop :=
  2 ^ 63 ≤ limit ∧ limit ≤ 2 ^ 63 + 1024

theorem swift_limit_traps {payload : Dict} {limit : Int} (asked : Asks payload limit)
    (traps : Traps limit) (before : Option Nat) :
    swiftMember (withBefore payload before) "limit" = none := by
  unfold Traps at traps
  have wide : ¬InInt64 limit := by
    unfold InInt64
    omega
  rw [swiftMember, withBefore_other (by decide), asked.limited]
  simp only [swiftInt]
  rw [if_neg wide, if_pos asked.positive, if_pos traps.2]

/-- Elsewhere Swift and Rust read the same limit. -/
theorem swift_serves {payload : Dict} {limit : Int} (asked : Asks payload limit)
    (safe : ¬Traps limit) (texts : Texts) (full : List Value) {before : Option Nat}
    (small : ∀ index ∈ before, index < 2 ^ 63) :
    swiftRecall texts full (withBefore payload before) =
      some (pageOf full (texts.finds (textQuery payload)) (rustLimit payload)
        (before.map Int.ofNat)) := by
  have positive := asked.positive
  have query : textQuery (withBefore payload before) = textQuery payload := by
    rw [textQuery, withBefore_other (by decide)]
    rfl
  have limited : swiftMember (withBefore payload before) "limit" =
      some (rustI64 (payload.get? "limit")) := by
    rw [swiftMember, withBefore_other (by decide), asked.limited]
    simp only [swiftInt, rustI64]
    by_cases fits : InInt64 limit
    · rw [if_pos fits, if_pos fits]
    · have large : ¬limit ≤ 2 ^ 63 + 1024 := by
        unfold Traps at safe
        unfold InInt64 at fits
        omega
      rw [if_neg fits, if_neg fits, if_pos positive, if_neg large]
  have bound : swiftMember (withBefore payload before) "before" = some (before.map Int.ofNat) := by
    rw [swiftMember, withBefore_before asked.first]
    cases before with
    | none => rfl
    | some index =>
      have range := small index rfl
      have fits : InInt64 (index : Int) := by
        unfold InInt64
        omega
      rw [Option.map_some]
      simp only [swiftInt]
      rw [if_pos fits]
      rfl
  have most : (min (max ((rustI64 (payload.get? "limit")).getD 20) 1) 100).toNat =
      rustLimit payload := by
    unfold rustLimit
    omega
  rw [swiftRecall, limited, Option.bind_some, bound, Option.map_some, query, most]

theorem rustLimit_within {payload : Dict} {limit : Int} (asked : Asks payload limit) :
    0 < rustLimit payload ∧ (rustLimit payload : Int) ≤ min limit 100 := by
  have positive := asked.positive
  rw [rustLimit, asked.limited, rustI64]
  split
  case isTrue =>
    rw [Option.getD_some]
    omega
  case isFalse wide =>
    rw [Option.getD_none]
    unfold InInt64 at wide
    omega

/-- The law in the three runtimes, each with what it takes a query to find. -/
def AllLossless (python rust swift : Texts) (payload : Dict) (limit : Int)
    (stored : Nat → List Value) : Prop :=
  Lossless (fun full request => some (pythonRecall runtime numerals python full request))
      (python.finds (pythonQuery runtime payload)) payload limit stored ∧
    Lossless (fun full request => some (rustRecall rust full request))
      (rust.finds (textQuery payload)) payload limit stored ∧
    Lossless (swiftRecall swift) (swift.finds (textQuery payload)) payload limit stored

/-- An array of turns has a length of 63 bits. -/
theorem recall_lossless_iff {payload : Dict} {limit : Int} (asked : Asks payload limit)
    (python rust swift : Texts) {stored : Nat → List Value}
    (grows : ∀ call, stored 0 <+: stored call) (fits : (stored 0).length < 2 ^ 63) :
    AllLossless runtime numerals python rust swift payload limit stored ↔ ¬Traps limit := by
  have positive := asked.positive
  have within := rustLimit_within asked
  have small : ∀ before : Option Nat, (∀ index ∈ before, index < (stored 0).length) →
      ∀ index ∈ before, index < 2 ^ 63 :=
    fun before inside index member => Nat.lt_trans (inside index member) fits
  constructor
  · rintro ⟨_, _, fuel, found, called, _⟩ traps
    cases fuel with
    | zero => cases called
    | succ fuel =>
      have stuck : swiftRecall swift (stored 0) (withBefore payload none) = none := by
        rw [swiftRecall, swift_limit_traps asked traps]
        rfl
      rw [pages, stuck] at called
      cases called
  · intro safe
    refine ⟨?_, ?_, ?_⟩
    · have least : 0 < (max 1 (min limit 100)).toNat := by omega
      exact serves_lossless least (by omega) grows fun full before _ =>
        congrArg some (python_serves runtime numerals asked python full before)
    · exact serves_lossless within.1 within.2 grows fun full before inside =>
        congrArg some (rust_serves asked rust full (small before inside))
    · exact serves_lossless within.1 within.2 grows fun full before inside =>
        swift_serves asked safe swift full (small before inside)

/-! ### A transcript that grows between two calls -/

def plainTexts : Texts where
  serialize := fun turn =>
    match turn with
    | .str text => "\"" ++ text ++ "\""
    | _ => ""
  lower := id
  trim := id

def askPairs : Dict where
  entries := [("query", .str "a"), ("limit", .int 2)]
  nodup := (by decide : ["query", "limit"].Nodup)

def growing (call : Nat) : List Value :=
  [.str "a", .str "b", .str "a1", .str "a2"] ++ List.replicate call (.str "a")

theorem growing_lossless : AllLossless plainRuntime asciiNumerals plainTexts plainTexts plainTexts
    askPairs 2 growing := by
  have asked : Asks askPairs 2 := ⟨rfl, by decide, rfl⟩
  have grows : ∀ call, growing 0 <+: growing call := fun call => List.prefix_append _ _
  apply (recall_lossless_iff plainRuntime asciiNumerals asked plainTexts plainTexts plainTexts
    grows (by decide)).mpr
  rintro ⟨large, _⟩
  omega

def askLarge : Dict where
  entries := [("limit", .int (2 ^ 63))]
  nodup := by decide

/-- Swift stops at a limit of 2^63. -/
theorem large_limit_traps : ¬AllLossless plainRuntime asciiNumerals plainTexts plainTexts
    plainTexts askLarge (2 ^ 63) growing := by
  rintro ⟨_, _, fuel, found, called, _⟩
  cases fuel with
  | zero => cases called
  | succ fuel =>
    have stuck : swiftRecall plainTexts (growing 0) (withBefore askLarge none) = none :=
      rfl
    rw [pages, stuck] at called
    cases called

end Fantastic.Parity.Recall

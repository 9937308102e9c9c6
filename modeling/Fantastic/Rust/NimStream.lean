import Fantastic.Foundation.LineSplit
import Fantastic.Foundation.Utf8
import Fantastic.Foundation.Value
import Mathlib.Data.List.DropRight

/-!
# A streamed answer

`consume_sse` of `fantastic-nvidia-nim-backend`, for a body whose chunks all arrive. What
`from_utf8_lossy`, `str::trim`, `serde_json` and the format `{:08x}` do is a parameter.
-/

namespace Fantastic.Rust.Nim

open LineSplit (consume lines)

structure Texts where
  lossy : List UInt8 → String
  trim : String → String
  parse : String → Option Value
  hex : Nat → String

structure PendingToolCall where
  id : String := ""
  name : String := ""
  arguments : String := ""

inductive ProviderEvent where
  | token (content : String)
  | toolCall (id name : String) (args : Value)

/-- `value.get(key)`, with `null` where there is nothing. -/
def get (key : String) : Value → Value
  | .dict members => (members.lookup key).getD .null
  | _ => .null

/-- `value.as_str()`; an empty text does here what no text does. -/
def text : Value → String
  | .str text => text
  | _ => ""

def items : Value → List Value
  | .list items => items
  | _ => []

/-- What one entry of `tool_calls` says of a call. -/
structure Fragment where
  index : Nat
  id : String
  name : String
  arguments : String

def fragment (entry : Value) : Fragment where
  index :=
    match get "index" entry with
    | .int index => if 0 ≤ index then index.toNat % UInt32.size else 0
    | _ => 0
  id := text (get "id" entry)
  name := text (get "name" (get "function" entry))
  arguments := text (get "arguments" (get "function" entry))

def PendingToolCall.add (slot : PendingToolCall) (fragment : Fragment) : PendingToolCall where
  id := if fragment.id = "" then slot.id else fragment.id
  name := if fragment.name = "" then slot.name else fragment.name
  arguments := slot.arguments ++ fragment.arguments

abbrev Pending := OrderedDict Nat PendingToolCall

/-- `pending.entry(idx).or_default()` with the fragment added. -/
def Pending.add (pending : Pending) (fragment : Fragment) : Pending :=
  pending.insert fragment.index (((pending.get? fragment.index).getD {}).add fragment)

structure Sse where
  out : List ProviderEvent := []
  pending : Pending := .empty
  done : Bool := false

def token (delta : Value) : List ProviderEvent :=
  if text (get "content" delta) = "" then [] else [.token (text (get "content" delta))]

/-- The `delta` of the first choice. -/
def delta (obj : Value) : Value :=
  match get "choices" obj with
  | .list (first :: _) => get "delta" first
  | _ => .null

def Sse.read (sse : Sse) (obj : Value) : Sse :=
  { sse with
    out := sse.out ++ token (delta obj)
    pending := ((items (get "tool_calls" (delta obj))).map fragment).foldl Pending.add sse.pending }

variable (texts : Texts)

/-- What stands behind the `data:` of a line, if it is not blank. -/
def lineData (line : List UInt8) : Option String :=
  let chars := (texts.lossy line).toList.rdropWhile (· = '\r')
  if "data:".toList.isPrefixOf chars then
    let data := texts.trim (String.ofList (chars.drop 5))
    if data = "" then none else some data
  else none

/-- One line. Both loops break at `[DONE]`: no line behind it is read. -/
def Sse.line (sse : Sse) (line : List UInt8) : Sse :=
  if sse.done then sse
  else
    match lineData texts line with
    | none => sse
    | some data =>
      if data = "[DONE]" then { sse with done := true }
      else
        match texts.parse data with
        | none => sse
        | some obj => sse.read obj

def finish (index : Nat) (slot : PendingToolCall) : Option ProviderEvent :=
  if slot.name = "" then none
  else
    some (.toolCall (if slot.id = "" then "call_" ++ texts.hex index else slot.id) slot.name
      (if slot.arguments = "" then .dict [] else (texts.parse slot.arguments).getD (.dict [])))

def consumeSse (chunks : List (List UInt8)) : List ProviderEvent :=
  let sse := (consume 10 (Sse.line texts) ({}, []) chunks).1
  sse.out ++ (sse.pending.keys.mergeSort (· ≤ ·)).filterMap fun index =>
    (sse.pending.get? index).bind (finish texts index)

/-! ### What the answer says -/

/-- The objects of the whole lines of a body, up to `[DONE]`. -/
def objects (body : List UInt8) : List Value :=
  (((lines 10 [] body).1.filterMap (lineData texts)).takeWhile
    (· ≠ "[DONE]")).filterMap texts.parse

def fragments (objs : List Value) : List Fragment :=
  objs.flatMap fun obj => (items (get "tool_calls" (delta obj))).map fragment

/-- All that is said of the call with an index, put together. -/
def assembled (said : List Fragment) (index : Nat) : PendingToolCall :=
  (said.filter fun fragment => fragment.index = index).foldl PendingToolCall.add {}

variable {texts}

theorem foldl_add (said : List Fragment) (pending : Pending) (index : Nat) :
    (said.foldl Pending.add pending).get? index =
      if index ∈ said.map Fragment.index then
        some ((said.filter fun fragment => fragment.index = index).foldl PendingToolCall.add
          ((pending.get? index).getD {}))
      else pending.get? index := by
  induction said generalizing pending with
  | nil => rfl
  | cons first said ih =>
    rw [List.foldl_cons, ih, Pending.add, OrderedDict.get?_insert, List.map_cons]
    by_cases same : index = first.index
    · subst same
      by_cases again : first.index ∈ said.map Fragment.index
      · simp [again]
      · have none' : (said.filter fun fragment => fragment.index = first.index) = [] := by
          rw [List.filter_eq_nil_iff]
          intro other listed
          simpa using fun equal => again (List.mem_map.mpr ⟨other, listed, equal⟩)
        simp [again, none']
    · have apart : ¬first.index = index := fun equal => same equal.symm
      simp [same, apart]

theorem read_eq (objs : List Value) (sse : Sse) :
    objs.foldl Sse.read sse =
      { sse with
        out := sse.out ++ objs.flatMap fun obj => token (delta obj)
        pending := (fragments objs).foldl Pending.add sse.pending } := by
  induction objs generalizing sse with
  | nil => simp [fragments]
  | cons obj objs ih =>
    rw [List.foldl_cons, ih]
    simp [Sse.read, fragments]

/-- What the lines leave, but for the mark that the end was seen. -/
theorem lines_eq (read : List (List UInt8)) (sse : Sse) (open' : sse.done = false) :
    ∃ done, read.foldl (Sse.line texts) sse =
      { ((((read.filterMap (lineData texts)).takeWhile (· ≠ "[DONE]")).filterMap
          texts.parse).foldl Sse.read sse) with done := done } := by
  induction read generalizing sse with
  | nil => exact ⟨sse.done, rfl⟩
  | cons line read ih =>
    rw [List.foldl_cons, Sse.line, if_neg (by simp [open'])]
    cases data : lineData texts line with
    | none =>
      rw [List.filterMap_cons_none data]
      exact ih sse open'
    | some data' =>
      rw [List.filterMap_cons_some data]
      by_cases last : data' = "[DONE]"
      · refine ⟨true, ?_⟩
        have stays : ∀ more : List (List UInt8),
            more.foldl (Sse.line texts) { sse with done := true } = { sse with done := true } := by
          intro more
          induction more with
          | nil => rfl
          | cons _ _ ih => exact ih
        simp [last, stays]
      · rw [List.takeWhile_cons_of_pos (by simpa using last)]
        simp only [if_neg last]
        cases parsed : texts.parse data' with
        | none =>
          rw [List.filterMap_cons_none parsed]
          exact ih sse open'
        | some obj =>
          rw [List.filterMap_cons_some parsed, List.foldl_cons]
          exact ih (sse.read obj) open'

theorem sorted_keys (pending : Pending) :
    (pending.keys.mergeSort (· ≤ ·)).Pairwise (· < ·) := by
  have sorted := @List.pairwise_mergeSort Nat (fun left right => decide (left ≤ right))
    (by simp only [decide_eq_true_eq]; omega)
    (by simp only [Bool.or_eq_true, decide_eq_true_eq]; omega)
    pending.keys
  have apart := (List.mergeSort_perm pending.keys (· ≤ ·)).nodup_iff.mpr pending.keys_nodup
  refine (sorted.and apart).imp ?_
  rintro left right ⟨before, other⟩
  exact Nat.lt_of_le_of_ne (of_decide_eq_true before) other

/-- However a body comes in chunks, the answer is that of the whole: the tokens in their order,
then, by index, a call for each index of a fragment that is named, put together from all
fragments with that index. -/
theorem consumeSse_eq (chunks : List (List UInt8)) :
    ∃ order : List Nat, order.Pairwise (· < ·) ∧
      (∀ index, index ∈ order ↔
        index ∈ (fragments (objects texts chunks.flatten)).map Fragment.index) ∧
      consumeSse texts chunks =
        (objects texts chunks.flatten).flatMap (fun obj => token (delta obj)) ++
          order.filterMap fun index =>
            finish texts index (assembled (fragments (objects texts chunks.flatten)) index) := by
  obtain ⟨done, state⟩ := @lines_eq texts (lines 10 [] chunks.flatten).1 {} rfl
  have all := congrArg Prod.fst
    (@LineSplit.consume_eq _ _ _ 10 (Sse.line texts) {} [] List.not_mem_nil chunks)
  have found := foldl_add (fragments (objects texts chunks.flatten)) .empty
  have keys : ∀ index, index ∈ ((fragments (objects texts chunks.flatten)).foldl Pending.add
      .empty).keys ↔ index ∈ (fragments (objects texts chunks.flatten)).map Fragment.index := by
    intro index
    rw [OrderedDict.mem_keys_iff, found]
    split <;> simp [*]
  refine ⟨_, sorted_keys _, fun index => List.mem_mergeSort.trans (keys index), ?_⟩
  rw [consumeSse, all, state, ← objects, read_eq]
  congr 1
  apply List.filterMap_congr
  intro index listed
  rw [List.mem_mergeSort, keys] at listed
  simp only [found, if_pos listed, Option.bind_some]
  rfl

end Fantastic.Rust.Nim

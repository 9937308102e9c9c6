import Mathlib.Data.List.TakeWhile

/-!
# Lines out of chunks

A text comes in chunks. A reader puts each chunk behind what it has of a line, and takes line
after line out of its buffer. What it takes does not depend on the chunks: it is the lines of the
whole text, without what stands behind the last mark.
-/

namespace Fantastic.LineSplit

variable {Item State : Type*} [DecidableEq Item] (mark : Item)

/-- The loop over a buffer, as long as there is a mark in it. -/
def drain (step : State → List Item → State) (state : State) (buffer : List Item) :
    State × List Item :=
  match _behind : buffer.dropWhile (· ≠ mark) with
  | [] => (state, buffer)
  | _ :: rest => drain step (step state (buffer.takeWhile (· ≠ mark))) rest
termination_by buffer.length
decreasing_by
  have shorter := (buffer.dropWhile_suffix (· ≠ mark)).length_le
  rw [_behind, List.length_cons] at shorter
  omega

/-- The loop over the chunks. -/
def consume (step : State → List Item → State) (reader : State × List Item)
    (chunks : List (List Item)) : State × List Item :=
  chunks.foldl (fun reader chunk => drain mark step reader.1 (reader.2 ++ chunk)) reader

/-- The lines of a text that end in a mark, and what is behind the last mark; the first line is
begun already. -/
def lines (line : List Item) : List Item → List (List Item) × List Item
  | [] => ([], line)
  | item :: text =>
    if item = mark then (line :: (lines [] text).1, (lines [] text).2)
    else lines (line ++ [item]) text

variable {mark} {step : State → List Item → State}

theorem drain_plain (state : State) {line : List Item} (plain : mark ∉ line) :
    drain mark step state line = (state, line) := by
  have none' : line.dropWhile (· ≠ mark) = [] := by
    rw [List.dropWhile_eq_nil_iff]
    intro item listed
    exact decide_eq_true fun same => plain (same ▸ listed)
  rw [drain]
  split
  case h_1 => rfl
  case h_2 behind => cases none'.symm.trans behind

theorem drain_line (state : State) {line : List Item} (plain : mark ∉ line) (text : List Item) :
    drain mark step state (line ++ mark :: text) = drain mark step (step state line) text := by
  have others : ∀ item ∈ line, decide (item ≠ mark) = true := by
    intro item listed
    exact decide_eq_true fun same => plain (same ▸ listed)
  have front : (line ++ mark :: text).takeWhile (· ≠ mark) = line := by
    rw [List.takeWhile_append_of_pos others]
    simp
  have back : (line ++ mark :: text).dropWhile (· ≠ mark) = mark :: text := by
    rw [List.dropWhile_append_of_pos others]
    simp
  rw [drain]
  split
  case h_1 behind => cases back.symm.trans behind
  case h_2 behind =>
    cases back.symm.trans behind
    rw [front]

/-- The loop takes the whole lines, and keeps what is left. -/
theorem drain_eq (state : State) {line : List Item} (plain : mark ∉ line) (text : List Item) :
    drain mark step state (line ++ text) =
      ((lines mark line text).1.foldl step state, (lines mark line text).2) := by
  induction text generalizing state line with
  | nil =>
    rw [List.append_nil, drain_plain state plain]
    rfl
  | cons item text ih =>
    rw [lines]
    split
    case isTrue ends =>
      rw [ends, drain_line state plain]
      exact ih (step state line) List.not_mem_nil
    case isFalse other =>
      have longer : mark ∉ line ++ [item] := by simp [plain, Ne.symm other]
      rw [← ih state longer, List.append_assoc]
      rfl

theorem lines_plain {line : List Item} (plain : mark ∉ line) (text : List Item) :
    mark ∉ (lines mark line text).2 := by
  induction text generalizing line with
  | nil => exact plain
  | cons item text ih =>
    rw [lines]
    split
    case isTrue => exact ih List.not_mem_nil
    case isFalse other => exact ih (by simp [plain, Ne.symm other])

theorem lines_append (line text more : List Item) :
    lines mark line (text ++ more) =
      ((lines mark line text).1 ++ (lines mark (lines mark line text).2 more).1,
        (lines mark (lines mark line text).2 more).2) := by
  induction text generalizing line with
  | nil => rfl
  | cons item text ih =>
    rw [List.cons_append, lines, lines]
    split
    case isTrue => rw [ih, List.cons_append]
    case isFalse => exact ih _

/-- All chunks together come to the lines of the whole text. -/
theorem consume_eq (state : State) {line : List Item} (plain : mark ∉ line)
    (chunks : List (List Item)) :
    consume mark step (state, line) chunks =
      ((lines mark line chunks.flatten).1.foldl step state, (lines mark line chunks.flatten).2) := by
  induction chunks generalizing state line with
  | nil => rfl
  | cons chunk chunks ih =>
    have first := @drain_eq _ _ _ _ step state _ plain chunk
    have rest := ih ((lines mark line chunk).1.foldl step state) (lines_plain plain chunk)
    rw [List.flatten_cons, lines_append, List.foldl_append, ← rest, ← first]
    rfl

end Fantastic.LineSplit

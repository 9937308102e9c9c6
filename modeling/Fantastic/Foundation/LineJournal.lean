import Mathlib.Data.List.Infix

/-!
# A journal of lines with a bounded length

A text of lines, each of them one entry. An append that makes it longer than twice a limit keeps
as many of the last lines as the limit says.
-/

namespace Fantastic.LineJournal

variable {Entry : Type*}

def lastOf (count : Nat) (items : List Entry) : List Entry :=
  items.drop (items.length - count)

/-- The lines of a text: a break at the end opens no line. -/
def splitLines (isBreak : Char → Bool) : List Char → List (List Char)
  | [] => []
  | char :: rest =>
    if isBreak char then [] :: splitLines isBreak rest
    else
      match splitLines isBreak rest with
      | [] => [[char]]
      | line :: more => (char :: line) :: more

/-- Every line with its line feed. -/
def joinLines (lines : List (List Char)) : List Char :=
  lines.flatMap fun line => line ++ ['\n']

def push (limit : Nat) (held : List Entry) (entry : Entry) : List Entry :=
  if 2 * limit < (held ++ [entry]).length then lastOf limit (held ++ [entry])
  else held ++ [entry]

/-- How many entries are held after as many appends. -/
def kept (limit : Nat) : Nat → Nat
  | 0 => 0
  | count + 1 => if 2 * limit < kept limit count + 1 then limit else kept limit count + 1

/-! ### Lists -/

theorem lastOf_length (count : Nat) (items : List Entry) :
    (lastOf count items).length = min count items.length := by
  unfold lastOf
  rw [List.length_drop]
  omega

theorem lastOf_all {count : Nat} {items : List Entry} (few : items.length ≤ count) :
    lastOf count items = items := by
  rw [lastOf, Nat.sub_eq_zero_of_le few, List.drop_zero]

theorem lastOf_append (front back : List Entry) : lastOf back.length (front ++ back) = back := by
  rw [lastOf, List.length_append, Nat.add_sub_cancel, List.drop_left]

theorem lastOf_lastOf {fewer count : Nat} (less : fewer ≤ count) (items : List Entry) :
    lastOf fewer (lastOf count items) = lastOf fewer items := by
  simp only [lastOf, List.drop_drop, List.length_drop]
  congr 1
  omega

theorem map_lastOf {Image : Type*} (image : Entry → Image) (count : Nat) (items : List Entry) :
    (lastOf count items).map image = lastOf count (items.map image) := by
  simp [lastOf]

theorem lastOf_eq_reverse (count : Nat) (items : List Entry) :
    (items.reverse.take count).reverse = lastOf count items := by
  rw [List.reverse_take, List.reverse_reverse, List.length_reverse, lastOf]

/-- Where the matching entries among the last lines are the last matching entries. -/
theorem filter_lastOf_iff (mine : Entry → Bool) (wanted read : Nat) (held : List Entry) :
    (lastOf read held).filter mine = lastOf wanted (held.filter mine) ↔
      ((∀ entry ∈ held.take (held.length - read), mine entry = false) ∧
        (held.filter mine).length ≤ wanted) ∨
      ((lastOf read held).filter mine).length = wanted := by
  have split : held.filter mine =
      (held.take (held.length - read)).filter mine ++ (lastOf read held).filter mine := by
    rw [← List.filter_append, lastOf, List.take_append_drop]
  have older : (∀ entry ∈ held.take (held.length - read), mine entry = false) ↔
      (held.take (held.length - read)).filter mine = [] := by
    rw [List.filter_eq_nil_iff]
    simp only [Bool.not_eq_true]
  rw [older, split]
  generalize (held.take (held.length - read)).filter mine = before
  generalize (lastOf read held).filter mine = seen
  constructor
  · intro same
    have length := congrArg List.length same
    rw [lastOf_length, List.length_append] at length
    by_cases many : wanted ≤ before.length + seen.length
    · exact .inr (by omega)
    · left
      have none : before.length = 0 := by omega
      rw [List.length_append]
      exact ⟨List.length_eq_zero_iff.mp none, by omega⟩
  · rintro (⟨rfl, few⟩ | rfl)
    · exact (lastOf_all few).symm
    · exact (lastOf_append before seen).symm

/-! ### The ring -/

theorem kept_of_le {limit count : Nat} (few : count ≤ 2 * limit) : kept limit count = count := by
  induction count with
  | zero => rfl
  | succ count ih => rw [kept, ih (by omega), if_neg (by omega)]

theorem kept_bounds {limit count : Nat} (many : 2 * limit < count) :
    limit ≤ kept limit count ∧ kept limit count ≤ 2 * limit := by
  induction count with
  | zero => omega
  | succ count ih =>
    rw [kept]
    by_cases first : count ≤ 2 * limit
    · rw [kept_of_le first]
      split <;> omega
    · have bounds := ih (by omega)
      split <;> omega

theorem kept_le (limit count : Nat) : kept limit count ≤ count := by
  by_cases few : count ≤ 2 * limit
  · rw [kept_of_le few]
  · have := kept_bounds (show 2 * limit < count by omega)
    omega

/-- After any appends the last entries are held. -/
theorem push_run (limit : Nat) (log : List Entry) :
    log.foldl (push limit) [] = lastOf (kept limit log.length) log := by
  induction log using List.reverseRecOn with
  | nil => rfl
  | append_singleton log entry ih =>
    have most := kept_le limit log.length
    have snoc : lastOf (kept limit log.length) log ++ [entry] =
        lastOf (kept limit log.length + 1) (log ++ [entry]) := by
      unfold lastOf
      rw [List.length_append, List.length_singleton, Nat.add_sub_add_right,
        List.drop_append_of_le_length (by omega)]
    rw [List.foldl_append, List.foldl_cons, List.foldl_nil, ih, push, snoc, lastOf_length,
      List.length_append, List.length_singleton, kept,
      Nat.min_eq_left (Nat.add_le_add_right most 1)]
    split
    · exact lastOf_lastOf (by omega) _
    · rfl

/-! ### Lines -/

theorem splitLines_line {isBreak : Char → Bool} (feed : isBreak '\n' = true) (line rest : List Char)
    (unbroken : ∀ char ∈ line, isBreak char = false) :
    splitLines isBreak (line ++ '\n' :: rest) = line :: splitLines isBreak rest := by
  induction line with
  | nil => rw [List.nil_append, splitLines, if_pos feed]
  | cons char line ih =>
    rw [List.forall_mem_cons] at unbroken
    rw [List.cons_append, splitLines, if_neg (by simp [unbroken.1]), ih unbroken.2]

theorem splitLines_joinLines {isBreak : Char → Bool} (feed : isBreak '\n' = true)
    (lines : List (List Char)) (unbroken : ∀ line ∈ lines, ∀ char ∈ line, isBreak char = false) :
    splitLines isBreak (joinLines lines) = lines := by
  induction lines with
  | nil => rfl
  | cons line lines ih =>
    rw [List.forall_mem_cons] at unbroken
    rw [joinLines, List.flatMap_cons, List.append_assoc, List.singleton_append,
      splitLines_line feed line _ unbroken.1]
    exact congrArg _ (ih unbroken.2)

theorem intercalate_joinLines {lines : List (List Char)} (some' : lines ≠ []) :
    List.intercalate ['\n'] lines ++ ['\n'] = joinLines lines := by
  induction lines with
  | nil => exact absurd rfl some'
  | cons line lines ih =>
    cases lines with
    | nil => simp [joinLines, List.intercalate]
    | cons next lines =>
      have rest := ih (List.cons_ne_nil _ _)
      rw [joinLines, List.flatMap_cons, ← joinLines, ← rest]
      simp [List.intercalate]

end Fantastic.LineJournal

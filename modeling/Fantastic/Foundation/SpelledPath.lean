import Mathlib.Data.List.Basic

/-!
# Paths spelled with a separator

A path is a list of names that do not contain the separator, and its spelling puts the
separator before each name. A prefix of the spelling is then almost a prefix of the path:
the last name of the shorter path may also be the beginning of a longer name.
-/

namespace Fantastic.SpelledPath

variable {Letter : Type*} {separator : Letter}

def spelled (separator : Letter) (names : List (List Letter)) : List Letter :=
  names.flatMap (separator :: ·)

theorem spelled_cons (name : List Letter) (names : List (List Letter)) :
    spelled separator (name :: names) = separator :: (name ++ spelled separator names) := by
  simp [spelled]

/-- A path beside another: its name at the other's last place is longer by some letters. -/
def LongerSibling (front path : List (List Letter)) : Prop :=
  ∃ upper last extra more, front = upper ++ [last] ∧ extra ≠ [] ∧
    path = upper ++ (last ++ extra) :: more

theorem LongerSibling.outside {front path : List (List Letter)}
    (longer : LongerSibling front path) : ¬ front <+: path := by
  obtain ⟨upper, last, extra, more, rfl, some', rfl⟩ := longer
  intro below
  rw [List.prefix_append_right_inj, List.cons_prefix_cons] at below
  exact some' (by simpa using below.1)

/-- What comes after a name in a spelling: nothing, or a separator first. -/
def Rest (separator : Letter) (letters : List Letter) : Prop :=
  letters = [] ∨ ∃ more, letters = separator :: more

theorem spelled_rest (names : List (List Letter)) : Rest separator (spelled separator names) := by
  cases names with
  | nil => exact .inl rfl
  | cons name names => exact .inr ⟨_, spelled_cons name names⟩

/-- Two names are compared up to the first separator. -/
theorem name_prefix_iff {name other rest otherRest : List Letter} (plain : separator ∉ name)
    (otherPlain : separator ∉ other) (ends : Rest separator rest)
    (otherEnds : Rest separator otherRest) :
    name ++ rest <+: other ++ otherRest ↔
      rest = [] ∧ name <+: other ∨ name = other ∧ rest <+: otherRest := by
  induction name generalizing other with
  | nil =>
    cases other with
    | nil =>
      simp only [List.nil_append, List.nil_prefix, and_true, true_and]
      constructor
      · exact .inr
      · intro either
        cases either with
        | inl empty => simp [empty]
        | inr prefixed => exact prefixed
    | cons letter other =>
      cases ends with
      | inl empty => simp [empty]
      | inr more =>
        obtain ⟨more, rfl⟩ := more
        have different : separator ≠ letter := fun same => otherPlain (by simp [same])
        simp [List.cons_prefix_cons, different]
  | cons letter name ih =>
    cases other with
    | nil =>
      have different : ∀ more, otherRest = separator :: more → letter ≠ separator := by
        intro more _ same
        exact plain (by simp [same])
      cases otherEnds with
      | inl empty => simp [empty]
      | inr more =>
        obtain ⟨more, rfl⟩ := more
        simp [List.cons_prefix_cons, different more rfl]
    | cons otherLetter other =>
      rw [List.mem_cons, not_or] at plain otherPlain
      simp only [List.cons_append, List.cons_prefix_cons, List.cons.injEq]
      rw [ih plain.2 otherPlain.2]
      constructor
      · intro ⟨same, either⟩
        cases either with
        | inl shorter => exact .inl ⟨shorter.1, same, shorter.2⟩
        | inr equal => exact .inr ⟨⟨same, equal.1⟩, equal.2⟩
      · intro either
        cases either with
        | inl shorter => exact ⟨shorter.2.1, .inl ⟨shorter.1, shorter.2.2⟩⟩
        | inr equal => exact ⟨equal.1.1, .inr ⟨equal.1.2, equal.2⟩⟩

theorem LongerSibling.cons {front path : List (List Letter)} (name : List Letter)
    (longer : LongerSibling front path) : LongerSibling (name :: front) (name :: path) := by
  obtain ⟨upper, last, extra, more, rfl, some', rfl⟩ := longer
  exact ⟨name :: upper, last, extra, more, rfl, some', rfl⟩

/-- A spelling begins another exactly for a path below, or for a longer sibling's. -/
theorem spelled_prefix_iff {front path : List (List Letter)}
    (plain : ∀ name ∈ front, separator ∉ name) (pathPlain : ∀ name ∈ path, separator ∉ name) :
    spelled separator front <+: spelled separator path ↔
      front <+: path ∨ LongerSibling front path := by
  induction front generalizing path with
  | nil => simp [spelled]
  | cons name front ih =>
    cases path with
    | nil =>
      refine iff_of_false ?_ ?_
      · simp [spelled]
      · intro either
        cases either with
        | inl below => simp at below
        | inr longer =>
          obtain ⟨upper, last, extra, more, _, _, whole⟩ := longer
          simp at whole
    | cons other path =>
      have namePlain := plain name (by simp)
      have otherPlain := pathPlain other (by simp)
      rw [spelled_cons, spelled_cons, List.cons_prefix_cons,
        name_prefix_iff namePlain otherPlain (spelled_rest front) (spelled_rest path),
        ih (fun inner listed => plain inner (by simp [listed]))
          (fun inner listed => pathPlain inner (by simp [listed]))]
      simp only [true_and, List.cons_prefix_cons]
      constructor
      · intro either
        cases either with
        | inl short =>
          have last : front = [] := by
            cases front with
            | nil => rfl
            | cons _ _ => simp [spelled_cons] at short
          subst last
          obtain ⟨extra, rfl⟩ := short.2
          by_cases none' : extra = []
          · simp [none']
          · exact .inr ⟨[], name, extra, path, rfl, none', rfl⟩
        | inr same =>
          obtain ⟨rfl, below | longer⟩ := same
          · exact .inl ⟨rfl, below⟩
          · exact .inr (longer.cons name)
      · intro either
        cases either with
        | inl below => exact .inr ⟨below.1, .inl below.2⟩
        | inr longer =>
          obtain ⟨upper, last, extra, more, split, some', whole⟩ := longer
          cases upper with
          | nil =>
            obtain ⟨rfl, rfl⟩ := List.cons.inj split
            obtain ⟨rfl, rfl⟩ := List.cons.inj whole
            exact .inl ⟨rfl, List.prefix_append _ _⟩
          | cons first upper =>
            obtain ⟨rfl, rfl⟩ := List.cons.inj split
            obtain ⟨rfl, rfl⟩ := List.cons.inj whole
            exact .inr ⟨rfl, .inr ⟨upper, last, extra, more, rfl, some', rfl⟩⟩

/-- With the separator after it, a spelling begins only what is truly below. -/
theorem spelled_separator_prefix_iff {front path : List (List Letter)}
    (plain : ∀ name ∈ front, separator ∉ name) (pathPlain : ∀ name ∈ path, separator ∉ name) :
    spelled separator front ++ [separator] <+: spelled separator path ↔
      ∃ name more, path = front ++ name :: more := by
  induction front generalizing path with
  | nil =>
    cases path with
    | nil => simp [spelled]
    | cons name path => simp [spelled]
  | cons name front ih =>
    cases path with
    | nil => simp [spelled]
    | cons other path =>
      have namePlain := plain name (by simp)
      have otherPlain := pathPlain other (by simp)
      have ends : Rest separator (spelled separator front ++ [separator]) := by
        cases @spelled_rest _ separator front with
        | inl empty => exact .inr ⟨[], by rw [empty]; rfl⟩
        | inr more =>
          obtain ⟨more, same⟩ := more
          exact .inr ⟨more ++ [separator], by rw [same]; rfl⟩
      rw [spelled_cons, spelled_cons, List.cons_append, List.append_assoc,
        List.cons_prefix_cons, name_prefix_iff namePlain otherPlain ends (spelled_rest path),
        ih (fun inner listed => plain inner (by simp [listed]))
          (fun inner listed => pathPlain inner (by simp [listed]))]
      simp only [true_and, List.append_eq_nil_iff, List.cons_ne_nil, and_false, false_and,
        false_or, List.cons_append, List.cons.injEq]
      constructor
      · intro ⟨same, inner, more, below⟩
        exact ⟨inner, more, same.symm, below⟩
      · intro ⟨inner, more, same, below⟩
        exact ⟨same.symm, inner, more, below⟩

/-- The same spelling, or one that begins with the other's and a separator: a path that is
the other or below it. -/
theorem spelled_within_iff {front path : List (List Letter)}
    (plain : ∀ name ∈ front, separator ∉ name) (pathPlain : ∀ name ∈ path, separator ∉ name) :
    spelled separator path = spelled separator front ∨
        spelled separator front ++ [separator] <+: spelled separator path ↔
      front <+: path := by
  -- A separator after the longer spelling is one more, empty, name.
  have closed : spelled separator (path ++ [[]]) = spelled separator path ++ [separator] := by
    simp [spelled]
  have pathPlain' : ∀ name ∈ path ++ [[]], separator ∉ name := by
    intro name listed
    cases List.mem_append.mp listed with
    | inl inside => exact pathPlain name inside
    | inr empty => simp [List.mem_singleton.mp empty]
  have both := spelled_separator_prefix_iff plain pathPlain'
  rw [closed, List.prefix_concat_iff, List.append_left_inj] at both
  rw [eq_comm, both]
  constructor
  · intro ⟨name, more, split⟩
    cases List.append_eq_append_iff.mp split with
    | inl shorter =>
      obtain ⟨middle, rfl, rest⟩ := shorter
      cases middle with
      | nil => simp
      | cons _ _ => simp at rest
    | inr longer =>
      obtain ⟨middle, rfl, _⟩ := longer
      exact List.prefix_append _ _
  · intro below
    obtain ⟨rest, rfl⟩ := below
    cases rest with
    | nil => exact ⟨[], [], by simp⟩
    | cons name rest => exact ⟨name, rest ++ [[]], by simp⟩

end Fantastic.SpelledPath

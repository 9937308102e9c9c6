import Fantastic.Foundation.PurePath
import Fantastic.Rust.FileGate
import Mathlib.Algebra.Ring.Int.Defs
import Mathlib.Data.List.Infix

/-!
# The clamp of the Rust file bridge

`root_of`, `clamp_root` and `resolve_safe` of `fantastic-file`, and the paths that its verbs hand
to the operating system. A Rust path is its components: a root, and what stands between the
slashes, without `.`. `HOME` and the current directory are what the process has. The depth that
`resolve_safe` counts is an `i32` and wraps, as it does in a release build.
-/

namespace Fantastic.Rust.FileBundle

open PurePath (segments)

/-! ### The clamp -/

def isAbsolute (text : String) : Bool :=
  text.toList.head? = some '/'

def pathOf (text : String) : PurePath where
  root := if isAbsolute text then "/" else ""
  parts := segments text

/-- `Path::join`. -/
def joinPath (front back : PurePath) : PurePath :=
  if back.root = "" then { front with parts := front.parts ++ back.parts } else back

/-- `expanduser`. -/
def expandUser (home : Option String) (text : String) : PurePath :=
  match text.toList, home with
  | '~' :: '/' :: rest, some home => joinPath (pathOf home) (pathOf (String.ofList rest))
  | [ '~'], some home => pathOf home
  | _, _ => pathOf text

def rootOf (home : Option String) (cwd : PurePath) (metadata : Dict) : PurePath :=
  match textMember metadata "root" with
  | some text => if text = "" then cwd else expandUser home text
  | none => cwd

/-- A component in `normalize_lexical`, with what stands before it. -/
def foldPart (out : List String) (part : String) : List String :=
  if part = ".." then
    if out.getLast?.any fun last => last ≠ ".." then out.dropLast else out ++ [part]
  else out ++ [part]

def normalizeLexical (path : PurePath) : PurePath :=
  { path with parts := path.parts.foldl foldPart [] }

def clampRoot (cwd raw base : PurePath) : Except String PurePath :=
  let base := normalizeLexical (joinPath cwd base)
  let norm := normalizeLexical (joinPath base raw)
  if norm.root = base.root ∧ base.parts <+: norm.parts then .ok norm
  else .error ("root " ++ norm.text ++ " escapes the running dir " ++ base.text)

/-- A signed 32-bit number. -/
def wrap (number : Int) : Int :=
  number.bmod (2 ^ 32)

/-- The loop of `resolve_safe`, from a depth. -/
def descend : Int → List String → Bool
  | _, [] => true
  | depth, part :: rest =>
    if part = ".." then decide (0 ≤ wrap (depth - 1)) && descend (wrap (depth - 1)) rest
    else descend (wrap (depth + 1)) rest

def resolveSafe (debug : String → String) (root : PurePath) (path : String) :
    Except String PurePath :=
  if isAbsolute path || !descend 0 (segments path) then
    .error ("path " ++ debug path ++ " escapes root")
  else .ok (joinPath root (pathOf path))

/-! ### The verbs -/

/-- A verb with its path, or its two. -/
inductive Access where
  | list (path : String)
  | read (path : String)
  | readStream (path : String)
  | delete (path : String)
  | mkdir (path : String)
  | write (path : String)
  | writeStream (path : String)
  | rename (old new : String)

namespace Access

def paths : Access → List String
  | .list path | .read path | .readStream path | .delete path | .mkdir path | .write path
  | .writeStream path => [path]
  | .rename old new => [old, new]

/-- The path whose parent directory the verb creates first. -/
def creates : Access → Option String
  | .write path | .writeStream path => some path
  | .rename _ new => some new
  | _ => none

end Access

/-- `Path::parent`. -/
def parentOf (path : PurePath) : Option PurePath :=
  if path.parts = [] then none else some { path with parts := path.parts.dropLast }

/-- The paths that a verb hands to the operating system. -/
def named (debug : String → String) (root : PurePath) (access : Access) : List PurePath :=
  let targets := access.paths.map (resolveSafe debug root)
  if targets.all fun target => target.toOption.isSome then
    (access.creates.bind fun path => (resolveSafe debug root path).toOption.bind parentOf).toList ++
      targets.filterMap Except.toOption
  else []

/-! ### What the clamp is for -/

/-- The lexical normalisation is that of the root or below it. -/
def Inside (root path : PurePath) : Prop :=
  (normalizeLexical path).root = (normalizeLexical root).root ∧
    (normalizeLexical root).parts <+: (normalizeLexical path).parts

/-- How far below its start a row of components ends. -/
def level (parts : List String) : Int :=
  (parts.map fun part => if part = ".." then -1 else 1).sum

/-- The components never climb above their start. -/
def Stays (parts : List String) : Prop :=
  ∀ front back, parts = front ++ back → 0 ≤ level front

/-- An accepted root is below the running directory; an accepted path, and every path the verb
names, is below the root; and a relative path that stays there is accepted. -/
def Clamped (debug : String → String) (cwd raw base : PurePath) (access : Access) : Prop :=
  ∀ root, clampRoot cwd raw base = .ok root → Inside base root ∧
    (∀ path ∈ access.paths, ∀ target, resolveSafe debug root path = .ok target →
      Inside root target) ∧
    (∀ path ∈ access.paths, isAbsolute path = false → Stays (segments path) →
      ∃ target, resolveSafe debug root path = .ok target) ∧
    ∀ path ∈ named debug root access, Inside root path

/-- At every `..` the depth before it fits the counter. -/
def Shallow (parts : List String) : Prop :=
  ∀ front back, parts = front ++ ".." :: back → 0 ≤ wrap (level front - 1)

/-! ### Depths -/

theorem level_cons (part : String) (parts : List String) :
    level (part :: parts) = (if part = ".." then -1 else 1) + level parts := by
  simp [level]

theorem wrap_wrap_add (number step : Int) : wrap (wrap number + step) = wrap (number + step) := by
  simp [wrap]

/-- The loop goes through when no `..` comes at a depth that is negative, or wraps to be. -/
theorem descend_iff (parts : List String) : ∀ depth : Int, descend (wrap depth) parts = true ↔
    ∀ front back, parts = front ++ ".." :: back → 0 ≤ wrap (depth + level front - 1) := by
  induction parts with
  | nil =>
    intro depth
    simp [descend]
  | cons part parts ih =>
    intro depth
    have below : ∀ step : Int, (if part = ".." then -1 else 1) = step →
        (∀ front back, parts = front ++ ".." :: back →
          0 ≤ wrap (depth + step + level front - 1)) →
        ∀ front back, part :: parts = front ++ ".." :: back → front ≠ [] →
          0 ≤ wrap (depth + level front - 1) := by
      intro step same later front back split some
      cases front with
      | nil => exact absurd rfl some
      | cons first front =>
        obtain ⟨rfl, rest⟩ := List.cons.inj split
        have here := later front back rest
        rw [level_cons, same]
        rwa [← add_assoc]
    have within : ∀ step : Int, (if part = ".." then -1 else 1) = step →
        (∀ front back, part :: parts = front ++ ".." :: back →
          0 ≤ wrap (depth + level front - 1)) →
        ∀ front back, parts = front ++ ".." :: back →
          0 ≤ wrap (depth + step + level front - 1) := by
      intro step same all front back split
      have here := all (part :: front) back (by rw [split]; rfl)
      rwa [level_cons, same, ← add_assoc] at here
    rw [descend]
    by_cases up : part = ".."
    · rw [if_pos up, Bool.and_eq_true, decide_eq_true_eq, sub_eq_add_neg, wrap_wrap_add, ih]
      constructor
      · rintro ⟨first, later⟩ front back split
        by_cases none : front = []
        · subst none
          simpa [level, sub_eq_add_neg] using first
        · exact below (-1) (if_pos up) later front back split none
      · intro all
        refine ⟨?_, within (-1) (if_pos up) all⟩
        have first := all [] parts (by rw [up]; rfl)
        simpa [level, sub_eq_add_neg] using first
    · rw [if_neg up, wrap_wrap_add, ih]
      constructor
      · intro later front back split
        apply below 1 (if_neg up) later front back split
        rintro rfl
        exact up (List.cons.inj split).1
      · exact within 1 (if_neg up)

theorem resolveSafe_ok_iff {debug : String → String} {root target : PurePath} {path : String} :
    resolveSafe debug root path = .ok target ↔
      isAbsolute path = false ∧ Shallow (segments path) ∧ target = joinPath root (pathOf path) := by
  have depth := descend_iff (segments path) 0
  have zero : wrap 0 = 0 := rfl
  simp only [zero, zero_add] at depth
  unfold resolveSafe Shallow
  rw [← depth]
  cases isAbsolute path <;> cases descend 0 (segments path) <;> simp [eq_comm]

/-- What the loop lets through never climbs: it would have to pass `-1` first. -/
theorem Shallow.stays {parts : List String} (shallow : Shallow parts) : Stays parts := by
  intro front
  induction front using List.reverseRecOn with
  | nil =>
    intro back _
    exact le_refl _
  | append_singleton front part ih =>
    intro back split
    have before := ih (part :: back) (by rw [split]; simp)
    have sum : level (front ++ [part]) = level front + if part = ".." then -1 else 1 := by
      simp [level]
    rw [sum]
    split
    case isTrue up =>
      by_contra negative
      have zero : level front = 0 := by omega
      have fits := shallow front back (by rw [split, up]; simp)
      rw [zero] at fits
      exact absurd fits (by decide)
    case isFalse => omega

/-! ### Normal forms -/

/-- Below names, components that stay there leave the start alone. -/
theorem foldl_stays (parts : List String) : ∀ out names : List String, ".." ∉ names →
    (∀ front back, parts = front ++ back → 0 ≤ names.length + level front) →
      out <+: parts.foldl foldPart (out ++ names) := by
  induction parts with
  | nil =>
    intro out names _ _
    exact List.prefix_append _ _
  | cons part parts ih =>
    intro out names plain stays
    have later : ∀ front back, parts = front ++ back →
        0 ≤ names.length + ((if part = ".." then -1 else 1) + level front) := by
      intro front back split
      have here := stays (part :: front) back (by rw [split]; rfl)
      rwa [level_cons] at here
    rw [List.foldl_cons, foldPart]
    by_cases up : part = ".."
    · simp only [if_pos up] at later ⊢
      have deep := later [] parts rfl
      obtain ⟨names, last, rfl⟩ : ∃ front last, names = front ++ [last] := by
        rcases List.eq_nil_or_concat names with rfl | ⟨front, last, rfl⟩
        · simp [level] at deep
        · exact ⟨front, last, by simp⟩
      have name : last ≠ ".." := by
        rintro rfl
        simp at plain
      rw [← List.append_assoc, List.getLast?_concat, Option.any_some, if_pos (by simpa using name),
        List.dropLast_concat]
      apply ih out names
      · intro inside
        exact plain (List.mem_append_left _ inside)
      · intro front back split
        have here := later front back split
        simp only [List.length_append, List.length_singleton] at here
        omega
    · simp only [if_neg up] at later ⊢
      rw [List.append_assoc]
      apply ih out (names ++ [part])
      · simp [plain, Ne.symm up]
      · intro front back split
        have here := later front back split
        simp only [List.length_append, List.length_singleton]
        omega

theorem stays_inside {root : PurePath} {parts : List String} (stays : Stays parts) :
    Inside root { root with parts := root.parts ++ parts } := by
  refine ⟨rfl, ?_⟩
  have start := foldl_stays parts (root.parts.foldl foldPart []) [] (by simp)
    (by simpa [Stays] using stays)
  simpa [normalizeLexical, List.foldl_append] using start

/-- Only the first components of a normal form go up. -/
def Normal (parts : List String) : Prop :=
  ∃ count names, parts = List.replicate count ".." ++ names ∧ ".." ∉ names

theorem Normal.foldPart {out : List String} (normal : Normal out) (part : String) :
    Normal (FileBundle.foldPart out part) := by
  obtain ⟨count, names, rfl, plain⟩ := normal
  unfold FileBundle.foldPart
  by_cases up : part = ".."
  · rw [if_pos up]
    rcases List.eq_nil_or_concat names with rfl | ⟨front, last, rfl⟩
    · rw [List.append_nil, if_neg]
      · exact ⟨count + 1, [], by rw [up, List.replicate_succ', List.append_nil], by simp⟩
      · cases count <;> simp [List.getLast?_replicate]
    · rw [List.concat_eq_append] at plain ⊢
      have name : last ≠ ".." := by
        rintro rfl
        simp at plain
      rw [← List.append_assoc, List.getLast?_concat, Option.any_some, if_pos (by simpa using name),
        List.dropLast_concat]
      exact ⟨count, front, rfl, fun inside => plain (List.mem_append_left _ inside)⟩
  · rw [if_neg up]
    exact ⟨count, names ++ [part], by rw [List.append_assoc], by simp [plain, Ne.symm up]⟩

theorem normal_foldl (parts : List String) : ∀ out, Normal out → Normal (parts.foldl foldPart out) := by
  induction parts with
  | nil => exact fun _ normal => normal
  | cons part parts ih => exact fun out normal => ih _ (normal.foldPart part)

/-- A normal form is folded to itself, and so is every part of it from its start. -/
theorem Normal.fixed {parts : List String} (normal : Normal parts) :
    parts.foldl FileBundle.foldPart [] = parts := by
  induction parts using List.reverseRecOn with
  | nil => rfl
  | append_singleton front part ih =>
    obtain ⟨count, names, same, plain⟩ := normal
    rw [List.foldl_append, List.foldl_cons, List.foldl_nil]
    rcases List.eq_nil_or_concat names with rfl | ⟨middle, last, rfl⟩
    · cases count with
      | zero => simp at same
      | succ count =>
        rw [List.append_nil, List.replicate_succ'] at same
        obtain ⟨start, finish⟩ := List.append_inj' same rfl
        subst start
        cases finish
        rw [ih ⟨count, [], by simp, by simp⟩, FileBundle.foldPart, if_pos rfl, if_neg]
        cases count <;> simp [List.getLast?_replicate]
    · rw [List.concat_eq_append, ← List.append_assoc] at same
      rw [List.concat_eq_append, List.mem_append, not_or] at plain
      obtain ⟨start, finish⟩ := List.append_inj' same rfl
      subst start
      cases finish
      rw [ih ⟨count, middle, rfl, plain.1⟩, FileBundle.foldPart, if_neg]
      rintro rfl
      simp at plain

/-! ### When the clamp does what it is for -/

variable {debug : String → String} {root : PurePath}

theorem clampRoot_ok_iff {cwd raw base root : PurePath} : clampRoot cwd raw base = .ok root ↔
    root = normalizeLexical (joinPath (normalizeLexical (joinPath cwd base)) raw) ∧
      root.root = (joinPath cwd base).root ∧
        (normalizeLexical (joinPath cwd base)).parts <+: root.parts := by
  unfold clampRoot
  simp only
  split
  case isTrue inside =>
    rw [Except.ok.injEq, eq_comm]
    constructor
    · rintro rfl
      exact ⟨rfl, inside⟩
    · exact And.left
  case isFalse outside =>
    refine iff_of_false (by simp) ?_
    rintro ⟨rfl, inside⟩
    exact outside inside

theorem target_inside {target : PurePath} {path : String}
    (accepted : resolveSafe debug root path = .ok target) : Inside root target := by
  obtain ⟨relative, shallow, rfl⟩ := resolveSafe_ok_iff.mp accepted
  have plain : (pathOf path).root = "" := by simp [pathOf, relative]
  rw [joinPath, if_pos plain]
  exact stays_inside shallow.stays

/-- The directory above a path that was accepted is inside the root unless the path is the root. -/
theorem parent_inside_iff (normal : Normal root.parts) {path : String} {target parent : PurePath}
    (accepted : resolveSafe debug root path = .ok target) (above : parentOf target = some parent) :
    Inside root parent ↔ segments path ≠ [] := by
  obtain ⟨relative, shallow, rfl⟩ := resolveSafe_ok_iff.mp accepted
  have plain : (pathOf path).root = "" := by simp [pathOf, relative]
  rw [joinPath, if_pos plain] at above
  unfold parentOf at above
  split at above
  case isTrue => cases above
  case isFalse some =>
    cases above
    change ¬ root.parts ++ segments path = [] at some
    change Inside root { root with parts := (root.parts ++ segments path).dropLast } ↔ _
    by_cases here : segments path = []
    · rw [here, List.append_nil] at some
      refine iff_of_false ?_ (by simp [here])
      rintro ⟨-, below⟩
      have shorter : Normal (root.parts.dropLast) := by
        obtain ⟨count, names, same, free⟩ := normal
        rcases List.eq_nil_or_concat names with rfl | ⟨front, last, rfl⟩
        · cases count with
          | zero => exact absurd (by simpa using same) some
          | succ count => exact ⟨count, [], by rw [same]; simp [List.replicate_succ'], by simp⟩
        · refine ⟨count, front, ?_, fun inside => free (by simp [inside])⟩
          rw [same, List.concat_eq_append, ← List.append_assoc, List.dropLast_concat]
      have size := below.length_le
      simp only [normalizeLexical, here, List.append_nil, normal.fixed, shorter.fixed,
        List.length_dropLast] at size
      have positive := List.length_pos_iff.mpr some
      omega
    · refine iff_of_true ?_ here
      rw [List.dropLast_append_of_ne_nil here]
      apply stays_inside
      intro front back split
      apply shallow.stays front (back ++ [(segments path).getLast here])
      rw [← List.append_assoc, ← split, List.dropLast_append_getLast]

/-- What the counter and the root itself ask of the paths of a verb. -/
def Fitting (debug : String → String) (root : PurePath) (access : Access) : Prop :=
  (∀ path ∈ access.paths, isAbsolute path = false → Stays (segments path) →
    Shallow (segments path)) ∧
  ∀ path, access.creates = some path →
    (∀ other ∈ access.paths, ∃ target, resolveSafe debug root other = .ok target) →
      root.parts = [] ∨ segments path ≠ []

theorem creates_mem {access : Access} {path : String} (creates : access.creates = some path) :
    path ∈ access.paths := by
  cases access <;> cases creates <;> simp [Access.paths]

theorem mem_named {access : Access} {path : PurePath} : path ∈ named debug root access ↔
    (∀ other ∈ access.paths, ∃ target, resolveSafe debug root other = .ok target) ∧
      ((∃ other ∈ access.paths, resolveSafe debug root other = .ok path) ∨
        ∃ other target, access.creates = some other ∧ resolveSafe debug root other = .ok target ∧
          parentOf target = some path) := by
  have accepted : ∀ answer : Except String PurePath, answer.toOption.isSome = true ↔
      ∃ target, answer = .ok target := by
    intro answer
    cases answer <;> simp [Except.toOption]
  have same : ∀ (answer : Except String PurePath) target, answer.toOption = some target ↔
      answer = .ok target := by
    intro answer target
    cases answer <;> simp [Except.toOption]
  have guard : ((access.paths.map (resolveSafe debug root)).all fun target =>
      target.toOption.isSome) = true ↔
        ∀ other ∈ access.paths, ∃ target, resolveSafe debug root other = .ok target := by
    simp only [List.all_map, List.all_eq_true, Function.comp_apply, accepted]
  unfold named
  simp only
  split
  case isTrue all =>
    rw [and_iff_right (guard.mp all)]
    simp only [List.mem_append, Option.mem_toList, Option.bind_eq_some_iff, List.mem_filterMap,
      List.mem_map, exists_exists_and_eq_and, same]
    rw [or_comm]
    constructor
    · rintro (here | ⟨other, creates, target, found, above⟩)
      · exact Or.inl here
      · exact Or.inr ⟨other, target, creates, found, above⟩
    · rintro (here | ⟨other, target, creates, found, above⟩)
      · exact Or.inl here
      · exact Or.inr ⟨other, creates, target, found, above⟩
  case isFalse none => exact iff_of_false (by simp) fun held => none (guard.mpr held.1)

/-- Every path a verb names is inside, for an accepted root, unless it is asked to make the
directory above the root. -/
theorem named_inside_iff (normal : Normal root.parts) (access : Access) :
    (∀ path ∈ named debug root access, Inside root path) ↔
      ∀ path, access.creates = some path →
        (∀ other ∈ access.paths, ∃ target, resolveSafe debug root other = .ok target) →
          root.parts = [] ∨ segments path ≠ [] := by
  constructor
  · intro inside path creates accepted
    by_contra neither
    rw [not_or, not_not] at neither
    obtain ⟨target, found⟩ := accepted path (creates_mem creates)
    obtain ⟨relative, -, same⟩ := resolveSafe_ok_iff.mp found
    have nonempty : target.parts ≠ [] := by
      rw [same, joinPath, if_pos (by simp [pathOf, relative])]
      simp [neither.1]
    have above : parentOf target = some { target with parts := target.parts.dropLast } :=
      if_neg nonempty
    have held := inside _ (mem_named.mpr ⟨accepted, Or.inr ⟨path, target, creates, found, above⟩⟩)
    exact (parent_inside_iff normal found above).mp held neither.2
  · intro fits path member
    obtain ⟨accepted, ⟨other, _, found⟩ | ⟨other, target, creates, found, above⟩⟩ :=
      mem_named.mp member
    · exact target_inside found
    · rw [parent_inside_iff normal found above]
      rcases fits other creates accepted with top | some
      · intro here
        obtain ⟨relative, -, rfl⟩ := resolveSafe_ok_iff.mp found
        rw [joinPath, if_pos (by simp [pathOf, relative])] at above
        have gone : root.parts ++ (pathOf other).parts = [] := by
          rw [top]
          exact here
        rw [parentOf, if_pos gone] at above
        cases above
      · exact some

theorem clamped_iff (debug : String → String) (home : Option String) (cwd : PurePath)
    (metadata : Dict) (workdir : List String) (access : Access) :
    Clamped debug cwd (rootOf home cwd metadata) ⟨"/", workdir⟩ access ↔
      ∀ root, clampRoot cwd (rootOf home cwd metadata) ⟨"/", workdir⟩ = .ok root →
        Fitting debug root access := by
  apply forall_congr'
  intro root
  apply forall_congr'
  intro clamped
  obtain ⟨spelled, top, below⟩ := clampRoot_ok_iff.mp clamped
  have normal : Normal root.parts := by
    rw [spelled]
    exact normal_foldl _ [] ⟨0, [], rfl, by simp⟩
  have placed : Inside ⟨"/", workdir⟩ root := by
    refine ⟨top, ?_⟩
    have fixed : (normalizeLexical root).parts = root.parts := normal.fixed
    rw [fixed]
    exact below
  rw [and_iff_right placed, and_iff_right fun path _ target => target_inside,
    named_inside_iff normal]
  apply and_congr_left'
  apply forall_congr'
  intro path
  apply forall_congr'
  intro member
  apply forall_congr'
  intro relative
  apply forall_congr'
  intro stays
  constructor
  · rintro ⟨target, found⟩
    exact (resolveSafe_ok_iff.mp found).2.1
  · exact fun shallow => ⟨_, resolveSafe_ok_iff.mpr ⟨relative, shallow, rfl⟩⟩

/-- A bridge on a directory that is not there yet. -/
def unbornRoot : Dict where
  entries := [("root", .str "data/in")]
  nodup := (by decide : ["root"].Nodup)

/-- A write to the root itself makes the directory above it. -/
theorem write_to_root_names_its_parent :
    ¬ Clamped id (pathOf "/work") (rootOf none (pathOf "/work") unbornRoot) ⟨"/", ["work"]⟩
      (.write "") := by
  rw [clamped_iff]
  intro fits
  have clamped : clampRoot (pathOf "/work") (rootOf none (pathOf "/work") unbornRoot)
      ⟨"/", ["work"]⟩ = .ok ⟨"/", ["work", "data", "in"]⟩ := rfl
  have empty : segments "" = [] := rfl
  rcases (fits _ clamped).2 "" rfl (fun other member => ⟨⟨"/", ["work", "data", "in"]⟩, by
    simp only [Access.paths, List.mem_singleton] at member
    subst member
    rfl⟩) with top | some
  · exact absurd top (by simp)
  · exact some empty

end Fantastic.Rust.FileBundle

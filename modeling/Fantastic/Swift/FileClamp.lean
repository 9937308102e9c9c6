import Fantastic.Foundation.PurePath
import Fantastic.Foundation.SpelledPath
import Fantastic.Swift.Kernel

/-!
# The clamp of the Swift file bundle

`clampedRoot` and `resolve` of `FileBundle.swift` and `Kernel.canonPath`. A standardized
file URL is the list of its names, folded without looking at the disk, and there are no
symbolic links for `canonPath` to resolve. Both functions decide on the texts of the paths:
`clampedRoot` with a slash at the end of the running directory, `resolve` without one.
-/

namespace Fantastic.Swift.FileBundle

open PurePath (Segment segments walkFrom)
open SpelledPath

/-- A standardized file URL: the names from the top of the disk down. -/
abbrev Location := List Segment

/-- `standardizedFileURL` of an absolute path. -/
def standardized (parts : List String) : Location :=
  walkFrom [] parts

def letters (location : Location) : List (List Char) :=
  location.map fun name => name.val.toList

/-- The property `path` of a standardized URL. -/
def pathText (location : Location) : String :=
  if location = [] then "/" else String.ofList (spelled '/' (letters location))

def hasPrefix (text front : String) : Bool :=
  decide (front.toList <+: text.toList)

/-- `Kernel.canonPath` where no component is a symbolic link. -/
def canonPath (text : String) : String :=
  if hasPrefix text "/private/" then String.ofList (text.toList.drop 8) else text

/-- `workdirBase`, standardized; a kernel in memory falls back to the process's directory. -/
def workdirBase (kernel : Kernel) (currentDirectory : String) : Location :=
  standardized (segments (kernel.workdir.getD currentDirectory))

/-- The root before it is clamped: the configured one, or the agent's own directory. -/
def candidateRoot (base : Location) (agent : Agent) : Location :=
  match agent.metaValue "root" with
  | some (.str raw) =>
    if raw = "" then standardized (agent.rootPath.flatMap segments)
    else if hasPrefix raw "/" then standardized (segments raw)
    else walkFrom base (segments raw)
  | _ => standardized (agent.rootPath.flatMap segments)

def clampedRoot (kernel : Kernel) (currentDirectory : String) (agent : Agent) : Option Location :=
  let base := workdirBase kernel currentDirectory
  let candidate := candidateRoot base agent
  let canonical := canonPath (pathText candidate)
  let bound := canonPath (pathText base)
  if canonical = bound ∨ hasPrefix canonical (bound ++ "/") then some candidate else none

/-- Where a request leads from a root. -/
def combined (root : Location) (request : String) : Location :=
  walkFrom root (segments request)

def resolve (root : Location) (request : String) : Option Location :=
  if hasPrefix (pathText (combined root request)) (pathText root) then some (combined root request)
  else none

/-! ### The two bounds and when they hold -/

/-- Whatever both functions let through is below the running directory and below the root. -/
def ClampHolds (kernel : Kernel) (currentDirectory : String) (agent : Agent) (request : String) :
    Prop :=
  ∀ root target, clampedRoot kernel currentDirectory agent = some root →
    resolve root request = some target →
      workdirBase kernel currentDirectory <+: target ∧ root <+: target

/-- A place without the leading `private` that `canonPath` takes for an alias. -/
def unaliased : Location → Location
  | first :: second :: rest => if first.val = "private" then second :: rest
      else first :: second :: rest
  | location => location

/-- The root is the running directory or below it once the alias is taken off both. -/
def Admitted (base root : Location) : Prop :=
  if unaliased base = [] then unaliased root = [] else unaliased base <+: unaliased root

/-- The request leads to a directory beside the root whose name goes on where the root's
name ends, or to something in it. -/
def Beside (root target : Location) : Prop :=
  LongerSibling (letters root) (letters target)

def privateName : Segment := ⟨"private", by decide⟩

/-- The root is below the running directory by its own names. The one exception is a root
`/private` over a running directory `/private/private`, for requests that go below the
latter. -/
def Housed (base root target : Location) : Prop :=
  base <+: root ∨ base = [privateName, privateName] ∧ root = [privateName] ∧ base <+: target

/-! ### Texts and names -/

theorem letters_plain (location : Location) : ∀ name ∈ letters location, '/' ∉ name := by
  intro name listed
  obtain ⟨segment, _, rfl⟩ := List.mem_map.mp listed
  exact segment.property.2.2.2

theorem letters_prefix_iff {front location : Location} :
    letters front <+: letters location ↔ front <+: location := by
  unfold letters
  rw [List.prefix_map_iff_of_injective]
  intro first second same
  exact Subtype.ext (String.toList_injective same)

theorem pathText_of_ne {location : Location} (inner : location ≠ []) :
    (pathText location).toList = spelled '/' (letters location) := by
  simp [pathText, inner]

theorem pathText_top : (pathText []).toList = ['/'] := rfl

theorem spelled_letters_ne {location : Location} (inner : location ≠ []) :
    ∃ letter more, letter ≠ '/' ∧ spelled '/' (letters location) = '/' :: letter :: more := by
  cases location with
  | nil => exact absurd rfl inner
  | cons name rest =>
    cases spelling : name.val.toList with
    | nil => exact absurd (String.toList_injective spelling) name.property.1
    | cons letter more =>
      refine ⟨letter, more ++ spelled '/' (letters rest), ?_, ?_⟩
      · intro same
        exact name.property.2.2.2 (by simp [spelling, same])
      · simp [letters, spelled, spelling]

theorem beside_top {root : Location} : ¬ Beside root [] := by
  intro longer
  obtain ⟨upper, last, extra, more, _, _, whole⟩ := longer
  simp [letters] at whole

/-- What `resolve` asks of the texts, said of the names. -/
theorem resolve_check_iff {root target : Location} :
    hasPrefix (pathText target) (pathText root) = true ↔ root <+: target ∨ Beside root target := by
  unfold hasPrefix
  rw [decide_eq_true_iff]
  by_cases top : root = []
  · subst top
    rw [pathText_top]
    refine iff_of_true ?_ (.inl List.nil_prefix)
    by_cases targetTop : target = []
    · subst targetTop
      exact List.prefix_rfl
    · obtain ⟨letter, more, _, spelling⟩ := spelled_letters_ne targetTop
      rw [pathText_of_ne targetTop, spelling]
      exact List.prefix_append _ _
  · rw [pathText_of_ne top]
    by_cases targetTop : target = []
    · subst targetTop
      obtain ⟨letter, more, _, spelling⟩ := spelled_letters_ne top
      rw [pathText_top, spelling]
      refine iff_of_false (by simp) ?_
      intro either
      cases either with
      | inl below => exact top (List.prefix_nil.mp below)
      | inr longer => exact beside_top longer
    · rw [pathText_of_ne targetTop, spelled_prefix_iff (letters_plain root) (letters_plain target),
        letters_prefix_iff]
      rfl

/-- What `clampedRoot` asks of two texts, said of the names. -/
theorem clamp_check_iff {base root : Location} :
    pathText root = pathText base ∨ hasPrefix (pathText root) (pathText base ++ "/") = true ↔
      if base = [] then root = [] else base <+: root := by
  unfold hasPrefix
  rw [decide_eq_true_iff, ← String.toList_inj, String.toList_append]
  change _ ∨ _ ++ ['/'] <+: _ ↔ _
  by_cases top : base = []
  · subst top
    rw [if_pos rfl, pathText_top]
    by_cases rootTop : root = []
    · subst rootTop
      exact iff_of_true (.inl rfl) rfl
    · obtain ⟨letter, more, plain, spelling⟩ := spelled_letters_ne rootTop
      rw [pathText_of_ne rootTop, spelling]
      refine iff_of_false ?_ rootTop
      simp [List.cons_prefix_cons, plain.symm]
  · rw [if_neg top, pathText_of_ne top]
    by_cases rootTop : root = []
    · subst rootTop
      obtain ⟨letter, more, _, spelling⟩ := spelled_letters_ne top
      rw [pathText_top, spelling]
      refine iff_of_false (by simp) ?_
      intro below
      exact top (List.prefix_nil.mp below)
    · rw [pathText_of_ne rootTop, spelled_within_iff (letters_plain base) (letters_plain root),
        letters_prefix_iff]

theorem alias_prefix_iff {location : Location} :
    hasPrefix (pathText location) "/private/" = true ↔
      ∃ second rest, location = privateName :: second :: rest := by
  unfold hasPrefix
  rw [decide_eq_true_iff]
  by_cases top : location = []
  · subst top
    rw [pathText_top]
    exact iff_of_false (by decide) (by simp)
  · have spelling : "/private/".toList = spelled '/' (letters [privateName]) ++ ['/'] := by
      decide
    rw [pathText_of_ne top, spelling,
      spelled_separator_prefix_iff (letters_plain [privateName]) (letters_plain location)]
    constructor
    · intro ⟨name, more, split⟩
      match location, split with
      | [_], split => simp [letters] at split
      | first :: second :: rest, split =>
        refine ⟨second, rest, ?_⟩
        have same : first.val.toList = privateName.val.toList := by
          simpa [letters] using (List.cons.inj split).1
        rw [show first = privateName from Subtype.ext (String.toList_injective same)]
    · intro ⟨second, rest, same⟩
      exact ⟨second.val.toList, letters rest, by simp [same, letters]⟩

theorem canonPath_pathText (location : Location) :
    canonPath (pathText location) = pathText (unaliased location) := by
  unfold canonPath
  by_cases aliased : ∃ second rest, location = privateName :: second :: rest
  · rw [if_pos (alias_prefix_iff.mpr aliased)]
    obtain ⟨second, rest, rfl⟩ := aliased
    have whole : spelled '/' (letters (privateName :: second :: rest)) =
        "/private".toList ++ spelled '/' (letters (second :: rest)) := by
      rw [letters, List.map_cons, spelled_cons]
      rfl
    apply String.toList_injective
    rw [pathText_of_ne (by simp), whole, String.toList_ofList, List.drop_left' (by decide)]
    change _ = (pathText (second :: rest)).toList
    rw [pathText_of_ne (by simp)]
  · rw [if_neg (fun found => aliased (alias_prefix_iff.mp found))]
    congr 1
    unfold unaliased
    split
    case h_1 first second rest =>
      rw [if_neg]
      intro same
      exact aliased ⟨second, rest, by rw [show first = privateName from Subtype.ext same]⟩
    case h_2 => rfl

/-! ### The two functions -/

theorem clampedRoot_eq_some_iff {kernel : Kernel} {currentDirectory : String} {agent : Agent}
    {root : Location} :
    clampedRoot kernel currentDirectory agent = some root ↔
      root = candidateRoot (workdirBase kernel currentDirectory) agent ∧
        Admitted (workdirBase kernel currentDirectory)
          (candidateRoot (workdirBase kernel currentDirectory) agent) := by
  have check : (canonPath (pathText (candidateRoot (workdirBase kernel currentDirectory) agent)) =
        canonPath (pathText (workdirBase kernel currentDirectory)) ∨
      hasPrefix (canonPath (pathText (candidateRoot (workdirBase kernel currentDirectory) agent)))
        (canonPath (pathText (workdirBase kernel currentDirectory)) ++ "/") = true) ↔
      Admitted (workdirBase kernel currentDirectory)
        (candidateRoot (workdirBase kernel currentDirectory) agent) := by
    rw [canonPath_pathText, canonPath_pathText]
    exact clamp_check_iff
  unfold clampedRoot
  by_cases admitted : Admitted (workdirBase kernel currentDirectory)
      (candidateRoot (workdirBase kernel currentDirectory) agent)
  · simp only [if_pos (check.mpr admitted), Option.some.injEq, admitted, and_true]
    exact eq_comm
  · simp only [if_neg (fun passed => admitted (check.mp passed)), reduceCtorEq, admitted, and_false]

theorem resolve_eq_some_iff {root target : Location} {request : String} :
    resolve root request = some target ↔
      target = combined root request ∧
        (root <+: combined root request ∨ Beside root (combined root request)) := by
  unfold resolve
  rw [← resolve_check_iff]
  split
  case isTrue accepted =>
    rw [Option.some.injEq]
    exact ⟨fun same => ⟨same.symm, accepted⟩, fun both => both.1.symm⟩
  case isFalse refused => simp [refused]

theorem unaliased_eq_nil_iff {location : Location} : unaliased location = [] ↔ location = [] := by
  unfold unaliased
  split
  · split <;> simp
  · rfl

/-- A root strictly above the running directory is let in only by the alias. -/
theorem admitted_above {base root : Location} (admitted : Admitted base root)
    (above : root <+: base) (outside : ¬ base <+: root) :
    base = [privateName, privateName] ∧ root = [privateName] := by
  obtain ⟨tail, rfl⟩ := above
  have longer : tail ≠ [] := by
    intro none'
    exact outside (by simp [none'])
  have inner : unaliased (root ++ tail) ≠ [] := by
    rw [Ne, unaliased_eq_nil_iff, List.append_eq_nil_iff]
    exact fun both => longer both.2
  rw [Admitted, if_neg inner] at admitted
  match root, admitted with
  | [], admitted => exact absurd (List.prefix_nil.mp admitted) inner
  | [only], admitted =>
    cases tail with
    | nil => exact absurd rfl longer
    | cons next rest =>
      simp only [List.singleton_append, unaliased] at admitted
      by_cases aliased : only.val = "private"
      · rw [if_pos aliased, List.cons_prefix_cons, List.prefix_nil] at admitted
        obtain ⟨rfl, rfl⟩ := admitted
        rw [show next = privateName from Subtype.ext aliased]
        exact ⟨rfl, rfl⟩
      · rw [if_neg aliased] at admitted
        simp at admitted
  | first :: second :: rest, admitted =>
    simp only [List.cons_append, unaliased] at admitted
    have shorter : (rest ++ tail).length ≤ rest.length := by
      by_cases aliased : first.val = "private"
      · rw [if_pos aliased, if_pos aliased, List.cons_prefix_cons] at admitted
        exact admitted.2.length_le
      · rw [if_neg aliased, if_neg aliased, List.cons_prefix_cons, List.cons_prefix_cons] at admitted
        exact admitted.2.2.length_le
    have positive := List.length_pos_iff.mpr longer
    rw [List.length_append] at shorter
    omega

/-- A kernel that runs in `/work`. -/
def atWork : Kernel := Kernel.fresh (some "/work") 256

def notesAgent : Agent :=
  Agent.new
    { id := "notes", handlerModule := some "file_bridge.tools", parentId := some "kernel"
      metadata := OrderedDict.empty.insert "root" (.str "notes") }
    ["/work", ".fantastic", "agents", "notes"]

end Fantastic.Swift.FileBundle

import Fantastic.Foundation.OrderedDict
import Mathlib.Data.List.Infix

/-!
# Directory trees

A directory tree as a finite map from paths to entries. The top directory is always
there, and a field of the structure says that every other entry hangs in a directory.
File contents are of any type. There are no links, so a path is a place.
-/

namespace Fantastic

inductive Entry (Content : Type*) where
  | directory
  | file (content : Content)
  deriving DecidableEq

def Entry.map {Content Other : Type*} (read : Content → Other) : Entry Content → Entry Other
  | .directory => .directory
  | .file content => .file (read content)

section Entries

variable {Name Content : Type*} [DecidableEq Name]

def entryAt (entries : OrderedDict (List Name) (Entry Content)) (path : List Name) :
    Option (Entry Content) :=
  if path = [] then some .directory else entries.get? path

end Entries

structure Disk (Name Content : Type*) [DecidableEq Name] where
  entries : OrderedDict (List Name) (Entry Content)
  hung : ∀ path name, entryAt entries (path ++ [name]) ≠ none →
    entryAt entries path = some .directory

namespace Disk

variable {Name Content : Type*} [DecidableEq Name]

def at? (disk : Disk Name Content) (path : List Name) : Option (Entry Content) :=
  entryAt disk.entries path

@[simp] theorem at?_nil (disk : Disk Name Content) : disk.at? [] = some .directory := rfl

theorem at?_of_ne_nil (disk : Disk Name Content) {path : List Name} (inner : path ≠ []) :
    disk.at? path = disk.entries.get? path := by
  rw [at?, entryAt, if_neg inner]

theorem parent_directory {disk : Disk Name Content} {path : List Name} {name : Name}
    (there : disk.at? (path ++ [name]) ≠ none) : disk.at? path = some .directory :=
  disk.hung path name there

def isDir (disk : Disk Name Content) (path : List Name) : Bool :=
  match disk.at? path with
  | some .directory => true
  | _ => false

def isFile (disk : Disk Name Content) (path : List Name) : Bool :=
  match disk.at? path with
  | some (.file _) => true
  | _ => false

def exists? (disk : Disk Name Content) (path : List Name) : Bool :=
  (disk.at? path).isSome

theorem isDir_iff {disk : Disk Name Content} {path : List Name} :
    disk.isDir path = true ↔ disk.at? path = some .directory := by
  unfold isDir
  split <;> simp_all

/-- Whatever lies at or below a path has directories all the way up. -/
theorem directory_of_below {disk : Disk Name Content} {path rest : List Name}
    (there : disk.at? (path ++ rest) ≠ none) (strict : rest ≠ []) :
    disk.at? path = some .directory := by
  induction rest using List.reverseRecOn with
  | nil => exact absurd rfl strict
  | append_singleton front last ih =>
    rw [← List.append_assoc] at there
    have above := parent_directory there
    by_cases direct : front = []
    · simpa [direct] using above
    · exact ih (by simp [above]) direct

/-- The bare tree: an empty top directory. -/
def bare : Disk Name Content where
  entries := .empty
  hung := by simp [entryAt]

theorem at?_bare {path : List Name} (inner : path ≠ []) :
    (bare : Disk Name Content).at? path = none := by
  rw [at?_of_ne_nil _ inner]
  rfl

/-- Set one entry in an existing directory, unless a directory is in its place. -/
def put (disk : Disk Name Content) (parent : List Name) (name : Name)
    (entry : Entry Content) : Option (Disk Name Content) :=
  if free : disk.isDir parent = true ∧ ¬disk.isDir (parent ++ [name]) = true then
    some
      { entries := disk.entries.insert (parent ++ [name]) entry
        hung := by
          intro path other there
          have keep (place : List Name) (away : place ≠ parent ++ [name]) :
              entryAt (disk.entries.insert (parent ++ [name]) entry) place = disk.at? place := by
            by_cases top : place = []
            · simp [top, entryAt]
            · rw [entryAt, if_neg top, OrderedDict.get?_insert_of_ne _ _ away,
                at?_of_ne_nil disk top]
          by_cases here : path ++ [other] = parent ++ [name]
          · obtain ⟨rfl, -⟩ := List.append_inj' here rfl
            rw [keep path (by simp), isDir_iff.mp free.1]
          · rw [keep _ here] at there
            have above := parent_directory there
            rw [keep path, above]
            rintro rfl
            exact free.2 (isDir_iff.mpr above) }
  else none

theorem at?_put {disk changed : Disk Name Content} {parent : List Name} {name : Name}
    {entry : Entry Content} (done : disk.put parent name entry = some changed)
    (path : List Name) :
    changed.at? path = if path = parent ++ [name] then some entry else disk.at? path := by
  unfold put at done
  split at done
  case isFalse => simp at done
  case isTrue free =>
    cases done
    by_cases top : path = []
    · subst top
      simp
    · simp only [at?, entryAt, if_neg top, OrderedDict.get?_insert]

theorem put_isSome {disk : Disk Name Content} {parent : List Name} {name : Name}
    {entry : Entry Content} (above : disk.at? parent = some .directory)
    (clear : disk.at? (parent ++ [name]) ≠ some .directory) :
    ∃ changed, disk.put parent name entry = some changed := by
  rw [put, dif_pos ⟨isDir_iff.mpr above, fun there => clear (isDir_iff.mp there)⟩]
  exact ⟨_, rfl⟩

/-- `mkdir(parents=True, exist_ok=True)` of `base/rest`, `base` being there. -/
def makeDirectories (disk : Disk Name Content) (base : List Name) :
    List Name → Option (Disk Name Content)
  | [] => some disk
  | name :: rest =>
    match disk.at? (base ++ [name]) with
    | some (.file _) => none
    | some .directory => disk.makeDirectories (base ++ [name]) rest
    | none => do
        let made ← disk.put base name .directory
        made.makeDirectories (base ++ [name]) rest

/-- A directory that is there already is left as it is. -/
theorem makeDirectories_standing {disk : Disk Name Content} {base rest : List Name}
    (there : disk.at? (base ++ rest) = some .directory) :
    disk.makeDirectories base rest = some disk := by
  induction rest generalizing base with
  | nil => rfl
  | cons name rest ih =>
    rw [List.append_cons] at there
    have here : disk.at? (base ++ [name]) = some .directory := by
      by_cases last : rest = []
      · simpa [last] using there
      · apply directory_of_below _ last
        rw [there]
        simp
    simp only [makeDirectories, here]
    exact ih there

theorem at?_makeDirectories {disk changed : Disk Name Content} {base rest : List Name}
    (above : disk.at? base = some .directory)
    (done : disk.makeDirectories base rest = some changed) (path : List Name) :
    changed.at? path =
      if base <+: path ∧ path <+: base ++ rest then some .directory else disk.at? path := by
  induction rest generalizing disk base with
  | nil =>
    cases done
    split
    case isTrue inside =>
      have same : path = base := by
        rw [List.append_nil] at inside
        exact (inside.1.eq_of_length (Nat.le_antisymm inside.1.length_le inside.2.length_le)).symm
      rw [same, above]
    case isFalse => rfl
  | cons name rest ih =>
    have between : base <+: path ∧ path <+: base ++ name :: rest ↔
        path = base ∨ (base ++ [name] <+: path ∧ path <+: base ++ [name] ++ rest) := by
      constructor
      · rintro ⟨⟨tail, rfl⟩, upper⟩
        cases tail with
        | nil => exact Or.inl (List.append_nil base)
        | cons first tail =>
          rw [List.prefix_append_right_inj, List.cons_prefix_cons] at upper
          obtain ⟨rfl, upper⟩ := upper
          right
          constructor
          · exact ⟨tail, by simp⟩
          · rw [List.append_assoc, List.prefix_append_right_inj]
            simpa using upper
      · rintro (rfl | ⟨lower, upper⟩)
        · simp
        · exact ⟨(List.prefix_append base [name]).trans lower, by simpa using upper⟩
    simp only [between]
    unfold makeDirectories at done
    split at done
    case h_1 => simp at done
    case h_2 there =>
      rw [ih there done]
      by_cases same : path = base
      · subst same
        simp [above]
      · simp [same]
    case h_3 =>
      simp only [Option.bind_eq_bind, Option.bind_eq_some_iff] at done
      obtain ⟨made, putDone, done⟩ := done
      have placed := at?_put putDone
      rw [ih (by simp [placed]) done]
      by_cases same : path = base
      · subst same
        simp [placed, above]
      · by_cases here : path = base ++ [name]
        · subst here
          simp
        · simp [placed, same, here]

/-- Directories can be made where no file is in the way. -/
theorem makeDirectories_isSome {disk : Disk Name Content} {base rest : List Name}
    (above : disk.at? base = some .directory)
    (clear : ∀ front, front <+: rest → ∀ content, disk.at? (base ++ front) ≠ some (.file content)) :
    ∃ changed, disk.makeDirectories base rest = some changed := by
  induction rest generalizing disk base with
  | nil => exact ⟨disk, rfl⟩
  | cons name rest ih =>
    have step (next : Disk Name Content) (there : next.at? (base ++ [name]) = some .directory)
        (keep : ∀ path, path ≠ base ++ [name] → next.at? path = disk.at? path) :
        ∃ changed, next.makeDirectories (base ++ [name]) rest = some changed := by
      apply ih there
      intro front within content
      cases front with
      | nil => simp [there]
      | cons first front =>
        rw [keep _ (by simp), List.append_assoc]
        exact clear _ (by simpa using within) content
    unfold makeDirectories
    split
    case h_1 content there =>
      exact absurd there (clear [name] (by simp) content)
    case h_2 there => exact step disk there (fun _ _ => rfl)
    case h_3 missing =>
      obtain ⟨made, putDone⟩ : ∃ made, disk.put base name .directory = some made :=
        put_isSome above (by simp [missing])
      have placed := at?_put putDone
      obtain ⟨changed, deeper⟩ := step made (by simp [placed])
        (fun path away => by simp [placed, away])
      exact ⟨changed, by simp [putDone, deeper]⟩

/-- Directories are made only where no file is in the way. -/
theorem makeDirectories_clear {disk changed : Disk Name Content} {base rest : List Name}
    (above : disk.at? base = some .directory)
    (done : disk.makeDirectories base rest = some changed) :
    ∀ front, front <+: rest → ∀ content, disk.at? (base ++ front) ≠ some (.file content) := by
  induction rest generalizing disk base with
  | nil =>
    intro front within content
    rw [List.prefix_nil.mp within, List.append_nil, above]
    simp
  | cons name rest ih =>
    intro front within content
    cases front with
    | nil => simp [above]
    | cons first front =>
      obtain ⟨rfl, deeper⟩ := List.cons_prefix_cons.mp within
      have split : base ++ first :: front = base ++ [first] ++ front := by simp
      unfold makeDirectories at done
      split at done
      case h_1 => cases done
      case h_2 there =>
        rw [split]
        exact ih there done front deeper content
      case h_3 missing =>
        intro file
        have gone : disk.at? (base ++ [first] ++ front) = none := by
          by_contra there
          by_cases direct : front = []
          · rw [direct, List.append_nil] at there
            exact there missing
          · have above := directory_of_below there direct
            rw [missing] at above
            cases above
        rw [split, gone] at file
        cases file

/-- Write a whole file, making the directories above it. -/
def writeFile (disk : Disk Name Content) (parent : List Name) (name : Name)
    (content : Content) : Option (Disk Name Content) := do
  let made ← disk.makeDirectories [] parent
  made.put parent name (.file content)

/-- Keep the entries whose path passes a test that is closed under going up. -/
def restrict (disk : Disk Name Content) (keep : List Name → Bool)
    (upward : ∀ path name, keep (path ++ [name]) = true → path ≠ [] → keep path = true) :
    Disk Name Content where
  entries := disk.entries.filterKeys keep
  hung := by
    intro path name there
    rw [entryAt, if_neg (by simp), OrderedDict.get?_filterKeys] at there
    split at there
    case isFalse => exact absurd rfl there
    case isTrue kept =>
      have above : disk.at? path = some .directory := by
        apply @parent_directory _ _ _ disk path name
        rwa [at?_of_ne_nil disk (by simp)]
      by_cases top : path = []
      · simp [top, entryAt]
      · rw [entryAt, if_neg top, OrderedDict.get?_filterKeys, if_pos (upward path name kept top),
          ← at?_of_ne_nil disk top, above]

theorem at?_restrict (disk : Disk Name Content) {keep : List Name → Bool}
    (upward : ∀ path name, keep (path ++ [name]) = true → path ≠ [] → keep path = true)
    {path : List Name} (inner : path ≠ []) :
    (disk.restrict keep upward).at? path = if keep path then disk.at? path else none := by
  rw [at?_of_ne_nil _ inner, at?_of_ne_nil _ inner]
  exact OrderedDict.get?_filterKeys keep disk.entries path

/-- Remove an entry with everything below it. -/
def removeTree (disk : Disk Name Content) (gone : List Name) : Disk Name Content :=
  disk.restrict (fun path => !decide (gone <+: path)) (by
    intro path name kept _
    simp only [Bool.not_eq_true', decide_eq_false_iff_not] at kept ⊢
    intro below
    exact kept (below.trans (List.prefix_append path [name])))

theorem at?_removeTree (disk : Disk Name Content) {gone : List Name} (inner : gone ≠ [])
    (path : List Name) :
    (disk.removeTree gone).at? path = if gone <+: path then none else disk.at? path := by
  by_cases top : path = []
  · subst top
    simp [inner]
  · rw [removeTree, at?_restrict _ _ top]
    by_cases below : gone <+: path <;> simp [below]

/-- The names in a directory. -/
def names (disk : Disk Name Content) (path : List Name) : List Name :=
  disk.entries.keys.filterMap fun key => if key.dropLast = path then key.getLast? else none

theorem mem_names {disk : Disk Name Content} {path : List Name} {name : Name} :
    name ∈ disk.names path ↔ disk.at? (path ++ [name]) ≠ none := by
  rw [at?_of_ne_nil disk (by simp), ← Option.isSome_iff_ne_none, Option.isSome_iff_exists,
    ← OrderedDict.mem_keys_iff]
  simp only [names, List.mem_filterMap]
  constructor
  · rintro ⟨key, member, found⟩
    split at found
    case isFalse => simp at found
    case isTrue above =>
      obtain ⟨front, rfl⟩ := List.getLast?_eq_some_iff.mp found
      rw [List.dropLast_concat] at above
      rwa [← above]
  · intro member
    exact ⟨path ++ [name], member, by simp⟩

theorem names_nodup (disk : Disk Name Content) (path : List Name) : (disk.names path).Nodup := by
  apply List.Nodup.filterMap _ disk.entries.keys_nodup
  have spelled (key : List Name) (name : Name)
      (found : (if key.dropLast = path then key.getLast? else none) = some name) :
      key = path ++ [name] := by
    split at found
    case isFalse => simp at found
    case isTrue above =>
      obtain ⟨front, rfl⟩ := List.getLast?_eq_some_iff.mp found
      rw [← above, List.dropLast_concat]
  intro first second name inFirst inSecond
  rw [spelled first name inFirst, spelled second name inSecond]

/-- The same tree with its files read through a function. -/
def mapFiles {Other : Type*} (read : Content → Other) (disk : Disk Name Content) :
    Disk Name Other where
  entries := disk.entries.mapItems (Entry.map read)
  hung := by
    intro path name there
    have below : disk.at? (path ++ [name]) ≠ none := by
      intro missing
      rw [at?_of_ne_nil disk (by simp)] at missing
      rw [entryAt, if_neg (by simp), OrderedDict.get?_mapItems, missing] at there
      exact there rfl
    have above := parent_directory below
    by_cases top : path = []
    · simp [top, entryAt]
    · rw [at?_of_ne_nil disk top] at above
      rw [entryAt, if_neg top, OrderedDict.get?_mapItems, above]
      rfl

theorem at?_mapFiles {Other : Type*} (read : Content → Other) (disk : Disk Name Content)
    (path : List Name) : (disk.mapFiles read).at? path = (disk.at? path).map (Entry.map read) := by
  by_cases top : path = []
  · subst top
    rfl
  · rw [at?_of_ne_nil _ top, at?_of_ne_nil _ top]
    exact OrderedDict.get?_mapItems _ _ _

theorem isDir_mapFiles {Other : Type*} (read : Content → Other) (disk : Disk Name Content)
    (path : List Name) : (disk.mapFiles read).isDir path = disk.isDir path := by
  unfold isDir
  rw [at?_mapFiles]
  cases disk.at? path with
  | none => rfl
  | some entry => cases entry <;> rfl

theorem names_mapFiles {Other : Type*} (read : Content → Other) (disk : Disk Name Content)
    (path : List Name) : (disk.mapFiles read).names path = disk.names path := by
  unfold names mapFiles
  rw [OrderedDict.keys_mapItems]

/-- Where an entry is once the tree at `source` has been moved to `target`. -/
def relocate (source target path : List Name) : Option (List Name) :=
  if source <+: path then some (target ++ path.drop source.length)
  else if target <+: path then none
  else some path

theorem relocate_eq_some {source target path moved : List Name} :
    relocate source target path = some moved ↔
      (target <+: moved ∧ path = source ++ moved.drop target.length) ∨
        (¬ target <+: moved ∧ ¬ source <+: moved ∧ path = moved) := by
  unfold relocate
  constructor
  · intro found
    split at found
    case isTrue inside =>
      obtain ⟨rest, rfl⟩ := inside
      rw [List.drop_left, Option.some.injEq] at found
      subst found
      exact Or.inl ⟨List.prefix_append target rest, by rw [List.drop_left]⟩
    case isFalse outside =>
      split at found
      case isTrue => cases found
      case isFalse free =>
        cases found
        exact Or.inr ⟨free, outside, rfl⟩
  · intro placed
    cases placed with
    | inl inside =>
      obtain ⟨⟨rest, rfl⟩, rfl⟩ := inside
      rw [List.drop_left, if_pos (List.prefix_append source rest), List.drop_left]
    | inr outside =>
      obtain ⟨free, away, rfl⟩ := outside
      rw [if_neg away, if_neg free]

/-- The entries of a tree with the part at `source` moved to `target`. -/
def movedEntries (disk : Disk Name Content) (source target : List Name) :
    OrderedDict (List Name) (Entry Content) where
  entries := disk.entries.entries.filterMap fun entry =>
    (relocate source target entry.1).map fun path => (path, entry.2)
  nodup := by
    have keys : (disk.entries.entries.filterMap fun entry =>
        (relocate source target entry.1).map fun path => (path, entry.2)).map Prod.fst =
          disk.entries.keys.filterMap (relocate source target) := by
      rw [List.map_filterMap, OrderedDict.keys, List.filterMap_map]
      congr 1
      funext entry
      simp [Function.comp_def]
    rw [keys]
    apply List.Nodup.filterMap _ disk.entries.keys_nodup
    intro first second moved fromFirst fromSecond
    have one := relocate_eq_some.mp fromFirst
    have two := relocate_eq_some.mp fromSecond
    obtain ⟨inside, rfl⟩ | ⟨free, _, rfl⟩ := one
    · obtain ⟨_, rfl⟩ | ⟨other, _, _⟩ := two
      · rfl
      · exact absurd inside other
    · obtain ⟨other, _⟩ | ⟨_, _, rfl⟩ := two
      · exact absurd other free
      · rfl

theorem get?_movedEntries (disk : Disk Name Content) (source target path : List Name) :
    (disk.movedEntries source target).get? path =
      if target <+: path then disk.entries.get? (source ++ path.drop target.length)
      else if source <+: path then none
      else disk.entries.get? path := by
  apply Option.ext
  intro entry
  rw [← OrderedDict.mem_entries_iff]
  simp only [movedEntries, List.mem_filterMap, Option.map_eq_some_iff, Prod.mk.injEq]
  constructor
  · rintro ⟨⟨old, item⟩, listed, moved, found, rfl, rfl⟩
    rw [OrderedDict.mem_entries_iff] at listed
    obtain ⟨inside, same⟩ | ⟨free, away, same⟩ := relocate_eq_some.mp found
    · rw [if_pos inside, ← same]
      exact listed
    · rw [if_neg free, if_neg away, ← same]
      exact listed
  · intro found
    split at found
    case isTrue inside =>
      refine ⟨(source ++ path.drop target.length, entry), OrderedDict.mem_entries_iff.mpr found,
        path, ?_, rfl, rfl⟩
      exact relocate_eq_some.mpr (Or.inl ⟨inside, rfl⟩)
    case isFalse free =>
      split at found
      case isTrue => cases found
      case isFalse away =>
        refine ⟨(path, entry), OrderedDict.mem_entries_iff.mpr found, path, ?_, rfl, rfl⟩
        exact relocate_eq_some.mpr (Or.inr ⟨free, away, rfl⟩)

/-- The tree at `source` may be moved to `target`: neither holds the other, and the new
parent is a directory. -/
def Movable (disk : Disk Name Content) (source target : List Name) : Prop :=
  ¬ source <+: target ∧ ¬ target <+: source ∧ disk.isDir target.dropLast = true

instance (disk : Disk Name Content) (source target : List Name) :
    Decidable (disk.Movable source target) :=
  inferInstanceAs (Decidable (_ ∧ _ ∧ _))

theorem entryAt_movedEntries {disk : Disk Name Content} {source target : List Name}
    (movable : disk.Movable source target) (path : List Name) :
    entryAt (disk.movedEntries source target) path =
      if target <+: path then disk.at? (source ++ path.drop target.length)
      else if source <+: path then none
      else disk.at? path := by
  obtain ⟨apart, below, _⟩ := movable
  have sourceInner : source ≠ [] := by
    intro top
    exact apart (by simp [top])
  have targetInner : target ≠ [] := by
    intro top
    exact below (by simp [top])
  by_cases top : path = []
  · subst top
    simp [entryAt, sourceInner, targetInner]
  · rw [entryAt, if_neg top, get?_movedEntries, at?_of_ne_nil disk top,
      at?_of_ne_nil disk (by simp [sourceInner])]

/-- Move a tree, over whatever is at the target. -/
def moveTree (disk : Disk Name Content) (source target : List Name) :
    Option (Disk Name Content) :=
  if movable : disk.Movable source target then
    some
      { entries := disk.movedEntries source target
        hung := by
          intro path name there
          rw [entryAt_movedEntries movable] at there ⊢
          by_cases inside : target <+: path
          · have deeper : target <+: path ++ [name] := inside.trans (List.prefix_append _ _)
            rw [if_pos deeper, List.drop_append_of_le_length inside.length_le,
              ← List.append_assoc] at there
            rw [if_pos inside]
            exact parent_directory there
          · rw [if_neg inside]
            by_cases here : target <+: path ++ [name]
            · -- the target itself: its parent is a directory and stays
              have same : target = path ++ [name] := by
                obtain equal | within := List.prefix_concat_iff.mp here
                · exact equal
                · exact absurd within inside
              have away : ¬ source <+: path := by
                intro within
                apply movable.1
                rw [same]
                exact within.trans (List.prefix_append _ _)
              rw [if_neg away]
              have above := isDir_iff.mp movable.2.2
              rw [same, List.dropLast_concat] at above
              exact above
            · rw [if_neg here] at there
              split at there
              case isTrue => exact absurd rfl there
              case isFalse away =>
                have out : ¬ source <+: path := by
                  intro within
                  exact away (within.trans (List.prefix_append _ _))
                rw [if_neg out]
                exact parent_directory there }
  else none

theorem at?_moveTree {disk moved : Disk Name Content} {source target : List Name}
    (done : disk.moveTree source target = some moved) (path : List Name) :
    moved.at? path =
      if target <+: path then disk.at? (source ++ path.drop target.length)
      else if source <+: path then none
      else disk.at? path := by
  unfold moveTree at done
  split at done
  case isFalse => cases done
  case isTrue movable =>
    cases done
    exact entryAt_movedEntries movable path

end Disk

end Fantastic

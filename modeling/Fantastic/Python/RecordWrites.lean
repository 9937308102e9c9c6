import Fantastic.Python.RecordTree

/-!
# What writing a record changes

The layout below a loader's root alternates: a directory of agents, an agent's own
directory, and so on down. `Tidy` says that no file stands where a directory of that
layout goes and no directory where one of an agent's own files goes. In a tidy tree every
write lands, and it changes what `read_tree` sees at one place.
-/

namespace Fantastic.Python.Loader

open PurePath (Segment walkFrom segments)

/-- The directory of an agent below the root, from the ids on the way to it. -/
def nodePath (childrenDir : Segment) (ids : List Segment) : Place :=
  ids.flatMap fun id => [childrenDir, id]

theorem nodePath_length (childrenDir : Segment) (ids : List Segment) :
    (nodePath childrenDir ids).length = 2 * ids.length := by
  induction ids with
  | nil => rfl
  | cons id ids ih =>
    simp only [nodePath, List.flatMap_cons, List.length_append, List.length_cons,
      List.length_nil] at ih ⊢
    omega

/-- Every step on the way is an agent's directory or a directory of agents. -/
theorem nodePath_prefix {childrenDir : Segment} {ids : List Segment} {front : Place}
    (within : front <+: nodePath childrenDir ids) :
    front.length % 2 = 0 ∨ front.getLast? = some childrenDir := by
  induction ids generalizing front with
  | nil =>
    have empty : front = [] := List.prefix_nil.mp within
    simp [empty]
  | cons id ids ih =>
    rw [nodePath, List.flatMap_cons, ← nodePath] at within
    cases front with
    | nil => simp
    | cons first front =>
      rw [List.cons_append, List.cons_prefix_cons] at within
      obtain ⟨rfl, within⟩ := within
      cases front with
      | nil => simp
      | cons second front =>
        rw [List.cons_append, List.cons_prefix_cons] at within
        have deeper := ih within.2
        cases deeper with
        | inl even =>
          left
          simp only [List.length_cons]
          omega
        | inr last =>
          right
          cases front with
          | nil => simp at last
          | cons third front => simpa [List.getLast?_cons_cons] using last

/-- A prefix of the layout that ends at an agent's directory is an agent's directory. -/
theorem nodePath_prefix_iff (childrenDir : Segment) {front ids : List Segment} :
    nodePath childrenDir front <+: nodePath childrenDir ids ↔ front <+: ids := by
  induction front generalizing ids with
  | nil => simp [nodePath]
  | cons first front ih =>
    cases ids with
    | nil => simp [nodePath]
    | cons id ids =>
      simp only [nodePath, List.flatMap_cons, List.cons_append, List.nil_append,
        List.cons_prefix_cons, true_and] at ih ⊢
      rw [ih]

theorem nodePath_injective (childrenDir : Segment) {first second : List Segment}
    (same : nodePath childrenDir first = nodePath childrenDir second) : first = second := by
  have within : nodePath childrenDir first <+: nodePath childrenDir second := by
    rw [same]
  have length := congrArg List.length same
  rw [nodePath_length, nodePath_length] at length
  exact ((nodePath_prefix_iff childrenDir).mp within).eq_of_length (by omega)

/-- The files an agent's directory holds besides its sidecars. -/
def ownFiles : List Segment := [agentJson, agentJsonTmp, readmeMd, readmeMdTmp]

structure Tidy (disk : RecordDisk) (base : Place) (childrenDir : Segment) : Prop where
  based : ∀ front, front <+: base → ∀ content, disk.at? front ≠ some (.file content)
  noFile : ∀ rest content, disk.at? (base ++ rest) = some (.file content) →
    rest.length % 2 = 1 ∧ rest.getLast? ≠ some childrenDir
  noDirectory : ∀ rest name, name ∈ ownFiles → rest.length % 2 = 0 →
    disk.at? (base ++ rest ++ [name]) ≠ some .directory

/-- One file written in a directory, a temporary one beside it possibly gone. -/
structure FileWritten (disk changed : RecordDisk) (dir : Place) (name : Segment)
    (temporary : Option Segment) (content : Document) : Prop where
  written : changed.at? (dir ++ [name]) = some (.file content)
  opened : ∀ place, place <+: dir → changed.at? place = some .directory
  erased : ∀ temp, temporary = some temp → ∀ place, dir ++ [temp] <+: place →
    changed.at? place = none
  kept : ∀ place, place ≠ dir ++ [name] → ¬place <+: dir →
    (∀ temp, temporary = some temp → ¬dir ++ [temp] <+: place) →
    changed.at? place = disk.at? place

section Layout

variable {disk changed : RecordDisk} {base : Place} {childrenDir : Segment}

/-- Nothing is in the way of a directory of the layout. -/
theorem Tidy.clear (tidy : Tidy disk base childrenDir) (ids : List Segment) :
    ∀ front, front <+: base ++ nodePath childrenDir ids →
      ∀ content, disk.at? front ≠ some (.file content) := by
  intro front within content there
  cases List.prefix_or_prefix_of_prefix within (List.prefix_append base _) with
  | inl above =>
    exact tidy.based front above content there
  | inr below =>
    obtain ⟨rest, rfl⟩ := below
    rw [List.prefix_append_right_inj] at within
    have misplaced := tidy.noFile rest content there
    cases nodePath_prefix within with
    | inl even => omega
    | inr last => exact misplaced.2 last

theorem Tidy.fileWritten (tidy : Tidy disk base childrenDir) {ids : List Segment}
    {name : Segment} {temporary : Option Segment} {content : Document}
    (own : name ∈ ownFiles) (usable : childrenDir ∉ ownFiles)
    (write : FileWritten disk changed (base ++ nodePath childrenDir ids) name temporary content) :
    Tidy changed base childrenDir where
  based := by
    intro front above other
    rw [write.opened front (above.trans (List.prefix_append _ _))]
    simp
  noFile := by
    intro rest other there
    by_cases here : base ++ rest = base ++ nodePath childrenDir ids ++ [name]
    · rw [List.append_assoc, List.append_cancel_left_eq] at here
      subst here
      refine ⟨by simp [nodePath_length], ?_⟩
      rw [List.getLast?_concat]
      intro same
      exact usable (Option.some.inj same ▸ own)
    · by_cases within : base ++ rest <+: base ++ nodePath childrenDir ids
      · rw [write.opened _ within] at there
        simp at there
      · by_cases gone : ∀ temp, temporary = some temp →
            ¬base ++ nodePath childrenDir ids ++ [temp] <+: base ++ rest
        · rw [write.kept _ here within gone] at there
          exact tidy.noFile rest other there
        · push Not at gone
          obtain ⟨temp, isTemp, below⟩ := gone
          rw [write.erased temp isTemp _ below] at there
          simp at there
  noDirectory := by
    intro rest other member even there
    by_cases here : base ++ rest ++ [other] = base ++ nodePath childrenDir ids ++ [name]
    · rw [here, write.written] at there
      simp at there
    · by_cases within : base ++ rest ++ [other] <+: base ++ nodePath childrenDir ids
      · rw [List.append_assoc, List.prefix_append_right_inj] at within
        cases nodePath_prefix within with
        | inl length =>
          simp only [List.length_append, List.length_singleton] at length
          omega
        | inr last =>
          rw [List.getLast?_concat] at last
          exact usable (Option.some.inj last ▸ member)
      · by_cases gone : ∀ temp, temporary = some temp →
            ¬base ++ nodePath childrenDir ids ++ [temp] <+: base ++ rest ++ [other]
        · rw [write.kept _ here within gone] at there
          exact tidy.noDirectory rest other member even there
        · push Not at gone
          obtain ⟨temp, isTemp, below⟩ := gone
          rw [write.erased temp isTemp _ below] at there
          simp at there

theorem ownFiles_ne_agentJson {temp : Segment} (isTemp : temp ∈ [agentJsonTmp, readmeMdTmp]) :
    temp ≠ agentJson := by
  rintro rfl
  revert isTemp
  decide

/-- Away from the file itself, `read_tree` sees what it saw. -/
theorem Tidy.recordIn_kept (tidy : Tidy disk base childrenDir) {ids : List Segment}
    {name : Segment} {temporary : Option Segment} {content : Document}
    (write : FileWritten disk changed (base ++ nodePath childrenDir ids) name temporary content)
    (temps : ∀ temp, temporary = some temp → temp ∈ [agentJsonTmp, readmeMdTmp])
    {place : Place} (away : place ++ [agentJson] ≠ base ++ nodePath childrenDir ids ++ [name]) :
    recordIn changed place = recordIn disk place := by
  unfold recordIn recordAt
  by_cases within : place ++ [agentJson] <+: base ++ nodePath childrenDir ids
  · rw [write.opened _ within]
    have clear := tidy.clear ids _ within
    split
    case h_1 record there => simp at there
    case h_2 =>
      split
      case h_1 record there => exact absurd there (clear _)
      case h_2 => rfl
  · by_cases gone : ∀ temp, temporary = some temp →
        ¬base ++ nodePath childrenDir ids ++ [temp] <+: place ++ [agentJson]
    · rw [write.kept _ away within gone]
    · push Not at gone
      obtain ⟨temp, isTemp, below⟩ := gone
      rw [write.erased temp isTemp _ below]
      -- a temporary file has nothing below it and is not called `agent.json`
      obtain ⟨rest, same⟩ := below
      have before : disk.at? (place ++ [agentJson]) = none := by
        rw [← same]
        by_cases whole : rest = []
        · subst whole
          rw [List.append_nil] at same
          have last := (List.append_inj' same rfl).2
          exact absurd (by simpa using last) (ownFiles_ne_agentJson (temps temp isTemp))
        · by_contra there
          have directory := Disk.directory_of_below there whole
          refine tidy.noDirectory (nodePath childrenDir ids) temp ?_ ?_ directory
          · have member := temps temp isTemp
            simp only [ownFiles, List.mem_cons, List.not_mem_nil, or_false] at member ⊢
            tauto
          · simp [nodePath_length]
      rw [before]

/-- A write of a layout file goes through. -/
theorem writeAtomic_written (runtime : Runtime) (tidy : Tidy disk base childrenDir)
    (ids : List Segment) {name temp : Segment} (content : Document) (different : name ≠ temp)
    (own : name ∈ ownFiles) (ownTemp : temp ∈ ownFiles) :
    ∃ written,
      writeAtomic runtime disk (base ++ nodePath childrenDir ids ++ [name]) temp content =
        .ok written ∧
      FileWritten disk written (base ++ nodePath childrenDir ids) name (some temp) content := by
  have even : (nodePath childrenDir ids).length % 2 = 0 := by simp [nodePath_length]
  have outside (other : Segment) :
      ¬base ++ nodePath childrenDir ids ++ [other] <+: base ++ nodePath childrenDir ids :=
    Fs.last_outside _ other
  obtain ⟨made, parents, placed⟩ := @Fs.makeParents_succeeds _ runtime disk _ name (tidy.clear ids)
  have freeTemp : made.at? (base ++ nodePath childrenDir ids ++ [temp]) ≠ some .directory := by
    rw [placed, if_neg (outside temp)]
    exact tidy.noDirectory _ _ ownTemp even
  obtain ⟨beside, tempDone, besideAt⟩ :=
    Fs.putFile_succeeds runtime content (by simp [placed]) freeTemp
  have freeName : beside.at? (base ++ nodePath childrenDir ids ++ [name]) ≠ some .directory := by
    rw [besideAt, if_neg (by simpa using different), placed, if_neg (outside name)]
    exact tidy.noDirectory _ _ own even
  have stillOpen : beside.at? (base ++ nodePath childrenDir ids) = some .directory := by
    rw [besideAt, if_neg (by simp), placed, if_pos List.prefix_rfl]
  obtain ⟨replaced, nameDone, replacedAt⟩ :=
    Fs.putFile_succeeds runtime content stillOpen freeName
  refine ⟨replaced.removeTree (base ++ nodePath childrenDir ids ++ [temp]), ?_, ?_⟩
  · rw [writeAtomic, parents]
    simp only [bind, Except.bind, List.dropLast_concat, tempDone, nameDone]
    rfl
  · have final := @Disk.at?_removeTree _ _ _ replaced
      (base ++ nodePath childrenDir ids ++ [temp]) (by simp)
    have apart : ¬base ++ nodePath childrenDir ids ++ [temp] <+:
        base ++ nodePath childrenDir ids ++ [name] := by
      intro within
      rw [List.prefix_append_right_inj, List.cons_prefix_cons] at within
      exact different within.1.symm
    constructor
    · rw [final, if_neg apart, replacedAt, if_pos rfl]
    · intro place within
      have notBelow : ¬base ++ nodePath childrenDir ids ++ [temp] <+: place :=
        fun below => outside temp (below.trans within)
      have notName : place ≠ base ++ nodePath childrenDir ids ++ [name] := by
        rintro rfl
        exact outside name within
      have notTemp : place ≠ base ++ nodePath childrenDir ids ++ [temp] := by
        rintro rfl
        exact outside temp within
      rw [final, if_neg notBelow, replacedAt, if_neg notName, besideAt, if_neg notTemp, placed,
        if_pos within]
    · rintro other same place below
      cases same
      rw [final, if_pos below]
    · intro place notName notWithin notTemp
      have notBelow := notTemp temp rfl
      have apartTemp : place ≠ base ++ nodePath childrenDir ids ++ [temp] := by
        rintro rfl
        exact notBelow List.prefix_rfl
      rw [final, if_neg notBelow, replacedAt, if_neg notName, besideAt, if_neg apartTemp, placed,
        if_neg notWithin]

/-- Seeding a readme changes no record. -/
theorem seedReadme_keeps (process : Process) (packageReadme : String → Option String)
    (tidy : Tidy disk base childrenDir) (usable : childrenDir ∉ ownFiles) {ids : List Segment}
    {path : PurePath} (handlerModule : Value)
    (rooted : Fs.resolveRoot process.runtime process.cwd path =
      .ok (base ++ nodePath childrenDir ids)) :
    Tidy (seedReadme process packageReadme path handlerModule disk).1 base childrenDir ∧
      ∀ place, recordIn (seedReadme process packageReadme path handlerModule disk).1 place =
        recordIn disk place := by
  have file := resolve_name rooted readmeMd
  have same : Tidy disk base childrenDir ∧ ∀ place, recordIn disk place = recordIn disk place :=
    ⟨tidy, fun _ => rfl⟩
  unfold seedReadme
  rw [show "readme.md" = readmeMd.val from rfl, file]
  simp only
  split
  · exact same
  split
  · exact same
  split
  · exact same
  · exact same
  · rename_i text _
    obtain ⟨written, done, write⟩ := writeAtomic_written process.runtime tidy ids (.text text)
      (show readmeMd ≠ readmeMdTmp by decide) (by decide) (by decide)
    rw [done]
    refine ⟨tidy.fileWritten (by decide) usable write, ?_⟩
    intro place
    apply tidy.recordIn_kept write
    · rintro temp same
      cases same
      decide
    · intro clash
      have last := (List.append_inj' clash rfl).2
      revert last
      decide

/-- Writing a record changes the record of its own directory and no other. -/
theorem writeRecord_effect (process : Process) (packageReadme : String → Option String)
    (tidy : Tidy disk base childrenDir) (usable : childrenDir ∉ ownFiles) {ids : List Segment}
    {path : PurePath} (record : Dict)
    (rooted : Fs.resolveRoot process.runtime process.cwd path =
      .ok (base ++ nodePath childrenDir ids)) :
    Tidy (writeRecord process packageReadme path record disk).1 base childrenDir ∧
      ∀ place, recordIn (writeRecord process packageReadme path record disk).1 place =
        if place = base ++ nodePath childrenDir ids ∧ jsonableMembers
            (((recordIn disk (base ++ nodePath childrenDir ids)).getD .empty).update record).entries
        then some (((recordIn disk (base ++ nodePath childrenDir ids)).getD .empty).update record)
        else recordIn disk place := by
  have file := resolve_name rooted agentJson
  unfold writeRecord
  rw [show "agent.json" = agentJson.val from rfl, file]
  simp only
  rw [← recordIn]
  by_cases dumps : jsonableMembers
      (((recordIn disk (base ++ nodePath childrenDir ids)).getD .empty).update record).entries = true
  · obtain ⟨written, done, write⟩ := writeAtomic_written process.runtime tidy ids
      (.json (((recordIn disk (base ++ nodePath childrenDir ids)).getD .empty).update record))
      (show agentJson ≠ agentJsonTmp by decide) (by decide) (by decide)
    have tidied := tidy.fileWritten (by decide) usable write
    obtain ⟨tidySeeded, seeded⟩ := seedReadme_keeps process packageReadme tidied usable
      (getD record "handler_module") rooted
    simp only [dumps, Bool.not_true, Bool.false_eq_true, if_false, done, and_true]
    refine ⟨tidySeeded, ?_⟩
    intro place
    rw [seeded]
    by_cases here : place = base ++ nodePath childrenDir ids
    · subst here
      rw [if_pos rfl, recordIn, recordAt, write.written]
    · rw [if_neg here]
      apply tidy.recordIn_kept write
      · rintro temp same
        cases same
        decide
      · intro clash
        exact here (List.append_inj' clash rfl).1
  · rw [Bool.not_eq_true] at dumps
    simp only [dumps, Bool.not_false, Bool.false_eq_true, if_true, and_false, if_false,
      implies_true, and_true]
    exact tidy

end Layout

/-- A path with more plain names at its end. -/
def descend (path : PurePath) (names : Place) : PurePath :=
  { path with parts := path.parts ++ names.map Subtype.val }

theorem resolveRoot_descend {process : Process} {root : PurePath} {base : Place}
    (rooted : Fs.resolveRoot process.runtime process.cwd root = .ok base) (names : Place) :
    Fs.resolveRoot process.runtime process.cwd (descend root names) = .ok (base ++ names) := by
  have longer : Fs.resolvePath process.cwd (descend root names) =
      ((Fs.resolvePath process.cwd root).1, (Fs.resolvePath process.cwd root).2 ++ names) := by
    unfold Fs.resolvePath descend
    by_cases relative : root.root = ""
    · simp only [relative, if_true, PurePath.walkFrom_append, PurePath.walkFrom_plain]
    · simp only [relative, if_false, PurePath.walkFrom_append, PurePath.walkFrom_plain]
  simp only [Fs.resolveRoot, longer] at rooted ⊢
  split at rooted
  case isFalse => cases rooted
  case isTrue inside =>
    cases rooted
    simp only [Bool.and_eq_true, decide_eq_true_eq] at inside
    have deeper := inside.2.trans (List.prefix_append _ names)
    simp [inside.1, deeper]

/-- Joining ids to a path, the children directory before each. -/
theorem join_ids (childrenDir : Segment) (ids : List Segment) (root : PurePath) :
    (ids.map fun id => Value.str id.val).foldlM
        (fun path part => do (← Address.join path (.str childrenDir.val)).join part)
        (.path root) =
      (.ok (.path (descend root (nodePath childrenDir ids))) : Except PyError Address) := by
  induction ids generalizing root with
  | nil => simp [descend, nodePath, pure, Except.pure]
  | cons id ids ih =>
    have one : descend (descend root [childrenDir, id]) (nodePath childrenDir ids) =
        descend root (nodePath childrenDir (id :: ids)) := by
      simp [descend, nodePath]
    have step : (do (← Address.join (.path root) (.str childrenDir.val)).join (.str id.val)) =
        (.ok (.path (descend root [childrenDir, id])) : Except PyError Address) := by
      simp [Address.join, bind, Except.bind, PurePath.join_plain childrenDir.property,
        PurePath.join_plain id.property, descend]
    rw [List.map_cons, List.foldlM_cons, step, ← one]
    exact ih (descend root [childrenDir, id])

end Fantastic.Python.Loader

import Fantastic.Python.RecordStore

/-!
# What reading a record tree gives

`read_tree` follows texts; this module says what it finds in terms of places. With a
children directory that is one plain name, the walk from a directory lists exactly the
records that are `Stored` below it, each place once.
-/

namespace Fantastic.Python.Loader

open PurePath (Segment walkFrom segments)

/-- The record in an agent's directory. -/
def recordIn (disk : RecordDisk) (place : Place) : Option Dict :=
  recordAt disk (place ++ [agentJson])

structure Finding where
  place : Place
  parentId : Value
  record : Dict

/-- A finding as `_walk` puts it out: the position is authoritative. -/
def Finding.positioned (finding : Finding) : Dict :=
  finding.record.insert "parent_id" finding.parentId

/-- What lies below a directory of agents. -/
inductive Stored (disk : RecordDisk) (childrenDir : Segment) :
    Place → Value → Finding → Prop where
  | direct {dir : Place} {parentId : Value} {name : Segment} {record : Dict}
      (found : recordIn disk (dir ++ [name]) = some record) :
      Stored disk childrenDir dir parentId ⟨dir ++ [name], parentId, record⟩
  | nested {dir : Place} {parentId : Value} {name : Segment} {record : Dict} {finding : Finding}
      (found : recordIn disk (dir ++ [name]) = some record)
      (deeper : Stored disk childrenDir (dir ++ [name] ++ [childrenDir]) (getD record "id") finding) :
      Stored disk childrenDir dir parentId finding

/-- The walk over places. -/
def findings (disk : RecordDisk) (childrenDir : Segment) : Nat → Place → Value → List Finding
  | 0, _, _ => []
  | fuel + 1, dir, parentId =>
    (sortedNames disk dir).flatMap fun name =>
      match recordIn disk (dir ++ [name]) with
      | none => []
      | some record =>
        ⟨dir ++ [name], parentId, record⟩ ::
          findings disk childrenDir fuel (dir ++ [name] ++ [childrenDir]) (getD record "id")

/-! ### From texts to places -/

theorem resolve_join {process : Process} {root : PurePath} {rel : String} {dir : Place}
    (resolved : Fs.resolve process.runtime process.cwd root rel = .ok dir) (name : Segment) :
    Fs.resolve process.runtime process.cwd root (rel ++ "/" ++ name.val) = .ok (dir ++ [name]) := by
  simp only [Fs.resolve, bind_eq_ok_iff] at resolved ⊢
  obtain ⟨base, rooted, inside⟩ := resolved
  refine ⟨base, rooted, ?_⟩
  split at inside
  case isFalse => cases inside
  case isTrue below =>
    cases inside
    have target : walkFrom base (segments (rel ++ "/" ++ name.val)) =
        walkFrom base (segments rel) ++ [name] := by
      rw [PurePath.segments_slash, PurePath.segments_of_plain name.property,
        PurePath.walkFrom_append]
      exact PurePath.walkFrom_plain _ [name]
    rw [target, if_pos (below.trans (List.prefix_append _ _))]
    rfl

theorem segments_stripSlashes (text : String) : segments (stripSlashes text) = segments text := by
  have strip (chars : List Char) :
      ((chars.dropWhile fun char => char = '/').splitOn '/').filter (· ≠ []) =
        (chars.splitOn '/').filter (· ≠ []) := by
    induction chars with
    | nil => rfl
    | cons char chars ih =>
      by_cases slash : char = '/'
      · subst slash
        rw [List.dropWhile_cons_of_pos (by simp), ih]
        simp [List.splitOn_cons_eq_if_modifyHead]
      · rw [List.dropWhile_cons_of_neg (by simp [slash])]
  have outer (pieces : List (List Char)) :
      (pieces.map String.ofList).filter (fun part => part ≠ "" && part ≠ ".") =
        ((pieces.filter (· ≠ [])).map String.ofList).filter
          (fun part => part ≠ "" && part ≠ ".") := by
    rw [List.filter_map, List.filter_map, List.filter_filter]
    congr 1
    apply List.filter_congr
    intro piece _
    cases piece <;> simp
  unfold segments stripSlashes
  rw [outer, String.toList_ofList, strip, ← outer]

theorem resolve_stripSlashes (process : Process) (root : PurePath) {rel : String} {dir : Place}
    (resolved : Fs.resolve process.runtime process.cwd root rel = .ok dir) :
    Fs.resolve process.runtime process.cwd root (stripSlashes rel) = .ok dir := by
  simp only [Fs.resolve, bind_eq_ok_iff] at resolved ⊢
  obtain ⟨base, rooted, inside⟩ := resolved
  refine ⟨base, rooted, ?_⟩
  rw [segments_stripSlashes]
  split at inside
  case isFalse => cases inside
  case isTrue below => rw [if_pos below, ← inside]

theorem sortedNames_perm (disk : RecordDisk) (dir : Place) :
    (sortedNames disk dir).Perm (disk.names dir) :=
  List.mergeSort_perm _ _

/-- The walk over texts is the walk over places. -/
theorem walk_eq_findings {process : Process} {disk : RecordDisk} {root : PurePath}
    {childrenDir : Segment} (fuel : Nat) {rel : String} {dir : Place} (parentId : Value)
    (resolved : Fs.resolve process.runtime process.cwd root rel = .ok dir) :
    walk process disk root childrenDir.val fuel rel parentId =
      .ok ((findings disk childrenDir fuel dir parentId).map Finding.positioned) := by
  induction fuel generalizing rel dir parentId with
  | zero => rfl
  | succ fuel ih =>
    have entries (names : List Segment) :
        walkEntries process disk root childrenDir.val
            (walk process disk root childrenDir.val fuel) rel parentId names =
          .ok ((names.flatMap fun name =>
            match recordIn disk (dir ++ [name]) with
            | none => []
            | some record =>
              ⟨dir ++ [name], parentId, record⟩ ::
                findings disk childrenDir fuel (dir ++ [name] ++ [childrenDir])
                  (getD record "id")).map Finding.positioned) := by
      induction names with
      | nil => rfl
      | cons name names rest =>
        have entry := resolve_stripSlashes process root (resolve_join resolved name)
        have file := resolve_join entry agentJson
        have sub := ih (getD ((recordIn disk (dir ++ [name])).getD .empty) "id")
          (resolve_join entry childrenDir)
        rw [walkEntries, show "agent.json" = agentJson.val from rfl, file]
        simp only [bind, Except.bind, rest, List.flatMap_cons]
        cases found : recordAt disk (dir ++ [name] ++ [agentJson]) with
        | none =>
          simp only [recordIn, found, List.nil_append]
        | some record =>
          simp only [recordIn, found, Option.getD_some] at sub ⊢
          simp [sub, Finding.positioned, pure, Except.pure]
    rw [walk, resolved]
    simp only [bind, Except.bind, findings]
    by_cases directory : disk.isDir dir = true
    · rw [if_pos directory, entries]
    · rw [if_neg directory]
      have none : sortedNames disk dir = [] := by
        rw [← List.length_eq_zero_iff, (sortedNames_perm disk dir).length_eq,
          List.length_eq_zero_iff, List.eq_nil_iff_forall_not_mem]
        intro name member
        exact directory (Disk.isDir_iff.mpr (Disk.parent_directory (Disk.mem_names.mp member)))
      rw [none]
      rfl

/-! ### What the walk lists -/

variable {disk : RecordDisk} {childrenDir : Segment}

theorem mem_findings_stored {fuel : Nat} {dir : Place} {parentId : Value} {finding : Finding}
    (member : finding ∈ findings disk childrenDir fuel dir parentId) :
    Stored disk childrenDir dir parentId finding := by
  induction fuel generalizing dir parentId with
  | zero => simp [findings] at member
  | succ fuel ih =>
    simp only [findings, List.mem_flatMap] at member
    obtain ⟨name, -, member⟩ := member
    cases found : recordIn disk (dir ++ [name]) with
    | none => simp [found] at member
    | some record =>
      simp only [found, List.mem_cons] at member
      cases member with
      | inl same =>
        subst same
        exact .direct found
      | inr deeper => exact .nested found (ih deeper)

theorem length_le_depth {path : Place} (there : disk.at? path ≠ none) :
    path.length ≤ depth disk := by
  by_cases top : path = []
  · simp [top]
  · rw [Disk.at?_of_ne_nil disk top, ← Option.isSome_iff_ne_none, Option.isSome_iff_exists,
      ← OrderedDict.mem_keys_iff] at there
    unfold depth
    revert there
    generalize disk.entries.keys = keys
    intro there
    induction keys with
    | nil => simp at there
    | cons key keys ih =>
      rw [List.foldr_cons]
      cases List.mem_cons.mp there with
      | inl same => exact same ▸ Nat.le_max_left _ _
      | inr later => exact (ih later).trans (Nat.le_max_right _ _)

theorem recordIn_there {place : Place} {record : Dict}
    (found : recordIn disk place = some record) : disk.at? (place ++ [agentJson]) ≠ none := by
  unfold recordIn recordAt at found
  intro missing
  simp [missing] at found

theorem stored_mem_findings {fuel : Nat} {dir : Place} {parentId : Value} {finding : Finding}
    (stored : Stored disk childrenDir dir parentId finding)
    (enough : depth disk < dir.length + fuel) :
    finding ∈ findings disk childrenDir fuel dir parentId := by
  have listed (dir : Place) (name : Segment) (record : Dict)
      (found : recordIn disk (dir ++ [name]) = some record) :
      name ∈ sortedNames disk dir ∧ dir.length + 2 ≤ depth disk := by
    have there := recordIn_there found
    constructor
    · rw [(sortedNames_perm disk dir).mem_iff, Disk.mem_names, Disk.parent_directory there]
      simp
    · simpa using length_le_depth there
  induction stored generalizing fuel with
  | @direct dir parentId name record found =>
    obtain ⟨member, short⟩ := listed dir name record found
    obtain ⟨fuel, rfl⟩ : ∃ less, fuel = less + 1 := ⟨fuel - 1, by omega⟩
    simp only [findings, List.mem_flatMap]
    exact ⟨name, member, by simp [found]⟩
  | @nested dir parentId name record finding found deeper ih =>
    obtain ⟨member, short⟩ := listed dir name record found
    obtain ⟨fuel, rfl⟩ : ∃ less, fuel = less + 1 := ⟨fuel - 1, by omega⟩
    simp only [findings, List.mem_flatMap]
    refine ⟨name, member, ?_⟩
    have below := @ih fuel (by simp; omega)
    simp only [found]
    exact List.mem_cons_of_mem _ below

theorem Stored.place_below {dir : Place} {parentId : Value} {finding : Finding}
    (stored : Stored disk childrenDir dir parentId finding) :
    ∃ name rest, finding.place = dir ++ name :: rest := by
  induction stored with
  | @direct dir parentId name record found => exact ⟨name, [], rfl⟩
  | @nested dir parentId name record finding found deeper ih =>
    obtain ⟨next, rest, place⟩ := ih
    exact ⟨name, childrenDir :: next :: rest, by simp [place]⟩

theorem Stored.recorded {dir : Place} {parentId : Value} {finding : Finding}
    (stored : Stored disk childrenDir dir parentId finding) :
    recordIn disk finding.place = some finding.record := by
  induction stored with
  | direct found => exact found
  | nested found deeper ih => exact ih

/-- The walk comes to no place twice. -/
theorem findings_places_nodup (fuel : Nat) (dir : Place) (parentId : Value) :
    ((findings disk childrenDir fuel dir parentId).map Finding.place).Nodup := by
  induction fuel generalizing dir parentId with
  | zero => simp [findings]
  | succ fuel ih =>
    have sorted : (sortedNames disk dir).Nodup :=
      (sortedNames_perm disk dir).nodup_iff.mpr (disk.names_nodup dir)
    simp only [findings, List.map_flatMap]
    rw [List.nodup_flatMap]
    constructor
    · intro name _
      cases found : recordIn disk (dir ++ [name]) with
      | none => simp
      | some record =>
        simp only [List.map_cons, List.nodup_cons]
        refine ⟨?_, ih _ _⟩
        intro again
        obtain ⟨finding, member, same⟩ := List.mem_map.mp again
        obtain ⟨next, rest, place⟩ := (mem_findings_stored member).place_below
        rw [place] at same
        simp at same
    · -- two entries of one directory: their places differ in the entry's name
      refine sorted.imp ?_
      intro first second different
      have prefixed (name : Segment) (place : Place)
          (member : place ∈ (match recordIn disk (dir ++ [name]) with
            | none => []
            | some record =>
              (⟨dir ++ [name], parentId, record⟩ : Finding) ::
                findings disk childrenDir fuel (dir ++ [name] ++ [childrenDir])
                  (getD record "id")).map Finding.place) :
          dir ++ [name] <+: place := by
        cases found : recordIn disk (dir ++ [name]) with
        | none => simp [found] at member
        | some record =>
          simp only [found, List.map_cons, List.mem_cons, List.mem_map] at member
          cases member with
          | inl same => exact same ▸ List.prefix_rfl
          | inr deeper =>
            obtain ⟨finding, member, rfl⟩ := deeper
            obtain ⟨next, rest, place⟩ := (mem_findings_stored member).place_below
            rw [place, List.append_assoc]
            exact List.prefix_append _ _
      intro place inFirst inSecond
      have left := prefixed first place inFirst
      have right := prefixed second place inSecond
      have same := List.prefix_of_prefix_length_le left right (by simp)
      rw [List.prefix_append_right_inj, List.cons_prefix_cons] at same
      exact different same.1

theorem resolve_name {process : Process} {root : PurePath} {base : Place}
    (rooted : Fs.resolveRoot process.runtime process.cwd root = .ok base) (name : Segment) :
    Fs.resolve process.runtime process.cwd root name.val = .ok (base ++ [name]) := by
  simp only [Fs.resolve, rooted, bind, Except.bind, PurePath.segments_of_plain name.property]
  have target : walkFrom base [name.val] = base ++ [name] := PurePath.walkFrom_plain base [name]
  rw [target, if_pos (List.prefix_append base [name])]
  rfl

/-- `read_tree` lists the root record and then every stored record, each place once. -/
theorem readTree_eq {process : Process} {root : PurePath} {base : Place} {rootRecord : Dict}
    (rooted : Fs.resolveRoot process.runtime process.cwd root = .ok base)
    (anchored : recordIn disk base = some rootRecord)
    (children : childrenName rootRecord = childrenDir.val) :
    ∃ found : List Finding,
      readTree process disk root = .ok (rootRecord :: found.map Finding.positioned) ∧
      (found.map Finding.place).Nodup ∧
      ∀ finding, finding ∈ found ↔
        Stored disk childrenDir (base ++ [childrenDir]) (getD rootRecord "id") finding := by
  refine ⟨findings disk childrenDir (depth disk + 1) (base ++ [childrenDir])
    (getD rootRecord "id"), ?_, findings_places_nodup _ _ _, ?_⟩
  · have file := resolve_name rooted agentJson
    rw [readTree, show "agent.json" = agentJson.val from rfl, file]
    have opened : recordAt disk (base ++ [agentJson]) = some rootRecord := anchored
    simp only [bind, Except.bind, opened, children]
    rw [walk_eq_findings _ _ (resolve_name rooted childrenDir)]
    rfl
  · intro finding
    constructor
    · exact mem_findings_stored
    · intro stored
      apply stored_mem_findings stored
      simp
      omega

end Fantastic.Python.Loader

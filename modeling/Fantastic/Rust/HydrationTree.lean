import Fantastic.Rust.Hydration
import Mathlib.Data.List.Induction

/-!
# When the disk decides the tree

A boot settles the directories it reaches one after the other, each under the agent of
the directory around it. The registry files them under the ids their records carry, and
each keeps the parent id of its record. So the registry mirrors the directories exactly
when the ids are different and every record names the agent of the enclosing directory.
-/

namespace Fantastic.Rust

open PurePath (Segment)

variable {host : Host} {base : PurePath}

/-! ### Paths -/

theorem folderPath_eq (base : PurePath) (trail : List Segment) :
    folderPath base trail =
      { base with parts := base.parts ++ trail.flatMap fun name => ["agents", name.val] } := by
  have plain : PurePath.PlainSegment "agents" := by decide
  induction trail generalizing base with
  | nil => simp [folderPath]
  | cons name trail ih =>
    have step : folderPath base (name :: trail) =
        folderPath ((base.join "agents").join name.val) trail := rfl
    rw [step, ih, PurePath.join_plain plain, PurePath.join_plain name.property]
    simp

theorem folderPath_injective {first second : List Segment}
    (same : folderPath base first = folderPath base second) : first = second := by
  rw [folderPath_eq, folderPath_eq, PurePath.mk.injEq] at same
  have parts := List.append_cancel_left same.2
  clear same
  induction first generalizing second with
  | nil =>
    cases second with
    | nil => rfl
    | cons name second => simp at parts
  | cons name first ih =>
    cases second with
    | nil => simp at parts
    | cons other second =>
      simp only [List.flatMap_cons, List.cons_append, List.nil_append, List.cons.injEq,
        true_and] at parts
      rw [Subtype.val_inj.mp parts.1, ih parts.2]

/-! ### Settling -/

/-- What a boot does for one directory. -/
def settle (base : PurePath) (kernel : Kernel) (visit : Visit) : Kernel :=
  match visit.above with
  | none => Kernel.rootOnly visit.record (folderPath base visit.trail)
  | some above => kernel.adopt above (.new visit.record (folderPath base visit.trail) false)

/-- The first directory is the root's; every other lies in an earlier one. -/
def Grounded (directories : List Visit) : Prop :=
  ∀ (index : Nat) (visit : Visit), directories[index]? = some visit →
    match visit.above with
    | none => index = 0
    | some above => above < index

theorem Grounded.start {earlier later : List Visit} (grounded : Grounded (earlier ++ later)) :
    Grounded earlier := by
  intro index other found
  apply grounded index other
  rw [List.getElem?_append_left (List.getElem?_eq_some_iff.mp found).1]
  exact found

/-- The kernel once the directories are settled. -/
structure Settled (base : PurePath) (directories : List Visit) (kernel : Kernel) : Prop where
  allocated : kernel.allocated = directories.length
  fields : ∀ index visit, directories[index]? = some visit →
    Kernel.SameFields (kernel.heap index) (.new visit.record (folderPath base visit.trail) false)
  registered : ∀ key ref, kernel.agents.get? key = some ref →
    ref < directories.length ∧ (kernel.heap ref).id = key
  present : ∀ visit ∈ directories, ∃ ref, kernel.agents.get? visit.record.id = some ref

theorem Settled.start : Settled base [] Kernel.fresh where
  allocated := rfl
  fields := by simp
  registered := by simp [Kernel.fresh]
  present := by simp

theorem Settled.root {visit : Visit} (top : visit.above = none) :
    Settled base [visit] (settle base Kernel.fresh visit) := by
  have get : ∀ key, (settle base Kernel.fresh visit).agents.get? key =
      if key = visit.record.id then some 0 else none := by
    intro key
    simp only [settle, top, Kernel.rootOnly, Kernel.register, Kernel.allocate, Kernel.fresh,
      OrderedDict.get?_insert]
    rfl
  constructor
  · simp [settle, top, Kernel.rootOnly, Kernel.register, Kernel.allocate, Kernel.fresh]
  · intro index other found
    obtain ⟨rfl, rfl⟩ : index = 0 ∧ visit = other := by
      cases index with
      | zero => simpa using found
      | succ index => simp at found
    simp only [settle, top]
    exact .refl _
  · intro key ref entry
    rw [get] at entry
    split at entry
    case isTrue same =>
      cases entry
      refine ⟨by simp, ?_⟩
      simp only [settle, top]
      exact same.symm
    case isFalse => cases entry
  · intro other member
    rw [List.mem_singleton] at member
    exact ⟨0, by rw [get, member, if_pos rfl]⟩

theorem Settled.adopt {directories : List Visit} {kernel : Kernel}
    (settled : Settled base directories kernel) {visit : Visit} {above : Nat}
    (named : visit.above = some above) (earlier : above < directories.length) :
    Settled base (directories ++ [visit]) (settle base kernel visit) := by
  have old : above < kernel.allocated := settled.allocated ▸ earlier
  have get : ∀ key, (settle base kernel visit).agents.get? key =
      if key = visit.record.id then some kernel.allocated else kernel.agents.get? key := by
    intro key
    simp only [settle, named]
    rw [Kernel.adopt_agents, OrderedDict.get?_insert]
    rfl
  have new : (settle base kernel visit).heap kernel.allocated =
      .new visit.record (folderPath base visit.trail) false := by
    simp only [settle, named]
    exact Kernel.adopt_heap_new old
  have kept : ∀ ref, ref < kernel.allocated →
      Kernel.SameFields ((settle base kernel visit).heap ref) (kernel.heap ref) := by
    intro ref known
    simp only [settle, named]
    exact Kernel.adopt_fields old known
  constructor
  · simp [settle, named, settled.allocated]
  · intro index other found
    by_cases last : index = directories.length
    · rw [last] at found ⊢
      rw [List.getElem?_concat_length] at found
      cases found
      rw [← settled.allocated, new]
      exact .refl _
    · have inside : index < directories.length := by
        have bound := (List.getElem?_eq_some_iff.mp found).1
        rw [List.length_append, List.length_singleton] at bound
        omega
      rw [List.getElem?_append_left inside] at found
      exact (kept index (settled.allocated ▸ inside)).trans (settled.fields index other found)
  · intro key ref entry
    rw [List.length_append, List.length_singleton]
    rw [get] at entry
    split at entry
    case isTrue same =>
      cases entry
      rw [new, settled.allocated]
      exact ⟨Nat.lt_succ_self _, same.symm⟩
    case isFalse =>
      obtain ⟨bound, id⟩ := settled.registered key ref entry
      rw [(kept ref (settled.allocated ▸ bound)).id]
      exact ⟨Nat.lt_succ_of_lt bound, id⟩
  · intro other member
    rw [get]
    split
    · exact ⟨_, rfl⟩
    case isFalse apart =>
      cases List.mem_append.mp member with
      | inl earlier => exact settled.present other earlier
      | inr last =>
        rw [List.mem_singleton] at last
        rw [last] at apart
        exact absurd rfl apart

/-- Where the ids are different, every directory's agent is registered under its own. -/
theorem Settled.own {directories : List Visit} {kernel : Kernel}
    (settled : Settled base directories kernel)
    (distinct : (directories.map fun visit => visit.record.id).Nodup) {index : Nat}
    {visit : Visit} (found : directories[index]? = some visit) :
    kernel.agents.get? visit.record.id = some index := by
  obtain ⟨ref, entry⟩ := settled.present visit (List.mem_of_getElem? found)
  obtain ⟨bound, id⟩ := settled.registered _ ref entry
  obtain ⟨other, otherAt⟩ : ∃ other, directories[ref]? = some other :=
    ⟨_, List.getElem?_eq_getElem bound⟩
  have sameId : other.record.id = visit.record.id := by
    rw [(settled.fields ref other otherAt).id] at id
    exact id
  have left : (directories.map fun visit => visit.record.id)[ref]? = some visit.record.id := by
    rw [List.getElem?_map, otherAt, Option.map_some, sameId]
  have right : (directories.map fun visit => visit.record.id)[index]? =
      some visit.record.id := by
    rw [List.getElem?_map, found, Option.map_some]
  have inside := (List.getElem?_eq_some_iff.mp left).1
  rw [entry, (List.getElem?_inj inside distinct).mp (left.trans right.symm)]

/-- Settling a grounded list of directories. -/
theorem settled_of_grounded {directories : List Visit} (grounded : Grounded directories) :
    Settled base directories (directories.foldl (settle base) Kernel.fresh) := by
  induction directories using List.reverseRecOn with
  | nil => exact .start
  | append_singleton earlier visit ih =>
    have before := grounded.start
    have here := grounded earlier.length visit List.getElem?_concat_length
    rw [List.foldl_append]
    cases named : visit.above with
    | none =>
      rw [named] at here
      have empty : earlier = [] := List.eq_nil_of_length_eq_zero here
      rw [empty]
      exact .root named
    | some above =>
      rw [named] at here
      exact (ih before).adopt named here

/-! ### A boot settles the directories it reaches -/

/-- Directories that lie in agents which are there by their turn. -/
def Reaching (next : Nat) (directories : List Visit) : Prop :=
  ∀ (index : Nat) (visit : Visit), directories[index]? = some visit →
    ∃ above, visit.above = some above ∧ above < next + index

theorem Reaching.append {next : Nat} {first second : List Visit} (left : Reaching next first)
    (right : Reaching (next + first.length) second) : Reaching next (first ++ second) := by
  intro index visit found
  by_cases inside : index < first.length
  · rw [List.getElem?_append_left inside] at found
    exact left index visit found
  · rw [List.getElem?_append_right (by omega)] at found
    obtain ⟨above, named, bound⟩ := right _ visit found
    exact ⟨above, named, by omega⟩

mutual

theorem visits_reaching (folders : List Folder) {next above : Nat} (low : above < next)
    (trail : List Segment) : Reaching next (Folder.visits host next above trail folders) := by
  match folders with
  | [] =>
    intro index visit found
    simp [Folder.visits] at found
  | folder :: folders =>
    rw [Folder.visits]
    exact (entryVisits_reaching folder low trail).append
      (visits_reaching folders (by omega) trail)

theorem entryVisits_reaching (folder : Folder) {next above : Nat} (low : above < next)
    (trail : List Segment) : Reaching next (Folder.entryVisits host next above trail folder) := by
  match folder with
  | .mk name .missing blocked folders =>
    intro index visit found
    simp [Folder.entryVisits] at found
  | .mk name (.broken reason) blocked folders =>
    intro index visit found
    simp [Folder.entryVisits] at found
  | .mk name (.record record) blocked folders =>
    intro index visit found
    simp only [Folder.entryVisits] at found
    split at found
    · cases index with
      | zero =>
        cases found
        exact ⟨above, rfl, by omega⟩
      | succ index =>
        obtain ⟨upper, named, bound⟩ :=
          visits_reaching folders (Nat.lt_succ_self next) (trail ++ [name]) index visit found
        exact ⟨upper, named, by omega⟩
    · simp at found

end

theorem settles_frame {directories : List Visit} {kernel : Kernel}
    (reaching : Reaching kernel.allocated directories) :
    (directories.foldl (settle base) kernel).allocated =
        kernel.allocated + directories.length ∧
      ∀ ref, ref < kernel.allocated →
        Kernel.SameFields ((directories.foldl (settle base) kernel).heap ref)
          (kernel.heap ref) := by
  induction directories generalizing kernel with
  | nil => exact ⟨rfl, fun _ _ => .refl _⟩
  | cons visit directories ih =>
    obtain ⟨above, named, low⟩ := reaching 0 visit rfl
    have grown : (settle base kernel visit).allocated = kernel.allocated + 1 := by
      simp [settle, named]
    have later : Reaching (settle base kernel visit).allocated directories := by
      intro index other found
      obtain ⟨upper, otherNamed, bound⟩ := reaching (index + 1) other found
      exact ⟨upper, otherNamed, by omega⟩
    obtain ⟨size, fields⟩ := ih later
    constructor
    · rw [List.foldl_cons, size, grown, List.length_cons]
      omega
    · intro ref known
      rw [List.foldl_cons]
      apply (fields ref (by omega)).trans
      simp only [settle, named]
      exact Kernel.adopt_fields low known

theorem Kernel.rootPath_child {kernel : Kernel} {parent : Nat} {trail : List Segment}
    (path : (kernel.heap parent).rootPath = folderPath base trail) (name : Segment) :
    (kernel.heap parent).childrenDir.join name.val = folderPath base (trail ++ [name]) := by
  rw [Agent.childrenDir, path, folderPath, folderPath, List.foldl_append]
  rfl

mutual

theorem loadChildren_settles (folders : List Folder) {kernel : Kernel} {above : Nat}
    {trail : List Segment} (free : Folder.unblocked host folders = true)
    (low : above < kernel.allocated)
    (path : (kernel.heap above).rootPath = folderPath base trail) :
    ∃ ids, Kernel.loadChildren host kernel above folders =
      .ok ((Folder.visits host kernel.allocated above trail folders).foldl (settle base) kernel,
        ids) := by
  match folders with
  | [] => exact ⟨[], rfl⟩
  | folder :: folders =>
    simp only [Folder.unblocked, Bool.and_eq_true] at free
    obtain ⟨ids, first⟩ := loadEntry_settles folder free.1 low path
    obtain ⟨size, fields⟩ := @settles_frame base
      (Folder.entryVisits host kernel.allocated above trail folder) kernel
      (entryVisits_reaching folder low trail)
    obtain ⟨more, rest⟩ := @loadChildren_settles folders
      ((Folder.entryVisits host kernel.allocated above trail folder).foldl (settle base) kernel)
      above trail free.2 (by omega) ((fields above low).rootPath.trans path)
    refine ⟨ids ++ more, ?_⟩
    rw [size] at rest
    rw [Kernel.loadChildren, first]
    simp only [bind, Except.bind, rest, Folder.visits, List.foldl_append]
    rfl

theorem loadEntry_settles (folder : Folder) {kernel : Kernel} {above : Nat}
    {trail : List Segment} (free : Folder.entryUnblocked host folder = true)
    (low : above < kernel.allocated)
    (path : (kernel.heap above).rootPath = folderPath base trail) :
    ∃ ids, Kernel.loadEntry host kernel above folder =
      .ok ((Folder.entryVisits host kernel.allocated above trail folder).foldl (settle base) kernel,
        ids) := by
  match folder with
  | .mk name .missing blocked folders => exact ⟨[], rfl⟩
  | .mk name (.broken reason) blocked folders => exact ⟨[], rfl⟩
  | .mk name (.record record) blocked folders =>
    cases loading : Kernel.loads host record with
    | false =>
      refine ⟨[], ?_⟩
      simp [Kernel.loadEntry, Folder.entryVisits, loading]
    | true =>
      simp only [Folder.entryUnblocked, loading, if_true, Bool.and_eq_true,
        Bool.not_eq_true'] at free
      have place := Kernel.rootPath_child path name
      have made : (kernel.adopt above (.new record (folderPath base (trail ++ [name])) false)) =
          settle base kernel
            { trail := trail ++ [name], record := record, above := some above } := rfl
      have new := @Kernel.adopt_heap_new kernel above
        (.new record (folderPath base (trail ++ [name])) false) low
      obtain ⟨ids, rest⟩ := @loadChildren_settles folders
        (kernel.adopt above (.new record (folderPath base (trail ++ [name])) false))
        kernel.allocated (trail ++ [name]) free.2 (Nat.lt_succ_self _) (by rw [new]; rfl)
      refine ⟨record.id :: ids, ?_⟩
      simp only [Kernel.loadEntry, loading, if_true, place, free.1, Bool.false_eq_true,
        if_false, rest, Folder.entryVisits, List.foldl_cons, ← made]
      rfl

end

mutual

theorem loadChildren_unblocked (folders : List Folder) {kernel : Kernel} {above : Nat}
    {result : Kernel × List String}
    (done : Kernel.loadChildren host kernel above folders = .ok result) :
    Folder.unblocked host folders = true := by
  match folders with
  | [] => rfl
  | folder :: folders =>
    rw [Kernel.loadChildren] at done
    simp only [bind, Except.bind] at done
    split at done
    · cases done
    case h_2 first early =>
      split at done
      · cases done
      case h_2 second late =>
        rw [Folder.unblocked, loadEntry_unblocked folder early, loadChildren_unblocked folders late]
        rfl

theorem loadEntry_unblocked (folder : Folder) {kernel : Kernel} {above : Nat}
    {result : Kernel × List String}
    (done : Kernel.loadEntry host kernel above folder = .ok result) :
    Folder.entryUnblocked host folder = true := by
  match folder with
  | .mk name .missing blocked folders => rfl
  | .mk name (.broken reason) blocked folders => rfl
  | .mk name (.record record) blocked folders =>
    cases loading : Kernel.loads host record with
    | false => simp [Folder.entryUnblocked, loading]
    | true =>
      simp only [Kernel.loadEntry, loading, if_true] at done
      split at done
      · cases done
      case isFalse free =>
        simp only [bind, Except.bind] at done
        split at done
        · cases done
        case h_2 result below =>
          have rest := loadChildren_unblocked folders below
          simp [Folder.entryUnblocked, loading, free, rest]

end

/-! ### Every directory has a path of its own -/

mutual

theorem visits_trail (folders : List Folder) {next above : Nat} {trail : List Segment}
    {visit : Visit} (visited : visit ∈ Folder.visits host next above trail folders) :
    ∃ name ∈ Folder.namesOf folders, trail ++ [name] <+: visit.trail := by
  match folders with
  | [] => simp [Folder.visits] at visited
  | folder :: folders =>
    rw [Folder.visits, List.mem_append] at visited
    cases visited with
    | inl here => exact ⟨folder.name, List.mem_cons_self, entryVisits_trail folder here⟩
    | inr later =>
      obtain ⟨name, member, below⟩ := visits_trail folders later
      exact ⟨name, List.mem_cons_of_mem _ member, below⟩

theorem entryVisits_trail (folder : Folder) {next above : Nat} {trail : List Segment}
    {visit : Visit} (visited : visit ∈ Folder.entryVisits host next above trail folder) :
    trail ++ [folder.name] <+: visit.trail := by
  match folder with
  | .mk name .missing blocked folders => simp [Folder.entryVisits] at visited
  | .mk name (.broken reason) blocked folders => simp [Folder.entryVisits] at visited
  | .mk name (.record record) blocked folders =>
    simp only [Folder.entryVisits] at visited
    split at visited
    · rw [List.mem_cons] at visited
      cases visited with
      | inl here =>
        rw [here]
        exact List.prefix_rfl
      | inr deeper =>
        obtain ⟨inner, _, below⟩ := visits_trail folders deeper
        exact (List.prefix_append _ _).trans below
    · simp at visited

end

mutual

theorem visits_nodup (folders : List Folder) (distinct : (Folder.namesOf folders).Nodup)
    (wellNamed : Folder.AllWellNamed folders) (next above : Nat) (trail : List Segment) :
    ((Folder.visits host next above trail folders).map Visit.trail).Nodup := by
  match folders with
  | [] => simp [Folder.visits]
  | folder :: folders =>
    have names := List.nodup_cons.mp distinct
    rw [Folder.visits, List.map_append, List.nodup_append]
    refine ⟨entryVisits_nodup folder wellNamed.1 next above trail,
      visits_nodup folders names.2 wellNamed.2 _ above trail, ?_⟩
    intro first early second late same
    obtain ⟨left, leftMember, rfl⟩ := List.mem_map.mp early
    obtain ⟨right, rightMember, rfl⟩ := List.mem_map.mp late
    obtain ⟨name, member, below⟩ := visits_trail folders rightMember
    have here := entryVisits_trail folder leftMember
    rw [← same] at below
    have equal := List.prefix_of_prefix_length_le here below (by simp)
    have sameName := equal.eq_of_length (by simp)
    rw [List.append_cancel_left_eq, List.cons.injEq] at sameName
    rw [sameName.1] at names
    exact names.1 member

theorem entryVisits_nodup (folder : Folder) (wellNamed : folder.WellNamed) (next above : Nat)
    (trail : List Segment) :
    ((Folder.entryVisits host next above trail folder).map Visit.trail).Nodup := by
  match folder with
  | .mk name .missing blocked folders => simp [Folder.entryVisits]
  | .mk name (.broken reason) blocked folders => simp [Folder.entryVisits]
  | .mk name (.record record) blocked folders =>
    simp only [Folder.entryVisits]
    split
    · rw [List.map_cons, List.nodup_cons]
      refine ⟨?_, visits_nodup folders wellNamed.1 wellNamed.2 _ _ _⟩
      intro again
      obtain ⟨visit, member, same⟩ := List.mem_map.mp again
      obtain ⟨inner, _, below⟩ := visits_trail folders member
      rw [same] at below
      have size := below.length_le
      simp at size
    · simp

end

section Boot

variable {rootId : String} {store : Store}

theorem directories_trails : ((store.directories host rootId).map Visit.trail).Nodup := by
  unfold Store.directories
  split
  · simp
  · rw [List.map_cons, List.nodup_cons]
    refine ⟨?_, visits_nodup store.folders store.distinct store.wellNamed 1 0 []⟩
    intro again
    obtain ⟨visit, member, same⟩ := List.mem_map.mp again
    obtain ⟨name, _, below⟩ := visits_trail store.folders member
    rw [same] at below
    have size := below.length_le
    simp at size

theorem directories_grounded : Grounded (store.directories host rootId) := by
  intro index visit found
  unfold Store.directories at found
  split at found
  · simp at found
  · cases index with
    | zero =>
      cases found
      rfl
    | succ index =>
      obtain ⟨above, named, bound⟩ :=
        visits_reaching store.folders (Nat.lt_succ_self 0) [] index visit found
      rw [named]
      simp only
      omega

theorem trail_index {first second : Nat} {left right : Visit}
    (leftAt : (store.directories host rootId)[first]? = some left)
    (rightAt : (store.directories host rootId)[second]? = some right)
    (same : left.trail = right.trail) : first = second := by
  have leftTrail : ((store.directories host rootId).map Visit.trail)[first]? = some left.trail := by
    rw [List.getElem?_map, leftAt, Option.map_some]
  have rightTrail : ((store.directories host rootId).map Visit.trail)[second]? =
      some left.trail := by
    rw [List.getElem?_map, rightAt, Option.map_some, same]
  have bound := (List.getElem?_eq_some_iff.mp leftTrail).1
  exact (List.getElem?_inj bound directories_trails).mp (leftTrail.trans rightTrail.symm)

/-! ### The condition -/

/-- The records of a store agree with their places: the ids are different, and every
record names the agent of the directory around it. -/
structure Consistent (host : Host) (rootId : String) (store : Store) : Prop where
  listable : store.blocked = false ∧ Folder.unblocked host store.folders = true
  distinct : ((store.directories host rootId).map fun visit => visit.record.id).Nodup
  nested : ∀ visit ∈ store.directories host rootId, ∀ above upper, visit.above = some above →
    (store.directories host rootId)[above]? = some upper →
    visit.record.parentId = some upper.record.id

/-- Whenever a directory is reached, the boot succeeds and the registry mirrors the disk. -/
def Hydrates (host : Host) (rootId : String) (workdir : PurePath) (store : Store) : Prop :=
  store.directories host rootId ≠ [] →
    ∃ kernel, Kernel.bootDisk host rootId workdir store = .ok kernel ∧
      kernel.Mirrors (workdir.join ".fantastic") (store.directories host rootId)

theorem rootRecord_path {path other : PurePath} {file : AgentFile} {record : AgentRecord}
    (read : Kernel.rootRecord rootId path file = .ok record) :
    Kernel.rootRecord rootId other file = .ok record := by
  cases file with
  | missing => exact read
  | broken reason => cases read
  | record found => exact read

theorem bootDisk_eq {record : AgentRecord} (workdir : PurePath)
    (read : Kernel.rootRecord rootId { root := "", parts := [] } store.file = .ok record)
    (listable : store.blocked = false ∧ Folder.unblocked host store.folders = true) :
    Kernel.bootDisk host rootId workdir store =
      .ok ((store.directories host rootId).foldl (settle (workdir.join ".fantastic"))
        Kernel.fresh) := by
  obtain ⟨ids, loaded⟩ := @loadChildren_settles host (workdir.join ".fantastic") store.folders
    (Kernel.rootOnly record (workdir.join ".fantastic")) 0 [] listable.2 Nat.one_pos rfl
  simp only [Kernel.bootDisk, rootRecord_path read, bind, Except.bind, listable.1,
    Bool.false_eq_true, if_false, pure, Except.pure, loaded, Store.directories,
    List.foldl_cons]
  rfl

theorem bootDisk_listable {workdir : PurePath} {kernel : Kernel}
    (booted : Kernel.bootDisk host rootId workdir store = .ok kernel) :
    (∃ record, Kernel.rootRecord rootId { root := "", parts := [] } store.file = .ok record) ∧
      store.blocked = false ∧ Folder.unblocked host store.folders = true := by
  simp only [Kernel.bootDisk, bind, Except.bind] at booted
  split at booted
  · cases booted
  case h_2 record read =>
    refine ⟨⟨record, rootRecord_path read⟩, ?_⟩
    cases blocked : store.blocked with
    | true =>
      simp only [blocked, if_true] at booted
      cases booted
    | false =>
      simp only [blocked, Bool.false_eq_true, if_false, pure, Except.pure] at booted
      split at booted
      · cases booted
      case h_2 result loaded => exact ⟨rfl, loadChildren_unblocked store.folders loaded⟩

theorem rootOnly_tree {record : AgentRecord} {path : PurePath} (top : record.parentId = none) :
    (Kernel.rootOnly record path).Tree := by
  have get : ∀ key, (Kernel.rootOnly record path).agents.get? key =
      if key = record.id then some 0 else none := by
    intro key
    simp only [Kernel.rootOnly, Kernel.register, Kernel.allocate, Kernel.fresh,
      OrderedDict.get?_insert]
    rfl
  have here : (Kernel.rootOnly record path).heap 0 = .new record path false := rfl
  have only : ∀ {key ref}, (Kernel.rootOnly record path).agents.get? key = some ref →
      key = record.id ∧ ref = 0 := by
    intro key ref entry
    rw [get] at entry
    split at entry
    case isTrue same => exact ⟨same, (Option.some.inj entry).symm⟩
    case isFalse => cases entry
  constructor
  · exact ⟨0, rfl, by rw [here, get]; exact if_pos rfl, top⟩
  · intro key ref entry
    obtain ⟨sameKey, sameRef⟩ := only entry
    rw [sameRef, sameKey]
    exact ⟨rfl, Nat.one_pos⟩
  · intro key ref entry inner
    rw [(only entry).2] at inner
    exact absurd rfl inner
  · intro upper above key ref entry child
    rw [(only entry).2, here] at child
    cases child

/-- A grounded list of directories with different ids, each naming the one around it,
settles into a tree. -/
theorem settled_tree {directories : List Visit} (grounded : Grounded directories)
    (distinct : (directories.map fun visit => visit.record.id).Nodup)
    (nested : ∀ visit ∈ directories, ∀ above upper, visit.above = some above →
      directories[above]? = some upper → visit.record.parentId = some upper.record.id)
    (top : ∀ visit ∈ directories, visit.above = none → visit.record.parentId = none)
    (some' : directories ≠ []) :
    (directories.foldl (settle base) Kernel.fresh).Tree := by
  induction directories using List.reverseRecOn with
  | nil => exact absurd rfl some'
  | append_singleton earlier visit ih =>
    have before := grounded.start
    have here := grounded earlier.length visit List.getElem?_concat_length
    rw [List.foldl_append]
    cases named : visit.above with
    | none =>
      rw [named] at here
      have empty : earlier = [] := List.eq_nil_of_length_eq_zero here
      rw [empty]
      simp only [List.foldl_nil, List.foldl_cons, settle, named]
      exact rootOnly_tree (top visit (by simp) named)
    | some above =>
      rw [named] at here
      rw [List.map_append, List.nodup_append] at distinct
      have settled := @settled_of_grounded base earlier before
      have tree := ih before distinct.1
        (by
          intro other member upperIndex upper otherNamed found
          apply nested other (List.mem_append_left _ member) upperIndex upper otherNamed
          rw [List.getElem?_append_left (List.getElem?_eq_some_iff.mp found).1]
          exact found)
        (fun other member => top other (List.mem_append_left _ member))
        (by
          intro empty
          rw [empty] at here
          exact absurd here (Nat.not_lt_zero _))
      obtain ⟨upper, upperAt⟩ : ∃ upper, earlier[above]? = some upper :=
        ⟨_, List.getElem?_eq_getElem here⟩
      have entry := settled.own distinct.1 upperAt
      simp only [List.foldl_cons, List.foldl_nil, settle, named]
      apply tree.adopt entry
      · cases taken : (earlier.foldl (settle base) Kernel.fresh).agents.get?
            (Agent.new visit.record (folderPath base visit.trail) false).id with
        | none => rfl
        | some owner =>
          obtain ⟨inside, ownerId⟩ := settled.registered _ owner taken
          obtain ⟨old, oldAt⟩ : ∃ old, earlier[owner]? = some old :=
            ⟨_, List.getElem?_eq_getElem inside⟩
          rw [(settled.fields owner old oldAt).id] at ownerId
          have clash := distinct.2.2 old.record.id
            (List.mem_map.mpr ⟨old, List.mem_of_getElem? oldAt, rfl⟩) visit.record.id
            (by simp)
          exact absurd ownerId clash
      · apply nested visit (by simp) above upper named
        rw [List.getElem?_append_left here]
        exact upperAt
      · intro key
        rfl

theorem directories_top {visit : Visit} (member : visit ∈ store.directories host rootId)
    (root : visit.above = none) : visit.record.parentId = none := by
  unfold Store.directories at member
  split at member
  · simp at member
  case h_2 record read =>
    rw [List.mem_cons] at member
    cases member with
    | inl here =>
      rw [here]
      cases file : store.file with
      | missing =>
        rw [file] at read
        cases read
        rfl
      | broken reason =>
        rw [file] at read
        cases read
      | record found =>
        rw [file] at read
        cases read
        rfl
    | inr deeper =>
      obtain ⟨index, found⟩ := List.mem_iff_getElem?.mp deeper
      obtain ⟨above, named, _⟩ :=
        visits_reaching store.folders (Nat.lt_succ_self 0) [] index visit found
      rw [named] at root
      cases root

section Mirror

variable {kernel : Kernel} (settled : Settled base (store.directories host rootId) kernel)

include settled

/-- Only its own agent stands for a directory. -/
theorem owns_iff {key : String} {index : Nat} {visit : Visit}
    (found : (store.directories host rootId)[index]? = some visit) :
    kernel.Owns base key visit ↔ kernel.agents.get? key = some index := by
  constructor
  · intro owns
    obtain ⟨ref, entry, path⟩ := owns
    obtain ⟨bound, _⟩ := settled.registered key ref entry
    obtain ⟨other, otherAt⟩ : ∃ other, (store.directories host rootId)[ref]? = some other :=
      ⟨_, List.getElem?_eq_getElem bound⟩
    rw [(settled.fields ref other otherAt).rootPath] at path
    rw [entry, trail_index otherAt found (folderPath_injective path)]
  · intro entry
    exact ⟨index, entry, (settled.fields index visit found).rootPath⟩

theorem owned_id {key : String} {index : Nat} {visit : Visit}
    (found : (store.directories host rootId)[index]? = some visit)
    (entry : kernel.agents.get? key = some index) : key = visit.record.id := by
  have id := (settled.registered key index entry).2
  rw [(settled.fields index visit found).id] at id
  exact id.symm

/-- A registry that mirrors the disk has read consistent records. -/
theorem Kernel.Mirrors.consistent
    (mirrors : kernel.Mirrors base (store.directories host rootId)) :
    ((store.directories host rootId).map fun visit => visit.record.id).Nodup ∧
      ∀ visit ∈ store.directories host rootId, ∀ above upper, visit.above = some above →
        (store.directories host rootId)[above]? = some upper →
        visit.record.parentId = some upper.record.id := by
  have own : ∀ index visit, (store.directories host rootId)[index]? = some visit →
      kernel.agents.get? visit.record.id = some index := by
    intro index visit found
    obtain ⟨key, owns, _⟩ := mirrors.each visit (List.mem_of_getElem? found)
    have entry := (owns_iff settled found).mp owns
    rw [← owned_id settled found entry]
    exact entry
  constructor
  · rw [List.nodup_iff_getElem?_ne_getElem?]
    intro first second order bound same
    rw [List.length_map] at bound
    have left := List.getElem?_eq_getElem (Nat.lt_trans order bound)
    have right := List.getElem?_eq_getElem bound
    rw [List.getElem?_map, List.getElem?_map, left, right, Option.map_some, Option.map_some,
      Option.some.injEq] at same
    have entry := own first _ left
    rw [same, own second _ right] at entry
    have equal := Option.some.inj entry
    omega
  · intro visit member above upper named upperAt
    obtain ⟨index, found⟩ := List.mem_iff_getElem?.mp member
    have entry := own index visit found
    obtain ⟨upperKey, upperRef, _, upperOwns, parentId, _⟩ :=
      mirrors.parent visit member above named upper upperAt _ index entry
        ((owns_iff settled found).mpr entry)
    rw [(settled.fields index visit found).parentId] at parentId
    have upperEntry := (owns_iff settled upperAt).mp upperOwns
    rw [owned_id settled upperAt upperEntry] at parentId
    exact parentId

theorem mirrors_of_tree (tree : kernel.Tree)
    (distinct : ((store.directories host rootId).map fun visit => visit.record.id).Nodup)
    (nested : ∀ visit ∈ store.directories host rootId, ∀ above upper, visit.above = some above →
      (store.directories host rootId)[above]? = some upper →
      visit.record.parentId = some upper.record.id) :
    kernel.Mirrors base (store.directories host rootId) := by
  constructor
  · intro visit member
    obtain ⟨index, found⟩ := List.mem_iff_getElem?.mp member
    refine ⟨visit.record.id, (owns_iff settled found).mpr (settled.own distinct found), ?_⟩
    intro other owns
    exact owned_id settled found ((owns_iff settled found).mp owns)
  · intro visit member above named upper upperAt key ref entry owns
    obtain ⟨index, found⟩ := List.mem_iff_getElem?.mp member
    have here := (owns_iff settled found).mp owns
    rw [entry] at here
    cases here
    have upperEntry := settled.own distinct upperAt
    have parentId : (kernel.heap ref).parentId = some upper.record.id := by
      rw [(settled.fields ref visit found).parentId]
      exact nested visit member above upper named upperAt
    have inner : kernel.root ≠ some ref := by
      intro top
      obtain ⟨root, isRoot, _, bare⟩ := tree.rooted
      rw [isRoot] at top
      cases top
      rw [bare] at parentId
      cases parentId
    obtain ⟨otherKey, otherRef, otherNamed, otherEntry, listed, _⟩ := tree.hung entry inner
    rw [parentId] at otherNamed
    cases otherNamed
    exact ⟨upper.record.id, otherRef, otherEntry, (owns_iff settled upperAt).mpr upperEntry,
      parentId, listed⟩
  · intro first firstMember second secondMember key left right
    obtain ⟨firstIndex, firstAt⟩ := List.mem_iff_getElem?.mp firstMember
    obtain ⟨secondIndex, secondAt⟩ := List.mem_iff_getElem?.mp secondMember
    have leftEntry := (owns_iff settled firstAt).mp left
    rw [(owns_iff settled secondAt).mp right] at leftEntry
    cases leftEntry
    rw [firstAt] at secondAt
    cases secondAt
    rfl
  · intro key ref entry
    obtain ⟨bound, _⟩ := settled.registered key ref entry
    refine ⟨_, List.getElem_mem bound, ?_⟩
    exact (owns_iff settled (List.getElem?_eq_getElem bound)).mpr entry

end Mirror

/-- The booted kernel of a consistent store is a tree. -/
theorem Consistent.tree (consistent : Consistent host rootId store)
    (some' : store.directories host rootId ≠ []) :
    ((store.directories host rootId).foldl (settle base) Kernel.fresh).Tree :=
  settled_tree directories_grounded consistent.distinct consistent.nested
    (fun _ member root => directories_top member root) some'

theorem directories_ne_nil {record : AgentRecord}
    (read : Kernel.rootRecord rootId { root := "", parts := [] } store.file = .ok record) :
    store.directories host rootId ≠ [] := by
  simp [Store.directories, read]

theorem rootRecord_of_directories (some' : store.directories host rootId ≠ []) :
    ∃ record, Kernel.rootRecord rootId { root := "", parts := [] } store.file = .ok record := by
  unfold Store.directories at some'
  split at some'
  · exact absurd rfl some'
  case h_2 record read => exact ⟨record, read⟩

/-- A boot that mirrors the disk has read consistent records. -/
theorem Hydrates.consistent {workdir : PurePath} (hydrates : Hydrates host rootId workdir store)
    (some' : store.directories host rootId ≠ []) : Consistent host rootId store := by
  obtain ⟨kernel, booted, mirrors⟩ := hydrates some'
  obtain ⟨⟨record, read⟩, listable⟩ := bootDisk_listable booted
  rw [bootDisk_eq workdir read listable] at booted
  cases booted
  obtain ⟨distinct, nested⟩ := mirrors.consistent (settled_of_grounded directories_grounded)
  exact ⟨listable, distinct, nested⟩

end Boot

/-- A boot mirrors the disk exactly when no directory is reached at all, or the records
that are reached agree with their places. -/
theorem hydrates_iff (host : Host) (rootId : String) (workdir : PurePath) (store : Store) :
    Hydrates host rootId workdir store ↔
      store.directories host rootId = [] ∨ Consistent host rootId store := by
  constructor
  · intro hydrates
    by_cases none : store.directories host rootId = []
    · exact Or.inl none
    · exact Or.inr (hydrates.consistent none)
  · intro fine some'
    cases fine with
    | inl none => exact absurd none some'
    | inr consistent =>
      obtain ⟨record, read⟩ := rootRecord_of_directories some'
      refine ⟨_, bootDisk_eq workdir read consistent.listable, ?_⟩
      exact mirrors_of_tree (settled_of_grounded directories_grounded) (consistent.tree some')
        consistent.distinct consistent.nested

/-! ### A directory that was moved -/

def everyBundle : Host where
  installed := fun _ => true
  debug := fun text => "\x22" ++ text ++ "\x22"

def plainRecord (id : String) (parentId : Option String) : AgentRecord where
  id := id
  handlerModule := some "noop.tools"
  parentId := parentId
  metadata := .empty

theorem plain_notes : PurePath.PlainSegment "notes" := by decide

/-- The folder of an agent `notes` that was created under another parent. -/
def movedStore : Store where
  file := .record (plainRecord "core" none)
  blocked := false
  folders := [.mk ⟨"notes", plain_notes⟩ (.record (plainRecord "notes" (some "desk"))) false []]
  distinct := by decide
  wellNamed := ⟨⟨by decide, trivial⟩, trivial⟩

/-- The loader trusts the parent id of the record, not the place of its folder. -/
theorem moved_folder_keeps_its_parent :
    ¬ Hydrates everyBundle "core" (PurePath.ofString "/work") movedStore := by
  intro hydrates
  have consistent := hydrates.consistent (by simp [Store.directories, movedStore,
    Kernel.rootRecord])
  have named := consistent.nested
    { trail := [⟨"notes", by decide⟩], record := plainRecord "notes" (some "desk"),
      above := some 0 }
    (by simp [Store.directories, movedStore, Kernel.rootRecord, Folder.visits, Folder.entryVisits,
      Kernel.loads, everyBundle, plainRecord])
    0 { trail := [], record := plainRecord "core" none, above := none } rfl rfl
  revert named
  simp [plainRecord]

end Fantastic.Rust

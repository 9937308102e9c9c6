import Fantastic.Python.DiskClamp

/-!
# How far the clamp reaches

Exactly when an operation of the disk surface stays inside its root. The resolved path
always does. Two paths the surface derives from it need not: the directories above a root
that is not there yet, and the temporary file of an atomic write, which is a sibling of
the target and may be a link.
-/

namespace Fantastic.Python.Clamp

open PurePath (Segment)

variable {runtime : Runtime} {resolver : Resolver} {cwd : Place} {root : PurePath}
  {disk : LinkDisk} {rootPlace target : Place}

/-- No file is in the way of a directory. -/
def Clear (disk : LinkDisk) (directory : Place) : Prop :=
  ∀ front, front <+: directory → ∀ leaf, disk.at? front ≠ some (.file leaf)

/-- Every directory above the root is there. -/
def Standing (disk : LinkDisk) (rootPlace : Place) : Prop :=
  ∀ front, front <+: rootPlace → front ≠ rootPlace → disk.at? front ≠ none

/-- Wherever the temporary file of an atomic write can be written (its directory is there,
or is the target's own and will be made), it lands in the root; below it, when the root is
itself the target. -/
def TemporaryInside (resolver : Resolver) (disk : LinkDisk) (rootPlace target : Place) : Prop :=
  ∀ name, target.getLast? = some name → ∀ there,
    landing resolver disk (target.dropLast ++ [temporaryName name]) = .ok there →
    there ≠ [] → there.dropLast = target.dropLast ∨ disk.isDir there.dropLast = true →
    ¬ disk.isDir there = true →
    rootPlace <+: there ∧ (target = rootPlace → there ≠ rootPlace)

/-- The condition, operation by operation. -/
def Sheltered (runtime : Runtime) (resolver : Resolver) (cwd : Place) (root : PurePath)
    (disk : LinkDisk) (operation : Operation) : Prop :=
  ∀ rootPlace, resolveRoot runtime resolver cwd root disk = .ok rootPlace →
    match operation with
    | .writeBytes path _ atomic | .writeText path _ atomic =>
      ∀ target, resolve runtime resolver cwd root disk path = .ok target →
        Clear disk target.dropLast →
          Standing disk rootPlace ∧
            (atomic = true → TemporaryInside resolver disk rootPlace target)
    | .writeChunk path _ _ _ =>
      ∀ target, resolve runtime resolver cwd root disk path = .ok target →
        Clear disk target.dropLast → Standing disk rootPlace
    | .mkdir path =>
      ∀ target, resolve runtime resolver cwd root disk path = .ok target →
        Clear disk target → Standing disk rootPlace
    | .rename old new =>
      ∀ source target, resolve runtime resolver cwd root disk old = .ok source →
        resolve runtime resolver cwd root disk new = .ok target →
        Clear disk target.dropLast → Standing disk rootPlace
    | .remove _ _ => True

/-- The operation touches and changes nothing outside its root, and nothing at all when a
path of it resolves outside. -/
structure Clamped (runtime : Runtime) (resolver : Resolver) (cwd : Place) (root : PurePath)
    (disk : LinkDisk) (operation : Operation) : Prop where
  inside : ∀ rootPlace, resolveRoot runtime resolver cwd root disk = .ok rootPlace →
    ∀ place, (place ∈ (perform runtime resolver cwd root disk operation).touched ∨
      (perform runtime resolver cwd root disk operation).disk.at? place ≠ disk.at? place) →
      rootPlace <+: place
  escape : ∀ path ∈ operation.paths, ∀ failure,
    resolve runtime resolver cwd root disk path = .error failure →
    (∃ raised, (perform runtime resolver cwd root disk operation).failure = some raised) ∧
      (perform runtime resolver cwd root disk operation).disk = disk ∧
      (perform runtime resolver cwd root disk operation).touched = ∅

/-! ### The resolved path -/

theorem resolve_inside {path : String} (canonical : resolver.Canonical disk)
    (rooted : resolveRoot runtime resolver cwd root disk = .ok rootPlace)
    (resolved : resolve runtime resolver cwd root disk path = .ok target) :
    rootPlace <+: target ∧ LinkFree disk target := by
  simp only [resolve, rooted, bind, Except.bind] at resolved
  split at resolved
  case isTrue =>
    cases resolved
    refine ⟨List.prefix_rfl, ?_⟩
    simp only [resolveRoot, bind_eq_ok_iff] at rooted
    obtain ⟨⟨kind, place⟩, real, rooted⟩ := rooted
    split at rooted
    · cases rooted
      exact canonical _ _ _ real
    · cases rooted
  case isFalse =>
    split at resolved
    case h_1 => cases resolved
    case h_2 pair real =>
      obtain ⟨kind, place⟩ := pair
      simp only at resolved
      split at resolved
      case isTrue fits =>
        cases resolved
        simp only [Bool.and_eq_true, decide_eq_true_eq] at fits
        exact ⟨fits.2, canonical _ _ _ real⟩
      case isFalse => cases resolved

theorem clear_iff {directory : Place} :
    Clear disk directory ↔ ∃ made, disk.makeDirectories [] directory = some made := by
  constructor
  · intro clear
    apply Disk.makeDirectories_isSome disk.at?_nil
    intro front above leaf
    rw [List.nil_append]
    exact clear front above leaf
  · intro made
    obtain ⟨made, done⟩ := made
    intro front above leaf
    simpa using Disk.makeDirectories_clear disk.at?_nil done front above leaf

/-- Making directories up to a place in the root, or up to the root's own parent, stays
inside exactly when the directories above the root are there or a file is in the way. -/
theorem mkdirs_inside_iff {directory : Place}
    (reaches : ∀ front, front <+: rootPlace → front ≠ rootPlace → front <+: directory)
    (outside : ∀ front, front <+: directory → ¬ rootPlace <+: front →
      front <+: rootPlace ∧ front ≠ rootPlace) :
    (∀ place ∈ (mkdirs runtime disk directory).touched, rootPlace <+: place) ↔
      (Clear disk directory → Standing disk rootPlace) := by
  rw [clear_iff]
  unfold mkdirs
  cases done : disk.makeDirectories [] directory with
  | none =>
    simp only [reduceCtorEq, exists_false, false_implies, iff_true]
    split <;> simp [Outcome.raised]
  | some made =>
    simp only [Option.some.injEq, exists_eq', true_implies, Outcome.done]
    constructor
    · intro inside front above strict missing
      have below := inside front ⟨reaches front above strict, missing⟩
      exact strict (above.eq_of_length (Nat.le_antisymm above.length_le below.length_le))
    · intro standing place made
      by_contra apart
      obtain ⟨above, strict⟩ := outside place made.1 apart
      exact standing place above strict made.2

/-- The two directories the surface makes for a target in the root. -/
theorem prefix_below (below : rootPlace <+: target) {front : Place} (above : front <+: target)
    (apart : ¬ rootPlace <+: front) : front <+: rootPlace ∧ front ≠ rootPlace := by
  constructor
  · exact (List.prefix_or_prefix_of_prefix above below).resolve_right apart
  · intro same
    exact apart (same ▸ List.prefix_rfl)

theorem prefix_parent (below : rootPlace <+: target) {front : Place}
    (above : front <+: rootPlace) (strict : front ≠ rootPlace) : front <+: target.dropLast := by
  have size : front.length < rootPlace.length :=
    Nat.lt_of_le_of_ne above.length_le fun same => strict (above.eq_of_length same)
  have long := below.length_le
  rw [List.dropLast_eq_take]
  exact List.prefix_take_iff.mpr ⟨above.trans below, by omega⟩

theorem mkdirs_target_iff (below : rootPlace <+: target) :
    (∀ place ∈ (mkdirs runtime disk target).touched, rootPlace <+: place) ↔
      (Clear disk target → Standing disk rootPlace) := by
  apply mkdirs_inside_iff
  · intro front above _
    exact above.trans below
  · intro front above apart
    exact prefix_below below above apart

theorem mkdirs_parent_iff (below : rootPlace <+: target) :
    (∀ place ∈ (mkdirs runtime disk target.dropLast).touched, rootPlace <+: place) ↔
      (Clear disk target.dropLast → Standing disk rootPlace) := by
  apply mkdirs_inside_iff
  · intro front above strict
    exact prefix_parent below above strict
  · intro front above apart
    exact prefix_below below (above.trans (List.dropLast_prefix target)) apart

/-! ### Writes at a place without links -/

theorem mkdirs_succeeds {directory : Place} (fine : (mkdirs runtime disk directory).failure = none) :
    ∃ made, disk.makeDirectories [] directory = some made ∧
      (mkdirs runtime disk directory).disk = made := by
  unfold mkdirs at fine ⊢
  cases done : disk.makeDirectories [] directory with
  | some made => exact ⟨made, rfl, rfl⟩
  | none =>
    simp only [done] at fine
    split at fine <;> cases fine

theorem mkdirs_made {directory : Place} {made : LinkDisk}
    (done : disk.makeDirectories [] directory = some made) :
    (mkdirs runtime disk directory).failure = none ∧
      (mkdirs runtime disk directory).disk = made := by
  simp [mkdirs, done, Outcome.done]

theorem LinkFree.made {directory : Place} {made : LinkDisk} (free : LinkFree disk target)
    (done : disk.makeDirectories [] directory = some made) : LinkFree made target := by
  intro front above text link
  rw [Disk.at?_makeDirectories disk.at?_nil done] at link
  split at link
  · cases link
  · exact free front above text link

theorem LinkFree.put {written : LinkDisk} {place : Place} {content : List UInt8}
    (free : LinkFree disk target) (put : putData disk place content = some written) :
    LinkFree written target := by
  intro front above text link
  rw [at?_putData put] at link
  split at link
  · cases link
  · exact free front above text link

theorem LinkFree.landing (free : LinkFree disk target) : landing resolver disk target = .ok target := by
  unfold Clamp.landing
  split
  case h_1 text link => exact absurd link (free target List.prefix_rfl text)
  case h_2 => rfl

theorem writeAt_inside (below : rootPlace <+: target) (free : LinkFree disk target)
    (content : List UInt8) :
    ∀ place ∈ (writeAt runtime resolver disk target content).touched, rootPlace <+: place := by
  intro place touched
  simp only [writeAt, free.landing] at touched
  split at touched
  · rw [Set.mem_singleton_iff.mp touched]
    exact below
  · split at touched <;> cases touched

theorem writeAt_linkFree (free : LinkFree disk target) (content : List UInt8) :
    LinkFree (writeAt runtime resolver disk target content).disk target := by
  simp only [writeAt, free.landing]
  split
  case h_1 written put => exact free.put put
  case h_2 => split <;> exact free

theorem writeInto_inside (below : rootPlace <+: target) (free : LinkFree disk target)
    (data : List UInt8) (offset : Option Int) :
    ∀ place ∈ (writeInto runtime resolver disk target data offset).touched,
      rootPlace <+: place := by
  intro place touched
  simp only [writeInto, free.landing] at touched
  split at touched
  · split at touched
    · cases touched
    · split at touched
      · rw [Set.mem_singleton_iff.mp touched]
        exact below
      · cases touched
  · cases touched
  · cases touched

theorem move_touched {source place : Place}
    (touched : place ∈ (move runtime disk source target).touched) :
    source <+: place ∨ target <+: place := by
  unfold move at touched
  split at touched
  · exact touched
  · cases touched

theorem rename_touched {source place : Place}
    (touched : place ∈ (rename runtime disk source target).touched) :
    source <+: place ∨ target <+: place := by
  unfold rename at touched
  split at touched
  · cases touched
  · split at touched
    · cases touched
    · split at touched
      · cases touched
      · split at touched
        · exact move_touched touched
        · cases touched
  · cases touched
  · split at touched
    · cases touched
    · exact move_touched touched
  · cases touched
  · split at touched
    · cases touched
    · exact move_touched touched

theorem remove_inside (below : rootPlace <+: target) (recursive : Bool) :
    ∀ place ∈ (remove runtime disk target recursive).touched, rootPlace <+: place := by
  intro place touched
  unfold remove at touched
  split at touched
  · split at touched
    · unfold rmtree at touched
      split at touched
      case isTrue top =>
        rw [top, List.prefix_nil] at below
        rw [below]
        exact List.nil_prefix
      case isFalse => exact below.trans touched
    · unfold rmdir at touched
      split at touched
      · cases touched
      · split at touched
        · exact below.trans touched
        · cases touched
  · unfold unlink at touched
    split at touched
    · exact below.trans touched
    · cases touched

/-! ### The temporary file -/

theorem putData_isSome_iff {place : Place} {content : List UInt8} :
    (∃ written, putData disk place content = some written) ↔
      place ≠ [] ∧ disk.isDir place.dropLast = true ∧ ¬ disk.isDir place = true := by
  cases place using List.reverseRecOn with
  | nil => simp [putData]
  | append_singleton front name =>
    simp only [putData, List.getLast?_concat, Option.bind_some, List.dropLast_concat, ne_eq,
      List.append_eq_nil_iff, List.cons_ne_self, and_false, not_false_eq_true, true_and]
    unfold Disk.put
    split
    case isTrue free => exact ⟨fun _ => free, fun _ => ⟨_, rfl⟩⟩
    case isFalse busy =>
      constructor
      · intro made
        obtain ⟨_, made⟩ := made
        cases made
      · intro free
        exact absurd free busy

theorem temporary_not_below (front : Place) (name : Segment) :
    ¬ front ++ [name] <+: front ++ [temporaryName name] := by
  intro below
  rw [List.prefix_append_right_inj, List.cons_prefix_cons] at below
  have same := congrArg (fun segment => segment.val.length) below.1
  simp only [temporaryName, String.length_append, show ".tmp".length = 4 from rfl] at same
  omega

/-- A temporary name that is not a link is where the write lands. -/
theorem landing_cases {place there : Place} (lands : landing resolver disk place = .ok there) :
    there = place ∨ ∃ text, disk.at? place = some (.file (.link text)) := by
  unfold landing at lands
  split at lands
  case h_1 text link => exact Or.inr ⟨text, link⟩
  case h_2 =>
    cases lands
    exact Or.inl rfl

/-- A link beside the root that leads to the root is renamed over what was written there. -/
theorem rename_touches_link {written : LinkDisk} {front : Place} {name : Segment} {text : String}
    {content : List UInt8} (put : putData disk (front ++ [name]) content = some written)
    (link : disk.at? (front ++ [temporaryName name]) = some (.file (.link text))) :
    front ++ [temporaryName name] ∈
      (rename runtime written (front ++ [temporaryName name]) (front ++ [name])).touched := by
  have apart : front ++ [temporaryName name] ≠ front ++ [name] := by
    intro same
    exact temporary_not_below front name (same ▸ List.prefix_rfl)
  have source : written.at? (front ++ [temporaryName name]) = some (.file (.link text)) := by
    rw [at?_putData put, if_neg apart]
    exact link
  have target : written.at? (front ++ [name]) = some (.file (.data content)) := by
    rw [at?_putData put, if_pos rfl]
  have sameLength : ¬ front ++ [temporaryName name] <+: front ++ [name] := by
    intro below
    exact apart (below.eq_of_length (by simp))
  have parent : written.isDir (front ++ [name]).dropLast = true := by
    rw [List.dropLast_concat, Disk.isDir_iff]
    exact Disk.parent_directory (by rw [target]; simp)
  have movable : written.Movable (front ++ [temporaryName name]) (front ++ [name]) :=
    ⟨sameLength, temporary_not_below front name, parent⟩
  simp only [rename, source, target, if_neg apart, move, Disk.moveTree, dif_pos movable,
    Outcome.done]
  exact Or.inl List.prefix_rfl

/-- A directory is never replaced by a file. -/
theorem rename_onto_directory {written : LinkDisk} {source : Place} {leaf : Leaf}
    (file : written.at? source = some (.file leaf)) (directory : written.at? target = some .directory) :
    (rename runtime written source target).touched = ∅ := by
  simp only [rename, file, directory]
  rfl

/-- Where the temporary file of the root itself is written below it, the root is a
directory, and the rename that follows refuses. -/
theorem rename_onto_root {written : LinkDisk} {front there : Place} {name : Segment}
    {content : List UInt8} (put : putData disk there content = some written)
    (lands : landing resolver disk (front ++ [temporaryName name]) = .ok there)
    (below : front ++ [name] <+: there) (strict : there ≠ front ++ [name]) :
    (rename runtime written (front ++ [temporaryName name]) (front ++ [name])).touched = ∅ := by
  obtain beside | ⟨text, link⟩ := landing_cases lands
  · rw [beside] at below
    exact absurd below (temporary_not_below front name)
  · have apart : front ++ [temporaryName name] ≠ there := by
      intro same
      exact temporary_not_below front name (same ▸ below)
    apply @rename_onto_directory _ _ _ _ (.link text)
    · rw [at?_putData put, if_neg apart]
      exact link
    · obtain ⟨rest, rfl⟩ := below
      apply Disk.directory_of_below
      · rw [at?_putData put, if_pos rfl]
        simp
      · intro nothing
        apply strict
        rw [nothing, List.append_nil]

/-- The temporary write and the rename stay inside exactly when every place where the
temporary file can be written does. -/
theorem temporary_inside_iff {front : Place} {name : Segment} (data : List UInt8)
    (below : rootPlace <+: front ++ [name]) :
    (∀ place ∈ ((writeAt runtime resolver disk (front ++ [temporaryName name]) data).andThen
        fun written => rename runtime written (front ++ [temporaryName name])
          (front ++ [name])).touched, rootPlace <+: place) ↔
      ∀ there, landing resolver disk (front ++ [temporaryName name]) = .ok there →
        there ≠ [] → disk.isDir there.dropLast = true → ¬ disk.isDir there = true →
        rootPlace <+: there ∧ (front ++ [name] = rootPlace → there ≠ rootPlace) := by
  rw [Outcome.touched_andThen]
  unfold writeAt
  cases lands : landing resolver disk (front ++ [temporaryName name]) with
  | error failure => simp [Outcome.raised]
  | ok there =>
    simp only [Except.ok.injEq, forall_eq']
    cases put : putData disk there data with
    | none =>
      constructor
      · intro _ inner parent free
        obtain ⟨written, made⟩ := (@putData_isSome_iff disk there data).mpr
          ⟨inner, parent, free⟩
        rw [put] at made
        cases made
      · intro _
        constructor
        · intro place touched
          simp only at touched
          split at touched <;> cases touched
        · intro fine
          simp only at fine
          split at fine <;> cases fine
    | some written =>
      obtain ⟨inner, parent, free⟩ := putData_isSome_iff.mp ⟨written, put⟩
      simp only [Outcome.done, Set.mem_singleton_iff, forall_eq, true_implies]
      constructor
      · intro both _ _ _
        refine ⟨both.1, ?_⟩
        intro same here
        rw [here, ← same] at put
        obtain beside | ⟨text, link⟩ := landing_cases lands
        · rw [here, ← same] at beside
          exact temporary_not_below front name (beside ▸ List.prefix_rfl)
        · have outside := both.2 _ (rename_touches_link put link)
          rw [← same] at outside
          exact temporary_not_below front name outside
      · intro inside
        obtain ⟨within, strict⟩ := inside inner parent free
        refine ⟨within, ?_⟩
        intro place touched
        obtain same | above := List.prefix_concat_iff.mp below
        · -- the root is the target: the landing is below it, so it is a directory
          rw [rename_onto_root put lands (same ▸ within) (same ▸ strict same.symm)] at touched
          cases touched
        · cases rename_touched touched with
          | inl moved => exact (above.trans (List.prefix_append _ _)).trans moved
          | inr replaced => exact below.trans replaced

/-- The directories made first change nothing about where the temporary file lands. -/
theorem temporaryInside_made_iff {front : Place} {name : Segment} {made : LinkDisk}
    (done : disk.makeDirectories [] front = some made) :
    TemporaryInside resolver disk rootPlace (front ++ [name]) ↔
      ∀ there, landing resolver made (front ++ [temporaryName name]) = .ok there →
        there ≠ [] → made.isDir there.dropLast = true → ¬ made.isDir there = true →
        rootPlace <+: there ∧ (front ++ [name] = rootPlace → there ≠ rootPlace) := by
  have kept := Disk.at?_makeDirectories disk.at?_nil done
  have parent : made.isDir front = true := by
    rw [Disk.isDir_iff, kept]
    simp
  have beside : made.at? (front ++ [temporaryName name]) =
      disk.at? (front ++ [temporaryName name]) := by
    rw [kept, if_neg]
    intro within
    have size := within.2.length_le
    simp only [List.length_append, List.length_singleton, List.nil_append] at size
    omega
  simp only [TemporaryInside, List.getLast?_concat, List.dropLast_concat, Option.some.injEq,
    forall_eq']
  apply forall_congr'
  intro there
  by_cases link : ∃ text, disk.at? (front ++ [temporaryName name]) = some (.file (.link text))
  · -- the link is there, so nothing had to be made
    obtain ⟨text, link⟩ := link
    have standing : disk.at? front = some .directory :=
      Disk.parent_directory (by rw [link]; simp)
    have same : made = disk := by
      rw [Disk.makeDirectories_standing standing] at done
      exact (Option.some.inj done).symm
    subst same
    constructor
    · intro each lands inner above
      exact each lands inner (Or.inr above)
    · intro each lands inner above
      apply each lands inner
      cases above with
      | inl own =>
        rw [own]
        exact parent
      | inr above => exact above
  · have lands : ∀ other : LinkDisk, other.at? (front ++ [temporaryName name]) =
        disk.at? (front ++ [temporaryName name]) →
        landing resolver other (front ++ [temporaryName name]) =
          .ok (front ++ [temporaryName name]) := by
      intro other same
      unfold landing
      split
      case h_1 text found => exact absurd ⟨text, same ▸ found⟩ link
      case h_2 => rfl
    rw [lands made beside, lands disk rfl]
    apply imp_congr_right
    intro here
    cases here
    have sameKind : made.isDir (front ++ [temporaryName name]) =
        disk.isDir (front ++ [temporaryName name]) := by
      unfold Disk.isDir
      rw [beside]
    simp [parent, sameKind]

/-! ### Each operation -/

/-- What follows the making of the parent directories, where they can be made. -/
theorem andThen_mkdirs_inside_iff {next : LinkDisk → Outcome} {condition : Prop}
    (below : rootPlace <+: target)
    (after : ∀ made, disk.makeDirectories [] target.dropLast = some made →
      ((∀ place ∈ (next made).touched, rootPlace <+: place) ↔ condition)) :
    (∀ place ∈ ((mkdirs runtime disk target.dropLast).andThen next).touched,
        rootPlace <+: place) ↔
      (Clear disk target.dropLast → Standing disk rootPlace ∧ condition) := by
  rw [Outcome.touched_andThen, mkdirs_parent_iff below, clear_iff]
  cases done : disk.makeDirectories [] target.dropLast with
  | none =>
    have fails : (mkdirs runtime disk target.dropLast).failure ≠ none := by
      intro fine
      obtain ⟨made, impossible, _⟩ := mkdirs_succeeds fine
      rw [done] at impossible
      cases impossible
    simp [fails]
  | some made =>
    obtain ⟨fine, same⟩ := @mkdirs_made runtime _ _ _ done
    rw [same, fine, after made done]
    simp

theorem writeBytes_inside_iff (below : rootPlace <+: target) (free : LinkFree disk target)
    (data : List UInt8) (atomic : Bool) :
    (∀ place ∈ (writeBytes runtime resolver disk target data atomic).touched,
        rootPlace <+: place) ↔
      (Clear disk target.dropLast → Standing disk rootPlace ∧
        (atomic = true → TemporaryInside resolver disk rootPlace target)) := by
  unfold writeBytes
  apply andThen_mkdirs_inside_iff below
  intro made done
  cases atomic with
  | false =>
    simp only [Bool.false_eq_true, if_false, false_implies, iff_true]
    exact writeAt_inside below (free.made done) data
  | true =>
    simp only [if_true, true_implies]
    cases target using List.reverseRecOn with
    | nil =>
      simp only [TemporaryInside, List.getLast?_nil, reduceCtorEq, false_implies, implies_true,
        iff_true]
      intro place touched
      cases touched
    | append_singleton front name =>
      simp only [List.getLast?_concat, List.dropLast_concat] at done ⊢
      rw [temporaryInside_made_iff done]
      exact temporary_inside_iff data below

theorem writeChunk_inside_iff (below : rootPlace <+: target) (free : LinkFree disk target)
    (data : List UInt8) (offset : Option Int) (truncate : Bool) :
    (∀ place ∈ (writeChunk runtime resolver disk target data offset truncate).touched,
        rootPlace <+: place) ↔ (Clear disk target.dropLast → Standing disk rootPlace) := by
  have iff := @andThen_mkdirs_inside_iff runtime disk rootPlace target
    (fun made => (if truncate || !made.exists? target then writeAt runtime resolver made target []
      else .done made ∅).andThen fun opened =>
        writeInto runtime resolver opened target data offset) True below
  simp only [and_true, iff_true] at iff
  apply iff
  intro made done
  rw [Outcome.touched_andThen]
  have clean := free.made done
  split
  · constructor
    · exact writeAt_inside below clean []
    · intro _
      exact writeInto_inside below (writeAt_linkFree clean []) data offset
  · constructor
    · intro place touched
      cases touched
    · intro _
      exact writeInto_inside below clean data offset

theorem rename_inside_iff {source : Place} (below : rootPlace <+: target)
    (within : rootPlace <+: source) :
    (∀ place ∈ ((mkdirs runtime disk target.dropLast).andThen fun made =>
        rename runtime made source target).touched, rootPlace <+: place) ↔
      (Clear disk target.dropLast → Standing disk rootPlace) := by
  have iff := @andThen_mkdirs_inside_iff runtime disk rootPlace target
    (fun made => rename runtime made source target) True below
  simp only [and_true, iff_true] at iff
  apply iff
  intro made done place touched
  cases rename_touched touched with
  | inl moved => exact within.trans moved
  | inr replaced => exact below.trans replaced

/-- An operation on one path stays inside exactly when its part after the resolution does. -/
theorem within_inside_iff {path : String} {next : Place → Outcome} {condition : Place → Prop}
    (canonical : resolver.Canonical disk)
    (rooted : resolveRoot runtime resolver cwd root disk = .ok rootPlace)
    (after : ∀ target, rootPlace <+: target → LinkFree disk target →
      ((∀ place ∈ (next target).touched, rootPlace <+: place) ↔ condition target)) :
    (∀ place ∈ (within runtime resolver cwd root disk path next).touched, rootPlace <+: place) ↔
      ∀ target, resolve runtime resolver cwd root disk path = .ok target → condition target := by
  unfold within
  cases resolved : resolve runtime resolver cwd root disk path with
  | error failure => simp [Outcome.raised]
  | ok target =>
    obtain ⟨below, free⟩ := resolve_inside canonical rooted resolved
    simpa using after target below free

/-- One operation touches only the root exactly under the condition. -/
theorem perform_inside_iff (canonical : resolver.Canonical disk) (operation : Operation) :
    (∀ rootPlace, resolveRoot runtime resolver cwd root disk = .ok rootPlace →
      ∀ place ∈ (perform runtime resolver cwd root disk operation).touched,
        rootPlace <+: place) ↔ Sheltered runtime resolver cwd root disk operation := by
  unfold Sheltered
  apply forall_congr'
  intro rootPlace
  apply imp_congr_right
  intro rooted
  cases operation with
  | writeBytes path data atomic =>
    apply within_inside_iff canonical rooted
    intro target below free
    exact writeBytes_inside_iff below free data atomic
  | writeText path text atomic =>
    apply within_inside_iff canonical rooted
    intro target below free
    exact writeBytes_inside_iff below free (utf8 text) atomic
  | writeChunk path data offset truncate =>
    apply within_inside_iff canonical rooted
    intro target below free
    exact writeChunk_inside_iff below free data offset truncate
  | mkdir path =>
    apply within_inside_iff canonical rooted
    intro target below _
    exact mkdirs_target_iff below
  | rename old new =>
    simp only [perform]
    rw [@within_inside_iff _ _ _ _ _ _ old _ (fun source => ∀ target,
      resolve runtime resolver cwd root disk new = .ok target →
        Clear disk target.dropLast → Standing disk rootPlace) canonical rooted]
    · constructor
      · intro each source target early late
        exact each source early target late
      · intro each source early target late
        exact each source target early late
    · intro source within _
      apply within_inside_iff canonical rooted
      intro target below _
      exact rename_inside_iff below within
  | remove path recursive =>
    simp only [iff_true]
    have each := @within_inside_iff _ _ _ _ _ _ path
      (fun target => remove runtime disk target recursive) (fun _ => True) canonical rooted
    simp only [implies_true, iff_true] at each
    apply each
    intro target below _
    exact remove_inside below recursive

/-- A path that resolves outside stops the operation before it does anything. -/
theorem perform_escape {operation : Operation} {path : String} {failure : PyError}
    (named : path ∈ operation.paths)
    (outside : resolve runtime resolver cwd root disk path = .error failure) :
    ∃ raised, perform runtime resolver cwd root disk operation = .raised disk raised := by
  cases operation with
  | rename old new =>
    simp only [Operation.paths, List.mem_cons, List.not_mem_nil, or_false] at named
    simp only [perform, within]
    cases early : resolve runtime resolver cwd root disk old with
    | error first => exact ⟨first, rfl⟩
    | ok source =>
      cases named with
      | inl same =>
        rw [same, early] at outside
        cases outside
      | inr same =>
        rw [← same, outside]
        exact ⟨failure, rfl⟩
  | _ =>
    cases List.mem_singleton.mp named
    exact ⟨failure, by simp only [perform, within, outside]⟩

/-- An operation is clamped to its root exactly when the directories above the root are
there before any is made, and the temporary file of an atomic write lands in the root. -/
theorem clamp_iff (runtime : Runtime) (resolver : Resolver) (cwd : Place) (root : PurePath)
    (disk : LinkDisk) (operation : Operation) (canonical : resolver.Canonical disk) :
    Clamped runtime resolver cwd root disk operation ↔
      Sheltered runtime resolver cwd root disk operation := by
  rw [← perform_inside_iff canonical operation]
  constructor
  · intro clamped rootPlace rooted place touched
    exact clamped.inside rootPlace rooted place (Or.inl touched)
  · intro inside
    constructor
    · intro rootPlace rooted place reached
      apply inside rootPlace rooted place
      cases reached with
      | inl touched => exact touched
      | inr changed => exact perform_covers cwd root operation place changed
    · intro path named failure outside
      obtain ⟨raised, same⟩ := @perform_escape runtime _ _ _ _ _ _ _ named outside
      rw [same]
      exact ⟨⟨raised, rfl⟩, rfl, rfl⟩

/-! ### Two atomic writes -/

/-- A resolver for disks without links. -/
def lexical : Resolver where
  realpath _ path := .ok (Fs.resolvePath [] path)

def quotingRuntime : Runtime where
  importable := fun _ => true
  repr
    | .str text => "'" ++ text ++ "'"
    | _ => ""
  str
    | .str text => text
    | _ => ""

def workFolder : Place := [⟨"work", by decide⟩]

/-- The running directory and nothing else. -/
def workDisk : LinkDisk := (Disk.bare.put [] ⟨"work", by decide⟩ .directory).getD Disk.bare

theorem at?_workDisk (place : Place) :
    workDisk.at? place =
      if place = workFolder then some .directory else (Disk.bare : LinkDisk).at? place := by
  have made : (Disk.bare : LinkDisk).put [] ⟨"work", by decide⟩ .directory = some workDisk := rfl
  exact Disk.at?_put made place

theorem lexical_canonical : lexical.Canonical workDisk := by
  intro path kind place _ front above text link
  rw [at?_workDisk] at link
  split at link
  · cases link
  · by_cases top : front = []
    · simp [top] at link
    · rw [Disk.at?_bare top] at link
      cases link

theorem work_is_root : resolveRoot quotingRuntime lexical workFolder (PurePath.ofString "") workDisk =
    .ok workFolder :=
  rfl

theorem notes_resolved :
    resolve quotingRuntime lexical workFolder (PurePath.ofString "") workDisk "notes.txt" =
      .ok (workFolder ++ [⟨"notes.txt", by decide⟩]) :=
  rfl

/-- A file written atomically below the root leaves the rest of the disk alone. -/
theorem notes_write_is_clamped :
    lexical.Canonical workDisk ∧
      Clamped quotingRuntime lexical workFolder (PurePath.ofString "") workDisk
        (.writeText "notes.txt" "hello" true) := by
  refine ⟨lexical_canonical, (clamp_iff _ _ _ _ _ _ lexical_canonical).mpr ?_⟩
  intro rootPlace rooted target resolved _
  rw [work_is_root] at rooted
  cases rooted
  rw [notes_resolved] at resolved
  cases resolved
  constructor
  · intro front above strict
    have top : front = [] := by
      cases front with
      | nil => rfl
      | cons name rest =>
        obtain ⟨same, short⟩ := List.cons_prefix_cons.mp above
        rw [List.prefix_nil.mp short, same] at strict
        exact absurd rfl strict
    simp [top]
  · intro _ name last there lands _ _ _
    cases last
    have free : LinkFree workDisk (workFolder ++ [⟨"notes.txt.tmp", by decide⟩]) :=
      lexical_canonical (PurePath.ofString "/work/notes.txt.tmp") "/" _ rfl
    have same : there = workFolder ++ [⟨"notes.txt.tmp", by decide⟩] := by
      have here : landing lexical workDisk _ = .ok _ := free.landing
      exact Except.ok.inj (lands.symm.trans here)
    rw [same]
    exact ⟨List.prefix_append _ _, fun _ => by decide⟩

/-- An atomic write of the root itself leaves the temporary file beside the root: the
rename that would take it back refuses to replace a directory. -/
theorem root_write_escapes :
    lexical.Canonical workDisk ∧
      ¬ Clamped quotingRuntime lexical workFolder (PurePath.ofString "") workDisk
        (.writeText "" "hello" true) := by
  refine ⟨lexical_canonical, ?_⟩
  intro clamped
  have inside := clamped.inside workFolder work_is_root [⟨"work.tmp", by decide⟩] (Or.inr (by
    decide))
  revert inside
  decide

end Fantastic.Python.Clamp

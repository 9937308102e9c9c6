import Fantastic.Foundation.Utf8
import Fantastic.Python.FileSystem
import Mathlib.Data.Set.Basic

/-!
# Where the disk surface writes

`file_bridge/fs.py` on a disk with symbolic links: `write_text`, `write_bytes`,
`write_chunk`, `mkdir`, `rename` and `remove` in the clamped form. `Path.resolve` is a
parameter. Every operation is followed step by step, and an outcome keeps the paths that
were created, changed, renamed or removed on the way, those of an operation that failed
in the end among them.
-/

namespace Fantastic.Python.Clamp

open PurePath (Segment)

/-- What a name that is not a directory holds. -/
inductive Leaf where
  | data (content : List UInt8)
  | link (text : String)
  deriving DecidableEq

abbrev LinkDisk := Disk Segment Leaf

/-- `Path.resolve` of an absolute path: the kind of root and the place. -/
structure Resolver where
  realpath : LinkDisk → PurePath → Except PyError (String × Place)

/-- No symbolic link on the way to a place, nor at it. -/
def LinkFree (disk : LinkDisk) (place : Place) : Prop :=
  ∀ front, front <+: place → ∀ text, disk.at? front ≠ some (.file (.link text))

/-- `Path.resolve` canonicalises. -/
def Resolver.Canonical (resolver : Resolver) (disk : LinkDisk) : Prop :=
  ∀ path kind place, resolver.realpath disk path = .ok (kind, place) → LinkFree disk place

/-! ### Outcomes -/

/-- The disk an operation leaves, the places it touched, and the exception it raised. -/
structure Outcome where
  disk : LinkDisk
  touched : Set Place
  failure : Option PyError

namespace Outcome

def raised (disk : LinkDisk) (failure : PyError) : Outcome where
  disk := disk
  touched := ∅
  failure := some failure

def done (disk : LinkDisk) (touched : Set Place) : Outcome where
  disk := disk
  touched := touched
  failure := none

/-- What comes next, unless the first part raised. -/
def andThen (first : Outcome) (next : LinkDisk → Outcome) : Outcome :=
  match first.failure with
  | some _ => first
  | none => { next first.disk with touched := first.touched ∪ (next first.disk).touched }

/-- Every place whose entry is another one afterwards was touched. -/
def Covers (outcome : Outcome) (before : LinkDisk) : Prop :=
  ∀ place, outcome.disk.at? place ≠ before.at? place → place ∈ outcome.touched

theorem raised_covers (disk : LinkDisk) (failure : PyError) : (raised disk failure).Covers disk := by
  intro place changed
  exact absurd rfl changed

theorem Covers.andThen {first : Outcome} {before : LinkDisk} {next : LinkDisk → Outcome}
    (early : first.Covers before) (late : (next first.disk).Covers first.disk) :
    (first.andThen next).Covers before := by
  intro place changed
  unfold Outcome.andThen at changed ⊢
  split at changed
  case h_1 => exact early place changed
  case h_2 =>
    by_cases same : (next first.disk).disk.at? place = first.disk.at? place
    · rw [same] at changed
      exact Or.inl (early place changed)
    · exact Or.inr (late place same)

theorem touched_andThen {first : Outcome} {next : LinkDisk → Outcome} {inside : Place → Prop} :
    (∀ place ∈ (first.andThen next).touched, inside place) ↔
      (∀ place ∈ first.touched, inside place) ∧
        (first.failure = none → ∀ place ∈ (next first.disk).touched, inside place) := by
  unfold andThen
  cases first.failure with
  | some failure => simp
  | none =>
    simp only [Set.mem_union, true_implies]
    constructor
    · intro both
      exact ⟨fun place early => both place (Or.inl early), fun place late => both place (Or.inr late)⟩
    · intro both place touched
      cases touched with
      | inl early => exact both.1 place early
      | inr late => exact both.2 place late

end Outcome

/-! ### What the operating system does -/

section System

variable (runtime : Runtime) (resolver : Resolver) (disk : LinkDisk)

def osFailure (errno : Nat) (reason : String) (place : Place) : PyError :=
  .osError (osErrorText runtime errno reason place)

/-- `directory.mkdir(parents=True, exist_ok=True)`. -/
def mkdirs (directory : Place) : Outcome :=
  match disk.makeDirectories [] directory with
  | some made => .done made { place | place <+: directory ∧ disk.at? place = none }
  | none =>
    if disk.isFile directory then
      .raised disk (osFailure runtime 17 "File exists" directory)
    else .raised disk (osFailure runtime 20 "Not a directory" directory)

def pathOf (place : Place) : PurePath where
  root := "/"
  parts := place.map Subtype.val

/-- Where `open` lands: a link at the place leads on. -/
def landing (place : Place) : Except PyError Place :=
  match disk.at? place with
  | some (.file (.link text)) =>
    (resolver.realpath disk ((pathOf place.dropLast).join text)).map Prod.snd
  | _ => .ok place

/-- The content of a regular file, made or replaced. -/
def putData (place : Place) (content : List UInt8) : Option LinkDisk :=
  place.getLast?.bind fun name => disk.put place.dropLast name (.file (.data content))

/-- `place.write_bytes(content)`. -/
def writeAt (place : Place) (content : List UInt8) : Outcome :=
  match landing resolver disk place with
  | .error failure => .raised disk failure
  | .ok there =>
    match putData disk there content with
    | some written => .done written {there}
    | none =>
      if disk.isDir there then .raised disk (osFailure runtime 21 "Is a directory" place)
      else .raised disk (osFailure runtime 2 "No such file or directory" place)

/-- `open(place, "r+b")`, `seek(offset)`, `write(data)`; no offset is the end. -/
def writeInto (place : Place) (data : List UInt8) (offset : Option Int) : Outcome :=
  match landing resolver disk place with
  | .error failure => .raised disk failure
  | .ok there =>
    match disk.at? there with
    | some (.file (.data content)) =>
      let start := offset.getD content.length
      if start < 0 then .raised disk (osFailure runtime 22 "Invalid argument" place)
      else
        match putData disk there (Fs.splice content start.toNat data) with
        | some written => .done written {there}
        | none => .raised disk (osFailure runtime 2 "No such file or directory" place)
    | some .directory => .raised disk (osFailure runtime 21 "Is a directory" place)
    | _ => .raised disk (osFailure runtime 2 "No such file or directory" place)

/-- The rename itself, over what it may replace. -/
def move (source target : Place) : Outcome :=
  match disk.moveTree source target with
  | some moved => .done moved { place | source <+: place ∨ target <+: place }
  | none => .raised disk (osFailure runtime 2 "No such file or directory" source)

/-- `os.rename` and `os.replace`, which are one call here. -/
def rename (source target : Place) : Outcome :=
  match disk.at? source, disk.at? target with
  | none, _ => .raised disk (osFailure runtime 2 "No such file or directory" source)
  | some .directory, some .directory =>
    if source = target then .done disk ∅
    else if source <+: target then .raised disk (osFailure runtime 22 "Invalid argument" source)
    else if disk.names target = [] then move runtime disk source target
    else .raised disk (osFailure runtime 39 "Directory not empty" source)
  | some .directory, some (.file _) =>
    .raised disk (osFailure runtime 20 "Not a directory" source)
  | some .directory, none =>
    if source <+: target then .raised disk (osFailure runtime 22 "Invalid argument" source)
    else move runtime disk source target
  | some (.file _), some .directory =>
    .raised disk (osFailure runtime 21 "Is a directory" source)
  | some (.file _), _ => if source = target then .done disk ∅ else move runtime disk source target

def dropTree (target : Place) : Outcome :=
  .done (disk.removeTree target) { place | target <+: place }

/-- `target.rmdir()`. -/
def rmdir (target : Place) : Outcome :=
  if target = [] then .raised disk (osFailure runtime 16 "Device or resource busy" target)
  else if disk.names target = [] then dropTree disk target
  else .raised disk (osFailure runtime 39 "Directory not empty" target)

/-- `_rmtree`: what is below goes first, links as links. -/
def rmtree (target : Place) : Outcome :=
  if target = [] then
    { disk := disk.removeTree []
      touched := Set.univ
      failure := some (osFailure runtime 16 "Device or resource busy" target) }
  else dropTree disk target

/-- `target.unlink()`. -/
def unlink (target : Place) : Outcome :=
  match disk.at? target with
  | some (.file _) => dropTree disk target
  | _ => .raised disk (osFailure runtime 2 "No such file or directory" target)

end System

/-! ### The surface -/

theorem temporary_ne {short : String} (few : short.length < 4) (text : String) :
    text ++ ".tmp" ≠ short := by
  intro same
  have size := congrArg String.length same
  rw [String.length_append, show ".tmp".length = 4 from rfl] at size
  omega

/-- `name + ".tmp"`. -/
def temporaryName (name : Segment) : Segment where
  val := name.val ++ ".tmp"
  property := by
    refine ⟨temporary_ne (by decide) _, temporary_ne (by decide) _, temporary_ne (by decide) _, ?_⟩
    simp only [String.toList_append, List.mem_append, not_or]
    exact ⟨name.property.2.2.2, by decide⟩

/-- One call of the surface. -/
inductive Operation where
  | writeBytes (path : String) (data : List UInt8) (atomic : Bool)
  | writeText (path text : String) (atomic : Bool)
  | writeChunk (path : String) (data : List UInt8) (offset : Option Int) (truncate : Bool)
  | mkdir (path : String)
  | rename (old new : String)
  | remove (path : String) (recursive : Bool)

def Operation.paths : Operation → List String
  | .writeBytes path _ _ | .writeText path _ _ | .writeChunk path _ _ _ | .mkdir path
  | .remove path _ => [path]
  | .rename old new => [old, new]

section Surface

variable (runtime : Runtime) (resolver : Resolver) (cwd : Place) (root : PurePath)
  (disk : LinkDisk)

/-- `resolve_root`. -/
def resolveRoot : Except PyError Place := do
  let whole :=
    if root.root = "" then { pathOf cwd with parts := (pathOf cwd).parts ++ root.parts } else root
  let (kind, place) ← resolver.realpath disk whole
  if kind = "/" && decide (cwd <+: place) then return place
  else throw (.valueError
    ("fs: root " ++ runtime.repr (.str root.text) ++ " escapes the running dir"))

/-- `resolve`. -/
def resolve (path : String) : Except PyError Place := do
  let rootPlace ← resolveRoot runtime resolver cwd root disk
  let relative := String.ofList (path.toList.dropWhile (· = '/'))
  if relative = "" then return rootPlace
  else
    let (kind, target) ← resolver.realpath disk ((pathOf rootPlace).join relative)
    if kind = "/" && decide (rootPlace <+: target) then return target
    else throw (.valueError ("fs: path " ++ runtime.repr (.str path) ++ " escapes root"))

/-- The rest of an operation, once its path is resolved. -/
def within (path : String) (next : Place → Outcome) : Outcome :=
  match resolve runtime resolver cwd root disk path with
  | .error failure => .raised disk failure
  | .ok target => next target

/-- `write_bytes`, the path resolved. -/
def writeBytes (target : Place) (data : List UInt8) (atomic : Bool) : Outcome :=
  (mkdirs runtime disk target.dropLast).andThen fun made =>
    if atomic then
      match target.getLast? with
      | none => .raised made (.valueError "PosixPath('/') has an empty name")
      | some name =>
        let temporary := target.dropLast ++ [temporaryName name]
        (writeAt runtime resolver made temporary data).andThen fun written =>
          rename runtime written temporary target
    else writeAt runtime resolver made target data

/-- `write_chunk`, the path resolved. -/
def writeChunk (target : Place) (data : List UInt8) (offset : Option Int) (truncate : Bool) :
    Outcome :=
  (mkdirs runtime disk target.dropLast).andThen fun made =>
    (if truncate || !made.exists? target then writeAt runtime resolver made target []
      else .done made ∅).andThen fun opened =>
        writeInto runtime resolver opened target data offset

/-- `remove`, the path resolved. -/
def remove (target : Place) (recursive : Bool) : Outcome :=
  if disk.isDir target then
    if recursive then rmtree runtime disk target else rmdir runtime disk target
  else unlink runtime disk target

def perform (operation : Operation) : Outcome :=
  match operation with
  | .writeBytes path data atomic =>
    within runtime resolver cwd root disk path fun target =>
      writeBytes runtime resolver disk target data atomic
  | .writeText path text atomic =>
    within runtime resolver cwd root disk path fun target =>
      writeBytes runtime resolver disk target (utf8 text) atomic
  | .writeChunk path data offset truncate =>
    within runtime resolver cwd root disk path fun target =>
      writeChunk runtime resolver disk target data offset truncate
  | .mkdir path =>
    within runtime resolver cwd root disk path fun target => mkdirs runtime disk target
  | .rename old new =>
    within runtime resolver cwd root disk old fun source =>
      within runtime resolver cwd root disk new fun target =>
        (mkdirs runtime disk target.dropLast).andThen fun made =>
          Clamp.rename runtime made source target
  | .remove path recursive =>
    within runtime resolver cwd root disk path fun target => remove runtime disk target recursive

end Surface

/-! ### What is touched covers what changes -/

section Cover

variable {runtime : Runtime} {resolver : Resolver} {disk : LinkDisk}

theorem mkdirs_covers (directory : Place) : (mkdirs runtime disk directory).Covers disk := by
  unfold mkdirs
  split
  case h_1 made done =>
    intro place changed
    have now := Disk.at?_makeDirectories disk.at?_nil done place
    have clear := Disk.makeDirectories_clear disk.at?_nil done place
    simp only [List.nil_prefix, List.nil_append, true_and] at now clear
    by_cases above : place <+: directory
    · refine ⟨above, ?_⟩
      cases before : disk.at? place with
      | none => rfl
      | some entry =>
        cases entry with
        | file content => exact absurd before (clear above content)
        | directory =>
          rw [if_pos above] at now
          exact absurd (now.trans before.symm) changed
    · rw [if_neg above] at now
      exact absurd now changed
  case h_2 =>
    split
    · exact Outcome.raised_covers _ _
    · exact Outcome.raised_covers _ _

theorem at?_putData {written : LinkDisk} {place : Place} {content : List UInt8}
    (put : putData disk place content = some written) (other : Place) :
    written.at? other = if other = place then some (.file (.data content)) else disk.at? other := by
  obtain ⟨name, last, put⟩ := Option.bind_eq_some_iff.mp put
  obtain ⟨front, rfl⟩ := List.getLast?_eq_some_iff.mp last
  rw [List.dropLast_concat] at put
  exact Disk.at?_put put other

theorem putData_covers {written : LinkDisk} {place : Place} {content : List UInt8}
    (put : putData disk place content = some written) :
    (Outcome.done written {place}).Covers disk := by
  intro other changed
  by_contra apart
  apply changed
  rw [Outcome.done, at?_putData put, if_neg]
  exact apart

theorem writeAt_covers (place : Place) (content : List UInt8) :
    (writeAt runtime resolver disk place content).Covers disk := by
  unfold writeAt
  split
  case h_1 => exact Outcome.raised_covers _ _
  case h_2 =>
    split
    case h_1 written put => exact putData_covers put
    case h_2 => split <;> exact Outcome.raised_covers _ _

theorem writeInto_covers (place : Place) (data : List UInt8) (offset : Option Int) :
    (writeInto runtime resolver disk place data offset).Covers disk := by
  unfold writeInto
  split
  case h_1 => exact Outcome.raised_covers _ _
  case h_2 =>
    split
    case h_1 =>
      simp only
      split
      · exact Outcome.raised_covers _ _
      · split
        case h_1 written put => exact putData_covers put
        case h_2 => exact Outcome.raised_covers _ _
    case h_2 => exact Outcome.raised_covers _ _
    case h_3 => exact Outcome.raised_covers _ _

theorem move_covers (source target : Place) : (move runtime disk source target).Covers disk := by
  unfold move
  split
  case h_1 moved done =>
    intro place changed
    by_contra apart
    simp only [Outcome.done, Set.mem_ofPred_eq, not_or] at apart
    apply changed
    rw [Outcome.done, Disk.at?_moveTree done, if_neg apart.2, if_neg apart.1]
  case h_2 => exact Outcome.raised_covers _ _

theorem done_covers (touched : Set Place) : (Outcome.done disk touched).Covers disk := by
  intro place changed
  exact absurd rfl changed

theorem rename_covers (source target : Place) :
    (rename runtime disk source target).Covers disk := by
  unfold rename
  split
  · exact Outcome.raised_covers _ _
  · split
    · exact done_covers _
    · split
      · exact Outcome.raised_covers _ _
      · split
        · exact move_covers _ _
        · exact Outcome.raised_covers _ _
  · exact Outcome.raised_covers _ _
  · split
    · exact Outcome.raised_covers _ _
    · exact move_covers _ _
  · exact Outcome.raised_covers _ _
  · split
    · exact done_covers _
    · exact move_covers _ _

theorem dropTree_covers {target : Place} (inner : target ≠ []) :
    (dropTree disk target).Covers disk := by
  intro place changed
  by_contra apart
  apply changed
  rw [dropTree, Outcome.done, Disk.at?_removeTree disk inner, if_neg]
  exact apart

theorem remove_covers (target : Place) (recursive : Bool) :
    (remove runtime disk target recursive).Covers disk := by
  unfold remove
  split
  · split
    · unfold rmtree
      split
      · intro place _
        exact True.intro
      case isFalse inner => exact dropTree_covers inner
    · unfold rmdir
      split
      · exact Outcome.raised_covers _ _
      case isFalse inner =>
        split
        · exact dropTree_covers inner
        · exact Outcome.raised_covers _ _
  · unfold unlink
    split
    case h_1 content there =>
      apply dropTree_covers
      intro top
      simp [top] at there
    case h_2 => exact Outcome.raised_covers _ _

theorem writeBytes_covers (target : Place) (data : List UInt8) (atomic : Bool) :
    (writeBytes runtime resolver disk target data atomic).Covers disk := by
  apply (mkdirs_covers _).andThen
  split
  · split
    · exact Outcome.raised_covers _ _
    · exact (writeAt_covers _ _).andThen (rename_covers _ _)
  · exact writeAt_covers _ _

theorem writeChunk_covers (target : Place) (data : List UInt8) (offset : Option Int)
    (truncate : Bool) : (writeChunk runtime resolver disk target data offset truncate).Covers disk := by
  apply (mkdirs_covers _).andThen
  apply Outcome.Covers.andThen
  · split
    · exact writeAt_covers _ _
    · exact done_covers _
  · exact writeInto_covers _ _ _

theorem within_covers {cwd : Place} {root : PurePath} {path : String} {next : Place → Outcome}
    (covers : ∀ target, (next target).Covers disk) :
    (within runtime resolver cwd root disk path next).Covers disk := by
  unfold within
  split
  · exact Outcome.raised_covers _ _
  · exact covers _

/-- Every entry an operation makes, replaces or takes away was touched. -/
theorem perform_covers (cwd : Place) (root : PurePath) (operation : Operation) :
    (perform runtime resolver cwd root disk operation).Covers disk := by
  cases operation with
  | writeBytes path data atomic => exact within_covers fun target => writeBytes_covers target _ _
  | writeText path text atomic => exact within_covers fun target => writeBytes_covers target _ _
  | writeChunk path data offset truncate =>
    exact within_covers fun target => writeChunk_covers target _ _ _
  | mkdir path => exact within_covers fun target => mkdirs_covers target
  | rename old new =>
    apply within_covers
    intro source
    apply within_covers
    intro target
    exact (mkdirs_covers _).andThen (rename_covers _ _)
  | remove path recursive => exact within_covers fun target => remove_covers target _

end Cover

end Fantastic.Python.Clamp

import Fantastic.Foundation.Disk
import Fantastic.Foundation.PurePath
import Fantastic.Python.Runtime

/-!
# The clamped disk surface

A transcription of `file_bridge/fs.py` in its clamped form: every root lies in the
running directory and every path in its root. The disk has directories and regular
files and no links, so resolving a path is going through its parts. What only the
operating system decides (name lengths, permissions, free space) is left out.
-/

namespace Fantastic.Python

open PurePath (Segment walkFrom)

/-- A resolved path, the names from the top directory down. -/
abbrev Place := List Segment

def placeText (place : Place) : String :=
  "/" ++ "/".intercalate (place.map Subtype.val)

/-- `str` of an `OSError` about one file. -/
def osErrorText (runtime : Runtime) (errno : Nat) (reason : String) (place : Place) : String :=
  "[Errno " ++ toString errno ++ "] " ++ reason ++ ": " ++ runtime.repr (.str (placeText place))

/-- The file named `agent.json`, `readme.md` and the like. -/
def segment (text : String) (plain : PurePath.PlainSegment text) : Segment :=
  ⟨text, plain⟩

namespace Fs

/-- `Path.resolve`: the kind of root (`//` stays apart) and the place. -/
def resolvePath (cwd : Place) (path : PurePath) : String × Place :=
  if path.root = "" then ("/", walkFrom cwd path.parts)
  else (path.root, walkFrom [] path.parts)

/-- `resolve_root`. -/
def resolveRoot (runtime : Runtime) (cwd : Place) (root : PurePath) : Except PyError Place :=
  let (kind, place) := resolvePath cwd root
  if kind = "/" && decide (cwd <+: place) then .ok place
  else .error (.valueError
    ("fs: root " ++ runtime.repr (.str root.text) ++ " escapes the running dir"))

/-- `resolve`: leading slashes of the path drop out with its empty parts. -/
def resolve (runtime : Runtime) (cwd : Place) (root : PurePath) (path : String) :
    Except PyError Place := do
  let rootPlace ← resolveRoot runtime cwd root
  let target := walkFrom rootPlace (PurePath.segments path)
  if rootPlace <+: target then return target
  else throw (.valueError ("fs: path " ++ runtime.repr (.str path) ++ " escapes root"))

section Directories

variable {Content : Type}

/-- `target.parent.mkdir(parents=True, exist_ok=True)`. -/
def makeParents (runtime : Runtime) (disk : Disk Segment Content) (target : Place) :
    Except PyError (Disk Segment Content) :=
  match disk.makeDirectories [] target.dropLast with
  | some made => .ok made
  | none =>
    if disk.isFile target.dropLast then
      .error (.osError (osErrorText runtime 17 "File exists" target.dropLast))
    else .error (.osError (osErrorText runtime 20 "Not a directory" target.dropLast))

/-- `target.write_bytes(content)`, the parent being there. -/
def putFile (runtime : Runtime) (disk : Disk Segment Content) (target : Place)
    (content : Content) : Except PyError (Disk Segment Content) :=
  match target.getLast? with
  | none => .error (.osError (osErrorText runtime 21 "Is a directory" target))
  | some name =>
    match disk.put target.dropLast name (.file content) with
    | some written => .ok written
    | none => .error (.osError (osErrorText runtime 21 "Is a directory" target))

end Directories

/-- `f.seek(offset); f.write(data)` over what is there: a gap fills with zeros. -/
def splice (there : List UInt8) (offset : Nat) (data : List UInt8) : List UInt8 :=
  there.take offset ++ List.replicate (offset - there.length) 0 ++ data ++
    there.drop (offset + data.length)

/-- `read_chunk` of an open file: the chunk and the whole size. -/
def readChunk (there : List UInt8) (offset length : Nat) : List UInt8 × Nat :=
  ((there.drop offset).take length, there.length)

/-- What a write starts from: `truncate`, or a new file, starts fresh. -/
def standing (disk : Disk Segment (List UInt8)) (target : Place) (truncate : Bool) :
    List UInt8 :=
  match truncate, disk.at? target with
  | false, some (.file content) => content
  | _, _ => []

/-- `write_chunk`; no offset appends. A failure comes before anything is changed: a
target that is a directory has its parents already. -/
def writeChunk (runtime : Runtime) (cwd : Place) (root : PurePath) (path : String)
    (data : List UInt8) (offset : Option Nat) (truncate : Bool)
    (disk : Disk Segment (List UInt8)) :
    Except PyError (Disk Segment (List UInt8) × Nat × Nat) := do
  let target ← resolve runtime cwd root path
  let made ← makeParents runtime disk target
  let there := standing made target truncate
  let start := offset.getD there.length
  let content := splice there start data
  let written ← putFile runtime made target content
  return (written, start, content.length)

/-- A truncating write leaves exactly the data behind. -/
theorem writeChunk_truncate {runtime : Runtime} {cwd : Place} {root : PurePath} {path : String}
    {data : List UInt8} {disk written : Disk Segment (List UInt8)} {start size : Nat}
    (done : writeChunk runtime cwd root path data none true disk = .ok (written, start, size)) :
    ∃ target, resolve runtime cwd root path = .ok target ∧
      written.at? target = some (.file data) ∧ size = data.length := by
  simp only [writeChunk, bind_eq_ok_iff] at done
  obtain ⟨target, resolved, made, -, final, placed, done⟩ := done
  refine ⟨target, resolved, ?_⟩
  simp only [standing, Option.getD_none, List.length_nil, splice, List.take_nil, List.drop_nil,
    List.nil_append, Nat.sub_zero, List.replicate_zero, List.append_nil, pure, Except.pure,
    Except.ok.injEq, Prod.mk.injEq] at placed done
  obtain ⟨rfl, -, rfl⟩ := done
  unfold putFile at placed
  split at placed
  case h_1 => simp at placed
  case h_2 name last =>
    split at placed
    case h_2 => simp at placed
    case h_1 put =>
      cases placed
      obtain ⟨front, rfl⟩ := List.getLast?_eq_some_iff.mp last
      rw [List.dropLast_concat] at put
      simp [Disk.at?_put put]

theorem makeParents_succeeds {Content : Type} (runtime : Runtime) {disk : Disk Segment Content}
    {parent : Place} {file : Segment}
    (clear : ∀ front, front <+: parent → ∀ other, disk.at? front ≠ some (.file other)) :
    ∃ made, makeParents runtime disk (parent ++ [file]) = .ok made ∧
      ∀ place, made.at? place = if place <+: parent then some .directory else disk.at? place := by
  obtain ⟨made, done⟩ := Disk.makeDirectories_isSome disk.at?_nil (by simpa using clear)
  refine ⟨made, ?_, ?_⟩
  · rw [makeParents, List.dropLast_concat, done]
  · intro place
    simpa using Disk.at?_makeDirectories disk.at?_nil done place

theorem putFile_succeeds {Content : Type} (runtime : Runtime) {disk : Disk Segment Content}
    {parent : Place} {file : Segment} (content : Content)
    (above : disk.at? parent = some .directory)
    (clear : disk.at? (parent ++ [file]) ≠ some .directory) :
    ∃ written, putFile runtime disk (parent ++ [file]) content = .ok written ∧
      ∀ place, written.at? place =
        if place = parent ++ [file] then some (.file content) else disk.at? place := by
  obtain ⟨written, done⟩ : ∃ written, disk.put parent file (.file content) = some written :=
    Disk.put_isSome above clear
  refine ⟨written, ?_, Disk.at?_put done⟩
  rw [putFile, List.getLast?_concat, List.dropLast_concat]
  simp only [done]

theorem last_outside (parent : Place) (file : Segment) : ¬parent ++ [file] <+: parent := by
  intro within
  have long := within.length_le
  rw [List.length_append, List.length_singleton] at long
  omega

theorem writeChunk_succeeds {runtime : Runtime} {cwd : Place} {root : PurePath} {path : String}
    {disk : Disk Segment (List UInt8)} {parent : Place} {file : Segment} (data : List UInt8)
    (offset : Option Nat) (truncate : Bool)
    (resolved : resolve runtime cwd root path = .ok (parent ++ [file]))
    (clear : ∀ front, front <+: parent → ∀ other, disk.at? front ≠ some (.file other))
    (notDirectory : disk.at? (parent ++ [file]) ≠ some .directory) :
    ∃ result, writeChunk runtime cwd root path data offset truncate disk = .ok result := by
  obtain ⟨made, parents, placed⟩ := @makeParents_succeeds _ runtime disk parent file clear
  have still : made.at? (parent ++ [file]) ≠ some .directory := by
    rwa [placed, if_neg (last_outside parent file)]
  obtain ⟨written, done, -⟩ := putFile_succeeds runtime
    (splice (standing made (parent ++ [file]) truncate)
      (offset.getD (standing made (parent ++ [file]) truncate).length) data)
    (by simp [placed]) still
  simp only [writeChunk, resolved, parents, done, bind, Except.bind]
  exact ⟨_, rfl⟩

/-- A failure the bridge answers with a text. -/
def Worded : PyError → Prop
  | .valueError text => text ≠ ""
  | .osError text => text ≠ ""
  | _ => False

section Failures

variable {runtime : Runtime} {cwd : Place} {root : PurePath} {path : String} {failure : PyError}

private theorem append_ne_empty {first rest : String} (spoken : first ≠ "") :
    first ++ rest ≠ "" := by
  intro empty
  have chars := congrArg String.toList empty
  rw [String.toList_append] at chars
  apply spoken
  rw [← String.toList_inj]
  exact (List.append_eq_nil_iff.mp chars).1

private theorem osErrorText_ne_empty (errno : Nat) (reason : String) (place : Place) :
    osErrorText runtime errno reason place ≠ "" := by
  simp only [osErrorText, String.append_assoc]
  exact append_ne_empty (by decide)

theorem resolve_failure (failed : resolve runtime cwd root path = .error failure) :
    Worded failure := by
  unfold resolve at failed
  cases rooted : resolveRoot runtime cwd root with
  | error other =>
    rw [rooted] at failed
    cases failed
    simp only [resolveRoot] at rooted
    split at rooted <;> cases rooted
    simp only [Worded, String.append_assoc]
    exact append_ne_empty (by decide)
  | ok place =>
    rw [rooted] at failed
    simp only [bind, Except.bind] at failed
    split at failed <;> cases failed
    simp only [Worded, String.append_assoc]
    exact append_ne_empty (by decide)

theorem makeParents_failure {Content : Type} {disk : Disk Segment Content} {target : Place}
    (failed : makeParents runtime disk target = .error failure) : Worded failure := by
  unfold makeParents at failed
  split at failed
  case h_1 => cases failed
  case h_2 => split at failed <;> cases failed <;> exact osErrorText_ne_empty _ _ _

theorem putFile_failure {Content : Type} {disk : Disk Segment Content} {target : Place}
    {content : Content} (failed : putFile runtime disk target content = .error failure) :
    Worded failure := by
  unfold putFile at failed
  split at failed
  case h_1 =>
    cases failed
    exact osErrorText_ne_empty _ _ _
  case h_2 =>
    split at failed <;> cases failed
    exact osErrorText_ne_empty _ _ _

theorem writeChunk_failure {data : List UInt8} {offset : Option Nat} {truncate : Bool}
    {disk : Disk Segment (List UInt8)}
    (failed : writeChunk runtime cwd root path data offset truncate disk = .error failure) :
    Worded failure := by
  unfold writeChunk at failed
  cases resolved : resolve runtime cwd root path with
  | error other =>
    rw [resolved] at failed
    cases failed
    exact resolve_failure resolved
  | ok target =>
    rw [resolved] at failed
    simp only [bind, Except.bind] at failed
    cases parents : makeParents runtime disk target with
    | error other =>
      rw [parents] at failed
      cases failed
      exact makeParents_failure parents
    | ok made =>
      rw [parents] at failed
      simp only at failed
      split at failed <;> cases failed
      apply putFile_failure
      assumption

end Failures

end Fs

end Fantastic.Python

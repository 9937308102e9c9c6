import Fantastic.Foundation.LossyUtf8
import Fantastic.Python.Loader

/-!
# Sidecars through the loader

`persist_blob` and `load_blob` of `kernel_state/tools.py`, over the file bridge the
loader discovers. The write sends the whole content in one frame; the read asks for one
chunk and decodes it with replacement. A text is a sequence of Unicode scalars: encoding
a Python text with a lone surrogate raises before anything is sent.
-/

namespace Fantastic.Python.Loader

open FileBridge (gate gated denial readStream writeStream defaultLength rootText)

def reservedBlobNames : List String := ["agent.json", "readme.md"]

/-- `".." in name`. -/
def hasDoubleDot (name : String) : Bool :=
  decide (['.', '.'] <:+: name.toList)

/-- `name.lower()`, as far as ASCII goes: lowering any other letter gives none of a
reserved name. -/
def lower (name : String) : String :=
  String.ofList (name.toList.map Char.toLower)

/-- `_guard_blob_name`: the error text, or none. -/
def guardBlobName (runtime : Runtime) : Value → Option String
  | .str name =>
    if name = "" then some "name (non-empty str) required"
    else if name ≠ (PurePath.ofString name).name then
      some ("name " ++ runtime.repr (.str name) ++ " must be a single filename (no path segments)")
    else if name.toList.head? = some '.' || hasDoubleDot name then
      some ("name " ++ runtime.repr (.str name) ++ " must not be hidden or contain '..'")
    else if lower name ∈ reservedBlobNames then
      some ("name " ++ runtime.repr (.str name) ++ " is reserved (kernel-managed)")
    else none
  | _ => some "name (non-empty str) required"

/-- `_blob_reldir`. -/
def blobReldir (kernel : Kernel) (self : Nat) (agentId : String) : Except PyError String := do
  match kernel.agents.get? (.str agentId) with
  | some agent => storeReldir kernel self (kernel.heap agent).address
  | none => storeReldir kernel self (← resolvePath kernel self (.str agentId) .null)

/-- The path of a blob as the store gets it. -/
def blobPath (kernel : Kernel) (self : Nat) (agentId name : String) : Except PyError String := do
  let reldir ← blobReldir kernel self agentId
  return if reldir = "" then name else reldir ++ "/" ++ name

/-- The frames the two verbs send. -/
def writeFrame (path : String) (data : List UInt8) : Dict :=
  (((OrderedDict.empty.insert "type" (Value.str "write_stream")).insert
    "path" (.str path)).insert "bytes" (.bytes data)).insert "truncate" (.bool true)

def readFrame (path : String) : Dict :=
  (OrderedDict.empty.insert "type" (Value.str "read_stream")).insert "path" (.str path)

/-- `out[key] = reply[key]` when it is truthy. -/
def copyTruthy (reply : Dict) (key : String) (out : Dict) : Dict :=
  if truthy (getD reply key) then out.insert key (getD reply key) else out

/-- How `persist_blob` answers for the store's reply. -/
def persistReply (runtime : Runtime) (name : String) (reply : Dict) : Dict :=
  if truthy (getD reply "error") then
    copyTruthy reply "hint" (copyTruthy reply "reason"
      (OrderedDict.empty.insert "error"
        (.str ("persist_blob: " ++
          match getD reply "error" with
          | .str text => text
          | other => runtime.str other))))
  else
    ((OrderedDict.empty.insert "ok" (Value.bool true)).insert "name" (.str name)).insert
      "size" (getD reply "size")

/-- `_persist_blob`. -/
def persistBlob (process : Process) (kernel : Kernel) (self : Nat) (payload : Dict)
    (disk : ByteDisk) : Except PyError (ByteDisk × Dict) :=
  match getD payload "agent_id" with
  | .str agentId =>
    if agentId = "" then .ok (disk, Kernel.errorReply "persist_blob: agent_id (str) required")
    else
      match guardBlobName process.runtime (getD payload "name"), getD payload "name",
        getD payload "content" with
      | some text, _, _ => .ok (disk, Kernel.errorReply ("persist_blob: " ++ text))
      | none, .str name, .str content => do
          match ← findStore process kernel self with
          | none =>
            return (disk, Kernel.errorReply
              "persist_blob: no store wired — persistence not available")
          | some store => do
              let path ← blobPath kernel self agentId name
              let (written, reply) ←
                gated process store "write_stream" (writeFrame path (utf8 content)) disk
                  (writeStream process store path (utf8 content) none true)
              return (written, persistReply process.runtime name reply)
      | none, _, _ => .ok (disk, Kernel.errorReply "persist_blob: content (str) required")
  | _ => .ok (disk, Kernel.errorReply "persist_blob: agent_id (str) required")

/-- How `load_blob` answers for the store's reply. -/
def loadReply (runtime : Runtime) (name : String) (reply : Dict) : Dict :=
  match getD reply "bytes" with
  | .bytes data =>
    (OrderedDict.empty.insert "name" (Value.str name)).insert
      "content" (.str (String.ofList (decodeReplace data)))
  | _ =>
    if getD reply "reason" = .str "unauthorized" then
      copyTruthy reply "hint"
        ((OrderedDict.empty.insert "error"
          (Value.str ("load_blob: " ++
            match reply.get? "error" with
            | none => "unauthorized"
            | some (.str text) => text
            | some other => runtime.str other))).insert
          "reason" (.str "unauthorized"))
    else (OrderedDict.empty.insert "name" (Value.str name)).insert "content" .null

/-- `_load_blob`. -/
def loadBlob (process : Process) (kernel : Kernel) (self : Nat) (payload : Dict)
    (disk : ByteDisk) : Except PyError Dict :=
  match getD payload "agent_id" with
  | .str agentId =>
    if agentId = "" then .ok (Kernel.errorReply "load_blob: agent_id (str) required")
    else
      match guardBlobName process.runtime (getD payload "name"), getD payload "name" with
      | none, .str name => do
          match ← findStore process kernel self with
          | none =>
            return Kernel.errorReply "load_blob: no store wired — persistence not available"
          | some store => do
              let path ← blobPath kernel self agentId name
              let (_, reply) ← gated process store "read_stream" (readFrame path) disk
                (readStream process store path 0 defaultLength)
              return loadReply process.runtime name reply
      | some text, _ => .ok (Kernel.errorReply ("load_blob: " ++ text))
      | none, _ => .ok (Kernel.errorReply "load_blob: name (non-empty str) required")
  | _ => .ok (Kernel.errorReply "load_blob: agent_id (str) required")

/-- Where a blob lies on the disk: what the store makes of its path. -/
def blobPlace (process : Process) (kernel : Kernel) (self : Nat) (agentId name : String) :
    Except PyError (Option Place) := do
  match ← findStore process kernel self with
  | none => return none
  | some store =>
    let path ← blobPath kernel self agentId name
    let place ← Fs.resolve process.runtime process.cwd
      (.ofString (rootText process.runtime store)) path
    return some place

def persistPayload (agentId name content : String) : Dict :=
  ((OrderedDict.empty.insert "agent_id" (Value.str agentId)).insert "name" (.str name)).insert
    "content" (.str content)

def loadPayload (agentId name : String) : Dict :=
  (OrderedDict.empty.insert "agent_id" (Value.str agentId)).insert "name" (.str name)

section Answers

variable {process : Process} {kernel : Kernel} {self : Nat} {agentId name content : String}
  {disk after : ByteDisk} {reply : Dict}

/-- The store lets the loader in and has this content at the blob's place. -/
structure Persisted (process : Process) (kernel : Kernel) (loader : Nat)
    (agentId name content : String) (disk : ByteDisk) (store : Dict) (path : String)
    (place : Place) : Prop where
  named : agentId ≠ ""
  admissible : guardBlobName process.runtime (.str name) = none
  found : findStore process kernel loader = .ok (some store)
  pathed : blobPath kernel loader agentId name = .ok path
  resolved : Fs.resolve process.runtime process.cwd (.ofString (rootText process.runtime store))
    path = .ok place
  admitted : ∃ decision, gate process store "write_stream" (writeFrame path (utf8 content)) =
    .ok decision ∧ decision.allowed = true
  held : disk.at? place = some (.file (utf8 content))

/-- A disk that is the same at the blob's place holds the blob too. -/
theorem Persisted.later {store : Dict} {path : String} {place : Place} {later : ByteDisk}
    (persisted : Persisted process kernel self agentId name content after store path place)
    (untouched : ∀ place, blobPlace process kernel self agentId name = .ok (some place) →
      later.at? place = after.at? place) :
    Persisted process kernel self agentId name content later store path place := by
  have placed : blobPlace process kernel self agentId name = .ok (some place) := by
    simp [blobPlace, persisted.found, persisted.pathed, persisted.resolved, bind, Except.bind,
      pure, Except.pure]
  exact { persisted with held := (untouched place placed).trans persisted.held }

theorem error_reply_not_ok (text : String) :
    (Kernel.errorReply text).get? "ok" ≠ some (.bool true) := by
  simp [Kernel.errorReply, OrderedDict.get?_insert]

/-- An `ok` answer of `persist_blob` means the store took the write. -/
theorem persistReply_ok {runtime : Runtime}
    (answered : (persistReply runtime name reply).get? "ok" = some (.bool true)) :
    truthy (getD reply "error") = false := by
  by_contra failed
  rw [Bool.not_eq_false] at failed
  rw [persistReply, if_pos failed] at answered
  unfold copyTruthy at answered
  split_ifs at answered <;> simp [OrderedDict.get?_insert] at answered

/-- An `ok` answer pins down all that a later read depends on. -/
theorem persistBlob_ok
    (done : persistBlob process kernel self (persistPayload agentId name content) disk =
      .ok (after, reply))
    (answered : reply.get? "ok" = some (.bool true)) :
    ∃ store path place,
      Persisted process kernel self agentId name content after store path place := by
  have readId : getD (persistPayload agentId name content) "agent_id" = .str agentId := by
    simp [getD, persistPayload, OrderedDict.get?_insert]
  have readName : getD (persistPayload agentId name content) "name" = .str name := by
    simp [getD, persistPayload, OrderedDict.get?_insert]
  have readContent : getD (persistPayload agentId name content) "content" = .str content := by
    simp [getD, persistPayload]
  simp only [persistBlob, readId, readName, readContent] at done
  split at done
  case isTrue =>
    cases done
    exact absurd answered (error_reply_not_ok _)
  case isFalse named =>
    cases guarded : guardBlobName process.runtime (.str name) with
    | some text =>
      rw [guarded] at done
      cases done
      exact absurd answered (error_reply_not_ok _)
    | none =>
      rw [guarded] at done
      simp only [bind_eq_ok_iff] at done
      obtain ⟨found, search, done⟩ := done
      cases found with
      | none =>
        cases done
        exact absurd answered (error_reply_not_ok _)
      | some store =>
        simp only [bind_eq_ok_iff] at done
        obtain ⟨path, pathed, ⟨written, stored⟩, sent, done⟩ := done
        cases done
        have noError := persistReply_ok answered
        simp only [gated, bind_eq_ok_iff] at sent
        obtain ⟨decision, decided, sent⟩ := sent
        cases allowed : decision.allowed with
        | false =>
          simp only [allowed, Bool.false_eq_true, if_false] at sent
          cases sent
          simp only [getD, FileBridge.denial_error, Option.getD_some, truthy] at noError
          exact absurd (by simpa using noError) (FileBridge.gate_refusal decided allowed)
        | true =>
          simp only [allowed, if_true] at sent
          obtain ⟨place, resolved, held⟩ := FileBridge.writeStream_taken sent noError
          exact ⟨store, path, place, named, guarded, search, pathed, resolved,
            ⟨decision, decided, allowed⟩, held⟩

/-- What `load_blob` answers for a blob that is in place: the first chunk, decoded. -/
theorem loadBlob_first_chunk {store : Dict} {path : String} {place : Place} {later : ByteDisk}
    (persisted : Persisted process kernel self agentId name content later store path place) :
    loadBlob process kernel self (loadPayload agentId name) later =
      .ok ((OrderedDict.empty.insert "name" (Value.str name)).insert "content"
        (.str (String.ofList (decodeReplace ((utf8 content).take defaultLength))))) := by
  have readId : getD (loadPayload agentId name) "agent_id" = .str agentId := by
    simp [getD, loadPayload, OrderedDict.get?_insert]
  have readName : getD (loadPayload agentId name) "name" = .str name := by
    simp [getD, loadPayload]
  obtain ⟨decision, decided, allowed⟩ := persisted.admitted
  rw [FileBridge.gate_same_for_all_calls process store _ "read_stream" _ (readFrame path)] at decided
  simp only [loadBlob, readId, readName, if_neg persisted.named, persisted.admissible,
    persisted.found, persisted.pathed, gated, decided, allowed, bind, Except.bind, if_true]
  rw [FileBridge.readStream_chunk 0 defaultLength persisted.resolved persisted.held]
  simp [FileBridge.chunkReply, loadReply, getD, OrderedDict.get?_insert, pure, Except.pure]

/-- The converse of `persistBlob_ok`: an open store with a clear path answers `ok`. -/
theorem persistBlob_succeeds {store : Dict} {path : String} {parent : Place}
    {file : PurePath.Segment} {decision : Bridge.Python.Decision} (named : agentId ≠ "")
    (admissible : guardBlobName process.runtime (.str name) = none)
    (found : findStore process kernel self = .ok (some store))
    (pathed : blobPath kernel self agentId name = .ok path)
    (resolved : Fs.resolve process.runtime process.cwd
      (.ofString (rootText process.runtime store)) path = .ok (parent ++ [file]))
    (decided : gate process store "write_stream" (writeFrame path (utf8 content)) = .ok decision)
    (allowed : decision.allowed = true) (writable : truthy (getD store "readonly") = false)
    (clear : ∀ front, front <+: parent → ∀ other, disk.at? front ≠ some (.file other))
    (notDirectory : disk.at? (parent ++ [file]) ≠ some .directory) :
    ∃ written answer,
      persistBlob process kernel self (persistPayload agentId name content) disk =
        .ok (written, answer) ∧ answer.get? "ok" = some (.bool true) := by
  obtain ⟨⟨written, start, size⟩, wrote⟩ :=
    Fs.writeChunk_succeeds (utf8 content) none true resolved clear notDirectory
  have streamed : ∃ stored, writeStream process store path (utf8 content) none true disk =
      .ok (written, stored) ∧ truthy (getD stored "error") = false := by
    simp only [writeStream, FileBridge.readonlyOrNone, writable, wrote]
    exact ⟨_, rfl, by simp [FileBridge.writtenReply, getD, OrderedDict.get?_insert, truthy]⟩
  obtain ⟨stored, streamed, noError⟩ := streamed
  refine ⟨written, persistReply process.runtime name stored, ?_, ?_⟩
  · simp [persistBlob, persistPayload, getD, OrderedDict.get?_insert, named, admissible, found,
      pathed, gated, decided, allowed, streamed, bind, Except.bind, pure, Except.pure]
  · simp [persistReply, noError, OrderedDict.get?_insert]

/-- One chunk of a content is the content exactly when its bytes fit, or when the chunk
ends inside a final U+FFFD, whose rest the decoder makes up. -/
theorem first_chunk_is_content_iff (name content : String) :
    getD ((OrderedDict.empty.insert "name" (Value.str name)).insert "content"
        (.str (String.ofList (decodeReplace ((utf8 content).take defaultLength))))) "content" =
        .str content ↔
      (utf8 content).length ≤ 65536 ∨
        (content.toList.getLast? = some '\uFFFD' ∧ (utf8 content).length ≤ 65538) := by
  have decoded := decodeReplace_take_eq_iff content.toList defaultLength
  rw [← utf8] at decoded
  refine Iff.trans ?_ decoded
  simp [getD, ← String.toList_inj]

/-- A blob reads back as it was written exactly when its bytes fit one chunk of the
stream, but for a final U+FFFD. -/
theorem blob_round_trip_iff
    (done : persistBlob process kernel self (persistPayload agentId name content) disk =
      .ok (after, reply))
    (answered : reply.get? "ok" = some (.bool true)) (later : ByteDisk)
    (untouched : ∀ place, blobPlace process kernel self agentId name = .ok (some place) →
      later.at? place = after.at? place) :
    (∃ answer, loadBlob process kernel self (loadPayload agentId name) later = .ok answer ∧
        getD answer "content" = .str content) ↔
      (utf8 content).length ≤ 65536 ∨
        (content.toList.getLast? = some '\uFFFD' ∧ (utf8 content).length ≤ 65538) := by
  obtain ⟨store, path, place, persisted⟩ := persistBlob_ok done answered
  have kept := persisted.later untouched
  rw [loadBlob_first_chunk kept, ← first_chunk_is_content_iff name content]
  simp only [Except.ok.injEq, exists_eq_left']

end Answers

/-! ### A kernel with its store wired -/

/-- The root loader and one open file bridge over its `.fantastic`. -/
def wiredKernel : Kernel :=
  (Kernel.fresh.place (.str "kernel_state")
    { id := .str "kernel_state"
      handlerModule := .str "kernel_state.tools"
      parent := none
      address := .path (.ofString ".fantastic")
      children := .empty
      metadata := .empty
      ephemeral := false }).place (.str "disk")
    { id := .str "disk"
      handlerModule := .str "file_bridge.tools"
      parent := some 0
      address := .path (.ofString ".fantastic/agents/disk")
      children := .empty
      metadata := (OrderedDict.empty.insert "root" (Value.str ".fantastic")).insert
        "ingress_rule" (.str "allow_all")
      ephemeral := false }

theorem wired_store_found : findStore workDir wiredKernel 0 = .ok (some (wiredKernel.record 1)) := by
  rfl

theorem wired_persist_succeeds (content : String) :
    ∃ written answer,
      persistBlob workDir wiredKernel 0 (persistPayload "notes" "state.yaml" content) .bare =
        .ok (written, answer) ∧ answer.get? "ok" = some (.bool true) := by
  have pathed : blobPath wiredKernel 0 "notes" "state.yaml" = .ok "agents/notes/state.yaml" := by
    decide
  have resolved : Fs.resolve workDir.runtime workDir.cwd
      (.ofString (rootText workDir.runtime (wiredKernel.record 1))) "agents/notes/state.yaml" =
        .ok ([⟨"work", by decide⟩, ⟨".fantastic", by decide⟩, ⟨"agents", by decide⟩,
          ⟨"notes", by decide⟩] ++ [⟨"state.yaml", by decide⟩]) := by
    decide
  apply persistBlob_succeeds (by decide) (by decide) wired_store_found pathed resolved rfl rfl rfl
  · intro front _ other
    by_cases top : front = []
    · simp [top]
    · simp [Disk.at?_bare top]
  · rw [Disk.at?_bare (by simp)]
    simp

theorem utf8_replicate_ascii (count : Nat) :
    utf8 (String.ofList (List.replicate count 'a')) = List.replicate count 97 := by
  induction count with
  | zero => rfl
  | succ count ih =>
    simp only [utf8, String.toList_ofList] at ih ⊢
    rw [List.replicate_succ, List.flatMap_cons, ih]
    rfl

/-- One byte more than a chunk: the write is acknowledged and the read is short. -/
theorem long_blob_reads_short :
    ∃ written answer loaded,
      persistBlob workDir wiredKernel 0
          (persistPayload "notes" "state.yaml" (String.ofList (List.replicate 65537 'a'))) .bare =
        .ok (written, answer) ∧ answer.get? "ok" = some (.bool true) ∧
      loadBlob workDir wiredKernel 0 (loadPayload "notes" "state.yaml") written = .ok loaded ∧
      getD loaded "content" ≠ .str (String.ofList (List.replicate 65537 'a')) := by
  obtain ⟨written, answer, done, answered⟩ :=
    wired_persist_succeeds (String.ofList (List.replicate 65537 'a'))
  obtain ⟨store, path, place, persisted⟩ := persistBlob_ok done answered
  refine ⟨written, answer, _, done, answered, loadBlob_first_chunk persisted, ?_⟩
  rw [Ne, first_chunk_is_content_iff, utf8_replicate_ascii, String.toList_ofList,
    List.length_replicate, List.getLast?_replicate, if_neg (by decide)]
  decide

theorem short_blob_reads_back :
    ∃ written answer,
      persistBlob workDir wiredKernel 0 (persistPayload "notes" "state.yaml" "é: 1") .bare =
        .ok (written, answer) ∧ answer.get? "ok" = some (.bool true) ∧
      ∃ loaded, loadBlob workDir wiredKernel 0 (loadPayload "notes" "state.yaml") written =
        .ok loaded ∧ getD loaded "content" = .str "é: 1" := by
  obtain ⟨written, answer, done, answered⟩ := wired_persist_succeeds "é: 1"
  refine ⟨written, answer, done, answered, ?_⟩
  exact (blob_round_trip_iff done answered written (fun _ _ => rfl)).mpr
    (Or.inl (by decide))

end Fantastic.Python.Loader

import Fantastic.Foundation.ChunkCopy
import Fantastic.Python.ContextBudget
import Fantastic.Rust.Codec
import Fantastic.Swift.RecordCodable

/-!
# `pump` of the three file bridges

`_pump`, `pump_reply` and `pump` between two file bridges whose gates admit the stream verbs.
What a path leads to and what the operating system says when a file is opened are taken as they
are for the whole call, since nobody else changes anything. A panic or an exception ends a call
without an answer.
-/

namespace Fantastic.Parity

open ChunkCopy
open Fantastic.Python (Runtime PyError getD truthy)
open Fantastic.Python.Ai (Numerals intOf)
open Fantastic.Rust (asU64)
open Fantastic.Swift (asText wholeOf)

variable {Name : Type} [DecidableEq Name]

/-! ### The ends -/

/-- A file bridge as the stream verbs see it, its gate open: where a path leads, and why a file
cannot be opened. -/
structure FileEnd (Name : Type) where
  resolve : String → Except String Name
  readonly : Bool
  unreadable : Name → Option String
  unwritable : Name → Option String

def failed (text : String) : Value :=
  .dict [("error", .str text)]

namespace FileEnd

/-- `read_stream`, of a chunk that may not fit into the memory there is. -/
def readStream (file : FileEnd Name) (missing : String → String) (allocates : Bool)
    (stride : Nat) (path : String) (files : Files Name) (offset : Nat) : Answer Value Chunk :=
  match file.resolve path with
  | .error text => .refused (failed text)
  | .ok place =>
    match files place with
    | none => .refused (failed (missing path))
    | some content =>
      match file.unreadable place with
      | some text => .refused (failed text)
      | none => if allocates then .given (chunkAt content offset stride) else .broken

/-- `write_stream` of a chunk at an offset, the first one with `truncate`. -/
def writeStream (file : FileEnd Name) (path : String) (files : Files Name) (offset : Nat)
    (first : Bool) (body : List UInt8) : Answer Value (Files Name) :=
  if file.readonly then .refused (failed "agent is readonly")
  else
    match file.resolve path with
    | .error text => .refused (failed text)
    | .ok place =>
      match file.unwritable place with
      | some text => .refused (failed text)
      | none => .given (stored place files offset first body)

end FileEnd

/-! ### The call -/

/-- What a call of `pump` names: two agents, and a path below each. -/
structure Route where
  source : String
  sourcePath : String
  sink : String
  sinkPath : String

/-- The files a call leaves behind, and its reply. -/
structure Outcome (Name : Type) where
  files : Files Name
  reply : Option Value

/-- The reply for the end of the loop. -/
def outcome (quote : String → String) (spell : Value → String) (route : Route) :
    Ending (Files Name) Value → Outcome Name
  | .answered files bytes chunks =>
    { files := files
      reply := some (.dict [("source", .str route.sourcePath), ("sink", .str route.sinkPath),
        ("bytes", .int bytes), ("chunks", .int chunks)]) }
  | .refused files .reading reply =>
    { files := files
      reply := some (failed
        ("pump: read from " ++ quote route.source ++ " failed: " ++ spell reply)) }
  | .refused files .writing reply =>
    { files := files
      reply := some (failed
        ("pump: write to " ++ quote route.sink ++ " failed: " ++ spell reply)) }
  | .broken files => { files := files, reply := none }

/-- The loop that the three functions share, up to the words of their errors and the most bytes
that one read brings. -/
def pumpLoop (quote : String → String) (spell : Value → String) (missing : String → String)
    (allocates : Bool) (stride : Nat) (ends : String → FileEnd Name) (route : Route)
    (files : Files Name) (fuel : Nat) : Option (Outcome Name) :=
  (copy ((ends route.source).readStream missing allocates stride route.sourcePath)
    ((ends route.sink).writeStream route.sinkPath) fuel files 0 true 0).map
      (outcome quote spell route)

def defaultChunk : Nat := 65536

/-! ### Python -/

/-- `payload.get(key) or …`, of an id or a path. -/
def spoken (payload : Dict) (key : String) : Option String :=
  match payload.get? key with
  | some (.str text) => if text = "" then none else some text
  | _ => none

def pythonRoute (payload : Dict) (selfId : String) : Route :=
  let sourcePath := (spoken payload "source_path").getD ((spoken payload "path").getD "")
  { source := (spoken payload "source").getD selfId
    sourcePath := sourcePath
    sink := (spoken payload "sink").getD selfId
    sinkPath := (spoken payload "sink_path").getD sourcePath }

/-- `int(payload.get("chunk", 65536) or 65536)`. -/
def pythonChunk (runtime : Runtime) (numerals : Numerals) (payload : Dict) : Except PyError Int :=
  let chunk := getD payload "chunk"
  intOf runtime numerals (if truthy chunk then chunk else .int defaultChunk)

/-- `f.read(max(0, length))` for the length that `read_stream` makes of its argument. -/
def pythonStride (length : Int) : Nat :=
  if length = 0 then defaultChunk else length.toNat

/-- `_pump`. A length that is too large for `read` raises. -/
def pythonPump (runtime : Runtime) (numerals : Numerals) (allocates : Nat → Bool)
    (ends : String → FileEnd Name) (selfId : String) (payload : Dict) (files : Files Name)
    (fuel : Nat) : Option (Outcome Name) :=
  match pythonChunk runtime numerals payload with
  | .error _ => some { files := files, reply := none }
  | .ok length =>
    pumpLoop (fun text => runtime.repr (.str text)) runtime.str
      (fun path => "file " ++ runtime.repr (.str path) ++ " not found")
      (allocates (pythonStride length)) (pythonStride length) ends
      (pythonRoute payload selfId) files fuel

/-! ### Rust -/

def rustText (payload : Dict) (key : String) : Option String :=
  (payload.get? key).bind asText

/-- `.get("source_path").or_else(|| payload.get("path"))` takes a member that is no text. -/
def rustRoute (payload : Dict) (selfId : String) : Route :=
  let sourcePath :=
    (((payload.get? "source_path").or (payload.get? "path")).bind asText).getD ""
  { source := (rustText payload "source").getD selfId
    sourcePath := sourcePath
    sink := (rustText payload "sink").getD selfId
    sinkPath := (rustText payload "sink_path").getD sourcePath }

/-- `.and_then(Value::as_u64).filter(|n| *n > 0).unwrap_or(65536)`. -/
def rustChunk (payload : Dict) : Nat :=
  ((asU64 (payload.get? "chunk")).filter fun length => 0 < length).getD defaultChunk

/-- `pump_reply`. One `read` brings no more than `most` bytes; a buffer that cannot be had
panics. -/
def rustPump (debug : String → String) (display : Value → String) (allocates : Nat → Bool)
    (most : Nat) (ends : String → FileEnd Name) (selfId : String) (payload : Dict)
    (files : Files Name) (fuel : Nat) : Option (Outcome Name) :=
  pumpLoop debug (fun reply => display ((Rust.field reply "error").getD .null))
    (fun path => "file " ++ debug path ++ " not found") (allocates (rustChunk payload))
    (min (rustChunk payload) most) ends (rustRoute payload selfId) files fuel

/-! ### Swift -/

def swiftRoute (payload : Dict) (selfId : String) : Route :=
  let sourcePath := (rustText payload "source_path").getD ((rustText payload "path").getD "")
  { source := (rustText payload "source").getD selfId
    sourcePath := sourcePath
    sink := (rustText payload "sink").getD selfId
    sinkPath := (rustText payload "sink_path").getD sourcePath }

/-- `asInt`; none where `Int64(v)` traps, at the double 2^63 that the comparison lets through. -/
def asInt : Option Value → Option (Option Int)
  | some (.int number) => some (some number)
  | some (.float number) =>
    match wholeOf number with
    | none => some none
    | some whole =>
      if whole < -(2 ^ 63) ∨ 2 ^ 63 < whole then some none
      else if whole = 2 ^ 63 then none
      else some (some whole)
  | _ => some none

/-- `payload["chunk"].asInt.map { $0 > 0 ? $0 : 65536 } ?? 65536`. -/
def swiftChunk (payload : Dict) : Option Nat :=
  (asInt (payload.get? "chunk")).map fun number =>
    match number with
    | some length => if 0 < length then length.toNat else defaultChunk
    | none => defaultChunk

/-- `pump`. -/
def swiftPump (describe : Value → String) (ends : String → FileEnd Name) (selfId : String)
    (payload : Dict) (files : Files Name) (fuel : Nat) : Option (Outcome Name) :=
  match swiftChunk payload with
  | none => some { files := files, reply := none }
  | some length =>
    pumpLoop id describe (fun path => "file " ++ path ++ " not found") true length ends
      (swiftRoute payload selfId) files fuel

/-! ### What a pump is for -/

/-- The call ends; where it answers without an error, the sink file holds what the source file
held before, `bytes` is its length, and the source file is as it was. -/
def Copies (ends : String → FileEnd Name) (route : Route) (files : Files Name)
    (run : Nat → Option (Outcome Name)) : Prop :=
  (∃ fuel after, run fuel = some after) ∧
    ∀ fuel after reply, run fuel = some after → after.reply = some reply →
      Rust.field reply "error" = none →
        ∀ source sink content, (ends route.source).resolve route.sourcePath = .ok source →
          (ends route.sink).resolve route.sinkPath = .ok sink → files source = some content →
            after.files sink = some content ∧
              Rust.field reply "bytes" = some (.int content.length) ∧
                after.files source = some content

/-- Both files can be opened. -/
structure Opened (ends : String → FileEnd Name) (route : Route) (files : Files Name)
    (source sink : Name) (content : List UInt8) : Prop where
  found : (ends route.source).resolve route.sourcePath = .ok source
  held : files source = some content
  readable : (ends route.source).unreadable source = none
  unlocked : (ends route.sink).readonly = false
  placed : (ends route.sink).resolve route.sinkPath = .ok sink
  writable : (ends route.sink).unwritable sink = none

/-! ### The shared loop -/

section Shared

variable {quote : String → String} {spell : Value → String} {missing : String → String}
  {allocates : Bool} {stride : Nat} {ends : String → FileEnd Name} {route : Route}
  {files : Files Name}

/-- Where both files can be opened the loop goes from the one to the other. -/
theorem pumpLoop_opened {source sink : Name} {content : List UInt8}
    (opened : Opened ends route files source sink content) (fuel : Nat) :
    pumpLoop quote spell missing true stride ends route files fuel =
      (copyFile (failed (missing route.sourcePath)) stride source sink files fuel).map
        (outcome quote spell route) := by
  have reads : (ends route.source).readStream missing true stride route.sourcePath =
      readAt source (failed (missing route.sourcePath)) stride := by
    funext state offset
    simp only [FileEnd.readStream, opened.found, opened.readable, if_true]
    rfl
  have writes : (ends route.sink).writeStream route.sinkPath = writeAt sink := by
    funext state offset first body
    simp only [FileEnd.writeStream, opened.unlocked, Bool.false_eq_true, if_false, opened.placed,
      opened.writable, writeAt]
  rw [pumpLoop, reads, writes]
  rfl

/-- A first read or a first write that gives nothing ends the loop without an answer. -/
theorem pumpLoop_stopped
    (stops : ∀ chunk after, (ends route.source).readStream missing allocates stride
      route.sourcePath files 0 = .given chunk →
        (ends route.sink).writeStream route.sinkPath files 0 true chunk.body ≠ .given after) :
    ∃ after, (∀ reply, after.reply = some reply → Rust.field reply "error" ≠ none) ∧
      ∀ fuel, pumpLoop quote spell missing allocates stride ends route files (fuel + 1) =
        some after := by
  cases answer : (ends route.source).readStream missing allocates stride route.sourcePath files 0
    with
  | refused reply =>
    refine ⟨outcome quote spell route (.refused files .reading reply), ?_, ?_⟩
    · intro other same
      cases same
      simp [Rust.field, failed]
    · intro fuel
      rw [pumpLoop, copy, answer]
      rfl
  | broken =>
    refine ⟨outcome quote spell route (.broken files), ?_, ?_⟩
    · intro other same
      cases same
    · intro fuel
      rw [pumpLoop, copy, answer]
      rfl
  | given chunk =>
    cases written : (ends route.sink).writeStream route.sinkPath files 0 true chunk.body with
    | given after => exact absurd written (stops chunk after answer)
    | refused reply =>
      refine ⟨outcome quote spell route (.refused files .writing reply), ?_, ?_⟩
      · intro other same
        cases same
        simp [Rust.field, failed]
      · intro fuel
        rw [pumpLoop, copy, answer]
        simp only [written]
        rfl
    | broken =>
      refine ⟨outcome quote spell route (.broken files), ?_, ?_⟩
      · intro other same
        cases same
      · intro fuel
        rw [pumpLoop, copy, answer]
        simp only [written]
        rfl

/-- What a first chunk and its write say about the two files. -/
theorem opened_of_given {chunk : Chunk} {after : Files Name}
    (read : (ends route.source).readStream missing allocates stride route.sourcePath files 0 =
      .given chunk)
    (written : (ends route.sink).writeStream route.sinkPath files 0 true chunk.body =
      .given after) :
    allocates = true ∧ ∃ source sink content, Opened ends route files source sink content := by
  unfold FileEnd.readStream at read
  split at read
  · cases read
  case h_2 source found =>
    split at read
    · cases read
    case h_2 content held =>
      split at read
      · cases read
      case h_2 readable =>
        split at read
        case isFalse => cases read
        case isTrue enough =>
          unfold FileEnd.writeStream at written
          split at written
          · cases written
          case isFalse unlocked =>
            split at written
            · cases written
            case h_2 sink placed =>
              split at written
              · cases written
              case h_2 writable =>
                exact ⟨enough, source, sink, content, found, held, readable,
                  Bool.eq_false_iff.mpr unlocked, placed, writable⟩

omit [DecidableEq Name] in
theorem copies_of_exact {source sink : Name} {content : List UInt8}
    (opened : Opened ends route files source sink content)
    {run : Nat → Option (Ending (Files Name) Value)} (meets : Exact files source sink run) :
    Copies ends route files fun fuel => (run fuel).map (outcome quote spell route) := by
  obtain ⟨⟨fuel, ending, ended⟩, fine⟩ := meets
  refine ⟨⟨fuel, outcome quote spell route ending, congrArg (Option.map _) ended⟩, ?_⟩
  intro fuel' after reply' ran replied clean source' sink' content' found placed held
  have sameSource : source' = source := Except.ok.inj (found.symm.trans opened.found)
  have sameSink : sink' = sink := Except.ok.inj (placed.symm.trans opened.placed)
  subst sameSource sameSink
  obtain ⟨last, same, rfl⟩ := Option.map_eq_some_iff.mp ran
  cases last with
  | answered later bytes chunks =>
    obtain ⟨whole, size, kept⟩ := fine _ _ _ _ same content' held
    cases replied
    refine ⟨whole, ?_, kept⟩
    rw [size]
    rfl
  | refused later side other =>
    cases side <;> cases replied <;> simp [Rust.field, failed] at clean
  | broken later => cases replied

omit [DecidableEq Name] in
theorem exact_of_copies {source sink : Name} {content : List UInt8}
    (opened : Opened ends route files source sink content)
    {run : Nat → Option (Ending (Files Name) Value)}
    (copies : Copies ends route files fun fuel => (run fuel).map (outcome quote spell route)) :
    Exact files source sink run := by
  obtain ⟨⟨fuel, after, ended⟩, fine⟩ := copies
  obtain ⟨ending, same, _⟩ := Option.map_eq_some_iff.mp ended
  refine ⟨⟨fuel, ending, same⟩, ?_⟩
  intro fuel' later bytes chunks ran content' held
  have mapped : (run fuel').map (outcome quote spell route) =
      some (outcome quote spell route (.answered later bytes chunks)) := by
    rw [ran]
    rfl
  obtain ⟨whole, size, kept⟩ := fine fuel' _ _ mapped rfl rfl source sink content' opened.found
    opened.placed held
  refine ⟨whole, ?_, kept⟩
  have number : (some (Value.int bytes)) = some (.int content'.length) := size
  exact Int.ofNat_inj.mp (Value.int.inj (Option.some.inj number))

/-- The loop copies exactly where the chunks move on and a file that is copied to itself fits
into one. -/
theorem pumpLoop_copies_iff :
    Copies ends route files (pumpLoop quote spell missing allocates stride ends route files) ↔
      (allocates = true → ∀ source sink content, Opened ends route files source sink content →
        Fits stride source sink content) := by
  by_cases stops : ∀ chunk after, (ends route.source).readStream missing allocates stride
      route.sourcePath files 0 = .given chunk →
        (ends route.sink).writeStream route.sinkPath files 0 true chunk.body ≠ .given after
  · obtain ⟨after, refused, ended⟩ := @pumpLoop_stopped _ _ quote spell missing allocates stride
      ends route files stops
    refine iff_of_true ⟨⟨1, after, ended 0⟩, ?_⟩ ?_
    · intro fuel other reply ran replied clean
      cases fuel with
      | zero => cases ran
      | succ fuel =>
        rw [ended fuel] at ran
        cases ran
        exact absurd clean (refused reply replied)
    · intro enough source sink content opened
      subst enough
      refine absurd ?_ (stops (chunkAt content 0 stride)
        (stored sink files 0 true (chunkAt content 0 stride).body) ?_)
      · simp only [FileEnd.writeStream, opened.unlocked, Bool.false_eq_true, if_false,
          opened.placed, opened.writable]
      · simp only [FileEnd.readStream, opened.found, opened.held, opened.readable, if_true]
  · simp only [not_forall, not_not] at stops
    obtain ⟨chunk, after, read, written⟩ := stops
    obtain ⟨enough, source, sink, content, opened⟩ := opened_of_given read written
    subst enough
    have loop : pumpLoop quote spell missing true stride ends route files = fun fuel =>
        (copyFile (failed (missing route.sourcePath)) stride source sink files fuel).map
          (outcome quote spell route) := by
      funext fuel
      exact pumpLoop_opened opened fuel
    rw [loop]
    constructor
    · intro copies _ source' sink' content' opened'
      cases Except.ok.inj (opened'.found.symm.trans opened.found)
      cases Except.ok.inj (opened'.placed.symm.trans opened.placed)
      exact (copyFile_exact_iff _ opened'.held).mp (exact_of_copies opened' copies)
    · intro condition
      exact copies_of_exact opened
        ((copyFile_exact_iff _ opened.held).mpr (condition rfl source sink content opened))

end Shared

/-! ### The three functions -/

theorem pythonPump_copies_iff (runtime : Runtime) (numerals : Numerals) (allocates : Nat → Bool)
    (ends : String → FileEnd Name) (selfId : String) (payload : Dict) (files : Files Name) :
    Copies ends (pythonRoute payload selfId) files
        (pythonPump runtime numerals allocates ends selfId payload files) ↔
      ∀ length, pythonChunk runtime numerals payload = .ok length →
        allocates (pythonStride length) = true → ∀ source sink content,
          Opened ends (pythonRoute payload selfId) files source sink content →
            Fits (pythonStride length) source sink content := by
  cases chunk : pythonChunk runtime numerals payload with
  | error failure =>
    have run : pythonPump runtime numerals allocates ends selfId payload files =
        fun _ => some { files := files, reply := none } := by
      funext fuel
      rw [pythonPump, chunk]
    rw [run]
    refine iff_of_true ⟨⟨0, _, rfl⟩, ?_⟩ ?_
    · intro fuel after reply ran replied
      cases ran
      cases replied
    · intro length same
      cases same
  | ok length =>
    have run : pythonPump runtime numerals allocates ends selfId payload files =
        pumpLoop (fun text => runtime.repr (.str text)) runtime.str
          (fun path => "file " ++ runtime.repr (.str path) ++ " not found")
          (allocates (pythonStride length)) (pythonStride length) ends
          (pythonRoute payload selfId) files := by
      funext fuel
      rw [pythonPump, chunk]
    rw [run, pumpLoop_copies_iff]
    constructor
    · intro condition other same
      cases same
      exact condition
    · intro condition
      exact condition length rfl

theorem rustChunk_pos (payload : Dict) : 0 < rustChunk payload := by
  unfold rustChunk
  cases asU64 (payload.get? "chunk") with
  | none => decide
  | some length =>
    by_cases positive : 0 < length
    · simp [Option.filter, positive]
    · simp [Option.filter, positive, defaultChunk]

theorem swiftChunk_pos {payload : Dict} {length : Nat} (read : swiftChunk payload = some length) :
    0 < length := by
  obtain ⟨number, _, rfl⟩ := Option.map_eq_some_iff.mp read
  cases number with
  | none => decide
  | some number =>
    simp only
    split
    · omega
    · decide

theorem rustPump_copies_iff (debug : String → String) (display : Value → String)
    (allocates : Nat → Bool) (most : { bytes : Nat // 0 < bytes }) (ends : String → FileEnd Name)
    (selfId : String) (payload : Dict) (files : Files Name) :
    Copies ends (rustRoute payload selfId) files
        (rustPump debug display allocates most ends selfId payload files) ↔
      (allocates (rustChunk payload) = true → ∀ source sink content,
        Opened ends (rustRoute payload selfId) files source sink content →
          source ≠ sink ∨ content.length ≤ min (rustChunk payload) most) := by
  have positive : 0 < min (rustChunk payload) most := by
    have chunk := rustChunk_pos payload
    have some' := most.2
    omega
  have run : rustPump debug display allocates most ends selfId payload files =
      pumpLoop debug (fun reply => display ((Rust.field reply "error").getD .null))
        (fun path => "file " ++ debug path ++ " not found") (allocates (rustChunk payload))
        (min (rustChunk payload) most) ends (rustRoute payload selfId) files := rfl
  rw [run, pumpLoop_copies_iff]
  simp only [Fits, positive, true_or, true_and]

theorem swiftPump_copies_iff (describe : Value → String) (ends : String → FileEnd Name)
    (selfId : String) (payload : Dict) (files : Files Name) :
    Copies ends (swiftRoute payload selfId) files
        (swiftPump describe ends selfId payload files) ↔
      ∀ length, swiftChunk payload = some length → ∀ source sink content,
        Opened ends (swiftRoute payload selfId) files source sink content →
          source ≠ sink ∨ content.length ≤ length := by
  cases chunk : swiftChunk payload with
  | none =>
    have run : swiftPump describe ends selfId payload files =
        fun _ => some { files := files, reply := none } := by
      funext fuel
      rw [swiftPump, chunk]
    rw [run]
    refine iff_of_true ⟨⟨0, _, rfl⟩, ?_⟩ ?_
    · intro fuel after reply ran replied
      cases ran
      cases replied
    · intro length same
      cases same
  | some length =>
    have run : swiftPump describe ends selfId payload files =
        pumpLoop id describe (fun path => "file " ++ path ++ " not found") true length ends
          (swiftRoute payload selfId) files := by
      funext fuel
      rw [swiftPump, chunk]
    rw [run, pumpLoop_copies_iff]
    have positive := swiftChunk_pos chunk
    simp only [Fits, positive, true_or, true_and, true_implies]
    constructor
    · intro condition other same
      cases same
      exact condition
    · intro condition
      exact condition length rfl

/-- Each pump copies exactly where both files can be opened only if they are different files or
one chunk holds all of the source; in Python the chunk must not be negative besides, or the source
be empty. -/
theorem pump_copies_iff (runtime : Runtime) (numerals : Numerals) (debug : String → String)
    (display describe : Value → String) (pythonAllocates rustAllocates : Nat → Bool)
    (most : { bytes : Nat // 0 < bytes }) (ends : String → FileEnd Name) (selfId : String)
    (payload : Dict) (files : Files Name) :
    (Copies ends (pythonRoute payload selfId) files
        (pythonPump runtime numerals pythonAllocates ends selfId payload files) ↔
      ∀ length, pythonChunk runtime numerals payload = .ok length →
        pythonAllocates (pythonStride length) = true → ∀ source sink content,
          Opened ends (pythonRoute payload selfId) files source sink content →
            (0 ≤ length ∨ content = []) ∧
              (source ≠ sink ∨ content.length ≤ pythonStride length)) ∧
    (Copies ends (rustRoute payload selfId) files
        (rustPump debug display rustAllocates most ends selfId payload files) ↔
      (rustAllocates (rustChunk payload) = true → ∀ source sink content,
        Opened ends (rustRoute payload selfId) files source sink content →
          source ≠ sink ∨ content.length ≤ min (rustChunk payload) most)) ∧
    (Copies ends (swiftRoute payload selfId) files
        (swiftPump describe ends selfId payload files) ↔
      ∀ length, swiftChunk payload = some length → ∀ source sink content,
        Opened ends (swiftRoute payload selfId) files source sink content →
          source ≠ sink ∨ content.length ≤ length) := by
  refine ⟨?_, rustPump_copies_iff .., swiftPump_copies_iff ..⟩
  rw [pythonPump_copies_iff]
  have moves : ∀ length : Int, 0 < pythonStride length ↔ 0 ≤ length := by
    intro length
    unfold pythonStride
    split
    case isTrue zero => simp [zero, defaultChunk]
    case isFalse => omega
  simp only [Fits, moves]

/-- A file bridge in the open, every path a file of its own. -/
def openEnd : FileEnd String where
  resolve := .ok
  readonly := false
  unreadable := fun _ => none
  unwritable := fun _ => none

def threeBytes : Files String := fun name =>
  if name = "a.bin" then some [1, 2, 3] else none

/-- A file to itself, two bytes at a time. -/
def selfCopy : Dict where
  entries := [("source_path", .str "a.bin"), ("chunk", .int 2)]
  nodup := by decide

/-- A file to another, with a negative chunk. -/
def backwards : Dict where
  entries := [("source_path", .str "a.bin"), ("sink_path", .str "b.bin"), ("chunk", .int (-1))]
  nodup := by decide

theorem pump_onto_itself_truncates :
    ¬ Copies (fun _ => openEnd) (pythonRoute selfCopy "fs") threeBytes
        (pythonPump ⟨fun _ => true, fun _ => "", fun _ => ""⟩ ⟨fun _ => false, fun _ => none⟩
          (fun _ => true) (fun _ => openEnd) "fs" selfCopy threeBytes) ∧
      ¬ Copies (fun _ => openEnd) (rustRoute selfCopy "fs") threeBytes
        (rustPump id (fun _ => "") (fun _ => true) 2147479552 (fun _ => openEnd) "fs" selfCopy
          threeBytes) ∧
      ¬ Copies (fun _ => openEnd) (swiftRoute selfCopy "fs") threeBytes
        (swiftPump (fun _ => "") (fun _ => openEnd) "fs" selfCopy threeBytes) ∧
      ∀ fuel, pythonPump ⟨fun _ => true, fun _ => "", fun _ => ""⟩
        ⟨fun _ => false, fun _ => none⟩ (fun _ => true) (fun _ => openEnd) "fs" backwards
        threeBytes fuel = none := by
  have opened : Opened (fun _ => openEnd) ⟨"fs", "a.bin", "fs", "a.bin"⟩ threeBytes "a.bin"
      "a.bin" [1, 2, 3] := ⟨rfl, rfl, rfl, rfl, rfl, rfl⟩
  refine ⟨?_, ?_, ?_, ?_⟩
  · rw [pythonPump_copies_iff]
    intro fits
    have short := (fits 2 rfl rfl "a.bin" "a.bin" [1, 2, 3] opened).2
    simp [pythonStride] at short
  · have twice := (@rustPump_copies_iff String _ id (fun _ => "") (fun _ => true)
      ⟨2147479552, by decide⟩ (fun _ => openEnd) "fs" selfCopy threeBytes).not.mpr
    apply twice
    intro fits
    have short := fits rfl "a.bin" "a.bin" [1, 2, 3] opened
    have chunk : rustChunk selfCopy = 2 := by decide
    simp [chunk] at short
  · rw [swiftPump_copies_iff]
    intro fits
    have short := fits 2 rfl "a.bin" "a.bin" [1, 2, 3] opened
    simp at short
  · intro fuel
    have apart : Opened (fun _ => openEnd) (pythonRoute backwards "fs") threeBytes "a.bin" "b.bin"
        [1, 2, 3] := ⟨rfl, rfl, rfl, rfl, rfl, rfl⟩
    have run : pythonPump ⟨fun _ => true, fun _ => "", fun _ => ""⟩ ⟨fun _ => false, fun _ => none⟩
        (fun _ => true) (fun _ => openEnd) "fs" backwards threeBytes fuel =
          pumpLoop (fun _ => "") (fun _ => "") (fun _ => "file " ++ "" ++ " not found") true 0
            (fun _ => openEnd) (pythonRoute backwards "fs") threeBytes fuel := rfl
    have different : "a.bin" ≠ "b.bin" := by decide
    have full : [1, 2, 3] ≠ ([] : List UInt8) := by decide
    rw [run, pumpLoop_opened apart, copyFile, copy_stands different full apart.held]
    rfl

end Fantastic.Parity

import Fantastic.Foundation.JsonGrammar
import Fantastic.Foundation.Runs
import Fantastic.Python.YamlState
import Mathlib.Logic.Function.Basic

/-!
# The keyed store in Rust and Swift

`fantastic-yaml-state/src/lib.rs` and `YamlStateBundle.swift`: the verbs `read`, `state_yaml`,
`set`, `delete` and `replace`, cut at the two sends to the file bridge. A write reads the whole
document, edits its copy and writes it back. The bridge may answer a read with anything and
refuse a write. The two bundles differ only in the hint they pass on. `keys` and `reflect`, which
only count, are left out.
-/

namespace Fantastic.KeyedStore

open Python.YamlState (Alike)

inductive Language where
  | rust
  | swift
  deriving DecidableEq

/-- serde_yaml or Yams on string-keyed mappings: what `dump` writes, what `load` makes of a text
(nothing when it fails or finds no mapping), and which documents come back. -/
structure Library where
  dump : Dict → String
  load : String → Option Dict
  brings : Dict → Bool

/-- The white space of `str::trim` and of `.whitespacesAndNewlines`. -/
def isWhite (char : Char) : Bool :=
  let code := char.toNat
  (9 ≤ code && code ≤ 13) || code == 0x20 || code == 0x85 || code == 0xa0 || code == 0x1680 ||
    (0x2000 ≤ code && code ≤ 0x200a) || code == 0x2028 || code == 0x2029 || code == 0x202f ||
    code == 0x205f || code == 0x3000

def blank (text : String) : Bool :=
  text.toList.all isWhite

def parse (library : Library) (text : String) : Dict :=
  if blank text then .empty else (library.load text).getD .empty

def emitYaml (library : Library) (doc : Dict) : String :=
  if doc.entries = [] then "" else library.dump doc

/-- The same under every key, up to the order of the members of a value. -/
def Same (doc other : Dict) : Prop :=
  ∀ key, Alike (doc.get? key) (other.get? key)

/-- What comes back comes back the same. -/
structure Library.Faithful (library : Library) : Prop where
  solid : ∀ doc, library.brings doc = true → doc.entries ≠ [] →
    blank (library.dump doc) = false
  inverse : ∀ doc, library.brings doc = true → doc.entries ≠ [] →
    ∃ back, library.load (library.dump doc) = some back ∧ Same back doc

/-! ### Verbs -/

inductive Write where
  | set (key : String) (value : Value)
  | delete (key : String)
  | replace (doc : Dict)

def Write.apply (doc : Dict) : Write → Dict
  | .set key value => doc.insert key value
  | .delete key => doc.erase key
  | .replace other => other

inductive Verb where
  | read (key : Option String)
  | stateYaml
  | write (write : Write)

def field (members : List (String × Value)) (name : String) : Option Value :=
  members.lookup name

def asStr : Option Value → Option String
  | some (.str text) => some text
  | _ => none

def complaint (text : String) : Value :=
  .dict [("error", .str text)]

/-- `need_file_bridge`. -/
def needFileBridge (wired : Bool) (verb : String) : Option Value :=
  if wired then none
  else some (complaint ("yaml_state." ++ verb ++
    ": file_bridge_id required — wire (and open) a file_bridge to persist"))

/-- The key of `set` and `delete`. -/
def withKey (payload : List (String × Value)) (verb : String)
    (next : String → Except Value Verb) : Except Value Verb :=
  match asStr (field payload "key") with
  | some key =>
    if key = "" then
      .error (complaint ("yaml_state." ++ verb ++ ": key (non-empty str) required"))
    else next key
  | none => .error (complaint ("yaml_state." ++ verb ++ ": key (non-empty str) required"))

/-- A verb that writes insists on the file bridge first. -/
def whenWired (wired : Bool) (verb : String) (next : Except Value Verb) : Except Value Verb :=
  match needFileBridge wired verb with
  | some err => .error err
  | none => next

def setVerb (payload : List (String × Value)) : Except Value Verb :=
  withKey payload "set" fun key =>
    match field payload "value" with
    | some value => .ok (.write (.set key value))
    | none => .error (complaint "yaml_state.set: value required")

def deleteVerb (payload : List (String × Value)) : Except Value Verb :=
  withKey payload "delete" fun key => .ok (.write (.delete key))

def replaceVerb (payload : List (String × Value)) : Except Value Verb :=
  match field payload "doc" with
  | some (.dict members) => .ok (.write (.replace (JsonGrammar.mapOf members)))
  | none => .error (complaint "yaml_state.replace: doc (object) required")
  | some _ => .error (complaint "yaml_state.replace: doc must be an object")

/-- `handle`, up to the first send. -/
def parsed (wired : Bool) (payload : List (String × Value)) : Except Value Verb :=
  match (asStr (field payload "type")).getD "" with
  | "read" => .ok (.read (asStr (field payload "key")))
  | "state_yaml" => .ok .stateYaml
  | "set" => whenWired wired "set" (setVerb payload)
  | "delete" => whenWired wired "delete" (deleteVerb payload)
  | "replace" => whenWired wired "replace" (replaceVerb payload)
  | other => .error (complaint ("yaml_state: unknown type '" ++ other ++ "'"))

/-- What the reading verbs make of the document. -/
def readReply (library : Library) (doc : Dict) : Verb → Value
  | .read (some key) => .dict [("key", .str key), ("value", (doc.get? key).getD .null)]
  | .read none => .dict [("doc", .dict doc.entries)]
  | _ => .dict [("yaml", .str (emitYaml library doc))]

/-- The reply of a write that went through; `loaded` is what it was applied to. -/
def Write.reply (loaded : Dict) : Write → Value
  | .set key _ => .dict [("key", .str key), ("set", .bool true)]
  | .delete key => .dict [("key", .str key), ("deleted", .bool (loaded.get? key).isSome)]
  | .replace doc => .dict [("replaced", .bool true), ("keys", .int doc.entries.length)]

def Write.name : Write → String
  | .set _ _ => "set"
  | .delete _ => "delete"
  | .replace _ => "replace"

/-- The reason for which `persist` takes the bridge's reply as a refusal. -/
def refusal (reply : List (String × Value)) : Option String :=
  match asStr (field reply "error") with
  | some error => some error
  | none =>
    if asStr (field reply "reason") = some "unauthorized" then some "unauthorized" else none

/-- The hint that is passed on: in Rust any, in Swift any but null. -/
def hints (language : Language) (reply : List (String × Value)) : List (String × Value) :=
  match field reply "hint", language with
  | none, _ => []
  | some .null, .swift => []
  | some hint, _ => [("hint", hint)]

/-- `persist` on the bridge's reply: an error, or nothing. -/
def persistError (language : Language) (verb : String) : Value → Option Value
  | .dict reply =>
    (refusal reply).map fun reason =>
      .dict (("error", .str ("yaml_state." ++ verb ++ ": provider refused write — " ++ reason)) ::
        hints language reply)
  | _ => some (complaint ("yaml_state." ++ verb ++ ": provider gave no reply"))

/-! ### The store and its calls -/

/-- What the bridge answers a read with: the file, or something else. -/
inductive Answer where
  | file
  | other (reply : Value)

/-- A file that is missing or no text is answered with an error. -/
def fileReply : Option String → Value
  | some text => .dict [("content", .str text)]
  | none => complaint "not readable"

def Answer.reply (file : Option String) : Answer → Value
  | .file => fileReply file
  | .other reply => reply

/-- `load` on the bridge's reply. -/
def load (library : Library) : Value → Dict
  | .dict reply =>
    match asStr (field reply "content") with
    | some text => parse library text
    | none => .empty
  | _ => .empty

/-- Where a call waits: for the bridge to read, for what it read, for the bridge to write, or for
the answer to what it wrote. `seen` counts, for the statements, the writes that had landed when
the file was read. -/
inductive Phase where
  | reading
  | served (reply : Value) (seen : Nat)
  | writing (loaded doc : Dict)
  | landed (loaded : Dict)

/-- `since` counts, for the statements, the writes that had landed when it was called. -/
structure Task where
  verb : Verb
  phase : Phase
  since : Nat

/-- A call that has been answered. -/
structure Done where
  number : Nat
  verb : Verb
  since : Nat
  seen : Nat
  reply : Value

/-- `wired` says that `file_bridge_id` is set. `landed` lists, for the statements, the writes in
the order in which the bridge wrote them. -/
structure Store where
  wired : Bool
  file : Option String
  tasks : Nat → Option Task
  begun : Nat
  landed : List (Nat × Write)
  done : List Done

inductive Move where
  | call (payload : List (String × Value))
  | serve (number : Nat) (answer : Answer)
  | receive (number : Nat)
  | land (number : Nat)
  | answered (number : Nat) (reply : Value)
  | refuse (number : Nat) (reply : Value) (left : Option String)

namespace Store

variable (language : Language) (library : Library)

def opened (wired : Bool) (file : Option String) : Store where
  wired := wired
  file := file
  tasks := fun _ => none
  begun := 0
  landed := []
  done := []

def setTask (store : Store) (number : Nat) (task : Option Task) : Store :=
  { store with tasks := Function.update store.tasks number task }

def finish (store : Store) (number : Nat) (verb : Verb) (since seen : Nat) (reply : Value) :
    Store :=
  { store.setTask number none with
    done := store.done ++
      [{ number := number, verb := verb, since := since, seen := seen, reply := reply }] }

/-- A verb up to its first wait. Without a file bridge it loads nothing. -/
def start (store : Store) (number : Nat) (verb : Verb) : Store :=
  let since := store.landed.length
  match verb with
  | .write (.replace doc) =>
    store.setTask number
      (some { verb := verb, phase := .writing .empty doc, since := since })
  | _ =>
    if store.wired then
      store.setTask number (some { verb := verb, phase := .reading, since := since })
    else store.finish number verb since since (readReply library .empty verb)

/-- A verb once its document is loaded. -/
def edit (store : Store) (number : Nat) (task : Task) (seen : Nat) (doc : Dict) : Store :=
  match task.verb with
  | .write write =>
    store.setTask number (some { task with phase := .writing doc (write.apply doc) })
  | verb => store.finish number verb task.since seen (readReply library doc verb)

/-- The verb ends with the bridge's reply to its write. -/
def conclude (store : Store) (number : Nat) (task : Task) (loaded : Dict) (reply : Value) :
    Store :=
  match task.verb with
  | .write write =>
    store.finish number task.verb task.since 0
      ((persistError language write.name reply).getD (write.reply loaded))
  | _ => store

def call (store : Store) (payload : List (String × Value)) : Store :=
  let opened := { store with begun := store.begun + 1 }
  match parsed store.wired payload with
  | .ok verb => opened.start library store.begun verb
  | .error _ => opened

/-- What a waiting call does when `move` reaches it. -/
def advance (store : Store) (number : Nat) (task : Task) (move : Move) : Store :=
  match move, task.phase with
  | .serve _ answer, .reading =>
    store.setTask number
      (some { task with phase := .served (answer.reply store.file) store.landed.length })
  | .receive _, .served reply seen => store.edit library number task seen (load library reply)
  | .land _, .writing loaded doc =>
    match task.verb with
    | .write write =>
      { store.setTask number (some { task with phase := .landed loaded }) with
        file := some (emitYaml library doc)
        landed := store.landed ++ [(number, write)] }
    | _ => store
  | .answered _ reply, .landed loaded => store.conclude language number task loaded reply
  | .refuse _ reply left, .writing loaded _ =>
    { store.conclude language number task loaded reply with file := left }
  | _, _ => store

def resume (store : Store) (number : Nat) (move : Move) : Store :=
  match store.tasks number with
  | some task => store.advance language library number task move
  | none => store

def step (store : Store) (move : Move) : Store :=
  match move with
  | .call payload => store.call library payload
  | .serve number _ | .receive number | .land number | .answered number _ | .refuse number _ _ =>
    store.resume language library number move

def run (store : Store) (moves : List Move) : Store :=
  moves.foldl (step language library) store

/-- The document that a load from the file itself gives. -/
def doc (store : Store) : Dict :=
  if store.wired then load library (fileReply store.file) else .empty

end Store

end Fantastic.KeyedStore

import Fantastic.Python.BlobStore

/-!
# The keyed store of `yaml_state`

`yaml_state/tools.py`: `read`, `set`, `append`, `delete` and `replace` over one text,
`state.yaml`, that goes through the loader. Every write but `replace` loads the whole
document, edits it, and stores the whole document; a load that fails for any reason counts
as an empty document. What the loader answers to a load and to a write is up to the store.

PyYAML is a parameter. A document has texts for keys; content edited by hand may have
others, and the code then works on it as the dictionary it is.
-/

namespace Fantastic.Python.YamlState

/-! ### PyYAML -/

/-- `yaml.safe_dump(doc, sort_keys=True, allow_unicode=True)` and `yaml.safe_load`, which
raises (`none`) or gives a mapping or something else (`some none`). `brings` says which
characters come back from a dumped text: not all do, a next-line character (U+0085) is
folded into a space. -/
structure Yaml where
  safeDump : Dict → Except PyError String
  safeLoad : String → Option (Option Dict)
  brings : Char → Bool

mutual

/-- A value with the members of every mapping in it sorted by key. -/
def sortKeys : Value → Value
  | .list items => .list (sortItems items)
  | .dict members =>
    .dict ((sortMembers members).mergeSort fun left right => decide (left.1 ≤ right.1))
  | value => value

def sortItems : List Value → List Value
  | [] => []
  | item :: rest => sortKeys item :: sortItems rest

def sortMembers : List (String × Value) → List (String × Value)
  | [] => []
  | (key, item) :: rest => (key, sortKeys item) :: sortMembers rest

end

/-- Equal as Python compares: the order of the members of a mapping does not count. -/
def Alike (left right : Option Value) : Prop :=
  left.map sortKeys = right.map sortKeys

mutual

/-- Every character of every text in the value comes back. -/
def carried (brings : Char → Bool) : Value → Bool
  | .str text => text.toList.all brings
  | .list items => carriedItems brings items
  | .dict members => carriedMembers brings members
  | _ => true

def carriedItems (brings : Char → Bool) : List Value → Bool
  | [] => true
  | item :: rest => carried brings item && carriedItems brings rest

def carriedMembers (brings : Char → Bool) : List (String × Value) → Bool
  | [] => true
  | (key, item) :: rest =>
    key.toList.all brings && carried brings item && carriedMembers brings rest

end

/-- A document whose texts all come back. -/
def Carried (brings : Char → Bool) (doc : Dict) : Prop :=
  ∀ key item, doc.get? key = some item →
    key.toList.all brings = true ∧ carried brings item = true

/-- A document of such texts that can be dumped loads as it was. -/
def Yaml.Faithful (yaml : Yaml) : Prop :=
  ∀ doc text, Carried yaml.brings doc → yaml.safeDump doc = .ok text →
    text ≠ "" ∧ ∃ loaded, yaml.safeLoad text = some (some loaded) ∧
      ∀ key, Alike (loaded.get? key) (doc.get? key)

/-! ### The store -/

/-- What `load_blob` comes to at one load: the file as it is, another text (cut off,
edited, damaged), a refusal, no store, or no reply. -/
inductive Answer where
  | file
  | another (content : String)
  | denied (error : String)
  | noStore
  | silent
  deriving DecidableEq

/-- What `persist_blob` comes to at one write. A write that is not taken leaves the file
as `left`. -/
inductive Verdict where
  | stored
  | refused (error : String) (reason hint : Value) (left : Option String)
  | silent (left : Option String)
  deriving DecidableEq

def contentReply (content : Value) : Value :=
  .dict [("name", .str "state.yaml"), ("content", content)]

/-- The loader's reply to `load_blob`. -/
def Answer.reply (file : Option String) : Answer → Value
  | .file =>
    match file with
    | some text => contentReply (.str text)
    | none => contentReply .null
  | .another content => contentReply (.str content)
  | .denied error =>
    .dict [("error", .str ("load_blob: " ++ error)), ("reason", .str "unauthorized")]
  | .noStore => .dict [("error", .str "load_blob: no store wired — persistence not available")]
  | .silent => .null

/-- `_load`, on the loader's reply. -/
def load (yaml : Yaml) (reply : Value) : Dict :=
  match reply with
  | .dict members =>
    match members.lookup "content" with
    | some (.str content) =>
      if content = "" then .empty
      else
        match yaml.safeLoad content with
        | some (some doc) => doc
        | _ => .empty
    | _ => .empty
  | _ => .empty

/-- `_emit_yaml`. -/
def emitYaml (yaml : Yaml) (doc : Dict) : Except PyError String :=
  if doc.entries.isEmpty then .ok "" else yaml.safeDump doc

def persistError (verb error : String) (reason hint : Value) : Dict :=
  let out := OrderedDict.empty.insert "error"
    (Value.str ("yaml_state." ++ verb ++ ": persist_blob: " ++ error))
  let out := if truthy reason then out.insert "reason" reason else out
  if truthy hint then out.insert "hint" hint else out

/-- `_persist`, then the verb's own reply. What is left of the file, and the reply. -/
def persist (yaml : Yaml) (file : Option String) (doc : Dict) (verb : String)
    (verdict : Verdict) (reply : Dict) : Option String × Except PyError Dict :=
  match emitYaml yaml doc with
  | .error failure => (file, .error failure)
  | .ok text =>
    match verdict with
    | .stored => (some text, .ok reply)
    | .refused error reason hint left => (left, .ok (persistError verb error reason hint))
    | .silent left =>
      (left, .ok (Kernel.errorReply ("yaml_state." ++ verb ++ ": loader gave no reply")))

/-! ### The verbs -/

/-- `{"key": key, name: value}`. -/
def keyReply (key name : String) (value : Value) : Dict :=
  (OrderedDict.empty.insert "key" (.str key)).insert name value

/-- The dictionary of a JSON object. -/
def dictOf (members : List (String × Value)) : Dict :=
  members.foldl (fun doc member => doc.insert member.1 member.2) .empty

/-- The list `_append` extends: what is there when it is a list, a new one otherwise. -/
def listAt (held : Option Value) : List Value :=
  match held with
  | some (.list items) => items
  | _ => []

/-- What `_append` adds: the elements of a list, or the value itself. -/
def appended : Value → List Value
  | .list items => items
  | value => [value]

/-- A request to the agent once its arguments are checked. -/
inductive Request where
  | readAll
  | read (key : Value)
  | set (key : String) (value : Value)
  | append (key : String) (value : Value)
  | delete (key : String)
  | replace (doc : Dict)

/-- The argument checks of `set` and `append`. -/
def keyAndValue (verb : String) (payload : Dict) (request : String → Value → Request) :
    Except Dict Request :=
  match getD payload "key" with
  | .str key =>
    if key = "" then
      .error (Kernel.errorReply ("yaml_state." ++ verb ++ ": key (non-empty str) required"))
    else
      match payload.get? "value" with
      | some value => .ok (request key value)
      | none => .error (Kernel.errorReply ("yaml_state." ++ verb ++ ": value required"))
  | _ => .error (Kernel.errorReply ("yaml_state." ++ verb ++ ": key (non-empty str) required"))

/-- What a payload asks for, or the reply to bad arguments. -/
def parse (runtime : Runtime) (payload : Dict) : Except Dict Request :=
  match getD payload "type" with
  | .str "read" =>
    if getD payload "key" = .null then .ok .readAll else .ok (.read (getD payload "key"))
  | .str "set" => keyAndValue "set" payload .set
  | .str "append" => keyAndValue "append" payload .append
  | .str "delete" =>
    match getD payload "key" with
    | .str key =>
      if key = "" then
        .error (Kernel.errorReply "yaml_state.delete: key (non-empty str) required")
      else .ok (.delete key)
    | _ => .error (Kernel.errorReply "yaml_state.delete: key (non-empty str) required")
  | .str "replace" =>
    match payload.get? "doc" with
    | some (.dict members) => .ok (.replace (dictOf members))
    | some _ => .error (Kernel.errorReply "yaml_state.replace: doc must be an object")
    | none => .error (Kernel.errorReply "yaml_state.replace: doc (object) required")
  | other => .error (Kernel.errorReply ("yaml_state: unknown type " ++ runtime.repr other))

/-- `doc.get(key)`, for any argument a caller can send. -/
def lookup (doc : Dict) (key : Value) : Except PyError Value :=
  match hashKey key with
  | .error failure => .error failure
  | .ok (.str text) => .ok (getD doc text)
  | .ok _ => .ok .null

/-- The verbs, with what the loader answers along the way. -/
def perform (yaml : Yaml) (file : Option String) (request : Request) (answer : Answer)
    (verdict : Verdict) : Option String × Except PyError Dict :=
  let doc := load yaml (answer.reply file)
  match request with
  | .readAll => (file, .ok (OrderedDict.empty.insert "doc" (.dict doc.entries)))
  | .read key =>
    (file, (lookup doc key).map fun value =>
      (OrderedDict.empty.insert "key" key).insert "value" value)
  | .set key value =>
    persist yaml file (doc.insert key value) "set" verdict (keyReply key "set" (.bool true))
  | .append key value =>
    let items := listAt (doc.get? key) ++ appended value
    persist yaml file (doc.insert key (.list items)) "append" verdict
      (keyReply key "length" (.int items.length))
  | .delete key =>
    persist yaml file (doc.erase key) "delete" verdict
      (keyReply key "deleted" (.bool (doc.contains key)))
  | .replace doc =>
    persist yaml file doc "replace" verdict
      ((OrderedDict.empty.insert "replaced" (.bool true)).insert
        "keys" (.int doc.entries.length))

/-- `handler`. -/
def handler (runtime : Runtime) (yaml : Yaml) (file : Option String) (payload : Dict)
    (answer : Answer) (verdict : Verdict) : Option String × Except PyError Dict :=
  match parse runtime payload with
  | .error reply => (file, .ok reply)
  | .ok request => perform yaml file request answer verdict

end Fantastic.Python.YamlState

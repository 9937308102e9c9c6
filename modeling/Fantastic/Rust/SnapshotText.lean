import Fantastic.Foundation.JsonRoundTrip
import Fantastic.Rust.SnapshotLoad
import Mathlib.Algebra.Group.Int.Defs

/-!
# Snapshots as JSON texts

`Kernel::save_json` and `Kernel::load_json`. A record flattens its meta next to its own
fields, so the text of a record may name a field twice; reading it back refuses that, and
takes a member named like a field as the field. The rest of `serde_json` is its grammar, a
limit on the nesting it reads, and two parameters: how floats are spelled and read.
-/

namespace Fantastic.Rust

open JsonGrammar

/-- What is left open of `serde_json`: floats, and the words of its complaints. -/
structure SerdeJson where
  float : Dyadic → List Char
  floats : List Char → Option Dyadic
  complaint : List Char → String

namespace SerdeJson

/-- `serde_json::to_string`: no blanks, and only what must be is escaped. Raw bytes are no
`serde_json` value. -/
def style (serde : SerdeJson) : Style where
  escape := plainEscape
  afterComma := []
  afterColon := []
  float := serde.float
  bytes := fun _ => []
  escape_reads := readChar_plainEscape
  escape_opens := plainEscape_opens
  afterComma_blank := by simp
  afterColon_blank := by simp

/-- Arrays and objects may nest 127 deep. -/
def depthLimit : Nat := 127

end SerdeJson

mutual

/-- How deep arrays and objects nest in a value. -/
def nesting : Value → Nat
  | .list items => 1 + nestingItems items
  | .dict members => 1 + nestingMembers members
  | _ => 0

def nestingItems : List Value → Nat
  | [] => 0
  | item :: items => max (nesting item) (nestingItems items)

def nestingMembers : List (String × Value) → Nat
  | [] => 0
  | (_, item) :: members => max (nesting item) (nestingMembers members)

end

/-! ### Writing -/

/-- The members of a record in its text: the fields, then the flattened meta. -/
def AgentRecord.members (record : AgentRecord) : List (String × Value) :=
  record.fields ++ record.metadata.entries

def KernelState.toRaw (state : KernelState) : Value :=
  .dict [("version", .int state.version.toNat),
    ("agents", .list (state.agents.map fun record => .dict record.members))]

/-- `Kernel::save_json`. -/
def Kernel.saveJson (serde : SerdeJson) (kernel : Kernel) : List Char :=
  serde.style.write kernel.save.toRaw

/-! ### Reading -/

/-- A field of a derived reader: absent, or there once. Twice is an error. -/
def takeField (name : String) (members : List (String × Value)) : Option (Option Value) :=
  match members.filter fun entry => decide (entry.1 = name) with
  | [] => some none
  | [entry] => some (some entry.2)
  | _ => none

/-- An `Option<String>` with a default. -/
def optionalString : Option Value → Option (Option String)
  | none => some none
  | some .null => some none
  | some (.str text) => some (some text)
  | some _ => none

/-- `AgentRecord` from an object: what is no field goes into the meta. -/
def readRecord : Value → Option AgentRecord
  | .dict members => do
      let id ← takeField "id" members
      let handlerModule ← takeField "handler_module" members
      let parentId ← takeField "parent_id" members
      let .str id ← id | none
      let handlerModule ← optionalString handlerModule
      let parentId ← optionalString parentId
      return {
        id := id
        handlerModule := handlerModule
        parentId := parentId
        metadata := mapOf (toNativeMembers (members.filter fun entry =>
          decide (entry.1 ∉ ["id", "handler_module", "parent_id"]))) }
  | _ => none

def readVersion : Value → Option UInt32
  | .int number =>
    if 0 ≤ number ∧ number < 2 ^ 32 then some (UInt32.ofNat number.toNat) else none
  | _ => none

def readAgents : Value → Option (List AgentRecord)
  | .list items => items.mapM readRecord
  | _ => none

/-- `KernelState` from an object, or from an array of its two fields. -/
def readState : Value → Option KernelState
  | .dict members => do
      let some version ← takeField "version" members | none
      let some agents ← takeField "agents" members | none
      return { version := ← readVersion version, agents := ← readAgents agents }
  | .list [version, agents] => do
      return { version := ← readVersion version, agents := ← readAgents agents }
  | _ => none

/-- `serde_json::from_str`. -/
def SerdeJson.fromStr (serde : SerdeJson) (text : List Char) : Option KernelState := do
  let value ← read serde.floats text
  if nesting value ≤ SerdeJson.depthLimit then readState value else none

/-- `Kernel::load_json`. -/
def Kernel.loadJson (serde : SerdeJson) (host : Host) (workdir : Option PurePath)
    (kernel : Kernel) (text : List Char) : Kernel × Option String :=
  match serde.fromStr text with
  | none => (kernel, some ("parse: " ++ serde.complaint text))
  | some state => kernel.load host workdir state

/-! ### What reads back -/

mutual

/-- Values `serde_json` can hold: numbers of 64 bits, and objects with distinct keys. -/
def Native : Value → Prop
  | .int number => -2 ^ 63 ≤ number ∧ number < 2 ^ 64
  | .bytes _ => False
  | .list items => NativeItems items
  | .dict members => (members.map Prod.fst).Nodup ∧ NativeMembers members
  | _ => True

def NativeItems : List Value → Prop
  | [] => True
  | item :: items => Native item ∧ NativeItems items

def NativeMembers : List (String × Value) → Prop
  | [] => True
  | (_, item) :: members => Native item ∧ NativeMembers members

end

/-- A value that is read back from the text of a snapshot. There it stands inside the
object of its record, the list of agents and the object of the state. -/
structure Readable (serde : SerdeJson) (value : Value) : Prop where
  native : Native value
  writable : Writable serde.style serde.floats value
  shallow : nesting value ≤ 124

/-- A meta that `load_json` gives back: no key is a field of the record, and its values
read back. -/
def CleanMeta (serde : SerdeJson) (metadata : Dict) : Prop :=
  ∀ key value, metadata.get? key = some value →
    key ∉ ["id", "handler_module", "parent_id"] ∧ Readable serde value

mutual

theorem Native.distinct : ∀ value, Native value → value.Distinct
  | .null, _ => trivial
  | .bool _, _ => trivial
  | .int _, _ => trivial
  | .float _, _ => trivial
  | .str _, _ => trivial
  | .bytes _, native => native.elim
  | .list items, native => NativeItems.distinct items native
  | .dict members, native => ⟨native.1, NativeMembers.distinct members native.2⟩

theorem NativeItems.distinct : ∀ items, NativeItems items → Value.DistinctItems items
  | [], _ => trivial
  | item :: items, native => ⟨Native.distinct item native.1, NativeItems.distinct items native.2⟩

theorem NativeMembers.distinct :
    ∀ members, NativeMembers members → Value.DistinctMembers members
  | [], _ => trivial
  | (_, item) :: members, native =>
    ⟨Native.distinct item native.1, NativeMembers.distinct members native.2⟩

end

section Records

variable {serde : SerdeJson} {record : AgentRecord}

theorem nativeMembers_of_forall {members : List (String × Value)}
    (all : ∀ entry ∈ members, Native entry.2) : NativeMembers members := by
  induction members with
  | nil => trivial
  | cons entry rest ih =>
    exact ⟨all entry (List.mem_cons_self ..), ih fun other later =>
      all other (List.mem_cons_of_mem _ later)⟩

theorem writableMembers_of_forall {members : List (String × Value)}
    (all : ∀ entry ∈ members, Writable serde.style serde.floats entry.2) :
    WritableMembers serde.style serde.floats members := by
  induction members with
  | nil => trivial
  | cons entry rest ih =>
    exact ⟨all entry (List.mem_cons_self ..), ih fun other later =>
      all other (List.mem_cons_of_mem _ later)⟩

theorem writableItems_of_forall {items : List Value}
    (all : ∀ item ∈ items, Writable serde.style serde.floats item) :
    WritableItems serde.style serde.floats items := by
  induction items with
  | nil => trivial
  | cons item rest ih =>
    exact ⟨all item (List.mem_cons_self ..), ih fun other later =>
      all other (List.mem_cons_of_mem _ later)⟩

theorem nestingMembers_le {members : List (String × Value)} {bound : Nat}
    (all : ∀ entry ∈ members, nesting entry.2 ≤ bound) : nestingMembers members ≤ bound := by
  induction members with
  | nil => exact Nat.zero_le _
  | cons entry rest ih =>
    exact Nat.max_le.mpr ⟨all entry (List.mem_cons_self ..), ih fun other later =>
      all other (List.mem_cons_of_mem _ later)⟩

theorem CleanMeta.entry (clean : CleanMeta serde record.metadata) {entry : String × Value}
    (member : entry ∈ record.metadata.entries) :
    entry.1 ∉ ["id", "handler_module", "parent_id"] ∧ Readable serde entry.2 :=
  clean entry.1 entry.2 (OrderedDict.mem_entries_iff.mp member)

/-- A field is a text, so it is written and read like any other. -/
theorem field_text {entry : String × Value} (member : entry ∈ record.fields) :
    ∃ text, entry.2 = .str text := by
  simp only [AgentRecord.fields, List.mem_append, List.mem_singleton, Option.mem_toList,
    Option.map_eq_some_iff] at member
  rcases member with (rfl | ⟨name, _, rfl⟩) | ⟨name, _, rfl⟩
  · exact ⟨_, rfl⟩
  · exact ⟨_, rfl⟩
  · exact ⟨_, rfl⟩

theorem CleanMeta.takeField (clean : CleanMeta serde record.metadata) {name : String}
    (reserved : name ∈ ["id", "handler_module", "parent_id"]) :
    takeField name record.members = takeField name record.fields := by
  have none : record.metadata.entries.filter (fun entry => decide (entry.1 = name)) = [] := by
    rw [List.filter_eq_nil_iff]
    intro entry member same
    rw [decide_eq_true_eq] at same
    rw [← same] at reserved
    exact (clean.entry member).1 reserved
  rw [Rust.takeField, AgentRecord.members, List.filter_append, none, List.append_nil]
  rfl

theorem CleanMeta.rest (clean : CleanMeta serde record.metadata) :
    record.members.filter (fun entry =>
      decide (entry.1 ∉ ["id", "handler_module", "parent_id"])) = record.metadata.entries := by
  have fields : record.fields.filter (fun entry =>
      decide (entry.1 ∉ ["id", "handler_module", "parent_id"])) = [] := by
    rw [List.filter_eq_nil_iff]
    intro entry member
    simp only [AgentRecord.fields, List.mem_append, List.mem_singleton, Option.mem_toList,
      Option.map_eq_some_iff] at member
    rcases member with (rfl | ⟨name, _, rfl⟩) | ⟨name, _, rfl⟩ <;> simp
  have metadata : record.metadata.entries.filter (fun entry =>
      decide (entry.1 ∉ ["id", "handler_module", "parent_id"])) = record.metadata.entries := by
    rw [List.filter_eq_self]
    intro entry member
    rw [decide_eq_true_eq]
    exact (clean.entry member).1
  rw [AgentRecord.members, List.filter_append, fields, metadata, List.nil_append]

/-- The members of a clean record are read as that record. -/
theorem readRecord_members (clean : CleanMeta serde record.metadata) :
    readRecord (.dict record.members) = some record := by
  have native : toNativeMembers record.metadata.entries = record.metadata.entries := by
    apply toNativeMembers_of_distinct
    apply NativeMembers.distinct
    apply nativeMembers_of_forall
    intro entry member
    exact (clean.entry member).2.native
  have id : takeField "id" record.fields = some (some (.str record.id)) := by
    cases handled : record.handlerModule <;> cases named : record.parentId <;>
      simp [takeField, AgentRecord.fields, handled, named]
  have handlerModule : takeField "handler_module" record.fields =
      some (record.handlerModule.map .str) := by
    cases handled : record.handlerModule <;> cases named : record.parentId <;>
      simp [takeField, AgentRecord.fields, handled, named]
  have parentId : takeField "parent_id" record.fields = some (record.parentId.map .str) := by
    cases handled : record.handlerModule <;> cases named : record.parentId <;>
      simp [takeField, AgentRecord.fields, handled, named]
  have optional : ∀ text : Option String, optionalString (text.map .str) = some text := by
    intro text
    cases text <;> rfl
  simp only [readRecord, clean.takeField (show "id" ∈ _ by decide),
    clean.takeField (show "handler_module" ∈ _ by decide),
    clean.takeField (show "parent_id" ∈ _ by decide), id, handlerModule, parentId, clean.rest,
    native, mapOf_entries, Option.bind_eq_bind, Option.bind_some, optional]
  rfl

theorem readAgents_of_clean {records : List AgentRecord}
    (clean : ∀ record ∈ records, CleanMeta serde record.metadata) :
    (records.map fun record => Value.dict record.members).mapM readRecord = some records := by
  induction records with
  | nil => rfl
  | cons record rest ih =>
    rw [List.map_cons, List.mapM_cons, readRecord_members (clean record (List.mem_cons_self ..)),
      ih fun other later => clean other (List.mem_cons_of_mem _ later)]
    rfl

theorem readVersion_toNat (version : UInt32) :
    readVersion (.int version.toNat) = some version := by
  have small : (version.toNat : Int) < 2 ^ 32 := by
    have bound := version.toNat_lt
    omega
  rw [readVersion, if_pos ⟨Int.natCast_nonneg _, small⟩, Int.toNat_natCast, UInt32.ofNat_toNat]

theorem readState_eq {members : List (String × Value)} {first second : Value} {version : UInt32}
    {agents : List AgentRecord} (versionField : takeField "version" members = some (some first))
    (agentsField : takeField "agents" members = some (some second))
    (readFirst : readVersion first = some version) (readSecond : readAgents second = some agents) :
    readState (.dict members) = some { version := version, agents := agents } := by
  rw [readState, versionField, agentsField]
  simp only [Option.bind_eq_bind, Option.bind_some, readFirst, readSecond]
  rfl

theorem readState_none {members : List (String × Value)} {second : Value}
    (agentsField : takeField "agents" members = some (some second))
    (unread : readAgents second = none) : readState (.dict members) = none := by
  rw [readState, agentsField]
  cases takeField "version" members with
  | none => rfl
  | some first =>
    cases first with
    | none => rfl
    | some version =>
      simp only [Option.bind_eq_bind, Option.bind_some, unread, Option.bind_none]
      cases readVersion version <;> rfl

theorem readState_toRaw {state : KernelState}
    (clean : ∀ record ∈ state.agents, CleanMeta serde record.metadata) :
    readState state.toRaw = some state := by
  apply readState_eq
  · simp [takeField]
    rfl
  · simp [takeField]
    rfl
  · exact readVersion_toNat state.version
  · exact readAgents_of_clean clean

theorem members_writable
    (metadata : ∀ entry ∈ record.metadata.entries, Writable serde.style serde.floats entry.2) :
    Writable serde.style serde.floats (.dict record.members) := by
  apply writableMembers_of_forall
  intro entry member
  rcases List.mem_append.mp member with inFields | inMeta
  · obtain ⟨text, same⟩ := field_text inFields
    rw [same]
    trivial
  · exact metadata entry inMeta

/-- The raw state is JSON when its metas are. -/
theorem toRaw_writable {state : KernelState} (metadata : ∀ record ∈ state.agents,
    ∀ entry ∈ record.metadata.entries, Writable serde.style serde.floats entry.2) :
    Writable serde.style serde.floats state.toRaw := by
  refine ⟨trivial, writableItems_of_forall ?_, trivial⟩
  intro item member
  obtain ⟨record, listed, rfl⟩ := List.mem_map.mp member
  exact members_writable (metadata record listed)

theorem members_nesting (clean : CleanMeta serde record.metadata) :
    nesting (.dict record.members) ≤ 125 := by
  rw [nesting]
  have shallow : nestingMembers record.members ≤ 124 := by
    apply nestingMembers_le
    intro entry member
    rcases List.mem_append.mp member with inFields | inMeta
    · obtain ⟨text, same⟩ := field_text inFields
      rw [same]
      exact Nat.zero_le _
    · exact (clean.entry inMeta).2.shallow
  omega

theorem agents_nesting {records : List AgentRecord}
    (clean : ∀ record ∈ records, CleanMeta serde record.metadata) :
    nestingItems (records.map fun record => .dict record.members) ≤ 125 := by
  induction records with
  | nil => exact Nat.zero_le _
  | cons record rest ih =>
    exact Nat.max_le.mpr ⟨members_nesting (clean record (List.mem_cons_self ..)),
      ih fun other later => clean other (List.mem_cons_of_mem _ later)⟩

/-- The text of a state with clean records is read as that state. -/
theorem fromStr_write {state : KernelState}
    (clean : ∀ record ∈ state.agents, CleanMeta serde record.metadata) :
    serde.fromStr (serde.style.write state.toRaw) = some state := by
  have writable : Writable serde.style serde.floats state.toRaw :=
    toRaw_writable fun record listed _ member => ((clean record listed).entry member).2.writable
  have shallow : nesting state.toRaw ≤ SerdeJson.depthLimit := by
    have items := agents_nesting clean
    simp only [KernelState.toRaw, nesting, nestingMembers, SerdeJson.depthLimit]
    omega
  unfold SerdeJson.fromStr
  rw [read_write writable]
  simp only [Option.bind_eq_bind, Option.bind_some, if_pos shallow]
  exact readState_toRaw clean

/-- A record that names one of its fields twice makes the whole text unreadable. -/
theorem fromStr_twice {state : KernelState}
    (writable : Writable serde.style serde.floats state.toRaw) (listed : record ∈ state.agents)
    (twice : takeField "handler_module" record.members = none) :
    serde.fromStr (serde.style.write state.toRaw) = none := by
  have refused : readRecord (.dict record.members) = none := by
    rw [readRecord]
    cases takeField "id" record.members with
    | none => rfl
    | some id =>
      rw [twice]
      rfl
  have stuck : ∀ items : List Value, .dict record.members ∈ items →
      items.mapM readRecord = none := by
    intro items member
    induction items with
    | nil => cases member
    | cons item rest ih =>
      rw [List.mapM_cons]
      rcases List.mem_cons.mp member with here | later
      · rw [← here, refused]
        rfl
      · rw [ih later]
        cases readRecord item <;> rfl
  unfold SerdeJson.fromStr
  rw [read_write writable]
  simp only [Option.bind_eq_bind, Option.bind_some]
  split
  case isTrue =>
    apply readState_none
    · simp [takeField]
      rfl
    · apply stuck
      exact List.mem_map.mpr ⟨record, listed, rfl⟩
  case isFalse => rfl

end Records

end Fantastic.Rust

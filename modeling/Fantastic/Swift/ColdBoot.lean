import Fantastic.Swift.AgentFiles

/-!
# Booting from a damaged directory

`Kernel.load` refuses the whole list for one duplicate id or one parent that is not there,
and takes every parent from the record. So the boot gets through, with every sound record
below the agent of the directory around it, exactly when the records that decode have
different ids, name parents that decoded too, and sound ones name their encloser.
-/

namespace Fantastic.Swift.Kernel

open ParentForest
open Persistence (readAllAgentRecords hiddenRecords readEntry hiddenBelow ownRecord Sound
  UniquelyNamed)

variable {records : List AgentRecord}

/-! ### What the walk reads -/

variable {decode : List UInt8 → Option AgentRecord} {entries agents : List AgentEntry}
  {name : String} {agentFile : Option (List UInt8)} {record : AgentRecord}

theorem readAll_flatMap (entries : List AgentEntry) :
    readAllAgentRecords decode entries = entries.flatMap (readEntry decode) := by
  induction entries with
  | nil => rfl
  | cons entry entries ih => rw [readAllAgentRecords, List.flatMap_cons, ih]

theorem hidden_flatMap (entries : List AgentEntry) :
    hiddenRecords decode entries = entries.flatMap (hiddenBelow decode) := by
  induction entries with
  | nil => rfl
  | cons entry entries ih => rw [hiddenRecords, List.flatMap_cons, ih]

theorem mem_readAll (listed : AgentEntry.folder name agentFile agents ∈ entries)
    (visible : isHidden name = false)
    (inside : record ∈ ownRecord decode agentFile ++ readAllAgentRecords decode agents) :
    record ∈ readAllAgentRecords decode entries := by
  rw [readAll_flatMap]
  refine List.mem_flatMap.mpr ⟨_, listed, ?_⟩
  rw [readEntry, visible]
  exact inside

theorem mem_hidden (listed : AgentEntry.folder name agentFile agents ∈ entries)
    (inside : record ∈ hiddenRecords decode agents ∨ isHidden name = true ∧
      record ∈ ownRecord decode agentFile ++ readAllAgentRecords decode agents) :
    record ∈ hiddenRecords decode entries := by
  rw [hidden_flatMap]
  refine List.mem_flatMap.mpr ⟨_, listed, ?_⟩
  rw [hiddenBelow]
  cases inside with
  | inl deeper =>
    split
    · exact List.mem_append_right _ deeper
    · exact deeper
  | inr here =>
    rw [if_pos here.1]
    exact List.mem_append_left _ here.2

theorem mem_ownRecord {data : List UInt8} (decodes : decode data = some record) :
    record ∈ ownRecord decode (some data) := by
  simp [ownRecord, decodes]

/-- A sound record is read when no directory on the way to it is hidden. -/
theorem sound_found {good : AgentRecord → Prop} {around encloser : AgentRecord}
    {trail : List String} (sound : Sound decode good around entries trail encloser record) :
    ((∀ name ∈ trail, isHidden name = false) → record ∈ readAllAgentRecords decode entries) ∧
      ((∃ name ∈ trail, isHidden name = true) → record ∈ hiddenRecords decode entries) ∧
      good record := by
  induction sound with
  | here listed decodes fine =>
    refine ⟨?_, ?_, fine⟩
    · intro visible
      exact mem_readAll listed (visible _ (by simp))
        (List.mem_append_left _ (mem_ownRecord decodes))
    · intro hidden
      obtain ⟨other, inside, dotted⟩ := hidden
      rw [List.mem_singleton.mp inside] at dotted
      exact mem_hidden listed (.inr ⟨dotted, List.mem_append_left _ (mem_ownRecord decodes)⟩)
  | @nested _ _ _ name _ _ _ _ trail listed _ _ _ ih =>
    obtain ⟨read, unread, fine⟩ := ih
    refine ⟨?_, ?_, fine⟩
    · intro visible
      apply mem_readAll listed (visible _ (by simp)) (List.mem_append_right _ _)
      exact read fun other inside => visible other (by simp [inside])
    · intro hidden
      by_cases deeper : ∃ other ∈ trail, isHidden other = true
      · exact mem_hidden listed (.inl (unread deeper))
      · have read := read (by simpa using deeper)
        apply mem_hidden listed (.inr ⟨?_, List.mem_append_right _ read⟩)
        obtain ⟨other, inside, dotted⟩ := hidden
        cases List.mem_cons.mp inside with
        | inl same => rw [← same, dotted]
        | inr below => exact absurd ⟨other, below, dotted⟩ deeper

/-! ### Which directories boot -/

/-- The boot does not throw, and every sound record is registered under the agent of the
directory around it. -/
def Survives (decode : List UInt8 → Option AgentRecord) (kernel : Kernel) (root : AgentRecord)
    (entries : List AgentEntry) : Prop :=
  ∃ after, kernel.load (bootState root (readAllAgentRecords decode entries)) = some (after, none) ∧
    ∀ trail encloser record,
      Sound decode (UniquelyNamed decode root entries) root entries trail encloser record →
        RegisteredUnder after encloser record

/-- The records that are read have different ids and name parents among themselves, and the
sound ones are read and name their encloser. -/
structure Fits (decode : List UInt8 → Option AgentRecord) (root : AgentRecord)
    (entries : List AgentEntry) : Prop where
  distinct : ((root :: readAllAgentRecords decode entries).map AgentRecord.id).Nodup
  closed : ∀ record ∈ readAllAgentRecords decode entries, ∀ parentId,
    record.parentId = some parentId →
      ∃ above ∈ root :: readAllAgentRecords decode entries, above.id = parentId
  placed : ∀ trail encloser record,
    Sound decode (UniquelyNamed decode root entries) root entries trail encloser record →
      (∀ name ∈ trail, isHidden name = false) ∧ record.parentId = some encloser.id

/-- The only record of its name, in a directory that is read. -/
theorem unique_visible {root other : AgentRecord}
    (unique : UniquelyNamed decode root entries record)
    (listed : other ∈ root :: readAllAgentRecords decode entries) (same : other.id = record.id) :
    record ∉ hiddenRecords decode entries := by
  intro hidden
  unfold UniquelyNamed at unique
  rw [← List.cons_append, List.map_append, List.count_append] at unique
  have first : 0 < ((root :: readAllAgentRecords decode entries).map AgentRecord.id).count
      record.id := List.count_pos_iff.mpr (List.mem_map.mpr ⟨other, listed, same⟩)
  have second : 0 < ((hiddenRecords decode entries).map AgentRecord.id).count record.id :=
    List.count_pos_iff.mpr (List.mem_map_of_mem hidden)
  omega

theorem Survives.fits {kernel : Kernel} (keyed : kernel.Keyed) {root : AgentRecord}
    (bare : root.parentId = none) (survives : Survives decode kernel root entries) :
    Fits decode root entries := by
  obtain ⟨after, returned, registered⟩ := survives
  have checked : Checked (bootState root (readAllAgentRecords decode entries)) := by
    by_contra unchecked
    obtain ⟨failure, refused⟩ := @load_refused kernel _ unchecked
    rw [returned] at refused
    cases refused
  have top : ((bootState root (readAllAgentRecords decode entries)).agents.find? fun record =>
      record.parentId.isNone) = some root := by
    simp [bootState, bare]
  obtain ⟨loaded, again, _, _, sources⟩ := load_below kernel checked top
  rw [returned] at again
  cases again
  refine ⟨checked.distinct, ?_, ?_⟩
  · intro record listed
    exact checked.closed record (List.mem_cons_of_mem _ listed)
  · intro trail encloser record sound
    obtain ⟨ref, _, found, made, _⟩ := registered trail encloser record sound
    obtain ⟨source, listed, named, same⟩ := sources keyed record.id ref found
    obtain ⟨read, unread, unique⟩ := sound_found sound
    have visible : ∀ name ∈ trail, isHidden name = false := by
      intro name inside
      by_contra dotted
      apply unique_visible unique listed named
      exact unread ⟨name, inside, by simpa using dotted⟩
    refine ⟨visible, ?_⟩
    have own : source = record := List.inj_on_of_nodup_map checked.distinct listed
      (List.mem_cons_of_mem _ (read visible)) named
    rw [same, own] at made
    rw [made]

/-- A sound record and its encloser hang below the root. -/
theorem sound_hangs {good : AgentRecord → Prop} {around encloser root : AgentRecord}
    {trail : List String} (sound : Sound decode good around entries trail encloser record)
    (read : ∀ other ∈ readAllAgentRecords decode entries, other ∈ records)
    (placed : ∀ trail encloser record, Sound decode good around entries trail encloser record →
      (∀ name ∈ trail, isHidden name = false) ∧ record.parentId = some encloser.id)
    (listed : around ∈ records)
    (below : Below records AgentRecord.id AgentRecord.parentId around root) :
    Below records AgentRecord.id AgentRecord.parentId record root ∧
      Below records AgentRecord.id AgentRecord.parentId encloser root := by
  induction sound with
  | @here around _ _ _ _ _ inside decodes fine =>
    have sound := @Sound.here decode good around _ _ _ _ _ inside decodes fine
    obtain ⟨visible, named⟩ := placed _ _ _ sound
    have member := read _ ((sound_found sound).1 visible)
    exact ⟨.head ⟨member, listed, named⟩ below, below⟩
  | @nested around _ _ _ _ _ _ _ _ inside decodes fine deeper ih =>
    have sound := @Sound.here decode good around _ _ _ _ _ inside decodes fine
    obtain ⟨visible, named⟩ := placed _ _ _ sound
    have member := read _ ((sound_found sound).1 visible)
    apply ih _ _ member (.head ⟨member, listed, named⟩ below)
    · intro other present
      exact read other (mem_readAll inside (visible _ (by simp)) (List.mem_append_right _ present))
    · intro trail encloser other inner
      obtain ⟨all, linked⟩ := placed _ _ _ (.nested inside decodes fine inner)
      exact ⟨fun name present => all name (by simp [present]), linked⟩

theorem Fits.survives (kernel : Kernel) {root : AgentRecord} (bare : root.parentId = none)
    (fits : Fits decode root entries) : Survives decode kernel root entries := by
  have checked : Checked (bootState root (readAllAgentRecords decode entries)) := by
    refine ⟨UInt32.le_refl _, fits.distinct, ?_, root, by simp [bootState], bare⟩
    intro record listed parentId named
    cases List.mem_cons.mp listed with
    | inl same =>
      rw [same, bare] at named
      cases named
    | inr inside => exact fits.closed record inside parentId named
  have top : ((bootState root (readAllAgentRecords decode entries)).agents.find? fun record =>
      record.parentId.isNone) = some root := by
    simp [bootState, bare]
  obtain ⟨after, returned, placed, _⟩ := load_below kernel checked top
  refine ⟨after, returned, ?_⟩
  intro trail encloser record sound
  obtain ⟨low, _⟩ := sound_hangs sound
    (fun other present => List.mem_cons_of_mem root present) fits.placed
    (List.mem_cons_self ..) .refl
  obtain ⟨_, named⟩ := fits.placed trail encloser record sound
  obtain ⟨ref, found, made, under⟩ := placed record low
  obtain ⟨above, aboveFound, aboveId, held⟩ := under encloser.id named
  refine ⟨ref, above, found, ?_, aboveFound, aboveId, held⟩
  rw [made, ← named]

/-- Exactly the directories whose records fit together boot as the weak-load policy has it. -/
theorem damaged_directory_boots_iff (parse : List UInt8 → Option Value)
    (double : Int → Option Dyadic) {kernel : Kernel} (keyed : kernel.Keyed) {root : AgentRecord}
    (bare : root.parentId = none) (entries : List AgentEntry) :
    Survives (Persistence.decodeFile parse double) kernel root entries ↔
      Fits (Persistence.decodeFile parse double) root entries :=
  ⟨fun survives => survives.fits keyed bare, fun fits => fits.survives kernel bare⟩

/-! ### Two directories -/

def asciiBytes (text : String) : List UInt8 :=
  text.toList.map fun char => UInt8.ofNat char.toNat

/-- A parser for texts of ASCII characters. -/
def parseAscii (data : List UInt8) : Option Value :=
  JsonGrammar.read (fun _ => none) (data.map fun byte => Char.ofNat byte.toNat)

def decodeAscii : List UInt8 → Option AgentRecord :=
  Persistence.decodeFile parseAscii fun _ => none

def coreRecord : AgentRecord where
  id := "core"
  handlerModule := none
  parentId := none
  metadata := .empty

/-- The kernel of a boot before anything is loaded: a bare root. -/
def coreOnly : Kernel :=
  { ((fresh (some "/work") 256).allocate (Agent.new coreRecord ["/work", ".fantastic"])).register 0
    with root := some 0 }

theorem coreOnly_keyed : coreOnly.Keyed := by
  intro id ref found
  have entries : coreOnly.agents.entries = [("core", 0)] := rfl
  have listed := OrderedDict.mem_entries_iff.mpr found
  rw [entries, List.mem_singleton] at listed
  cases listed
  rfl

def agentText (id parentId : String) : List UInt8 :=
  asciiBytes ("\x7b\"id\":\"" ++ id ++ "\",\"parent_id\":\"" ++ parentId ++ "\"\x7d")

def agentNamed (id parentId : String) : AgentRecord where
  id := id
  handlerModule := none
  parentId := some parentId
  metadata := .empty

theorem texts_parsed : parseAscii (asciiBytes "oops") = none ∧
    parseAscii (agentText "a" "core") =
      some (.dict [("id", .str "a"), ("parent_id", .str "core")]) ∧
    parseAscii (agentText "b" "a") = some (.dict [("id", .str "b"), ("parent_id", .str "a")]) := by
  decide +kernel

theorem decode_oops : decodeAscii (asciiBytes "oops") = none := by
  unfold decodeAscii Persistence.decodeFile
  rw [texts_parsed.1, Option.bind_none]

theorem decode_agentA : decodeAscii (agentText "a" "core") = some (agentNamed "a" "core") := by
  unfold decodeAscii Persistence.decodeFile
  rw [texts_parsed.2.1]
  rfl

theorem decode_agentB : decodeAscii (agentText "b" "a") = some (agentNamed "b" "a") := by
  unfold decodeAscii Persistence.decodeFile
  rw [texts_parsed.2.2]
  rfl

/-- An agent with a malformed file and no agents of its own, below a good one. -/
def brokenLeaf : List AgentEntry :=
  [.folder "a" (some (agentText "a" "core")) [.folder "b" (some (asciiBytes "oops")) []]]

theorem broken_leaf_is_skipped : Survives decodeAscii coreOnly coreRecord brokenLeaf := by
  apply (damaged_directory_boots_iff parseAscii (fun _ => none) coreOnly_keyed rfl brokenLeaf).mpr
  change Fits decodeAscii coreRecord brokenLeaf
  have read : readAllAgentRecords decodeAscii brokenLeaf = [agentNamed "a" "core"] := by
    simp [brokenLeaf, readAllAgentRecords, readEntry, ownRecord, decode_oops, decode_agentA, isHidden]
  refine ⟨?_, ?_, ?_⟩
  · rw [read]
    decide
  · rw [read]
    intro record listed parentId named
    rw [List.mem_singleton.mp listed] at named
    cases named
    exact ⟨coreRecord, by simp, rfl⟩
  · intro trail encloser record sound
    cases sound with
    | here listed decodes _ =>
      cases List.mem_singleton.mp listed
      rw [decode_agentA] at decodes
      cases decodes
      exact ⟨by decide, rfl⟩
    | nested listed decodes _ deeper =>
      cases List.mem_singleton.mp listed
      cases deeper with
      | here inside broken _ =>
        cases List.mem_singleton.mp inside
        rw [decode_oops] at broken
        cases broken
      | nested inside broken _ _ =>
        cases List.mem_singleton.mp inside
        rw [decode_oops] at broken
        cases broken

/-- An agent with a malformed file, and a good agent below it. -/
def brokenParent : List AgentEntry :=
  [.folder "a" (some (asciiBytes "oops")) [.folder "b" (some (agentText "b" "a")) []]]

theorem broken_parent_stops_the_boot :
    coreOnly.load (bootState coreRecord (readAllAgentRecords decodeAscii brokenParent)) =
        some (coreOnly, some (.invalidSnapshot "dangling parent_id a on agent b")) ∧
      ¬ Survives decodeAscii coreOnly coreRecord brokenParent := by
  have read : readAllAgentRecords decodeAscii brokenParent = [agentNamed "b" "a"] := by
    simp [brokenParent, readAllAgentRecords, readEntry, ownRecord, decode_oops, decode_agentB,
      isHidden]
  have refused : validate (bootState coreRecord [agentNamed "b" "a"]) =
      .error (.invalidSnapshot "dangling parent_id a on agent b") := by
    rfl
  have stopped : coreOnly.load
      (bootState coreRecord (readAllAgentRecords decodeAscii brokenParent)) =
        some (coreOnly, some (.invalidSnapshot "dangling parent_id a on agent b")) := by
    rw [read, load, refused]
  refine ⟨stopped, ?_⟩
  intro survives
  obtain ⟨after, returned, _⟩ := survives
  rw [stopped] at returned
  cases returned

end Fantastic.Swift.Kernel

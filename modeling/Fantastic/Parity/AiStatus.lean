import Fantastic.Python.AiStatus
import Fantastic.Swift.AiStatus
import Mathlib.Tactic.SplitIfs

/-!
# Status replies and chat threads

The chat file of a client is named by its sanitised id, so a send belongs to a requester when
the two ids are sanitised to the same. The Python backend queues sanitised ids and compares
them with the sanitised id of a requester; the Swift backend queues ids as they come.
-/

namespace Fantastic.Parity

open Fantastic.Ai

/-! ### Python -/

section Python

open Python.Ai (CharTable safeClient safeClient_ne_empty sentBy)

variable (table : CharTable) (source : String) (elapsed : Value)

/-- The reply of a backend that queued these sends. -/
def pythonReply (sends : Sends (Option String) Value) (request : Option String) :
    Snapshot String Value :=
  Python.Ai.status table source
    (sends.queue.map fun entry => entry.withClient (sentBy table entry.client))
    (sends.current.map fun current => current.withClient (sentBy table current.client))
    elapsed request

/-- The send belongs to the thread that the request names. -/
def pythonMine (request client : Option String) : Bool :=
  request.any fun id => decide (sentBy table client = safeClient table id)

/-- The send is shown. -/
def pythonShown (request client : Option String) : Bool :=
  request.any fun id => decide (id ≠ "" ∧ sentBy table client = safeClient table id)

/-- A reply that shows nothing at all. -/
theorem private_of_anonymous {sends : Sends (Option String) Value}
    {shown : Option String → Bool} {reply : Snapshot String Value}
    (hides : ∀ client, shown client = false) (pending : reply.minePending = [])
    (others : reply.othersPending = sends.queue.length)
    (current : reply.current.map CurrentView.content =
      sends.current.map fun _ => (none, none, none)) :
    Private sends shown reply := by
  constructor
  · rw [pending, List.filter_eq_nil_iff.mpr fun entry _ => by simp [hides], List.map_nil]
  · rw [others, List.filter_eq_self.mpr fun entry _ => by simp [hides]]
  · rw [current]
    simp [hides]

theorem viewFor_content (requesting : String) (current : Current String Value) :
    (Python.Ai.viewFor requesting current elapsed).content =
      if current.client = requesting then
        (some current.text, some current.textSoFar, current.lastTool)
      else (none, none, none) := by
  by_cases same : current.client = requesting
  · simp [CurrentView.content, Python.Ai.viewFor, same]
  · simp [CurrentView.content, Python.Ai.viewFor, same]

theorem pythonReply_named (sends : Sends (Option String) Value) {id : String} (given : id ≠ "") :
    Private sends (pythonShown table (some id))
      (pythonReply table source elapsed sends (some id)) := by
  have named := safeClient_ne_empty table id
  have shows (client : Option String) : pythonShown table (some id) client =
      decide (sentBy table client = safeClient table id) := by
    simp [pythonShown, given]
  constructor
  · simp only [pythonReply, Python.Ai.status, Python.Ai.statusSnapshot, Option.map_some,
      if_neg given, if_neg named, List.filter_map, List.map_map, Function.comp_def, shows]
    rfl
  · simp only [pythonReply, Python.Ai.status, Python.Ai.statusSnapshot, Option.map_some,
      if_neg given, if_neg named, List.filter_map, List.length_map, Function.comp_def, shows]
    apply congrArg List.length
    apply List.filter_congr
    intro entry _
    exact decide_not
  · simp only [pythonReply, Python.Ai.status, Python.Ai.statusSnapshot, Option.map_some,
      if_neg given, if_neg named, shows]
    cases sends.current with
    | none => rfl
    | some current =>
      rw [Option.map_some, Option.map_some, Option.map_some, Option.map_some,
        viewFor_content]
      simp only [decide_eq_true_eq]
      rfl

theorem pythonReply_told (sends : Sends (Option String) Value) (request : Option String) :
    Private sends (pythonShown table request)
      (pythonReply table source elapsed sends request) := by
  have hidden (current : Option (Current (Option String) Value)) :
      ((current.map fun current => current.withClient (sentBy table current.client)).map
          (Python.Ai.redacted · elapsed)).map CurrentView.content =
        current.map fun _ => (none, none, none) := by
    cases current with
    | none => rfl
    | some current => rfl
  cases request with
  | none =>
    apply private_of_anonymous
    · intro client
      rfl
    · rfl
    · exact List.length_map ..
    · exact hidden sends.current
  | some id =>
    by_cases empty : id = ""
    · subst empty
      apply private_of_anonymous
      · intro client
        simp [pythonShown]
      · rfl
      · exact List.length_map ..
      · exact hidden sends.current
    · exact pythonReply_named table source elapsed sends empty

end Python

/-! ### Swift -/

section Swift

open Swift.Ai (Strings safeClient sentBy)

variable {Text Character : Type} [DecidableEq Text] [DecidableEq Character]
variable (strings : Strings Text Character) (source : String) (elapsed : Value)

/-- The reply of a backend that queued these sends. -/
def swiftReply (sends : Sends (Option Text) Text) (request : Option Text) : Snapshot Text Text :=
  Swift.Ai.statusVerb strings source
    (sends.queue.map fun entry => entry.withClient (sentBy strings entry.client))
    (sends.current.map fun current => current.withClient (sentBy strings current.client))
    elapsed request

/-- The send belongs to the thread that the request names. -/
def swiftMine (request client : Option Text) : Bool :=
  request.any fun id =>
    decide (safeClient strings (sentBy strings client) = safeClient strings id)

/-- The send is shown. -/
def swiftShown (request client : Option Text) : Bool :=
  request.any fun id => decide (sentBy strings client = safeClient strings id)

theorem swiftReply_told (sends : Sends (Option Text) Text) (request : Option Text) :
    Private sends (swiftShown strings request)
      (swiftReply strings source elapsed sends request) := by
  have shows (client : Option Text) : swiftShown strings request client =
      decide (request.map (safeClient strings) = some (sentBy strings client)) := by
    cases request with
    | none => rfl
    | some id => simp [swiftShown, eq_comm]
  refine ⟨?_, ?_, ?_⟩
  · simp only [swiftReply, Swift.Ai.statusVerb, Swift.Ai.foldl_sortEntry, List.nil_append,
      List.filter_map, List.map_map, Function.comp_def, shows]
    rfl
  · simp only [swiftReply, Swift.Ai.statusVerb, Swift.Ai.foldl_sortEntry, Nat.zero_add,
      List.filter_map, List.length_map, Function.comp_def, shows]
    rfl
  · simp only [swiftReply, Swift.Ai.statusVerb, Option.map_map, shows]
    congr 1
    funext current
    have owner : (current.withClient (sentBy strings current.client)).client =
        sentBy strings current.client := rfl
    cases request with
    | none => simp [CurrentView.content, Swift.Ai.redactEntry]
    | some id =>
      by_cases same : safeClient strings id = sentBy strings current.client
      · simp [CurrentView.content, Swift.Ai.redactEntry, owner, same]
        exact ⟨rfl, rfl, rfl⟩
      · simp [CurrentView.content, Swift.Ai.redactEntry, owner, same]

end Swift

/-- The sends of a Python and of a Swift backend, and who asks each of them. -/
structure StatusScene (Text Character : Type) where
  table : Python.Ai.CharTable
  strings : Swift.Ai.Strings Text Character
  pythonSends : Sends (Option String) Value
  pythonRequest : Option String
  swiftSends : Sends (Option Text) Text
  swiftRequest : Option Text

variable {Text Character : Type} [DecidableEq Text] [DecidableEq Character]

/-- Both backends tell a requester exactly what belongs to its thread, in every reply. -/
def StatusPrivate (scene : StatusScene Text Character) : Prop :=
  ∀ source elapsed,
    Private scene.pythonSends (pythonMine scene.table scene.pythonRequest)
        (pythonReply scene.table source elapsed scene.pythonSends scene.pythonRequest) ∧
      Private scene.swiftSends (swiftMine scene.strings scene.swiftRequest)
        (swiftReply scene.strings source elapsed scene.swiftSends scene.swiftRequest)

/-- A Python requester with an empty id has no sends in its thread, and with a Swift requester
exactly the sends of its thread came under its sanitised id itself. -/
def SpelledAlike (scene : StatusScene Text Character) : Prop :=
  (scene.pythonRequest = some "" → ∀ client ∈ scene.pythonSends.clients,
      Python.Ai.sentBy scene.table client ≠ Python.Ai.safeClient scene.table "") ∧
    ∀ id, scene.swiftRequest = some id → ∀ client ∈ scene.swiftSends.clients,
      (Swift.Ai.sentBy scene.strings client = Swift.Ai.safeClient scene.strings id ↔
        Swift.Ai.safeClient scene.strings (Swift.Ai.sentBy scene.strings client) =
          Swift.Ai.safeClient scene.strings id)

theorem pythonReply_private_iff (table : Python.Ai.CharTable) (source : String)
    (elapsed : Value) (sends : Sends (Option String) Value) (request : Option String) :
    Private sends (pythonMine table request) (pythonReply table source elapsed sends request) ↔
      (request = some "" → ∀ client ∈ sends.clients,
        Python.Ai.sentBy table client ≠ Python.Ai.safeClient table "") := by
  rw [(pythonReply_told ..).iff_agree]
  cases request with
  | none => simp [pythonShown, pythonMine]
  | some id =>
    by_cases empty : id = ""
    · simp [pythonShown, pythonMine, empty]
    · simp [pythonShown, pythonMine, empty]

theorem swiftReply_private_iff (strings : Swift.Ai.Strings Text Character) (source : String)
    (elapsed : Value) (sends : Sends (Option Text) Text) (request : Option Text) :
    Private sends (swiftMine strings request) (swiftReply strings source elapsed sends request) ↔
      ∀ id, request = some id → ∀ client ∈ sends.clients,
        (Swift.Ai.sentBy strings client = Swift.Ai.safeClient strings id ↔
          Swift.Ai.safeClient strings (Swift.Ai.sentBy strings client) =
            Swift.Ai.safeClient strings id) := by
  rw [(swiftReply_told ..).iff_agree]
  cases request with
  | none => simp [swiftShown, swiftMine]
  | some id => simp [swiftShown, swiftMine]

theorem spelledAlike_of_private {scene : StatusScene Text Character}
    (kept : StatusPrivate scene) : SpelledAlike scene := by
  obtain ⟨python, swift⟩ := kept "" .null
  constructor
  · exact (pythonReply_private_iff ..).mp python
  · exact (swiftReply_private_iff ..).mp swift

theorem status_private_iff (scene : StatusScene Text Character) :
    StatusPrivate scene ↔ SpelledAlike scene := by
  constructor
  · exact spelledAlike_of_private
  · intro spelled source elapsed
    constructor
    · exact (pythonReply_private_iff ..).mpr spelled.1
    · exact (swiftReply_private_iff ..).mpr spelled.2

/-- Sends of a client whose id has a blank are not its own to the Swift backend. -/
theorem status_hides_own_send :
    ¬ ∀ scene : StatusScene String Char, StatusPrivate scene := by
  intro always
  have spelled := spelledAlike_of_private (always (
    { table := ⟨Char.isAlphanum, Char.isWhitespace⟩
      strings :=
        { literal := id
          character := id
          trimmed := id
          isEmpty := fun text => text = ""
          characters := String.toList
          joined := String.ofList
          isLetter := Char.isAlpha
          isNumber := Char.isDigit }
      pythonSends := ⟨[], none, List.nodup_nil⟩
      pythonRequest := none
      swiftSends := ⟨[⟨some "a b", "hello", "s1", .null⟩], none, by simp⟩
      swiftRequest := some "a b" } : StatusScene String Char))
  have own := (spelled.2 "a b" rfl (some "a b") (by simp [Sends.clients])).mpr (by decide)
  exact absurd own (by decide)

end Fantastic.Parity

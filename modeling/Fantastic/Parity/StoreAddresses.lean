import Fantastic.Python.StoreAddresses
import Fantastic.Rust.StoreAddresses

/-!
# Store addresses in Python and Rust

Both kernels address an agent in the store by its path below the root's, joined from the ids on the
way down, and neither looks at an id. With plain ids the directories keep agents apart in both; an
id such as `..` takes a new agent to the directory of the root, whose record it overwrites.
-/

namespace Fantastic.Parity.StoreAddresses

open Python.Loader (storeLayout)
open Python.Kernel (permissive soleRoot)

/-- What a layout of agents promises about the files the kernels write and remove. -/
def AddressesContained (layout : Layout Nat String) : Prop :=
  layout.Contained "agents" "agent.json" ["agent.json", "readme.md"]

/-- Trees that `create_agent` builds with plain ids and without addresses of its payloads are
contained, in Python below a root that keeps its records in its own directory, and in Rust. -/
theorem plain_ids_contained {runtime : Python.Runtime} {id handlerModule : Value}
    {rootPath : Option PurePath} {metadata : Dict} {start : Python.Kernel}
    (built : Python.Kernel.fresh.construct id (rootPath.map .path) none handlerModule metadata =
      .ok start)
    (own : ∀ text, Python.getD metadata "root" = .str text → text = "")
    (requests : List Python.Kernel.Request)
    (neat : ∀ request ∈ requests, request.verb = .createAgent ∧ Python.Loader.Neat runtime request)
    (host : Rust.Host) (record : Rust.AgentRecord) (base : PurePath)
    (messages : List Rust.Kernel.Request) (plain : ∀ message ∈ messages, Rust.Kernel.Neat message) :
    AddressesContained (storeLayout (start.run runtime requests) 0) ∧
      AddressesContained ((Rust.Kernel.run host
        (Rust.Kernel.rootOnly { record with parentId := none } base) messages).storeLayout 0) := by
  have python := (Python.Loader.Spread.start built own).run neat
  have rust := (Rust.Kernel.Spread.start record base).run host plain
  exact ⟨python.named.contained _ _, rust.named.contained _ _⟩

def creating (target id : String) : Python.Kernel.Request where
  target := .str target
  verb := .createAgent
  payload := (OrderedDict.empty.insert "handler_module" (.str "notes.tools")).insert "id" (.str id)
  token := "abc123"

def creatingMessage (target id : String) : Rust.Kernel.Request where
  target := target
  payload := ((OrderedDict.empty.insert "type" (.str "create_agent")).insert "handler_module"
    (.str "notes.tools")).insert "id" (.str id)
  token := "abc123"
  unsaved := none

def core : Rust.AgentRecord where
  id := "core"
  handlerModule := none
  parentId := none
  metadata := .empty

def quiet : Rust.Host where
  installed := fun _ => true
  debug := id

theorem creating_neat {target id : String} (plain : PurePath.PlainSegment id) :
    (creating target id).verb = .createAgent ∧ Python.Loader.Neat permissive (creating target id) := by
  refine ⟨rfl, rfl, ?_⟩
  intro text chosen
  cases chosen
  exact plain

theorem creatingMessage_neat {target id : String} (plain : PurePath.PlainSegment id) :
    Rust.Kernel.Neat (creatingMessage target id) := by
  refine ⟨rfl, ?_⟩
  intro handlerModule _
  have given : Rust.Kernel.textOf (creatingMessage target id).payload "id" = some id := rfl
  unfold Rust.Kernel.chooseId
  rw [given]
  simp only [plain.1, if_false]
  exact plain

/-- A note and a note below it. -/
theorem nested_notes_contained :
    AddressesContained (storeLayout (soleRoot.run permissive
      [creating "kernel" "notes", creating "notes" "todo"]) 0) ∧
    AddressesContained ((Rust.Kernel.run quiet
      (Rust.Kernel.rootOnly { core with parentId := none } (.ofString ".fantastic"))
      [creatingMessage "core" "notes", creatingMessage "notes" "todo"]).storeLayout 0) := by
  apply @plain_ids_contained permissive (.str "root") .null none .empty soleRoot rfl
  · intro text given
    cases given
  · intro request member
    simp only [List.mem_cons, List.not_mem_nil, or_false] at member
    obtain rfl | rfl := member
    · exact creating_neat (by decide)
    · exact creating_neat (by decide)
  · intro message member
    simp only [List.mem_cons, List.not_mem_nil, or_false] at member
    obtain rfl | rfl := member
    · exact creatingMessage_neat (by decide)
    · exact creatingMessage_neat (by decide)

/-- An agent with the id `..` has the directory of the root. -/
theorem dotdot_takes_the_root :
    ¬ AddressesContained (storeLayout (soleRoot.run permissive [creating "kernel" ".."]) 0) ∧
    ¬ AddressesContained ((Rust.Kernel.run quiet (Rust.Kernel.rootOnly core (.ofString ".fantastic"))
      [creatingMessage "core" ".."]).storeLayout 0) := by
  constructor
  · intro contained
    have same := contained.distinct 0 1 ⟨.str "root", rfl⟩ ⟨.str "..", rfl⟩ (by decide)
    cases same
  · intro contained
    have same := contained.distinct 0 1 ⟨"core", rfl⟩ ⟨"..", rfl⟩ (by decide)
    cases same

end Fantastic.Parity.StoreAddresses

import Fantastic.Parity.SnapshotAgreement
import Fantastic.Python.DeleteLock
import Fantastic.Rust.DeleteLock
import Fantastic.Rust.KernelRuns

/-!
# One lock, two tests

Both kernels refuse to delete a subtree with a locked agent in it, and both remove exactly the
subtree otherwise. They differ in what a lock is: in Python any `delete_lock` that counts as true,
in Rust the JSON value `true` alone. So they part where a subtree has locks of the first kind and
none of the second, and at the empty id, which the Python verb takes for a missing one.
-/

namespace Fantastic.Parity

open Python (hashKey truthy getD DictKey)
open Python.Kernel (Site)

/-- One tree in both kernels: the same ids below the same parents, with the same locks. -/
structure Twins (site : Site) (rust : Rust.Kernel) : Prop where
  pythonTree : site.kernel.Tree
  rustTree : rust.Tree
  registry : SameRegistry site.kernel rust
  locks : ∀ {id ref other}, site.kernel.agents.get? (.str id) = some ref →
    rust.agents.get? id = some other →
      (site.kernel.heap ref).metadata.get? "delete_lock" =
        (rust.heap other).metadata.get? "delete_lock"

/-- All or nothing in Python: refused by a lock or granted, and refused exactly if locked. -/
def PythonDecides (runtime : Python.Runtime) (site : Site) (payload : Dict) (key : DictKey)
    (target : Nat) : Prop :=
  ∃ after reply, site.verbDeleteAgent runtime payload = .ok (after, reply) ∧
    (Python.Kernel.Refuses site target after reply ∨
      Python.Kernel.Grants site key target after reply) ∧
    (Python.Kernel.Refuses site target after reply ↔
      Python.Kernel.LockedBelow site.kernel target)

/-- All or nothing in Rust. -/
def RustDecides (host : Rust.Host) (rust : Rust.Kernel) (caller : Nat) (payload : Dict)
    (id : String) : Prop :=
  let outcome := Rust.Kernel.deleteFromPayload host rust caller payload
  (Rust.Kernel.Refuses rust id outcome.1 outcome.2 ∨
      Rust.Kernel.Grants rust id (rust.heap caller).id outcome.1 outcome.2) ∧
    (Rust.Kernel.Refuses rust id outcome.1 outcome.2 ↔ Rust.Kernel.LockedBelow rust id)

/-- The two refuse together. -/
def Alike (runtime : Python.Runtime) (host : Rust.Host) (site : Site) (rust : Rust.Kernel)
    (caller : Nat) (payload : Dict) (id : String) (target : Nat) : Prop :=
  (∃ after reply, site.verbDeleteAgent runtime payload = .ok (after, reply) ∧
      Python.Kernel.Refuses site target after reply) ↔
    Rust.Kernel.Refuses rust id (Rust.Kernel.deleteFromPayload host rust caller payload).1
      (Rust.Kernel.deleteFromPayload host rust caller payload).2

/-- An agent of the subtree whose `delete_lock` is the JSON value `true`. -/
def TrueBelow (kernel : Python.Kernel) (target : Nat) : Prop :=
  ∃ ref, kernel.Live ref ∧ kernel.Ascends ref target ∧
    (kernel.heap ref).metadata.get? "delete_lock" = some (.bool true)

variable {runtime : Python.Runtime} {host : Rust.Host} {site : Site} {rust : Rust.Kernel}
  {payload : Dict} {id : String} {target : Nat}

/-! ### The same subtree -/

theorem SameRegistry.present (same : SameRegistry site.kernel rust) {name : String} {ref : Nat}
    (found : site.kernel.agents.get? (.str name) = some ref) :
    ∃ other, rust.agents.get? name = some other := by
  have both := same.agents name
  rw [found] at both
  cases rustFound : rust.agents.get? name with
  | none =>
    rw [rustFound] at both
    cases both
  | some other => exact ⟨other, rfl⟩

theorem SameRegistry.present_back (same : SameRegistry site.kernel rust) {name : String} {other : Nat}
    (found : rust.agents.get? name = some other) :
    ∃ ref, site.kernel.agents.get? (.str name) = some ref := by
  have both := same.agents name
  rw [found] at both
  cases pythonFound : site.kernel.agents.get? (.str name) with
  | none =>
    rw [pythonFound] at both
    cases both
  | some ref => exact ⟨ref, rfl⟩

/-- The ids of two agents, one below the other, in both kernels. -/
theorem Twins.parentOf_of_up (twins : Twins site rust) {low : String} {ref above : Nat}
    (found : site.kernel.agents.get? (.str low) = some ref) (up : site.kernel.Up ref above) :
    ∃ high, site.kernel.agents.get? (.str high) = some above ∧ rust.ParentOf low high := by
  have links := twins.pythonTree.parentLinks found up
  obtain ⟨key, aboveFound⟩ := links.1
  obtain ⟨high, isText⟩ := twins.registry.texts key
    (OrderedDict.mem_keys_iff.mpr ⟨above, aboveFound⟩)
  subst isText
  refine ⟨high, aboveFound, ?_⟩
  have aboveId : (site.kernel.heap above).id = .str high := by
    have hashed := (twins.pythonTree.registered aboveFound).2
    cases value : (site.kernel.heap above).id with
    | str text =>
      rw [value] at hashed
      cases hashed
      rfl
    | _ =>
      rw [value] at hashed
      simp [hashKey] at hashed
  have both := twins.registry.agents low
  obtain ⟨other, rustFound⟩ := twins.registry.present found
  have parent : (site.kernel.heap ref).parent = some above := up
  rw [found, rustFound] at both
  simp only [Option.map_some, parent, aboveId, Option.some.injEq] at both
  refine ⟨other, rustFound, ?_⟩
  cases named : (rust.heap other).parentId with
  | none =>
    rw [named] at both
    cases both
  | some text =>
    rw [named] at both
    cases both
    rfl

theorem Twins.up_of_parentOf (twins : Twins site rust) {low high : String} {ref above : Nat}
    (found : site.kernel.agents.get? (.str low) = some ref)
    (aboveFound : site.kernel.agents.get? (.str high) = some above)
    (link : rust.ParentOf low high) : site.kernel.Up ref above := by
  obtain ⟨other, rustFound, named⟩ := link
  have both := twins.registry.agents low
  rw [found, rustFound] at both
  simp only [Option.map_some, named, Option.some.injEq] at both
  cases parent : (site.kernel.heap ref).parent with
  | none =>
    rw [parent] at both
    cases both
  | some upper =>
    rw [parent] at both
    have upperId : (site.kernel.heap upper).id = .str high := Option.some.inj both
    obtain ⟨key, upperFound⟩ := (twins.pythonTree.parentLinks found parent).1
    have hashed := (twins.pythonTree.registered upperFound).2
    rw [upperId] at hashed
    cases hashed
    cases aboveFound.symm.trans upperFound
    exact parent

theorem Twins.under_of_ascends (twins : Twins site rust) {low : String} {ref above : Nat}
    (found : site.kernel.agents.get? (.str low) = some ref)
    (ascends : site.kernel.Ascends ref above) :
    ∃ high, site.kernel.agents.get? (.str high) = some above ∧ rust.Under low high := by
  induction ascends with
  | refl => exact ⟨low, found, .refl⟩
  | tail _ up ih =>
    obtain ⟨middle, middleFound, under⟩ := ih
    obtain ⟨high, highFound, link⟩ := twins.parentOf_of_up middleFound up
    exact ⟨high, highFound, under.tail link⟩

theorem Twins.ascends_of_under (twins : Twins site rust) {low high : String} {above : Nat}
    (highFound : site.kernel.agents.get? (.str high) = some above) (under : rust.Under low high) :
    ∀ {ref}, site.kernel.agents.get? (.str low) = some ref → site.kernel.Ascends ref above := by
  induction under using Relation.ReflTransGen.head_induction_on with
  | refl =>
    intro ref found
    cases found.symm.trans highFound
    exact .refl
  | @head low middle link later ih =>
    intro ref found
    have listed : ∃ other, rust.agents.get? middle = some other := by
      obtain same | ⟨next, hop, _⟩ := Relation.ReflTransGen.cases_head later
      · subst same
        exact twins.registry.present highFound
      · obtain ⟨other, otherFound, _⟩ := hop
        exact ⟨other, otherFound⟩
    obtain ⟨other, otherFound⟩ := listed
    obtain ⟨upper, middleFound⟩ := twins.registry.present_back otherFound
    exact (ih middleFound).head (twins.up_of_parentOf found middleFound link)

theorem isDeleteLocked_iff {agent : Rust.Agent} :
    agent.isDeleteLocked = true ↔ agent.metadata.get? "delete_lock" = some (.bool true) := by
  unfold Rust.Agent.isDeleteLocked
  split
  case h_1 locked found =>
    rw [found]
    cases locked with
    | true => exact iff_of_true rfl rfl
    | false => exact iff_of_false Bool.false_ne_true (by simp)
  case h_2 other =>
    apply iff_of_false Bool.false_ne_true
    intro found
    exact other true found

/-- The Rust test sees the JSON `true`s of the one subtree. -/
theorem Twins.lockedBelow_iff (twins : Twins site rust)
    (found : site.kernel.agents.get? (.str id) = some target) :
    Rust.Kernel.LockedBelow rust id ↔ TrueBelow site.kernel target := by
  constructor
  · intro locked
    obtain ⟨name, other, rustFound, under, isLocked⟩ := locked
    obtain ⟨ref, pythonFound⟩ := twins.registry.present_back rustFound
    refine ⟨ref, ⟨_, pythonFound⟩, twins.ascends_of_under found under pythonFound, ?_⟩
    rw [twins.locks pythonFound rustFound]
    exact isDeleteLocked_iff.mp isLocked
  · intro locked
    obtain ⟨ref, ⟨key, pythonFound⟩, ascends, isTrue⟩ := locked
    obtain ⟨name, isText⟩ := twins.registry.texts key
      (OrderedDict.mem_keys_iff.mpr ⟨ref, pythonFound⟩)
    subst isText
    obtain ⟨high, highFound, under⟩ := twins.under_of_ascends pythonFound ascends
    have hashed := (twins.pythonTree.registered highFound).2
    cases hashed.symm.trans (twins.pythonTree.registered found).2
    obtain ⟨other, rustFound⟩ := twins.registry.present pythonFound
    refine ⟨name, other, rustFound, under, ?_⟩
    rw [isDeleteLocked_iff, ← twins.locks pythonFound rustFound]
    exact isTrue

theorem lockedBelow_of_trueBelow (below : TrueBelow site.kernel target) :
    Python.Kernel.LockedBelow site.kernel target := by
  obtain ⟨ref, live, ascends, isTrue⟩ := below
  refine ⟨ref, live, ascends, ?_⟩
  rw [Python.Kernel.Locked, getD, isTrue]
  rfl

/-! ### The two decisions -/

/-- A verb with two outcomes that exclude each other, told apart by the lock. -/
theorem decided {locked refuses grants : Prop} (outcome : locked ∧ refuses ∨ ¬locked ∧ grants)
    (apart : grants → ¬refuses) : (refuses ∨ grants) ∧ (refuses ↔ locked) := by
  obtain ⟨isLocked, refuses⟩ | ⟨unlocked, grants⟩ := outcome
  · exact ⟨.inl refuses, iff_of_true refuses isLocked⟩
  · exact ⟨.inr grants, iff_of_false (apart grants) unlocked⟩

theorem python_refuses_iff (tree : site.kernel.Tree)
    (found : site.kernel.agents.get? (.str id) = some target)
    (named : payload.get? "id" = some (.str id)) (nonempty : id ≠ "") :
    ∃ after reply, site.verbDeleteAgent runtime payload = .ok (after, reply) ∧
      (Python.Kernel.Refuses site target after reply ∨
        Python.Kernel.Grants site (.str id) target after reply) ∧
      (Python.Kernel.Refuses site target after reply ↔
        Python.Kernel.LockedBelow site.kernel target) := by
  have value : getD payload "id" = .str id := by
    rw [getD, named]
    rfl
  have isTrue : truthy (getD payload "id") = true := by
    rw [value]
    exact decide_eq_true nonempty
  have hashed : hashKey (getD payload "id") = .ok (.str id) := by
    rw [value]
    rfl
  obtain ⟨after, reply, returned, outcome⟩ :=
    @Site.verbDeleteAgent_outcome runtime site _ target payload tree isTrue hashed found
  refine ⟨after, reply, returned, decided outcome fun grants refuses => ?_⟩
  have gone := (grants.removed.gone found .refl).1
  rw [refuses.unchanged, found] at gone
  cases gone

theorem rust_decides (rustTree : rust.Tree) {other : Nat} (caller : Nat)
    (found : rust.agents.get? id = some other) (named : payload.get? "id" = some (.str id)) :
    RustDecides host rust caller payload id := by
  have text : Rust.Kernel.textOf payload "id" = some id := by
    rw [Rust.Kernel.textOf, named]
    rfl
  have outcome := Rust.Kernel.deleteFromPayload_outcome host caller rustTree text found
  refine decided outcome fun grants refuses => ?_
  have gone := (grants.removed.gone found .refl).1
  rw [refuses.unchanged, found] at gone
  cases gone

/-- The Python verb answers an empty id before it looks for the agent. -/
theorem not_pythonDecides_empty (named : payload.get? "id" = some (.str "")) (key : DictKey) :
    ¬ PythonDecides runtime site payload key target := by
  have value : getD payload "id" = .str "" := by
    rw [getD, named]
    rfl
  intro decides
  obtain ⟨after, reply, returned, outcome, _⟩ := decides
  simp only [Site.verbDeleteAgent, value, truthy] at returned
  cases returned
  obtain refuses | grants := outcome
  · cases refuses.answered
  · cases grants.answered

/-- On every tree and every target both kernels decide all or nothing by their own locks; they
decide alike exactly if no subtree is locked in Python's eyes only. -/
theorem delete_lock_iff (runtime : Python.Runtime) (host : Rust.Host) (twins : Twins site rust)
    (found : site.kernel.agents.get? (.str id) = some target)
    (named : payload.get? "id" = some (.str id)) (caller : Nat) :
    PythonDecides runtime site payload (.str id) target ∧ RustDecides host rust caller payload id ∧
        Alike runtime host site rust caller payload id target ↔
      id ≠ "" ∧ (Python.Kernel.LockedBelow site.kernel target → TrueBelow site.kernel target) := by
  obtain ⟨other, rustFound⟩ := twins.registry.present found
  have rustDecides : RustDecides host rust caller payload id :=
    rust_decides twins.rustTree caller rustFound named
  by_cases empty : id = ""
  · subst empty
    apply iff_of_false
    · intro all
      exact not_pythonDecides_empty named _ all.1
    · intro fits
      exact fits.1 rfl
  · obtain ⟨after, reply, returned, either, refused⟩ :=
      @python_refuses_iff runtime site payload id target twins.pythonTree found named empty
    have pythonRefuses : (∃ after reply, site.verbDeleteAgent runtime payload = .ok (after, reply) ∧
        Python.Kernel.Refuses site target after reply) ↔
          Python.Kernel.LockedBelow site.kernel target := by
      rw [← refused]
      constructor
      · intro some
        obtain ⟨other, answer, same, refuses⟩ := some
        cases returned.symm.trans same
        exact refuses
      · intro refuses
        exact ⟨after, reply, returned, refuses⟩
    have rustRefuses := rustDecides.2.trans (twins.lockedBelow_iff found)
    rw [Alike, pythonRefuses, rustRefuses]
    constructor
    · intro all
      exact ⟨empty, all.2.2.mp⟩
    · intro fits
      exact ⟨⟨after, reply, returned, either, refused⟩, rustDecides, fits.2,
        lockedBelow_of_trueBelow⟩

/-! ### A note with a lock -/

def lockMeta (lock : Value) : Dict :=
  OrderedDict.empty.insert "delete_lock" lock

/-- The root with one agent below it that has a `delete_lock`. -/
def lockedSite (lock : Value) : Site where
  kernel := Python.Kernel.soleRoot.place (.str "notes")
    { id := .str "notes"
      handlerModule := .str "notes.tools"
      parent := some 0
      address := .raw .null
      children := .empty
      metadata := lockMeta lock
      ephemeral := false }
  inboxes := .empty

def lockedRust (lock : Value) : Rust.Kernel :=
  (Rust.Kernel.bootInMemory "root").adopt 0
    (.new { id := "notes", handlerModule := some "notes.tools", parentId := some "root",
            metadata := lockMeta lock } (.ofString "") false)

theorem lockedSite_get? (lock : Value) (key : DictKey) :
    (lockedSite lock).kernel.agents.get? key =
      if key = .str "notes" then some 1 else if key = .str "root" then some 0 else none := by
  rw [lockedSite, Python.Kernel.place_get?, Python.Kernel.soleRoot, Python.Kernel.place_get?]
  rfl

theorem lockedRust_get? (lock : Value) (key : String) :
    (lockedRust lock).agents.get? key =
      if key = "notes" then some 1 else if key = "root" then some 0 else none := by
  rw [lockedRust, Rust.Kernel.adopt_agents, OrderedDict.get?_insert]
  congr 1
  exact OrderedDict.get?_insert _ _ _ _

theorem locked_twins (lock : Value) : Twins (lockedSite lock) (lockedRust lock) where
  pythonTree := by
    simp only [lockedSite]
    apply Python.Kernel.place_tree Python.Kernel.soleRoot_fresh.tree
    · rfl
    · exact ⟨.str "root", rfl⟩
    all_goals rfl
  rustTree := (Rust.rootOnly_tree rfl).adopt rfl rfl rfl fun _ => rfl
  registry :=
    { agents := by
        intro name
        rw [lockedSite_get?, lockedRust_get?]
        by_cases isNotes : name = "notes"
        · subst isNotes
          rfl
        · by_cases isRoot : name = "root"
          · subst isRoot
            rfl
          · simp [isNotes, isRoot]
      texts := by
        intro key listed
        obtain ⟨ref, found⟩ := OrderedDict.mem_keys_iff.mp listed
        rw [lockedSite_get?] at found
        split at found
        case isTrue same => exact ⟨"notes", same⟩
        case isFalse =>
          split at found
          case isTrue same => exact ⟨"root", same⟩
          case isFalse => cases found
      root := rfl }
  locks := by
    intro name ref other found rustFound
    rw [lockedSite_get?] at found
    rw [lockedRust_get?] at rustFound
    by_cases isNotes : name = "notes"
    · subst isNotes
      cases found
      cases rustFound
      rfl
    · by_cases isRoot : name = "root"
      · subst isRoot
        cases found
        cases rustFound
        rfl
      · simp [isNotes, isRoot] at found

def deleteNotes : Dict :=
  (OrderedDict.empty.insert "type" (Value.str "delete_agent")).insert "id" (.str "notes")

/-- `delete_lock: true` stops both kernels. -/
theorem true_lock_agrees :
    Twins (lockedSite (.bool true)) (lockedRust (.bool true)) ∧
      PythonDecides Python.Kernel.permissive (lockedSite (.bool true)) deleteNotes (.str "notes") 1 ∧
      RustDecides Rust.everyBundle (lockedRust (.bool true)) 0 deleteNotes "notes" ∧
      Alike Python.Kernel.permissive Rust.everyBundle (lockedSite (.bool true))
        (lockedRust (.bool true)) 0 deleteNotes "notes" 1 := by
  refine ⟨locked_twins _, ?_⟩
  apply (delete_lock_iff Python.Kernel.permissive Rust.everyBundle (locked_twins (.bool true))
    rfl rfl 0).mpr
  refine ⟨by decide, fun _ => ?_⟩
  exact ⟨1, ⟨.str "notes", rfl⟩, .refl, rfl⟩

/-- `delete_lock: "yes"` stops Python only. -/
theorem text_lock_divides :
    Twins (lockedSite (.str "yes")) (lockedRust (.str "yes")) ∧
      ¬ Alike Python.Kernel.permissive Rust.everyBundle (lockedSite (.str "yes"))
        (lockedRust (.str "yes")) 0 deleteNotes "notes" 1 := by
  refine ⟨locked_twins _, ?_⟩
  intro alike
  have locked : Python.Kernel.LockedBelow (lockedSite (.str "yes")).kernel 1 :=
    ⟨1, ⟨.str "notes", rfl⟩, .refl, rfl⟩
  obtain ⟨after, reply, returned, _, refused⟩ := @python_refuses_iff Python.Kernel.permissive
    (lockedSite (.str "yes")) deleteNotes "notes" 1 (locked_twins _).pythonTree rfl rfl (by decide)
  have refuses := alike.mp ⟨after, reply, returned, refused.mpr locked⟩
  have granted : Rust.Kernel.member (Rust.Kernel.deleteFromPayload Rust.everyBundle
      (lockedRust (.str "yes")) 0 deleteNotes).2 "locked" = none := by
    decide +kernel
  cases refuses.answered.symm.trans granted

end Fantastic.Parity

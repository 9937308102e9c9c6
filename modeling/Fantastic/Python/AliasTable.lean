import Fantastic.Python.Operations

/-!
# The alias table under requests

`well_known` is written when an agent registers and cleaned when one unregisters, but the alias
itself is a meta field: `update_agent` changes it without a look at the table, and nothing keeps
two agents from declaring one name. `AliasesConsistent` is what the table is for; the lemmas say
what each of the three verbs needs to keep it.
-/

namespace Fantastic.Python.Kernel

variable {runtime : Runtime} {kernel : Kernel}

/-- The alias a meta declares: a text, and not the empty one. -/
def aliasOf (metadata : Dict) : Option String :=
  match metadata.get? "alias" with
  | some (.str name) => if name = "" then none else some name
  | _ => none

structure AliasesConsistent (kernel : Kernel) : Prop where
  entries : ∀ {name target}, kernel.wellKnown.get? name = some target →
    ∃ key ref, hashKey target = .ok key ∧ kernel.agents.get? key = some ref ∧
      aliasOf (kernel.heap ref).metadata = some name
  declared : ∀ {key ref name}, kernel.agents.get? key = some ref →
    aliasOf (kernel.heap ref).metadata = some name →
      kernel.resolveTarget (.str name) = .ok (some ref)
  literal : ∀ {key ref}, kernel.agents.get? key = some ref →
    kernel.resolveTarget (kernel.heap ref).id = .ok (some ref)

/-- With what the proofs need beside it: agents are filed under their ids. -/
structure Wired (kernel : Kernel) : Prop where
  allocated : kernel.Allocated
  keyed : ∀ {key ref}, kernel.agents.get? key = some ref → hashKey (kernel.heap ref).id = .ok key
  consistent : kernel.AliasesConsistent

/-! ### Resolving a target -/

theorem resolveTarget_kernel : kernel.resolveTarget (.str "kernel") = .ok kernel.root :=
  if_pos rfl

theorem resolveTarget_other {target : Value} (other : target ≠ .str "kernel") :
    kernel.resolveTarget target =
      (hashKey (kernel.wellKnownId target)).map kernel.agents.get? := by
  rw [resolveTarget, if_neg other]
  cases hashKey (kernel.wellKnownId target) <;> rfl

theorem resolveTarget_eq_some_iff {target : Value} {ref : Nat} (other : target ≠ .str "kernel") :
    kernel.resolveTarget target = .ok (some ref) ↔
      ∃ key, hashKey (kernel.wellKnownId target) = .ok key ∧ kernel.agents.get? key = some ref := by
  rw [resolveTarget_other other]
  cases hashKey (kernel.wellKnownId target) with
  | error failure => simp [Except.map]
  | ok key => simp [Except.map]

theorem wellKnownId_listed {name : String} {target : Value}
    (listed : kernel.wellKnown.get? name = some target) :
    kernel.wellKnownId (.str name) = target := by
  simp only [wellKnownId, listed, Option.getD_some]

theorem wellKnownId_unlisted {name : String} (unlisted : kernel.wellKnown.get? name = none) :
    kernel.wellKnownId (.str name) = .str name := by
  simp only [wellKnownId, unlisted, Option.getD_none]

/-- A target depends on the table only through its own entry. -/
theorem wellKnownId_congr {other : Kernel} {target : Value}
    (same : ∀ name, target = .str name → other.wellKnown.get? name = kernel.wellKnown.get? name) :
    other.wellKnownId target = kernel.wellKnownId target := by
  cases target with
  | str name => simp only [wellKnownId, same name rfl]
  | _ => rfl

/-! ### A new agent -/

theorem place_wellKnown (key : DictKey) (agent : Agent) :
    (kernel.place key agent).wellKnown =
      match aliasOf agent.metadata with
      | some name => kernel.wellKnown.insert name agent.id
      | none => kernel.wellKnown := by
  cases hung : agent.parent <;>
    simp only [place, register, modify, publishState, hung, Function.update_self, aliasOf] <;>
    cases agent.metadata.get? "alias" with
    | none => rfl
    | some value =>
      cases value with
      | str name =>
        by_cases blank : name = ""
        · simp only [if_pos blank]
        · simp only [if_neg blank]
      | _ => rfl

theorem place_wellKnown_get? (key : DictKey) (agent : Agent) {name : String}
    (other : aliasOf agent.metadata ≠ some name) :
    (kernel.place key agent).wellKnown.get? name = kernel.wellKnown.get? name := by
  rw [place_wellKnown]
  cases declared : aliasOf agent.metadata with
  | none => rfl
  | some own =>
    apply OrderedDict.get?_insert_of_ne
    intro same
    rw [declared, same] at other
    exact other rfl

/-- The names of a new agent are new: its id is neither reserved nor an alias, and its alias is
neither reserved, nor declared, nor an id. -/
structure FreshNames (kernel : Kernel) (id : Value) (metadata : Dict) : Prop where
  plain : id ≠ .str "kernel"
  unlisted : ∀ text, id = .str text → kernel.wellKnown.get? text = none
  named : ∀ name, aliasOf metadata = some name → name ≠ "kernel" ∧
    ∀ key ref, kernel.agents.get? key = some ref →
      aliasOf (kernel.heap ref).metadata ≠ some name ∧ (kernel.heap ref).id ≠ .str name

theorem resolveTarget_place {key : DictKey} {agent : Agent} {above : Nat} {target : Value} {ref : Nat}
    (hung : agent.parent = some above) (fresh : kernel.agents.get? key = none)
    (resolved : kernel.resolveTarget target = .ok (some ref))
    (spared : ∀ name, aliasOf agent.metadata = some name → name ≠ "kernel" → target ≠ .str name) :
    (kernel.place key agent).resolveTarget target = .ok (some ref) := by
  by_cases top : target = .str "kernel"
  · rw [top, resolveTarget_kernel] at resolved ⊢
    rw [place_root hung]
    exact resolved
  · rw [resolveTarget_eq_some_iff top] at resolved ⊢
    obtain ⟨other, hashed, found⟩ := resolved
    have same : (kernel.place key agent).wellKnownId target = kernel.wellKnownId target := by
      apply wellKnownId_congr
      intro name isText
      apply place_wellKnown_get?
      intro declared
      apply spared name declared _ isText
      intro reserved
      rw [isText, reserved] at top
      exact top rfl
    refine ⟨other, same ▸ hashed, ?_⟩
    rw [place_get?, if_neg, found]
    intro equal
    rw [equal, fresh] at found
    cases found

theorem Wired.place {key : DictKey} {agent : Agent} {above : Nat} (wired : kernel.Wired)
    (old : above < kernel.allocated) (hung : agent.parent = some above)
    (hashed : hashKey agent.id = .ok key) (fresh : kernel.agents.get? key = none)
    (names : FreshNames kernel agent.id agent.metadata) : (kernel.place key agent).Wired := by
  have newAgent : (kernel.place key agent).heap kernel.allocated = agent := place_heap_new hung old
  have split : ∀ {other ref}, (kernel.place key agent).agents.get? other = some ref →
      (other = key ∧ ref = kernel.allocated) ∨ kernel.agents.get? other = some ref := by
    intro other ref found
    rw [place_get?] at found
    split at found
    case isTrue same => exact .inl ⟨same, (Option.some.inj found).symm⟩
    case isFalse => exact .inr found
  have fields : ∀ {other ref}, kernel.agents.get? other = some ref →
      SameFields ((kernel.place key agent).heap ref) (kernel.heap ref) := by
    intro other ref found
    exact place_sameFields hung (wired.allocated.registered found)
  have own : (kernel.place key agent).agents.get? key = some kernel.allocated := by
    rw [place_get?, if_pos rfl]
  constructor
  · exact wired.allocated.place key agent
  · intro other ref found
    obtain ⟨rfl, rfl⟩ | known := split found
    · rw [newAgent]
      exact hashed
    · rw [(fields known).id]
      exact wired.keyed known
  constructor
  · intro name target listed
    by_cases declared : aliasOf agent.metadata = some name
    · rw [place_wellKnown, declared] at listed
      simp only [OrderedDict.get?_insert_self, Option.some.injEq] at listed
      rw [← listed]
      refine ⟨key, kernel.allocated, hashed, own, ?_⟩
      rw [newAgent]
      exact declared
    · rw [place_wellKnown_get? key agent declared] at listed
      obtain ⟨other, ref, targetHashed, found, declares⟩ := wired.consistent.entries listed
      refine ⟨other, ref, targetHashed, ?_, ?_⟩
      · rw [place_get?, if_neg, found]
        intro same
        rw [same, fresh] at found
        cases found
      · rw [(fields found).metadata]
        exact declares
  · intro other ref name found declared
    obtain ⟨rfl, rfl⟩ | known := split found
    · rw [newAgent] at declared
      have plain : Value.str name ≠ .str "kernel" := by
        intro same
        exact (names.named name declared).1 (Value.str.inj same)
      rw [resolveTarget_eq_some_iff plain]
      have listed : (kernel.place other agent).wellKnown.get? name = some agent.id := by
        rw [place_wellKnown, declared]
        exact OrderedDict.get?_insert_self _ _ _
      rw [wellKnownId_listed listed]
      exact ⟨other, hashed, own⟩
    · rw [(fields known).metadata] at declared
      apply resolveTarget_place hung fresh (wired.consistent.declared known declared)
      intro added isAlias _ same
      cases same
      exact ((names.named _ isAlias).2 other ref known).1 declared
  · intro other ref found
    obtain ⟨rfl, rfl⟩ | known := split found
    · rw [newAgent, resolveTarget_eq_some_iff names.plain]
      refine ⟨other, ?_, own⟩
      -- an alias equal to the own id leads back to it
      have same : (kernel.place other agent).wellKnownId agent.id = agent.id := by
        cases isText : agent.id with
        | str text =>
          by_cases declared : aliasOf agent.metadata = some text
          · apply wellKnownId_listed
            rw [place_wellKnown, declared, isText]
            exact OrderedDict.get?_insert_self _ _ _
          · apply wellKnownId_unlisted
            rw [place_wellKnown_get? other agent declared]
            exact names.unlisted text isText
        | _ => rfl
      rw [same]
      exact hashed
    · rw [(fields known).id]
      apply resolveTarget_place hung fresh (wired.consistent.literal known)
      intro added isAlias _ same
      exact ((names.named _ isAlias).2 other ref known).2 same

/-! ### A patched meta -/

/-- The patch leaves the declared alias as it is, or the agent had no entry and its new alias
already leads to it. -/
def KeepsAlias (kernel : Kernel) (ref : Nat) (patch : Dict) : Prop :=
  aliasOf ((kernel.heap ref).metadata.update patch) = aliasOf (kernel.heap ref).metadata ∨
    (∀ name target, kernel.wellKnown.get? name = some target →
      hashKey target ≠ hashKey (kernel.heap ref).id) ∧
    ∀ name, aliasOf ((kernel.heap ref).metadata.update patch) = some name →
      kernel.resolveTarget (.str name) = .ok (some ref)

theorem Wired.patched {ref : Nat} {patch : Dict} (wired : kernel.Wired)
    (keeps : KeepsAlias kernel ref patch) (id : Value) : (kernel.patched ref id patch).Wired := by
  have sameId : ∀ other, ((kernel.patched ref id patch).heap other).id = (kernel.heap other).id := by
    intro other
    rw [patched_heap]
    split <;> rfl
  have elsewhere : ∀ other, other ≠ ref →
      ((kernel.patched ref id patch).heap other).metadata = (kernel.heap other).metadata := by
    intro other different
    rw [patched_heap, if_neg different]
  have here : ((kernel.patched ref id patch).heap ref).metadata =
      (kernel.heap ref).metadata.update patch := by
    rw [patched_heap, if_pos rfl]
  constructor
  · exact ⟨wired.allocated.registered, wired.allocated.rooted⟩
  · intro key other found
    rw [sameId]
    exact wired.keyed found
  constructor
  · intro name target listed
    obtain ⟨key, other, hashed, found, declares⟩ := wired.consistent.entries listed
    refine ⟨key, other, hashed, found, ?_⟩
    by_cases same : other = ref
    · subst same
      obtain kept | ⟨unlisted, _⟩ := keeps
      · rw [here, kept]
        exact declares
      · exact absurd (hashed.trans (wired.keyed found).symm) (unlisted name target listed)
    · rw [elsewhere other same]
      exact declares
  · intro key other name found declared
    by_cases same : other = ref
    · subst same
      rw [here] at declared
      obtain kept | ⟨_, reachable⟩ := keeps
      · rw [kept] at declared
        exact wired.consistent.declared found declared
      · exact reachable name declared
    · rw [elsewhere other same] at declared
      exact wired.consistent.declared found declared
  · intro key other found
    rw [sameId]
    exact wired.consistent.literal found

/-! ### The cascade -/

theorem unregister_agents_get? {id : Value} {key : DictKey} (hashed : hashKey id = .ok key)
    (other : DictKey) : (kernel.unregister id).agents.get? other =
      if other = key then none else kernel.agents.get? other := by
  simp only [unregister, hashed]
  exact OrderedDict.get?_erase _ _ _

theorem unregister_wellKnown_get? {id : Value} {key : DictKey} (hashed : hashKey id = .ok key)
    (name : String) : (kernel.unregister id).wellKnown.get? name =
      (kernel.wellKnown.get? name).filter fun target => !decide (hashKey target = .ok key) := by
  simp only [unregister, hashed, OrderedDict.get?_filterKeys]
  cases kernel.wellKnown.get? name with
  | none => rfl
  | some target => rfl

/-- Unregistering one id leaves the targets of all other agents alone. -/
theorem resolveTarget_unregister {id target : Value} {key other : DictKey} {ref : Nat}
    (wired : kernel.Wired) (hashed : hashKey id = .ok key)
    (found : kernel.agents.get? other = some ref) (different : other ≠ key)
    (resolved : kernel.resolveTarget target = .ok (some ref)) :
    (kernel.unregister id).resolveTarget target = .ok (some ref) := by
  by_cases top : target = .str "kernel"
  · rw [top, resolveTarget_kernel] at resolved ⊢
    simp only [unregister, hashed]
    exact resolved
  · rw [resolveTarget_eq_some_iff top] at resolved ⊢
    obtain ⟨place, targetHashed, hit⟩ := resolved
    have samePlace : place = other :=
      Except.ok.inj ((wired.keyed hit).symm.trans (wired.keyed found))
    subst samePlace
    have same : (kernel.unregister id).wellKnownId target = kernel.wellKnownId target := by
      apply wellKnownId_congr
      intro name isText
      subst isText
      rw [unregister_wellKnown_get? hashed]
      cases listed : kernel.wellKnown.get? name with
      | none => rfl
      | some entry =>
        rw [wellKnownId_listed listed] at targetHashed
        have kept : hashKey entry ≠ .ok key := by
          rw [targetHashed]
          intro equal
          exact different (Except.ok.inj equal)
        simp [Option.filter, kept]
    refine ⟨place, same ▸ targetHashed, ?_⟩
    rw [unregister_agents_get? hashed, if_neg different]
    exact hit

theorem Wired.unregister (wired : kernel.Wired) (id : Value) : (kernel.unregister id).Wired := by
  cases hashed : hashKey id with
  | error failure =>
    simp only [Kernel.unregister, hashed]
    exact wired
  | ok key =>
    have sameHeap : (kernel.unregister id).heap = kernel.heap := by
      simp only [Kernel.unregister, hashed]
    have kept : ∀ {other ref}, (kernel.unregister id).agents.get? other = some ref →
        other ≠ key ∧ kernel.agents.get? other = some ref := by
      intro other ref found
      rw [unregister_agents_get? hashed] at found
      split at found
      · cases found
      case isFalse different => exact ⟨different, found⟩
    constructor
    · constructor
      · intro other ref found
        have below := wired.allocated.registered (kept found).2
        simp only [Kernel.unregister, hashed]
        exact below
      · intro ref isRoot
        simp only [Kernel.unregister, hashed] at isRoot ⊢
        exact wired.allocated.rooted isRoot
    · intro other ref found
      rw [sameHeap]
      exact wired.keyed (kept found).2
    constructor
    · intro name target listed
      rw [unregister_wellKnown_get? hashed, Option.filter_eq_some_iff] at listed
      obtain ⟨listed, spared⟩ := listed
      obtain ⟨other, ref, targetHashed, found, declares⟩ := wired.consistent.entries listed
      refine ⟨other, ref, targetHashed, ?_, ?_⟩
      · rw [unregister_agents_get? hashed, if_neg, found]
        intro same
        rw [targetHashed, same] at spared
        simp at spared
      · rw [sameHeap]
        exact declares
    · intro other ref name found declared
      rw [sameHeap] at declared
      obtain ⟨different, known⟩ := kept found
      exact resolveTarget_unregister wired hashed known different
        (wired.consistent.declared known declared)
    · intro other ref found
      rw [sameHeap]
      obtain ⟨different, known⟩ := kept found
      exact resolveTarget_unregister wired hashed known different (wired.consistent.literal known)

/-- Child tables and events play no part. -/
theorem Wired.congr {after : Kernel} (wired : kernel.Wired)
    (fields : ∀ ref, SameFields (after.heap ref) (kernel.heap ref))
    (allocated : after.allocated = kernel.allocated) (agents : after.agents = kernel.agents)
    (wellKnown : after.wellKnown = kernel.wellKnown) (root : after.root = kernel.root) :
    after.Wired := by
  have resolves : ∀ target, after.resolveTarget target = kernel.resolveTarget target := by
    intro target
    have same : after.wellKnownId target = kernel.wellKnownId target := by
      apply wellKnownId_congr
      intro name _
      rw [wellKnown]
    rw [resolveTarget, resolveTarget, same, agents, root]
  constructor
  · constructor
    · intro key ref found
      rw [agents] at found
      rw [allocated]
      exact wired.allocated.registered found
    · intro ref isRoot
      rw [root] at isRoot
      rw [allocated]
      exact wired.allocated.rooted isRoot
  · intro key ref found
    rw [agents] at found
    rw [(fields ref).id]
    exact wired.keyed found
  constructor
  · intro name target listed
    rw [wellKnown] at listed
    obtain ⟨key, ref, hashed, found, declares⟩ := wired.consistent.entries listed
    refine ⟨key, ref, hashed, ?_, ?_⟩
    · rw [agents]
      exact found
    · rw [(fields ref).metadata]
      exact declares
  · intro key ref name found declared
    rw [agents] at found
    rw [(fields ref).metadata] at declared
    rw [resolves]
    exact wired.consistent.declared found declared
  · intro key ref found
    rw [agents] at found
    rw [(fields ref).id, resolves]
    exact wired.consistent.literal found

theorem Wired.removeOne (wired : kernel.Wired) (ref : Nat) : (kernel.removeOne ref).Wired := by
  apply (wired.unregister (kernel.heap ref).id).congr
  · intro other
    have sameHeap : (kernel.unregister (kernel.heap ref).id).heap = kernel.heap := by
      unfold Kernel.unregister
      split <;> rfl
    rw [sameHeap]
    exact (removeOne_narrowed kernel ref).fields other
  all_goals
    simp only [Kernel.removeOne, publishState, modify]
    split <;> rfl

/-- A deleted subtree takes its aliases along, whatever the state of the tree. -/
theorem Wired.cascadeDelete (fuel : Nat) : ∀ (kernel : Kernel) (ref : Nat), kernel.Wired →
    (cascadeDelete fuel kernel ref).Wired := by
  induction fuel with
  | zero =>
    intro kernel ref wired
    exact wired
  | succ fuel ih =>
    intro kernel ref wired
    have folded : ∀ (children : List Nat) (current : Kernel), current.Wired →
        (children.foldl (Kernel.cascadeDelete fuel) current).Wired := by
      intro children
      induction children with
      | nil =>
        intro current fine
        exact fine
      | cons child children later =>
        intro current fine
        exact later _ (ih current child fine)
    exact (folded _ kernel wired).removeOne ref

/-! ### Requests -/

/-- What a request needs so that the table stays in step. -/
def KeepsAliases (runtime : Runtime) (kernel : Kernel) (request : Request) : Prop :=
  (∀ self id key address, Creation runtime kernel request self id key address →
    FreshNames kernel id (createdMeta request.payload)) ∧
  ∀ ref, Patch kernel request ref → KeepsAlias kernel ref (updatePatch request.payload)

theorem Wired.step {request : Request} (wired : kernel.Wired)
    (keeps : KeepsAliases runtime kernel request) : (kernel.step runtime request).Wired := by
  obtain same | ⟨self, id, key, address, creation, placed⟩ | ⟨ref, patch, patched⟩ | ⟨ref, deleted⟩ :=
    step_cases runtime kernel request
  · rw [same]
    exact wired
  · rw [placed]
    exact wired.place (wired.allocated.resolved creation.targeted) rfl creation.hashed
      creation.fresh (keeps.1 self id key address creation)
  · rw [patched]
    exact wired.patched (keeps.2 ref patch) _
  · rw [deleted]
    exact Wired.cascadeDelete _ _ _ wired

end Fantastic.Python.Kernel

import Fantastic.Python.Operations

/-!
# When a system verb answers and applies all of its payload

`create_agent` and `update_agent` splat their payload as keyword arguments, so a payload key can
meet a parameter of `Agent.create`, of `Agent.update` or of the constructor. Everything that
raises raises before the first write; what remains is which payloads raise, and which have a key
that never arrives in the meta.
-/

namespace Fantastic.Python.Kernel

/-- The keys a verb reads for itself. -/
def reserved : List String := ["type", "id", "handler_module"]

/-- One new agent below `above`, registered under its id, with the payload in its meta. -/
structure Created (runtime : Runtime) (kernel : Kernel) (above : Nat) (token : String)
    (payload : Dict) (next : Kernel) (reply : Dict) : Prop where
  answered : reply = next.record kernel.allocated
  named : ∃ key, chooseId runtime token (getD payload "handler_module") (getD payload "id") =
      .ok (next.heap kernel.allocated).id ∧
    hashKey (next.heap kernel.allocated).id = .ok key ∧ kernel.agents.get? key = none ∧
    next.agents = kernel.agents.insert key kernel.allocated ∧
    ∀ ref < kernel.allocated, (next.heap ref).children =
      if ref = above then (kernel.heap ref).children.insert key kernel.allocated
      else (kernel.heap ref).children
  handled : (next.heap kernel.allocated).handlerModule = getD payload "handler_module"
  below : (next.heap kernel.allocated).parent = some above
  applied : ∀ name ∈ payload.keys, name ∉ reserved →
    (next.heap kernel.allocated).metadata.get? name = payload.get? name
  others : ∀ ref < kernel.allocated, SameFields (next.heap ref) (kernel.heap ref)
  root : next.root = kernel.root

/-- The payload in the meta of the agent it names, and nothing else. -/
structure Updated (kernel : Kernel) (payload : Dict) (next : Kernel) (reply : Dict)
    (ref : Nat) : Prop where
  named : ∃ key, hashKey (getD payload "id") = .ok key ∧ kernel.agents.get? key = some ref
  answered : reply.get? "agent" = some (.dict (next.record ref).entries)
  applied : ∀ name ∈ payload.keys, name ∉ reserved →
    (next.heap ref).metadata.get? name = payload.get? name
  spared : ∀ name, name ∉ payload.keys →
    (next.heap ref).metadata.get? name = (kernel.heap ref).metadata.get? name
  fields : next.heap ref = { kernel.heap ref with metadata := (next.heap ref).metadata }
  others : ∀ other, other ≠ ref → next.heap other = kernel.heap other
  agents : next.agents = kernel.agents
  root : next.root = kernel.root

/-- The verb returned: with an error and the kernel as it was, or with all of the change made. -/
def Answers (kernel : Kernel) (Applied : Kernel → Dict → Prop)
    (returned : Except PyError (Kernel × Dict)) : Prop :=
  ∃ next reply, returned = .ok (next, reply) ∧
    ("error" ∈ reply.keys ∧ next = kernel ∨ Applied next reply)

/-- No payload key is a parameter on the way down, and the id fits a path. A registered id is
refused before the constructor sees the keys. -/
def CreateFits (runtime : Runtime) (kernel : Kernel) (self : Nat) (token : String)
    (payload : Dict) : Prop :=
  truthy (getD payload "handler_module") = false ∨
    "self" ∉ payload.keys ∧
      ∃ id key, chooseId runtime token (getD payload "handler_module") (getD payload "id") = .ok id ∧
        hashKey id = .ok key ∧
        (kernel.agents.contains key = true ∨
          "ctx" ∉ payload.keys ∧ "parent" ∉ payload.keys ∧ "root_path" ∉ payload.keys ∧
            (∃ text, id = .str text) ∧ ∃ path, (kernel.heap self).address = .path path)

def UpdateFits (payload : Dict) : Prop :=
  truthy (getD payload "id") = false ∨
    "self" ∉ payload.keys ∧ "agent_id" ∉ payload.keys ∧
      ∃ key, hashKey (getD payload "id") = .ok key

variable {runtime : Runtime} {kernel next : Kernel} {self : Nat} {token : String} {payload reply : Dict}

theorem error_mem_errorReply (text : String) : "error" ∈ (errorReply text).keys :=
  OrderedDict.mem_keys_insert.mpr (.inl rfl)

theorem rootPathArgument_none (absent : "root_path" ∉ payload.keys) :
    rootPathArgument payload = none := by
  rw [rootPathArgument, getD, OrderedDict.get?_eq_none_iff.mpr absent]
  rfl

theorem chooseAddress_default_iff {id : Value} :
    (∃ address, kernel.chooseAddress none (some self) id = .ok address) ↔
      (∃ text, id = .str text) ∧ ∃ path, (kernel.heap self).address = .path path := by
  constructor
  · intro addressed
    obtain ⟨address, addressed⟩ := addressed
    constructor
    · exact defaultAddress_text addressed
    · simp only [chooseAddress, defaultAddress, bind_eq_ok_iff] at addressed
      obtain ⟨childrenDir, joined, _⟩ := addressed
      cases base : (kernel.heap self).address with
      | path path => exact ⟨path, rfl⟩
      | raw value =>
        rw [base] at joined
        cases joined
  · intro fits
    obtain ⟨⟨text, isText⟩, path, isPath⟩ := fits
    subst isText
    simp only [chooseAddress, defaultAddress, isPath]
    exact ⟨_, rfl⟩

/-! ### `create_agent` -/

theorem get?_createdMeta {name : String} (free : name ∉ reserved) (other : name ≠ "root_path") :
    (createdMeta payload).get? name = payload.get? name := by
  have kept : name ∉ ["type", "handler_module", "id"] := by
    intro listed
    apply free
    simp only [reserved, List.mem_cons, List.not_mem_nil, or_false] at listed ⊢
    tauto
  rw [createdMeta, OrderedDict.get?_erase, if_neg other, OrderedDict.get?_filterKeys,
    if_pos (decide_eq_true kept)]

theorem created_of_placed {id : Value} {key : DictKey} {address : Address}
    (old : self < kernel.allocated)
    (chosen : chooseId runtime token (getD payload "handler_module") (getD payload "id") = .ok id)
    (hashed : hashKey id = .ok key) (fresh : kernel.agents.get? key = none)
    (noPath : "root_path" ∉ payload.keys) :
    Created runtime kernel self token payload
      (kernel.place key (createdAgent self id address payload))
      ((kernel.place key (createdAgent self id address payload)).record kernel.allocated) := by
  have hung : (createdAgent self id address payload).parent = some self := rfl
  have newAgent : (kernel.place key (createdAgent self id address payload)).heap kernel.allocated =
      createdAgent self id address payload := place_heap_new hung old
  constructor
  · rfl
  · refine ⟨key, ?_, ?_, fresh, place_agents, ?_⟩
    · rw [newAgent]
      exact chosen
    · rw [newAgent]
      exact hashed
    · intro ref inside
      rw [place_heap_old hung inside]
      split <;> rfl
  · rw [newAgent]
    rfl
  · rw [newAgent]
    rfl
  · intro name present free
    rw [newAgent]
    apply get?_createdMeta free
    intro same
    rw [same] at present
    exact noPath present
  · intro ref inside
    exact place_sameFields hung inside
  · exact place_root hung

/-- A `root_path` among the keys is the parameter of that name and never reaches the meta. -/
theorem not_created_of_root_path {id : Value} {key : DictKey} {address : Address}
    (old : self < kernel.allocated) (given : "root_path" ∈ payload.keys) :
    ¬ Created runtime kernel self token payload
      (kernel.place key (createdAgent self id address payload)) reply := by
  intro created
  have newAgent : (kernel.place key (createdAgent self id address payload)).heap kernel.allocated =
      createdAgent self id address payload := place_heap_new rfl old
  have arrived := created.applied "root_path" given (by decide)
  rw [newAgent] at arrived
  have missing : (createdMeta payload).get? "root_path" = none := by
    rw [createdMeta, OrderedDict.get?_erase, if_pos rfl]
  obtain ⟨value, present⟩ := OrderedDict.mem_keys_iff.mp given
  rw [present] at arrived
  cases missing.symm.trans arrived

theorem not_answers_error {Applied : Kernel → Dict → Prop} {failure : PyError} :
    ¬ Answers kernel Applied (.error failure) := by
  intro answers
  obtain ⟨next, reply, returned, _⟩ := answers
  cases returned

theorem answers_refusal {Applied : Kernel → Dict → Prop} (text : String) :
    Answers kernel Applied (.ok (kernel, errorReply text)) :=
  ⟨kernel, errorReply text, rfl, .inl ⟨error_mem_errorReply text, rfl⟩⟩

theorem place_ne (kernel : Kernel) (key : DictKey) (agent : Agent) :
    kernel.place key agent ≠ kernel := by
  intro same
  have allocated := congrArg Kernel.allocated same
  rw [place_allocated] at allocated
  omega

/-- The verb past the id: a known one is refused, a new one goes to the constructor. -/
theorem create_new_answers_iff {id : Value} {key : DictKey} (old : self < kernel.allocated)
    (handled : truthy (getD payload "handler_module") = true) (plain : "self" ∉ payload.keys)
    (chosen : chooseId runtime token (getD payload "handler_module") (getD payload "id") = .ok id)
    (hashed : hashKey id = .ok key) (unknown : kernel.agents.contains key = false) :
    Answers kernel (Created runtime kernel self token payload)
        (kernel.verbCreateAgent runtime self token payload) ↔
      "ctx" ∉ payload.keys ∧ "parent" ∉ payload.keys ∧ "root_path" ∉ payload.keys ∧
        (∃ text, id = .str text) ∧ ∃ path, (kernel.heap self).address = .path path := by
  have fresh := contains_eq_false_iff.mp unknown
  rw [verbCreateAgent_eq handled, if_neg plain, chosen]
  simp only [bind, Except.bind, hashed, unknown, Bool.false_eq_true, if_false]
  by_cases clash : "ctx" ∈ payload.keys ∨ "parent" ∈ payload.keys
  · rw [if_pos clash]
    constructor
    · intro answers
      exact absurd answers not_answers_error
    · intro fits
      obtain ⟨noCtx, noParent, _⟩ := fits
      exact absurd clash (not_or.mpr ⟨noCtx, noParent⟩)
  · rw [if_neg clash]
    obtain ⟨noCtx, noParent⟩ := not_or.mp clash
    constructor
    · intro answers
      cases addressed : kernel.chooseAddress (rootPathArgument payload) (some self) id with
      | error failure =>
        rw [addressed] at answers
        exact absurd answers not_answers_error
      | ok address =>
        rw [addressed] at answers
        obtain ⟨next, reply, returned, applied⟩ := answers
        cases returned
        obtain ⟨_, same⟩ | created := applied
        · exact absurd same (place_ne _ _ _)
        · have noPath : "root_path" ∉ payload.keys := by
            intro given
            exact not_created_of_root_path old given created
          rw [rootPathArgument_none noPath] at addressed
          exact ⟨noCtx, noParent, noPath, chooseAddress_default_iff.mp ⟨address, addressed⟩⟩
    · intro fits
      obtain ⟨_, _, noPath, fits⟩ := fits
      obtain ⟨address, addressed⟩ := chooseAddress_default_iff.mpr fits
      rw [rootPathArgument_none noPath, addressed]
      exact ⟨_, _, rfl, .inr (created_of_placed old chosen hashed fresh noPath)⟩

theorem create_answers_iff (old : self < kernel.allocated) :
    Answers kernel (Created runtime kernel self token payload)
        (kernel.handleSystemVerb runtime self token .createAgent payload) ↔
      CreateFits runtime kernel self token payload := by
  change Answers kernel (Created runtime kernel self token payload)
    (kernel.verbCreateAgent runtime self token payload) ↔ _
  cases handled : truthy (getD payload "handler_module") with
  | false =>
    simp only [verbCreateAgent, handled, Bool.not_false, if_true]
    exact iff_of_true (answers_refusal _) (.inl handled)
  | true =>
    have present : CreateFits runtime kernel self token payload → "self" ∉ payload.keys ∧
        ∃ id key, chooseId runtime token (getD payload "handler_module") (getD payload "id") =
            .ok id ∧ hashKey id = .ok key ∧ (kernel.agents.contains key = true ∨
          "ctx" ∉ payload.keys ∧ "parent" ∉ payload.keys ∧ "root_path" ∉ payload.keys ∧
            (∃ text, id = .str text) ∧ ∃ path, (kernel.heap self).address = .path path) := by
      intro fits
      obtain bare | fits := fits
      · rw [handled] at bare
        cases bare
      · exact fits
    by_cases plain : "self" ∈ payload.keys
    · rw [verbCreateAgent_eq handled, if_pos plain]
      exact iff_of_false not_answers_error fun fits => (present fits).1 plain
    cases chosen : chooseId runtime token (getD payload "handler_module") (getD payload "id") with
    | error failure =>
      rw [verbCreateAgent_eq handled, if_neg plain, chosen]
      apply iff_of_false not_answers_error
      intro fits
      obtain ⟨_, id, _, other, _⟩ := present fits
      cases chosen.symm.trans other
    | ok id =>
      cases hashed : hashKey id with
      | error failure =>
        rw [verbCreateAgent_eq handled, if_neg plain, chosen]
        simp only [bind, Except.bind, hashed]
        apply iff_of_false not_answers_error
        intro fits
        obtain ⟨_, other, key, same, otherHashed, _⟩ := present fits
        cases chosen.symm.trans same
        cases hashed.symm.trans otherHashed
      | ok key =>
        cases known : kernel.agents.contains key with
        | true =>
          rw [verbCreateAgent_eq handled, if_neg plain, chosen]
          simp only [bind, Except.bind, hashed, known, if_true]
          exact iff_of_true (answers_refusal _)
            (.inr ⟨plain, id, key, chosen, hashed, .inl known⟩)
        | false =>
          rw [create_new_answers_iff old handled plain chosen hashed known]
          constructor
          · intro fits
            exact .inr ⟨plain, id, key, chosen, hashed, .inr fits⟩
          · intro fits
            obtain ⟨_, other, otherKey, same, otherHashed, fits⟩ := present fits
            cases chosen.symm.trans same
            cases hashed.symm.trans otherHashed
            obtain registered | fits := fits
            · cases known.symm.trans registered
            · exact fits

/-! ### `update_agent` -/

theorem get?_updatePatch {name : String} (free : name ≠ "type") (other : name ≠ "id") :
    (updatePatch payload).get? name = payload.get? name := by
  have kept : name ∉ ["type", "id"] := by
    intro listed
    simp only [List.mem_cons, List.not_mem_nil, or_false] at listed
    obtain same | same := listed
    · exact free same
    · exact other same
  rw [updatePatch, OrderedDict.get?_filterKeys, if_pos (decide_eq_true kept)]

theorem updated_of_patched {key : DictKey} {ref : Nat} {id : Value}
    (hashed : hashKey (getD payload "id") = .ok key) (found : kernel.agents.get? key = some ref)
    (answered : reply.get? "agent" =
      some (.dict ((kernel.patched ref id (updatePatch payload)).record ref).entries)) :
    Updated kernel payload (kernel.patched ref id (updatePatch payload)) reply ref := by
  have target := @patched_heap kernel ref id (updatePatch payload) ref
  rw [if_pos rfl] at target
  have patchedMeta : ∀ name, ((kernel.patched ref id (updatePatch payload)).heap ref).metadata.get?
      name = ((updatePatch payload).get? name).or ((kernel.heap ref).metadata.get? name) := by
    intro name
    rw [target]
    exact OrderedDict.get?_update _ _ _
  constructor
  · exact ⟨key, hashed, found⟩
  · exact answered
  · intro name present free
    obtain ⟨value, given⟩ := OrderedDict.mem_keys_iff.mp present
    have arrives : (updatePatch payload).get? name = payload.get? name := by
      apply get?_updatePatch
      · intro same
        rw [same] at free
        exact free (by decide)
      · intro same
        rw [same] at free
        exact free (by decide)
    rw [patchedMeta, arrives, given]
    rfl
  · intro name absent
    have missing : (updatePatch payload).get? name = none := by
      rw [updatePatch, OrderedDict.get?_filterKeys, OrderedDict.get?_eq_none_iff.mpr absent]
      split <;> rfl
    rw [patchedMeta, missing]
    rfl
  · rw [target]
  · intro other different
    rw [patched_heap, if_neg different]
  · rfl
  · rfl

theorem update_answers_iff :
    Answers kernel (fun next reply => ∃ ref, Updated kernel payload next reply ref)
        (kernel.handleSystemVerb runtime self token .updateAgent payload) ↔
      UpdateFits payload := by
  change Answers kernel _ (kernel.verbUpdateAgent runtime payload) ↔ _
  cases named : truthy (getD payload "id") with
  | false =>
    simp only [verbUpdateAgent, named, Bool.not_false, if_true]
    exact iff_of_true (answers_refusal _) (.inl named)
  | true =>
    have present : UpdateFits payload → "self" ∉ payload.keys ∧ "agent_id" ∉ payload.keys ∧
        ∃ key, hashKey (getD payload "id") = .ok key := by
      intro fits
      obtain bare | fits := fits
      · rw [named] at bare
        cases bare
      · exact fits
    rw [verbUpdateAgent_eq named]
    by_cases clash : "self" ∈ payload.keys ∨ "agent_id" ∈ payload.keys
    · rw [if_pos clash]
      apply iff_of_false not_answers_error
      intro fits
      exact absurd clash (not_or.mpr ⟨(present fits).1, (present fits).2.1⟩)
    rw [if_neg clash]
    obtain ⟨noSelf, noAgent⟩ := not_or.mp clash
    cases hashed : hashKey (getD payload "id") with
    | error failure =>
      apply iff_of_false not_answers_error
      intro fits
      obtain ⟨_, _, key, other⟩ := present fits
      cases hashed.symm.trans other
    | ok key =>
      refine iff_of_true ?_ (.inr ⟨noSelf, noAgent, key, hashed⟩)
      simp only [bind, Except.bind]
      cases found : kernel.agents.get? key with
      | none => exact answers_refusal _
      | some ref =>
        refine ⟨_, _, rfl, .inr ⟨ref, updated_of_patched hashed found ?_⟩⟩
        exact OrderedDict.get?_insert_self _ _ _

/-! ### Reachable kernels -/

/-- In every reachable kernel both verbs answer, and apply all of their payload or nothing,
exactly for the payloads that fit. -/
theorem verbs_answer_iff {start : Kernel} (started : Start start) (runtime : Runtime)
    (operations : List Operation) {target : Value} {self : Nat}
    (targeted : (start.performAll runtime operations).resolveTarget target = .ok (some self))
    (token : String) (payload : Dict) :
    let kernel := start.performAll runtime operations
    (Answers kernel (Created runtime kernel self token payload)
        (kernel.handleSystemVerb runtime self token .createAgent payload) ↔
      CreateFits runtime kernel self token payload) ∧
    (Answers kernel (fun next reply => ∃ ref, Updated kernel payload next reply ref)
        (kernel.handleSystemVerb runtime self token .updateAgent payload) ↔
      UpdateFits payload) := by
  intro kernel
  have fine := started.performAll_allocated runtime operations
  exact ⟨create_answers_iff (fine.resolved targeted), update_answers_iff⟩

/-- The notes agent is created under the root and answers with its record. -/
theorem notes_payload_answers :
    Start soleRoot ∧ (soleRoot.performAll permissive []).resolveTarget (.str "kernel") = .ok (some 0) ∧
      Answers soleRoot (Created permissive soleRoot 0 "0a1b2c" notesPayload)
        (soleRoot.handleSystemVerb permissive 0 "0a1b2c" .createAgent notesPayload) := by
  refine ⟨soleRoot_start, rfl, ?_⟩
  apply (@verbs_answer_iff soleRoot soleRoot_start permissive [] (.str "kernel") 0 rfl "0a1b2c"
    notesPayload).1.mpr
  refine .inr ⟨by decide, .str "notes", .str "notes", rfl, rfl, .inr ?_⟩
  exact ⟨by decide, by decide, by decide, ⟨"notes", rfl⟩, _, rfl⟩

/-- A payload key `self` raises out of the verb. -/
theorem self_key_raises :
    Start soleRoot ∧ soleRoot.resolveTarget (.str "kernel") = .ok (some 0) ∧
      soleRoot.handleSystemVerb permissive 0 "0a1b2c" .createAgent
        (notesPayload.insert "self" (.str "me")) = .error .typeError ∧
      ¬ Answers soleRoot
        (Created permissive soleRoot 0 "0a1b2c" (notesPayload.insert "self" (.str "me")))
        (soleRoot.handleSystemVerb permissive 0 "0a1b2c" .createAgent
          (notesPayload.insert "self" (.str "me"))) := by
  refine ⟨soleRoot_start, rfl, rfl, ?_⟩
  exact not_answers_error

end Fantastic.Python.Kernel

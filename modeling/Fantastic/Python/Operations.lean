import Fantastic.Python.SnapshotRuns

/-!
# Everything that changes a kernel

Requests and loads, one after the other, from a kernel that is empty or has just got its
root. A request that raises has written nothing, but `Kernel.load` drops the tree and then
builds agent by agent, so a load that raises leaves what it had built: `loadAttempt` is the
kernel after the call, whether it returned or not.
-/

namespace Fantastic.Python.Kernel

open Fantastic.ParentForest (childrenOf)

/-! ### Loads that may raise -/

/-- The next part of a loop, unless an earlier one raised. -/
def goOn (part : Kernel → Dict → Kernel × Option PyError) (built : Kernel × Option PyError)
    (record : Dict) : Kernel × Option PyError :=
  match built.2 with
  | none => part built.1 record
  | some _ => built

/-- The kernel `build` leaves behind, and the exception if it raised. -/
def buildAttempt (runtime : Runtime) (records : List Dict) (rootPath : Option Address) :
    Nat → Option Nat → Kernel → Dict → Kernel × Option PyError
  | 0, _, kernel, _ => (kernel, none)
  | fuel + 1, parent, kernel, record =>
    let handlerModule := getD record "handler_module"
    if truthy handlerModule && !runtime.importable handlerModule then (kernel, none)
    else if clashes initParameters (recordMeta record) then (kernel, some .typeError)
    else
      match kernel.construct (getD record "id") (if parent.isNone then rootPath else none)
          parent handlerModule (recordMeta record) with
      | .error failure => (kernel, some failure)
      | .ok placed =>
        (childrenOf records recordParent (recordKey record)).foldl
          (goOn (buildAttempt runtime records rootPath fuel (some kernel.allocated)))
          (placed, none)

/-- The kernel after a call of `Kernel.load`. -/
def loadAttempt (runtime : Runtime) (kernel : Kernel) (snapshot : KernelState)
    (rootPath : Option PurePath) : Kernel × Option PyError :=
  let records := snapshot.records
  match validateRecords runtime records snapshot.version with
  | .error failure => (kernel, some failure)
  | .ok _ =>
    match records.reverse.find? fun record => decide (getD record "parent_id" = .null) with
    | none => (kernel.cleared kernel.childrenDir, none)
    | some rootRecord =>
      buildAttempt runtime records (rootPath.map .path) records.length none
        (kernel.cleared (childrenDirOf rootRecord)) rootRecord

/-- An attempt as the call sees it. -/
def outcome : Kernel × Option PyError → Except PyError Kernel
  | (kernel, none) => .ok kernel
  | (_, some failure) => .error failure

theorem goOn_raised (part : Kernel → Dict → Kernel × Option PyError) (kernel : Kernel)
    (failure : PyError) (records : List Dict) :
    records.foldl (goOn part) (kernel, some failure) = (kernel, some failure) := by
  induction records with
  | nil => rfl
  | cons record records ih => exact ih

theorem foldlM_eq_goOn {loop : Kernel → Dict → Except PyError Kernel}
    {part : Kernel → Dict → Kernel × Option PyError}
    (same : ∀ kernel record, loop kernel record = outcome (part kernel record))
    (records : List Dict) (kernel : Kernel) :
    records.foldlM loop kernel = outcome (records.foldl (goOn part) (kernel, none)) := by
  induction records generalizing kernel with
  | nil => rfl
  | cons record records ih =>
    have first : goOn part (kernel, none) record = part kernel record := rfl
    rw [List.foldlM_cons, List.foldl_cons, same, first]
    cases part kernel record with
    | mk next raised =>
      cases raised with
      | none => exact ih next
      | some failure =>
        rw [goOn_raised]
        rfl

theorem build_eq_attempt (runtime : Runtime) (records : List Dict) (rootPath : Option Address)
    (fuel : Nat) : ∀ (parent : Option Nat) (kernel : Kernel) (record : Dict),
      build runtime records rootPath fuel parent kernel record =
        outcome (buildAttempt runtime records rootPath fuel parent kernel record) := by
  induction fuel with
  | zero =>
    intro parent kernel record
    rfl
  | succ fuel ih =>
    intro parent kernel record
    rw [build, buildAttempt]
    split
    · rfl
    · by_cases clash : clashes initParameters (recordMeta record) = true
      · simp only [if_pos clash]
        rfl
      · simp only [if_neg clash]
        cases kernel.construct (getD record "id") (if parent.isNone then rootPath else none)
            parent (getD record "handler_module") (recordMeta record) with
        | error failure => rfl
        | ok placed => exact foldlM_eq_goOn (ih (some kernel.allocated)) _ placed

/-- A load returns exactly if the attempt raises nothing. -/
theorem load_eq_attempt (runtime : Runtime) (kernel : Kernel) (snapshot : KernelState)
    (rootPath : Option PurePath) :
    kernel.load runtime snapshot rootPath = outcome (kernel.loadAttempt runtime snapshot rootPath) := by
  simp only [load, loadAttempt]
  cases validateRecords runtime snapshot.records snapshot.version with
  | error failure => rfl
  | ok rootId =>
    simp only [bind, Except.bind]
    cases snapshot.records.reverse.find? fun record => decide (getD record "parent_id" = .null) with
    | none => rfl
    | some rootRecord => exact build_eq_attempt _ _ _ _ _ _ _

/-! ### Operations -/

inductive Operation where
  | request (request : Request)
  | load (snapshot : KernelState) (rootPath : Option PurePath)

def perform (runtime : Runtime) (kernel : Kernel) : Operation → Kernel
  | .request request => kernel.step runtime request
  | .load snapshot rootPath => (kernel.loadAttempt runtime snapshot rootPath).1

def performAll (runtime : Runtime) (kernel : Kernel) (operations : List Operation) : Kernel :=
  operations.foldl (perform runtime) kernel

/-- `Kernel()`, with or without its first agent. -/
inductive Start : Kernel → Prop where
  | fresh : Start fresh
  | rooted {id handlerModule : Value} {rootPath : Option Address} {metadata : Dict} {start : Kernel}
      (built : Kernel.fresh.construct id rootPath none handlerModule metadata = .ok start) :
      Start start

theorem soleRoot_start : Start soleRoot :=
  @Start.rooted (.str "root") .null none .empty soleRoot rfl

/-! ### What the verbs come to -/

variable {runtime : Runtime} {kernel next : Kernel}

/-- The agent that `create_agent` makes of a payload. -/
def createdAgent (self : Nat) (id : Value) (address : Address) (payload : Dict) : Agent where
  id := id
  handlerModule := getD payload "handler_module"
  parent := some self
  address := address
  children := .empty
  metadata := createdMeta payload
  ephemeral := false

/-- `_verb_create_agent` past its first check, its guards in order. -/
theorem verbCreateAgent_eq {self : Nat} {token : String} {payload : Dict}
    (handled : truthy (getD payload "handler_module") = true) :
    kernel.verbCreateAgent runtime self token payload =
      if "self" ∈ payload.keys then .error .typeError
      else do
        let id ← chooseId runtime token (getD payload "handler_module") (getD payload "id")
        let key ← hashKey id
        if kernel.agents.contains key then
          return (kernel, errorReply ("agent " ++ runtime.repr id ++ " exists"))
        else if "ctx" ∈ payload.keys ∨ "parent" ∈ payload.keys then .error .typeError
        else do
          let address ← kernel.chooseAddress (rootPathArgument payload) (some self) id
          let placed := kernel.place key (createdAgent self id address payload)
          return (placed, placed.record kernel.allocated) := by
  have noSelf : clashes ["self"] (payload.filterKeys fun key =>
      decide (key ∉ ["type", "handler_module", "id"])) = true ↔ "self" ∈ payload.keys := by
    rw [clashes_filterKeys (by decide), clashes_iff]
    simp
  have others : clashes ["self", "id", "ctx", "parent", "handler_module"]
      (payload.filterKeys fun key => decide (key ∉ ["type", "handler_module", "id"])) = true ↔
        "self" ∈ payload.keys ∨ "ctx" ∈ payload.keys ∨ "parent" ∈ payload.keys := by
    rw [clashes_iff]
    constructor
    · intro clash
      obtain ⟨name, listed, present⟩ := clash
      rw [OrderedDict.mem_keys_iff, OrderedDict.get?_filterKeys] at present
      split at present
      case isTrue kept =>
        have named := OrderedDict.mem_keys_iff.mpr present
        simp only [List.mem_cons, List.not_mem_nil, or_false] at listed
        obtain rfl | rfl | rfl | rfl | rfl := listed
        · exact .inl named
        · exact absurd kept (by decide)
        · exact .inr (.inl named)
        · exact .inr (.inr named)
        · exact absurd kept (by decide)
      case isFalse => simp at present
    · intro present
      obtain named | named | named := present
      · exact ⟨"self", by decide, mem_keys_filterKeys named (by decide)⟩
      · exact ⟨"ctx", by decide, mem_keys_filterKeys named (by decide)⟩
      · exact ⟨"parent", by decide, mem_keys_filterKeys named (by decide)⟩
  have argument : rootPathArgument (payload.filterKeys fun key =>
      decide (key ∉ ["type", "handler_module", "id"])) = rootPathArgument payload := by
    rw [rootPathArgument, rootPathArgument, getD_filterKeys (by decide)]
  simp only [verbCreateAgent, handled, Bool.not_true, Bool.false_eq_true, if_false, create, noSelf]
  split
  · rfl
  case isFalse plain =>
    cases chooseId runtime token (getD payload "handler_module") (getD payload "id") with
    | error failure => rfl
    | ok id =>
      simp only [bind, Except.bind]
      cases hashed : hashKey id with
      | error failure => rfl
      | ok key =>
        simp only [others, plain, false_or]
        split
        · rfl
        · split
          · rfl
          · simp only [construct, argument, hashed, bind, Except.bind]
            cases kernel.chooseAddress (rootPathArgument payload) (some self) id <;> rfl

theorem verbUpdateAgent_eq {payload : Dict} (named : truthy (getD payload "id") = true) :
    kernel.verbUpdateAgent runtime payload =
      if "self" ∈ payload.keys ∨ "agent_id" ∈ payload.keys then .error .typeError
      else do
        let key ← hashKey (getD payload "id")
        match kernel.agents.get? key with
        | none => return (kernel, errorReply ("no agent " ++ runtime.repr (getD payload "id")))
        | some ref =>
          let patched := kernel.patched ref (getD payload "id") (updatePatch payload)
          return (patched, ((OrderedDict.empty.insert "updated" (Value.bool true)).insert "id"
            (getD payload "id")).insert "agent" (.dict (patched.record ref).entries)) := by
  have clash : clashes ["self", "agent_id"] (payload.filterKeys fun key =>
      decide (key ∉ ["type", "id"])) = true ↔
        "self" ∈ payload.keys ∨ "agent_id" ∈ payload.keys := by
    rw [clashes_filterKeys (by decide), clashes_iff]
    simp
  simp only [verbUpdateAgent, named, Bool.not_true, Bool.false_eq_true, if_false, update, clash]
  split
  · rfl
  · cases hashKey (getD payload "id") with
    | error failure => rfl
    | ok key =>
      simp only [bind, Except.bind]
      cases kernel.agents.get? key <;> rfl

/-- A `create_agent` that came through. -/
structure Creation (runtime : Runtime) (kernel : Kernel) (request : Request) (above : Nat)
    (id : Value) (key : DictKey) (address : Address) : Prop where
  verb : request.verb = .createAgent
  targeted : kernel.resolveTarget request.target = .ok (some above)
  chosen : chooseId runtime request.token (getD request.payload "handler_module")
    (getD request.payload "id") = .ok id
  hashed : hashKey id = .ok key
  fresh : kernel.agents.get? key = none
  addressed : kernel.chooseAddress (rootPathArgument request.payload) (some above) id = .ok address

/-- An `update_agent` that came through. -/
structure Patch (kernel : Kernel) (request : Request) (ref : Nat) : Prop where
  verb : request.verb = .updateAgent
  targeted : ∃ self, kernel.resolveTarget request.target = .ok (some self)
  named : truthy (getD request.payload "id") = true
  plain : "self" ∉ request.payload.keys ∧ "agent_id" ∉ request.payload.keys
  found : ∃ key, hashKey (getD request.payload "id") = .ok key ∧ kernel.agents.get? key = some ref

theorem verbCreateAgent_cases {request : Request} {self : Nat} {reply : Dict}
    (verb : request.verb = .createAgent)
    (targeted : kernel.resolveTarget request.target = .ok (some self))
    (done : kernel.verbCreateAgent runtime self request.token request.payload = .ok (next, reply)) :
    next = kernel ∨ ∃ id key address, Creation runtime kernel request self id key address ∧
      next = kernel.place key (createdAgent self id address request.payload) := by
  by_cases handled : truthy (getD request.payload "handler_module") = true
  case neg =>
    simp only [verbCreateAgent, handled, Bool.not_false, if_true] at done
    cases done
    exact .inl rfl
  case pos =>
    rw [verbCreateAgent_eq handled] at done
    split at done
    · cases done
    simp only [bind_eq_ok_iff] at done
    obtain ⟨id, chosen, key, hashed, done⟩ := done
    split at done
    · cases done
      exact .inl rfl
    case isFalse unknown =>
      split at done
      · cases done
      simp only [bind_eq_ok_iff] at done
      obtain ⟨address, addressed, done⟩ := done
      cases done
      have fresh := contains_eq_false_iff.mp (Bool.eq_false_iff.mpr unknown)
      exact .inr ⟨id, key, address, ⟨verb, targeted, chosen, hashed, fresh, addressed⟩, rfl⟩

theorem verbUpdateAgent_cases {request : Request} {self : Nat} {reply : Dict}
    (verb : request.verb = .updateAgent)
    (targeted : kernel.resolveTarget request.target = .ok (some self))
    (done : kernel.verbUpdateAgent runtime request.payload = .ok (next, reply)) :
    next = kernel ∨ ∃ ref, Patch kernel request ref ∧
      next = kernel.patched ref (getD request.payload "id") (updatePatch request.payload) := by
  by_cases named : truthy (getD request.payload "id") = true
  case neg =>
    simp only [verbUpdateAgent, named, Bool.not_false, if_true] at done
    cases done
    exact .inl rfl
  case pos =>
    rw [verbUpdateAgent_eq named] at done
    split at done
    · cases done
    case isFalse plain =>
      rw [bind_eq_ok_iff] at done
      obtain ⟨key, hashed, done⟩ := done
      cases found : kernel.agents.get? key with
      | none =>
        rw [found] at done
        cases done
        exact .inl rfl
      | some ref =>
        rw [found] at done
        cases done
        exact .inr ⟨ref, ⟨verb, ⟨self, targeted⟩, named, not_or.mp plain, key, hashed, found⟩, rfl⟩

/-- What a request does to any kernel: also to one whose root has been deleted and still
answers to `kernel`. -/
theorem step_cases (runtime : Runtime) (kernel : Kernel) (request : Request) :
    kernel.step runtime request = kernel ∨
      (∃ self id key address, Creation runtime kernel request self id key address ∧
        kernel.step runtime request =
          kernel.place key (createdAgent self id address request.payload)) ∨
      (∃ ref, Patch kernel request ref ∧ kernel.step runtime request =
        kernel.patched ref (getD request.payload "id") (updatePatch request.payload)) ∨
      ∃ ref, kernel.step runtime request = cascadeDelete kernel.allocated kernel ref := by
  unfold step
  cases sent : kernel.send runtime request with
  | error failure => exact .inl rfl
  | ok result =>
    obtain ⟨next, reply⟩ := result
    simp only
    unfold send at sent
    cases top : kernel.root with
    | none =>
      rw [top] at sent
      cases sent
      exact .inl rfl
    | some root =>
      simp only [top, bind_eq_ok_iff] at sent
      obtain ⟨resolved, targeted, sent⟩ := sent
      cases resolved with
      | none =>
        cases sent
        exact .inl rfl
      | some self =>
        simp only [handleSystemVerb] at sent
        cases verb : request.verb with
        | createAgent =>
          rw [verb] at sent
          obtain same | ⟨id, key, address, creation, placed⟩ :=
            verbCreateAgent_cases verb targeted sent
          · exact .inl same
          · exact .inr (.inl ⟨self, id, key, address, creation, placed⟩)
        | updateAgent =>
          rw [verb] at sent
          obtain same | changed := verbUpdateAgent_cases verb targeted sent
          · exact .inl same
          · exact .inr (.inr (.inl changed))
        | deleteAgent =>
          rw [verb] at sent
          cases delete_effect verb sent with
          | refused => exact .inl rfl
          | created other => cases verb.symm.trans other
          | updated other => cases verb.symm.trans other
          | deleted => exact .inr (.inr (.inr ⟨_, rfl⟩))

/-! ### Objects that exist -/

/-- What is registered, and the root, are objects of the heap. -/
structure Allocated (kernel : Kernel) : Prop where
  registered : ∀ {key ref}, kernel.agents.get? key = some ref → ref < kernel.allocated
  rooted : ∀ {ref}, kernel.root = some ref → ref < kernel.allocated

theorem Allocated.place (fine : kernel.Allocated) (key : DictKey) (agent : Agent) :
    (kernel.place key agent).Allocated := by
  constructor
  · intro other ref found
    rw [place_agents, OrderedDict.get?_insert] at found
    rw [place_allocated]
    split at found
    · cases found
      exact Nat.lt_succ_self _
    · exact Nat.lt_succ_of_lt (fine.registered found)
  · intro ref isRoot
    rw [place_allocated]
    simp only [Kernel.place, register, modify, publishState] at isRoot
    split at isRoot
    · cases top : kernel.root with
      | none =>
        rw [top] at isRoot
        cases isRoot
        exact Nat.lt_succ_self _
      | some root =>
        rw [top] at isRoot
        cases isRoot
        exact Nat.lt_succ_of_lt (fine.rooted top)
    · exact Nat.lt_succ_of_lt (fine.rooted isRoot)

/-- What the cascade keeps of any kernel. -/
structure Narrowed (kernel after : Kernel) : Prop where
  shrinks : ∀ {key ref}, after.agents.get? key = some ref → kernel.agents.get? key = some ref
  allocated : after.allocated = kernel.allocated
  root : after.root = kernel.root
  fields : ∀ ref, SameFields (after.heap ref) (kernel.heap ref)

theorem Narrowed.refl (kernel : Kernel) : Narrowed kernel kernel :=
  ⟨fun found => found, rfl, rfl, fun _ => SameFields.refl _⟩

theorem Narrowed.trans {middle after : Kernel} (first : Narrowed kernel middle)
    (second : Narrowed middle after) : Narrowed kernel after where
  shrinks found := first.shrinks (second.shrinks found)
  allocated := second.allocated.trans first.allocated
  root := second.root.trans first.root
  fields ref := (second.fields ref).trans (first.fields ref)

theorem removeOne_narrowed (kernel : Kernel) (ref : Nat) : Narrowed kernel (kernel.removeOne ref) := by
  constructor
  · intro key other found
    cases hashed : hashKey (kernel.heap ref).id with
    | error failure =>
      simp only [removeOne, publishState, unregister, hashed] at found
      split at found
      case h_1 impossible => cases impossible
      case h_2 => exact found
    | ok own =>
      rw [removeOne_get? hashed] at found
      split at found
      · cases found
      · exact found
  · exact removeOne_allocated
  · exact removeOne_root
  · intro other
    simp only [removeOne, publishState, unregister, modify]
    split <;> split <;> try exact SameFields.refl _
    all_goals
      simp only [Function.update_apply]
      split
      case isTrue same =>
        subst same
        exact ⟨rfl, rfl, rfl, rfl, rfl, rfl⟩
      case isFalse => exact SameFields.refl _

theorem cascadeDelete_narrowed (fuel : Nat) : ∀ (kernel : Kernel) (ref : Nat),
    Narrowed kernel (cascadeDelete fuel kernel ref) := by
  induction fuel with
  | zero =>
    intro kernel ref
    exact .refl kernel
  | succ fuel ih =>
    intro kernel ref
    have folded : ∀ (children : List Nat) (current : Kernel),
        Narrowed current (children.foldl (cascadeDelete fuel) current) := by
      intro children
      induction children with
      | nil =>
        intro current
        exact .refl current
      | cons child children later =>
        intro current
        exact (ih current child).trans (later _)
    exact (folded _ kernel).trans (removeOne_narrowed _ ref)

theorem Allocated.narrowed {after : Kernel} (fine : kernel.Allocated)
    (narrowed : Narrowed kernel after) : after.Allocated := by
  constructor
  · intro key ref found
    rw [narrowed.allocated]
    exact fine.registered (narrowed.shrinks found)
  · intro ref isRoot
    rw [narrowed.root] at isRoot
    rw [narrowed.allocated]
    exact fine.rooted isRoot

theorem Allocated.step (fine : kernel.Allocated) (runtime : Runtime) (request : Request) :
    (kernel.step runtime request).Allocated := by
  obtain same | ⟨self, id, key, address, _, placed⟩ | ⟨ref, _, patched⟩ | ⟨ref, deleted⟩ :=
    step_cases runtime kernel request
  · rw [same]
    exact fine
  · rw [placed]
    exact fine.place key _
  · rw [patched]
    exact ⟨fine.registered, fine.rooted⟩
  · rw [deleted]
    exact fine.narrowed (cascadeDelete_narrowed _ _ _)

theorem Allocated.construct {id handlerModule : Value} {rootPath : Option Address}
    {parent : Option Nat} {metadata : Dict} (fine : kernel.Allocated)
    (built : kernel.construct id rootPath parent handlerModule metadata = .ok next) :
    next.Allocated := by
  obtain ⟨address, key, _, _, same⟩ := construct_ok built
  rw [same]
  exact fine.place key _

theorem fresh_allocated : fresh.Allocated := by
  constructor
  · intro key ref found
    cases found
  · intro ref isRoot
    cases isRoot

theorem Start.allocated {start : Kernel} (started : Start start) : start.Allocated := by
  cases started with
  | fresh => exact fresh_allocated
  | rooted built => exact fresh_allocated.construct built

/-- The loop over the children of a record, given what each recursive call keeps. -/
theorem foldl_goOn_keeps {Keeps : Kernel → Prop} {part : Kernel → Dict → Kernel × Option PyError}
    (each : ∀ kernel record, Keeps kernel → Keeps (part kernel record).1) (records : List Dict) :
    ∀ built : Kernel × Option PyError, Keeps built.1 → Keeps (records.foldl (goOn part) built).1 := by
  induction records with
  | nil =>
    intro built kept
    exact kept
  | cons record records ih =>
    intro built kept
    apply ih
    obtain ⟨middle, raised⟩ := built
    cases raised with
    | none => exact each middle record kept
    | some failure => exact kept

theorem Allocated.buildAttempt {runtime : Runtime} {records : List Dict}
    {rootPath : Option Address} (fuel : Nat) :
    ∀ (parent : Option Nat) (kernel : Kernel) (record : Dict), kernel.Allocated →
      (buildAttempt runtime records rootPath fuel parent kernel record).1.Allocated := by
  induction fuel with
  | zero =>
    intro parent kernel record fine
    exact fine
  | succ fuel ih =>
    intro parent kernel record fine
    rw [Kernel.buildAttempt]
    split
    · exact fine
    split
    · exact fine
    split
    · exact fine
    case h_2 placed built =>
      exact foldl_goOn_keeps (ih (some kernel.allocated)) _ (placed, none) (fine.construct built)

theorem cleared_allocated (kernel : Kernel) (childrenDir : String) :
    (kernel.cleared childrenDir).Allocated := by
  constructor
  · intro key ref found
    cases found
  · intro ref isRoot
    cases isRoot

theorem Allocated.loadAttempt (fine : kernel.Allocated) (runtime : Runtime)
    (snapshot : KernelState) (rootPath : Option PurePath) :
    (kernel.loadAttempt runtime snapshot rootPath).1.Allocated := by
  simp only [Kernel.loadAttempt]
  split
  · exact fine
  split
  · exact cleared_allocated kernel _
  · exact Allocated.buildAttempt _ _ _ _ (cleared_allocated kernel _)

theorem Allocated.perform (fine : kernel.Allocated) (runtime : Runtime) (operation : Operation) :
    (kernel.perform runtime operation).Allocated := by
  cases operation with
  | request request => exact fine.step runtime request
  | load snapshot rootPath => exact fine.loadAttempt runtime snapshot rootPath

/-- Whatever is registered in a reachable kernel exists. -/
theorem Start.performAll_allocated {start : Kernel} (started : Start start) (runtime : Runtime)
    (operations : List Operation) : (start.performAll runtime operations).Allocated := by
  have general : ∀ kernel : Kernel, kernel.Allocated →
      (kernel.performAll runtime operations).Allocated := by
    induction operations with
    | nil =>
      intro kernel fine
      exact fine
    | cons operation operations ih =>
      intro kernel fine
      exact ih _ (fine.perform runtime operation)
  exact general start started.allocated

theorem Allocated.resolved {target : Value} {self : Nat} (fine : kernel.Allocated)
    (targeted : kernel.resolveTarget target = .ok (some self)) : self < kernel.allocated := by
  rw [resolveTarget] at targeted
  split at targeted
  · exact fine.rooted (Except.ok.inj targeted)
  · rw [bind_eq_ok_iff] at targeted
    obtain ⟨key, _, found⟩ := targeted
    exact fine.registered (Except.ok.inj found)

end Fantastic.Python.Kernel

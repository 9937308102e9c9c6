import Fantastic.Python.KernelInvariant

/-!
# What one request can do

The three tree verbs, taken apart once. `Effect` lists every kernel a request can
leave behind together with the guards it passed on the way; what a run keeps true
is then proved over `Effect` and never over the handlers.
-/

namespace Fantastic.Python.Kernel

/-- The meta a `create_agent` payload leaves the new agent with. -/
def createdMeta (payload : Dict) : Dict :=
  (payload.filterKeys fun key => key ∉ ["type", "handler_module", "id"]).erase "root_path"

/-- The patch of an `update_agent` payload. -/
def updatePatch (payload : Dict) : Dict :=
  payload.filterKeys fun key => key ∉ ["type", "id"]

/-- Every way a request can leave the kernel, with the guards that were passed. -/
inductive Effect (runtime : Runtime) (kernel : Kernel) (request : Request) : Kernel → Prop where
  | refused : Effect runtime kernel request kernel
  | created {self : Nat} {id : Value} {key : DictKey} {address : Address}
      (verb : request.verb = .createAgent) (live : kernel.Live self)
      (targeted : kernel.resolveTarget request.target = .ok (some self))
      (handled : truthy (getD request.payload "handler_module") = true)
      (chosen : chooseId runtime request.token (getD request.payload "handler_module")
        (getD request.payload "id") = .ok id)
      (placed : getD request.payload "root_path" = .null →
        kernel.defaultAddress (some self) id = .ok address)
      (hashed : hashKey id = .ok key) (fresh : kernel.agents.get? key = none)
      (unclashed : clashes ["self", "ctx", "parent"] request.payload = false) :
      Effect runtime kernel request (kernel.place key
        { id := id
          handlerModule := getD request.payload "handler_module"
          parent := some self
          address := address
          children := .empty
          metadata := createdMeta request.payload
          ephemeral := false })
  | updated {key : DictKey} {target : Nat}
      (verb : request.verb = .updateAgent)
      (hashed : hashKey (getD request.payload "id") = .ok key)
      (found : kernel.agents.get? key = some target)
      (unclashed : clashes ["self", "agent_id"] request.payload = false) :
      Effect runtime kernel request
        (kernel.patched target (getD request.payload "id") (updatePatch request.payload))
  | deleted {key : DictKey} {target : Nat}
      (verb : request.verb = .deleteAgent)
      (hashed : hashKey (getD request.payload "id") = .ok key)
      (found : kernel.agents.get? key = some target)
      (unlocked : kernel.findLockedDescendant kernel.allocated target = none) :
      Effect runtime kernel request (cascadeDelete kernel.allocated kernel target)

theorem clashes_iff {names : List String} {payload : Dict} :
    clashes names payload = true ↔ ∃ name ∈ names, name ∈ payload.keys := by
  simp [clashes, OrderedDict.contains_iff]

theorem mem_keys_filterKeys {payload : Dict} {keep : String → Bool} {name : String}
    (present : name ∈ payload.keys) (kept : keep name = true) :
    name ∈ (payload.filterKeys keep).keys := by
  rw [OrderedDict.mem_keys_iff, OrderedDict.get?_filterKeys, kept, if_pos rfl]
  exact OrderedDict.mem_keys_iff.mp present

theorem clashes_filterKeys {names : List String} {payload : Dict} {keep : String → Bool}
    (kept : ∀ name ∈ names, keep name = true) :
    clashes names (payload.filterKeys keep) = clashes names payload := by
  rw [Bool.eq_iff_iff, clashes_iff, clashes_iff]
  constructor
  · rintro ⟨name, listed, present⟩
    refine ⟨name, listed, ?_⟩
    rw [OrderedDict.mem_keys_iff, OrderedDict.get?_filterKeys, kept name listed, if_pos rfl] at present
    exact OrderedDict.mem_keys_iff.mpr present
  · rintro ⟨name, listed, present⟩
    exact ⟨name, listed, mem_keys_filterKeys present (kept name listed)⟩

theorem getD_filterKeys {payload : Dict} {keep : String → Bool} {name : String}
    (kept : keep name = true) : getD (payload.filterKeys keep) name = getD payload name := by
  rw [getD, getD, OrderedDict.get?_filterKeys, if_pos kept]

theorem contains_eq_false_iff {kernel : Kernel} {key : DictKey} :
    kernel.agents.contains key = false ↔ kernel.agents.get? key = none := by
  rw [OrderedDict.get?_eq_none_iff, ← OrderedDict.contains_iff, Bool.not_eq_true]

theorem chooseId_ok {runtime : Runtime} {token : String} {handlerModule given id : Value}
    (chosen : chooseId runtime token handlerModule given = .ok id) :
    (given = .null ∧ ∃ text, text ≠ "" ∧ id = .str text) ∨ (given ≠ .null ∧ id = given) := by
  by_cases null : given = .null
  · subst null
    simp only [chooseId, bind_eq_ok_iff] at chosen
    rcases chosen with ⟨bundle, _, minted⟩
    refine .inl ⟨rfl, _, ?_, (Except.ok.inj minted).symm⟩
    intro empty
    have lengths := congrArg String.length empty
    simp only [String.length_append] at lengths
    have one : "_".length = 1 := rfl
    have zero : "".length = 0 := rfl
    omega
  · refine .inr ⟨null, ?_⟩
    cases given <;> first | exact absurd rfl null | exact (Except.ok.inj chosen).symm

theorem construct_ok {kernel next : Kernel} {id handlerModule : Value} {rootPath : Option Address}
    {parent : Option Nat} {metadata : Dict}
    (built : kernel.construct id rootPath parent handlerModule metadata = .ok next) :
    ∃ address key, hashKey id = .ok key ∧
      (rootPath = some address ∨ (rootPath = none ∧ kernel.defaultAddress parent id = .ok address)) ∧
      next = kernel.place key
        { id := id
          handlerModule := handlerModule
          parent := parent
          address := address
          children := .empty
          metadata := metadata
          ephemeral := false } := by
  simp only [construct, bind_eq_ok_iff] at built
  rcases built with ⟨address, addressed, key, hashed, done⟩
  refine ⟨address, key, hashed, ?_, (Except.ok.inj done).symm⟩
  cases rootPath with
  | none => exact .inr ⟨rfl, addressed⟩
  | some given => exact .inl (congrArg some (Except.ok.inj addressed))

theorem defaultAddress_text {kernel : Kernel} {above : Nat} {id : Value} {address : Address}
    (addressed : kernel.defaultAddress (some above) id = .ok address) : ∃ text, id = .str text := by
  simp only [defaultAddress, bind_eq_ok_iff] at addressed
  rcases addressed with ⟨childrenDir, _, joined⟩
  cases childrenDir <;> cases id <;> simp_all [Address.join]

theorem create_effect {runtime : Runtime} {kernel next : Kernel} {request : Request}
    {self : Nat} {reply : Dict} (verb : request.verb = .createAgent) (live : kernel.Live self)
    (targeted : kernel.resolveTarget request.target = .ok (some self))
    (done : kernel.verbCreateAgent runtime self request.token request.payload = .ok (next, reply)) :
    Effect runtime kernel request next := by
  unfold verbCreateAgent at done
  by_cases handled : truthy (getD request.payload "handler_module") = true
  case neg =>
    simp only [handled, Bool.not_false, if_true, Except.ok.injEq, Prod.mk.injEq] at done
    rw [← done.1]
    exact .refused
  case pos =>
    simp only [handled, Bool.not_true, Bool.false_eq_true, if_false, create] at done
    split at done
    case isTrue => exact absurd done (by simp)
    case isFalse noSelf =>
      simp only [bind_eq_ok_iff] at done
      rcases done with ⟨id, chosen, key, hashed, done⟩
      split at done
      case isTrue =>
        rw [← (Prod.mk.inj (Except.ok.inj done)).1]
        exact .refused
      case isFalse unknown =>
        split at done
        case isTrue => exact absurd done (by simp)
        case isFalse unclashed =>
          simp only [bind_eq_ok_iff] at done
          rcases done with ⟨built, constructed, done⟩
          rcases construct_ok constructed with ⟨address, sameKey, sameHash, addressed, rfl⟩
          have keys : sameKey = key := Except.ok.inj (sameHash.symm.trans hashed)
          subst keys
          rw [← (Prod.mk.inj (Except.ok.inj done)).1]
          refine .created verb live targeted handled chosen ?_ hashed ?_ ?_
          · intro noPath
            have argument : rootPathArgument (request.payload.filterKeys fun key =>
                decide (key ∉ ["type", "handler_module", "id"])) = none := by
              rw [rootPathArgument, getD_filterKeys (by decide), noPath]
            rcases addressed with given | ⟨_, derived⟩
            · rw [argument] at given
              exact absurd given (by simp)
            · exact derived
          · exact contains_eq_false_iff.mp (by simpa using unknown)
          · rw [clashes_iff] at unclashed
            rw [← Bool.not_eq_true, clashes_iff]
            intro clash
            rcases clash with ⟨name, listed, present⟩
            apply unclashed
            refine ⟨name, ?_, ?_⟩
            · simp only [List.mem_cons, List.not_mem_nil, or_false] at listed ⊢
              tauto
            · apply mem_keys_filterKeys present
              simp only [List.mem_cons, List.not_mem_nil, or_false] at listed
              rcases listed with rfl | rfl | rfl <;> decide

theorem update_effect {runtime : Runtime} {kernel next : Kernel} {request : Request} {reply : Dict}
    (verb : request.verb = .updateAgent)
    (done : kernel.verbUpdateAgent runtime request.payload = .ok (next, reply)) :
    Effect runtime kernel request next := by
  simp only [verbUpdateAgent] at done
  split at done
  case isTrue =>
    rw [← (Prod.mk.inj (Except.ok.inj done)).1]
    exact .refused
  case isFalse =>
    rw [bind_eq_ok_iff] at done
    rcases done with ⟨⟨left, target⟩, updated, done⟩
    have sameNext : left = next := by
      cases target <;> exact (Prod.mk.inj (Except.ok.inj done)).1
    subst sameNext
    rw [update] at updated
    split at updated
    case isTrue => exact absurd updated (by simp)
    case isFalse unclashed =>
      rw [bind_eq_ok_iff] at updated
      rcases updated with ⟨key, hashed, updated⟩
      cases found : kernel.agents.get? key with
      | none =>
        rw [found] at updated
        rw [← (Prod.mk.inj (Except.ok.inj updated)).1]
        exact .refused
      | some ref =>
        rw [found] at updated
        rw [← (Prod.mk.inj (Except.ok.inj updated)).1]
        refine .updated verb hashed found ?_
        rw [clashes_filterKeys (by decide)] at unclashed
        simpa using unclashed

theorem delete_effect {runtime : Runtime} {kernel next : Kernel} {request : Request} {reply : Dict}
    (verb : request.verb = .deleteAgent)
    (done : kernel.verbDeleteAgent runtime request.payload = .ok (next, reply)) :
    Effect runtime kernel request next := by
  simp only [verbDeleteAgent] at done
  split at done
  case isTrue =>
    rw [← (Prod.mk.inj (Except.ok.inj done)).1]
    exact .refused
  case isFalse =>
    rw [delete, bind_eq_ok_iff] at done
    rcases done with ⟨key, hashed, done⟩
    cases found : kernel.agents.get? key with
    | none =>
      rw [found] at done
      rw [← (Prod.mk.inj (Except.ok.inj done)).1]
      exact .refused
    | some target =>
      simp only [found] at done
      cases locked : kernel.findLockedDescendant kernel.allocated target with
      | some blockedBy =>
        rw [locked] at done
        rw [← (Prod.mk.inj (Except.ok.inj done)).1]
        exact .refused
      | none =>
        rw [locked] at done
        rw [← (Prod.mk.inj (Except.ok.inj done)).1]
        exact .deleted verb hashed found locked

/-- The one case analysis of the request handlers. -/
theorem step_effect (runtime : Runtime) {kernel : Kernel} (tree : kernel.Tree) (request : Request) :
    Effect runtime kernel request (kernel.step runtime request) := by
  rcases tree.rootLive with ⟨top, isRoot, topLive, _⟩
  unfold step
  cases sent : kernel.send runtime request with
  | error failure => exact .refused
  | ok result =>
    rcases result with ⟨next, reply⟩
    simp only [send, isRoot, bind_eq_ok_iff] at sent
    rcases sent with ⟨resolved, found, sent⟩
    cases resolved with
    | none =>
      rw [← (Prod.mk.inj (Except.ok.inj sent)).1]
      exact .refused
    | some self =>
      have live : kernel.Live self := by
        rw [resolveTarget] at found
        by_cases primer : request.target = .str "kernel"
        · rw [if_pos primer, isRoot] at found
          cases found
          exact topLive
        · rw [if_neg primer, bind_eq_ok_iff] at found
          rcases found with ⟨key, _, hit⟩
          exact ⟨key, Except.ok.inj hit⟩
      simp only [handleSystemVerb] at sent
      cases verb : request.verb with
      | createAgent => exact create_effect verb live found (by simpa [verb] using sent)
      | updateAgent => exact update_effect verb (by simpa [verb] using sent)
      | deleteAgent => exact delete_effect verb (by simpa [verb] using sent)

end Fantastic.Python.Kernel

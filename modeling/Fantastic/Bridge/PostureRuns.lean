import Fantastic.Bridge.Posture
import Fantastic.Foundation.Runs

/-!
# The posture a leg reports and the one it enforces

A rule in use stays in force when the record changes. As long as no update makes the record
refuse a call that a rule in use or a boot under way would admit, every call that is
dispatched is one the record of that moment allows.
-/

namespace Fantastic.Bridge

/-! ### Python -/

namespace Python

open Fantastic.Python (PyError Runtime getD truthy)

variable {runtime : Runtime} {env : Environment} {leg : Leg}

def Admits (env : Environment) (rule : IngressRule) (action : Action) : Prop :=
  ∃ decision, authorize env rule action = .ok decision ∧ decision.allowed = true

/-- The record resolves to a rule that allows the action. -/
def Allows (runtime : Runtime) (env : Environment) (record : Dict) (action : Action) : Prop :=
  ∃ rule, resolveIngress runtime record = .ok rule ∧ Admits env rule action

/-- Every call that the rule admits is one that the record allows. -/
def Within (runtime : Runtime) (env : Environment) (rule : IngressRule) (record : Dict) : Prop :=
  ∀ action, action.kind = .call → Admits env rule action → Allows runtime env record action

/-- No call was dispatched that the record of its moment refuses, and none while `reflect`
named `deny_inbound`. -/
def Leg.Enforced (runtime : Runtime) (env : Environment) (leg : Leg) : Prop :=
  ∀ entry ∈ leg.dispatched, Allows runtime env entry.1 entry.2 ∧
    ingressName entry.1 ≠ .ok (.str "deny_inbound")

/-- An update lets through what the rule in use lets through, and what the rule of each boot
under way will. -/
def Careful (runtime : Runtime) (env : Environment) (leg : Leg) : Move → Prop
  | .update patch => Within runtime env leg.rule (leg.record.update patch) ∧
      ∀ boot record rule, leg.boots boot = some record → resolveIngress runtime record = .ok rule →
        Within runtime env rule (leg.record.update patch)
  | _ => True

/-- `deny_inbound` in the answer of `reflect` is `deny_inbound` in the rule. -/
theorem ingressName_deny {record : Dict} {rule : IngressRule}
    (named : ingressName record = .ok (.str "deny_inbound"))
    (resolved : resolveIngress runtime record = .ok rule) : rule = .denyInbound := by
  unfold ingressName at named
  unfold resolveIngress at resolved
  simp only [bind, Except.bind] at named resolved
  split at named
  · cases named
  case h_2 parsed found =>
    rw [found] at resolved
    simp only [pure, Except.pure, Except.ok.injEq] at named resolved
    split at resolved
    · exact (Except.ok.inj resolved).symm
    case h_2 allowAll =>
      rw [allowAll] at named
      exact absurd named (by decide)
    · exact (Except.ok.inj resolved).symm
    case h_4 password =>
      rw [password] at named
      exact absurd named (by decide)
    · cases resolved
    · cases resolved
    · cases resolved

theorem sealed_admits_nothing (action : Action) : ¬ Admits env .denyInbound action := by
  intro admits
  obtain ⟨decision, verdict, allowed⟩ := admits
  cases verdict
  cases allowed

theorem Allows.open {record : Dict} {action : Action} (allows : Allows runtime env record action) :
    ingressName record ≠ .ok (.str "deny_inbound") := by
  intro named
  obtain ⟨rule, resolved, admits⟩ := allows
  rw [ingressName_deny named resolved] at admits
  exact sealed_admits_nothing action admits

theorem sealed_within (record : Dict) : Within runtime env .denyInbound record :=
  fun action _ admits => absurd admits (sealed_admits_nothing action)

/-- What a record resolves to stays within that record. -/
theorem resolved_within {record : Dict} {rule : IngressRule}
    (resolved : resolveIngress runtime record = .ok rule) : Within runtime env rule record :=
  fun _ _ admits => ⟨rule, resolved, admits⟩

/-- The rule in use and those of the boots under way stay within the record. -/
structure Inv (runtime : Runtime) (env : Environment) (leg : Leg) : Prop where
  inUse : Within runtime env leg.rule leg.record
  underWay : ∀ boot record rule, leg.boots boot = some record →
    resolveIngress runtime record = .ok rule → Within runtime env rule leg.record
  enforced : leg.Enforced runtime env

/-- A boot that has ended is no longer under way. -/
theorem Inv.landed (inv : Inv runtime env leg) (boot other : Nat) {record : Dict}
    {rule : IngressRule} (found : Function.update leg.boots boot none other = some record)
    (resolved : resolveIngress runtime record = .ok rule) : Within runtime env rule leg.record := by
  by_cases same : other = boot
  · rw [same, Function.update_self] at found
    exact absurd found (by simp)
  · rw [Function.update_of_ne same] at found
    exact inv.underWay other record rule found resolved

theorem Inv.install (inv : Inv runtime env leg) {boot : Nat} {record : Dict}
    (found : leg.boots boot = some record) (egressFine : Bool) :
    Inv runtime env (leg.install runtime boot record egressFine) := by
  unfold Leg.install
  simp only
  split
  case h_1 rule resolved =>
    exact ⟨inv.underWay boot record rule found resolved,
      fun other _ _ => inv.landed boot other, inv.enforced⟩
  case h_2 => exact ⟨inv.inUse, fun other _ _ => inv.landed boot other, inv.enforced⟩

theorem Inv.call (inv : Inv runtime env leg) (frame : List (String × Value)) :
    Inv runtime env (leg.call env frame) := by
  unfold Leg.call
  simp only
  split
  case h_1 decision verdict =>
    split
    case isTrue allowed =>
      refine ⟨inv.inUse, inv.underWay, ?_⟩
      intro entry member
      cases List.mem_cons.mp member with
      | inl here =>
        have allows := inv.inUse _ rfl ⟨decision, verdict, allowed⟩
        rw [here]
        exact ⟨allows, allows.open⟩
      | inr earlier => exact inv.enforced entry earlier
    · exact inv
  · exact ⟨inv.inUse, inv.underWay, inv.enforced⟩

theorem Inv.step (leg : Leg) (move : Move) (inv : Inv runtime env leg)
    (careful : Careful runtime env leg move) : Inv runtime env (leg.step runtime env move) := by
  cases move with
  | update patch => exact ⟨careful.1, careful.2, inv.enforced⟩
  | boot =>
    simp only [Leg.step]
    split
    · exact inv
    · refine ⟨inv.inUse, ?_, inv.enforced⟩
      intro other record rule found resolved
      dsimp only at found
      by_cases same : other = leg.begun
      · rw [same, Function.update_self] at found
        cases found
        exact resolved_within resolved
      · rw [Function.update_of_ne same] at found
        exact inv.underWay other record rule found resolved
  | dialed boot egressFine =>
    simp only [Leg.step]
    split
    case h_1 found => exact inv.install found egressFine
    · exact inv
  | dialFailed boot => exact ⟨inv.inUse, fun other _ _ => inv.landed boot other, inv.enforced⟩
  | dropped => exact ⟨inv.inUse, inv.underWay, inv.enforced⟩
  | torn => exact ⟨sealed_within leg.record, inv.underWay, inv.enforced⟩
  | loopEnded => exact ⟨inv.inUse, inv.underWay, inv.enforced⟩
  | call frame =>
    simp only [Leg.step]
    split
    · exact inv
    · exact inv.call frame

theorem fresh_inv (record : Dict) : Inv runtime env (.fresh record) := by
  refine ⟨sealed_within record, ?_, ?_⟩
  · intro boot other rule found
    exact absurd found (by simp [Leg.fresh])
  · intro entry member
    exact absurd member (by simp [Leg.fresh])

end Python

/-! ### Rust -/

namespace Rust

open Fantastic.Rust (legRule)

variable {debug : Value → String} {env : Environment} {leg : Leg}

/-- The record resolves to a rule that allows the action. -/
def Allows (debug : Value → String) (env : Environment) (record : Dict) (action : Action) : Prop :=
  ∃ rule, legRule debug record = .ok rule ∧ authorize env rule action = .allow

/-- Every call that the rule admits is one that the record allows. -/
def Within (debug : Value → String) (env : Environment) (rule : IngressRule)
    (record : Dict) : Prop :=
  ∀ action, action.kind = .call → authorize env rule action = .allow →
    Allows debug env record action

/-- No call was dispatched that the record of its moment refuses, and none while `reflect`
named `deny_inbound`. -/
def Leg.Enforced (debug : Value → String) (env : Environment) (leg : Leg) : Prop :=
  ∀ entry ∈ leg.dispatched, Allows debug env entry.1 entry.2 ∧
    ingressName entry.1 ≠ "deny_inbound"

/-- An update lets through what the rules of the running loops let through, and what those of
the boots past their rules will. -/
def Careful (debug : Value → String) (env : Environment) (leg : Leg) : Move → Prop
  | .update patch => (∀ loop rule, leg.loops loop = some rule →
        Within debug env rule (leg.record.update patch)) ∧
      ∀ boot rule, leg.boots boot = some (.resolved rule) →
        Within debug env rule (leg.record.update patch)
  | _ => True

/-- `deny_inbound` in the answer of `reflect` is `deny_inbound` in the rule. -/
theorem ingressName_deny {record : Dict} {rule : IngressRule}
    (named : ingressName record = "deny_inbound") (resolved : legRule debug record = .ok rule) :
    rule = .denyInbound := by
  unfold ingressName at named
  unfold legRule resolve at resolved
  cases spec : (record.get? "ingress_rule").or (record.get? "auth") with
  | none =>
    rw [spec] at resolved
    exact (Except.ok.inj resolved).symm
  | some value =>
    rw [spec] at named resolved
    cases value with
    | null => exact (Except.ok.inj resolved).symm
    | str text =>
      by_cases empty : text = ""
      · simp only [parseSpec, if_pos empty] at resolved
        exact (Except.ok.inj resolved).symm
      · simp only [ruleName, if_neg empty] at named
        simp only [parseSpec, named] at resolved
        exact (Except.ok.inj resolved).symm
    | dict members =>
      cases typed : textField members "type" "policy" with
      | none =>
        simp only [parseSpec, typed] at resolved
        cases resolved
      | some name =>
        simp only [ruleName, typed, Option.getD_some] at named
        simp only [parseSpec, typed, named] at resolved
        exact (Except.ok.inj resolved).symm
    | bool _ => cases resolved
    | int _ => cases resolved
    | float _ => cases resolved
    | bytes _ => cases resolved
    | list _ => cases resolved

theorem sealed_admits_nothing {action : Action} (call : action.kind = .call) :
    authorize env .denyInbound action ≠ .allow := by
  unfold authorize authorizeDenyInbound
  rw [if_pos call]
  simp

theorem Allows.open {record : Dict} {action : Action} (call : action.kind = .call)
    (allows : Allows debug env record action) : ingressName record ≠ "deny_inbound" := by
  intro named
  obtain ⟨rule, resolved, admits⟩ := allows
  rw [ingressName_deny named resolved] at admits
  exact sealed_admits_nothing call admits

/-- What a record resolves to stays within that record. -/
theorem resolved_within {record : Dict} {rule : IngressRule}
    (resolved : legRule debug record = .ok rule) : Within debug env rule record :=
  fun _ _ admits => ⟨rule, resolved, admits⟩

/-- The rules of the running loops and of the boots past theirs stay within the record. -/
structure Inv (debug : Value → String) (env : Environment) (leg : Leg) : Prop where
  inUse : ∀ loop rule, leg.loops loop = some rule → Within debug env rule leg.record
  underWay : ∀ boot rule, leg.boots boot = some (.resolved rule) →
    Within debug env rule leg.record
  enforced : leg.Enforced debug env

/-- A boot may go to a state whose rule, if it has one, stays within the record. -/
theorem Inv.setBoot (inv : Inv debug env leg) (boot : Nat) {next : Option Boot}
    (within : ∀ rule, next = some (.resolved rule) → Within debug env rule leg.record) :
    Inv debug env (leg.setBoot boot next) := by
  refine ⟨inv.inUse, ?_, inv.enforced⟩
  intro other rule found
  simp only [Leg.setBoot] at found
  by_cases same : other = boot
  · rw [same, Function.update_self] at found
    exact within rule found
  · rw [Function.update_of_ne same] at found
    exact inv.underWay other rule found

theorem Inv.resolveRules (inv : Inv debug env leg) (boot : Nat) (egressFine : Bool) :
    Inv debug env (leg.resolveRules debug boot egressFine) := by
  unfold Leg.resolveRules
  split
  case h_1 rule resolved =>
    apply inv.setBoot boot
    intro other same
    split at same
    · cases same
      exact resolved_within resolved
    · cases same
  case h_2 =>
    apply inv.setBoot boot
    intro other same
    cases same

theorem Inv.call (inv : Inv debug env leg) {loop : Nat} {rule : IngressRule}
    (running : leg.loops loop = some rule) (frame : List (String × Value)) :
    Inv debug env (leg.call env rule frame) := by
  unfold Leg.call
  simp only
  split
  · exact inv
  · split
    · exact inv
    case h_2 admits =>
      refine ⟨inv.inUse, inv.underWay, ?_⟩
      intro entry member
      cases List.mem_cons.mp member with
      | inl here =>
        have allows := inv.inUse loop rule running _ rfl admits
        rw [here]
        exact ⟨allows, allows.open rfl⟩
      | inr earlier => exact inv.enforced entry earlier

theorem Inv.step (leg : Leg) (move : Move) (inv : Inv debug env leg)
    (careful : Careful debug env leg move) : Inv debug env (leg.step debug env move) := by
  cases move with
  | update patch => exact ⟨careful.1, careful.2, inv.enforced⟩
  | boot =>
    simp only [Leg.step]
    split
    · exact inv
    · have begun : Inv debug env (leg.setBoot leg.begun (some .connecting)) :=
        inv.setBoot leg.begun (by simp)
      exact ⟨begun.inUse, begun.underWay, begun.enforced⟩
  | connected boot egressFine =>
    simp only [Leg.step]
    split
    · exact inv.resolveRules boot egressFine
    · exact inv
  | connectFailed boot =>
    simp only [Leg.step]
    split
    · exact inv.setBoot boot (by simp)
    · exact inv
  | spawned boot =>
    simp only [Leg.step]
    split
    case h_1 rule found =>
      have gone : Inv debug env (leg.setBoot boot none) := inv.setBoot boot (by simp)
      refine ⟨?_, gone.underWay, gone.enforced⟩
      intro loop other running
      dsimp only at running
      by_cases same : loop = boot
      · rw [same, Function.update_self] at running
        cases running
        exact inv.underWay boot rule found
      · rw [Function.update_of_ne same] at running
        exact inv.inUse loop other running
    · exact inv
  | inserted boot => exact ⟨inv.inUse, inv.underWay, inv.enforced⟩
  | shutdown => exact ⟨inv.inUse, inv.underWay, inv.enforced⟩
  | loopEnded loop =>
    refine ⟨?_, inv.underWay, inv.enforced⟩
    intro other rule running
    simp only [Leg.step] at running
    by_cases same : other = loop
    · rw [same, Function.update_self] at running
      exact absurd running (by simp)
    · rw [Function.update_of_ne same] at running
      exact inv.inUse other rule running
  | call loop frame =>
    simp only [Leg.step]
    split
    case h_1 rule running => exact inv.call running frame
    · exact inv

theorem fresh_inv (record : Dict) : Inv debug env (.fresh record) := by
  refine ⟨?_, ?_, ?_⟩
  · intro loop rule running
    exact absurd running (by simp [Leg.fresh])
  · intro boot rule found
    exact absurd found (by simp [Leg.fresh])
  · intro entry member
    exact absurd member (by simp [Leg.fresh])

end Rust

/-! ### Both -/

/-- Whatever the record at the start and the order of moves, a careful run dispatches only what
the record of the moment allows, in either runtime. -/
theorem careful_runs_enforce_the_posture (runtime : Fantastic.Python.Runtime)
    (debug : Value → String) (env : Environment) (record : Dict) :
    (∀ moves, Runs.Along (Python.Leg.step runtime env) (Python.Careful runtime env)
      (.fresh record) moves →
        (moves.foldl (Python.Leg.step runtime env) (.fresh record)).Enforced runtime env) ∧
    ∀ moves, Runs.Along (Rust.Leg.step debug env) (Rust.Careful debug env) (.fresh record) moves →
      (moves.foldl (Rust.Leg.step debug env) (.fresh record)).Enforced debug env := by
  constructor
  · intro moves careful
    exact (Runs.Along.invariant Python.Inv.step moves (Python.fresh_inv record) careful).enforced
  · intro moves careful
    exact (Runs.Along.invariant Rust.Inv.step moves (Rust.fresh_inv record) careful).enforced

def quietRuntime : Fantastic.Python.Runtime where
  importable := fun _ => true
  repr := fun _ => ""
  str := fun _ => ""

def bareEnvironment : Environment := fun _ => none

def openRecord : Dict :=
  OrderedDict.empty.insert "ingress_rule" (.str "allow_all")

def sealPatch : Dict :=
  OrderedDict.empty.insert "ingress_rule" (.str "deny_inbound")

def reflectCall : List (String × Value) :=
  [("type", .str "call"), ("target", .str "notes"), ("payload", .dict [("type", .str "reflect")])]

/-- A leg is opened, serves a call, is shut down and then sealed. -/
theorem sealed_after_shutdown_is_enforced :
    ([.boot, .dialed 0 true, .call reflectCall, .torn, .loopEnded, .update sealPatch].foldl
      (Python.Leg.step quietRuntime bareEnvironment) (.fresh openRecord)).Enforced quietRuntime
        bareEnvironment ∧
    ([.boot, .connected 0 true, .spawned 0, .inserted 0, .call 0 reflectCall, .shutdown,
      .loopEnded 0, .update sealPatch].foldl (Rust.Leg.step (fun _ => "") bareEnvironment)
        (.fresh openRecord)).Enforced (fun _ => "") bareEnvironment := by
  have both := careful_runs_enforce_the_posture quietRuntime (fun _ => "") bareEnvironment
    openRecord
  refine ⟨both.1 _ ?python, both.2 _ ?rust⟩
  case python =>
    refine ⟨trivial, trivial, trivial, trivial, trivial, ⟨?_, ?_⟩, trivial⟩
    · exact Python.sealed_within _
    · intro boot record rule found
      change Function.update (Function.update (fun _ => none) 0 (some openRecord)) 0 none boot =
        some record at found
      by_cases same : boot = 0 <;> simp [same] at found
  case rust =>
    refine ⟨trivial, trivial, trivial, trivial, trivial, trivial, trivial, ⟨?_, ?_⟩, trivial⟩
    · intro loop rule running
      change Function.update (Function.update (fun _ => none) 0 (some Rust.IngressRule.allowAll)) 0
        none loop = some rule at running
      by_cases same : loop = 0 <;> simp [same] at running
    · intro boot rule found
      change Function.update (Function.update (Function.update (fun _ => none) 0
        (some Rust.Boot.connecting)) 0 (some (.resolved .allowAll))) 0 none boot =
          some (.resolved rule) at found
      by_cases same : boot = 0 <;> simp [same] at found

/-- An open leg is sealed in its record, `reflect` says so, and the next call is dispatched. -/
theorem sealing_an_open_leg_is_not_enforced :
    ¬ ([.boot, .dialed 0 true, .update sealPatch, .call reflectCall].foldl
      (Python.Leg.step quietRuntime bareEnvironment) (.fresh openRecord)).Enforced quietRuntime
        bareEnvironment ∧
    ¬ ([.boot, .connected 0 true, .spawned 0, .inserted 0, .update sealPatch,
      .call 0 reflectCall].foldl (Rust.Leg.step (fun _ => "") bareEnvironment)
        (.fresh openRecord)).Enforced (fun _ => "") bareEnvironment := by
  constructor
  · intro enforced
    exact (enforced (openRecord.update sealPatch, Fantastic.Python.Socket.inboundAction .call "call"
      reflectCall) (.head _)).2 rfl
  · intro enforced
    exact (enforced (openRecord.update sealPatch, Rust.callAction reflectCall) (.head _)).2 rfl

end Fantastic.Bridge

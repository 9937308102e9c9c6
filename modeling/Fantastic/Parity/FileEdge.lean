import Fantastic.Python.FileBridge
import Fantastic.Rust.FileGate
import Fantastic.Swift.FileGate

/-!
# Whose credential opens a file edge

The three file bridges hand their password rule an action of their own making. Python's has
no token; in Rust and Swift it is the `auth_token` of the agent's own record. The token that
a caller presents reaches none of them.
-/

namespace Fantastic.Parity

open Bridge (Environment SecretMatches EnvValue)
open Python (Process Runtime)

/-- A call of a stream verb as a leg takes it off the wire, credential included. -/
structure StreamCall where
  verb : String
  stream : verb ∈ ["read_stream", "write_stream"]
  payload : Dict
  token : Option String

theorem StreamCall.gated (call : StreamCall) : call.verb ∉ ["reflect", "boot", "shutdown"] := by
  intro lifecycle
  have stream := call.stream
  simp only [List.mem_cons, List.not_mem_nil, or_false] at lifecycle stream
  grind

/-- The token is the configured secret, and the secret is not empty. -/
def Matches (configured token : Option String) : Prop :=
  ∃ secret, secret ≠ "" ∧ configured = some secret ∧ token = some secret

/-- What the environment has under a name, where it is a text. -/
def textIn (env : Environment) (name : String) : Option String :=
  match env name with
  | some (.text value) => some value
  | _ => none

/-! ### The three decisions -/

def pythonAdmits (process : Process) (record : Dict) (call : StreamCall) : Prop :=
  ∃ decision, Python.FileBridge.gate process record call.verb call.payload = .ok decision ∧
    decision.allowed = true

def rustAdmits (env : Environment) (debug : Value → String) (metadata : Dict) (agentId : String)
    (call : StreamCall) : Prop :=
  Rust.FileBundle.gate env debug metadata agentId call.verb = none

def swiftAdmits (environment : String → Option String) (agent : Swift.Agent) (call : StreamCall) :
    Prop :=
  Swift.FileBundle.gate environment agent call.verb = none

theorem matches_iff {env : Environment} {tokenEnv : String} {action : Bridge.Action} :
    SecretMatches env tokenEnv action ↔ Matches (textIn env tokenEnv) action.token := by
  unfold SecretMatches Matches textIn
  cases held : env tokenEnv with
  | none => simp
  | some value => cases value <;> simp

/-- Without a token the rule has nothing to compare. -/
theorem python_admits_nobody {process : Process} {record : Dict} {tokenEnv : String}
    (rule : Bridge.Python.resolveIngress process.runtime record = .ok (.password tokenEnv))
    (call : StreamCall) : ¬ pythonAdmits process record call := by
  intro admitted
  obtain ⟨decision, decided, allowed⟩ := admitted
  unfold Python.FileBridge.gate at decided
  rw [rule] at decided
  simp only [bind, Except.bind, Bridge.Python.authorize, Bridge.Python.authorizePassword] at decided
  split at decided
  · cases decided
    cases allowed
  · cases decided
    cases allowed

theorem rust_admits_own_token {env : Environment} {debug : Value → String} {metadata : Dict}
    {tokenEnv : String} (rule : Rust.legRule debug metadata = .ok (.password tokenEnv))
    (agentId : String) (call : StreamCall) :
    rustAdmits env debug metadata agentId call ↔
      Matches (textIn env tokenEnv) (Rust.FileBundle.textMember metadata "auth_token") := by
  unfold rustAdmits
  rw [Rust.FileBundle.gate_password rule call.gated, matches_iff]

theorem swift_admits_own_token {environment : String → Option String} {agent : Swift.Agent}
    {tokenEnv : String} (rule : Swift.legRule agent = .ok (.password tokenEnv))
    (call : StreamCall) :
    swiftAdmits environment agent call ↔
      Matches (environment tokenEnv) ((agent.metaValue "auth_token").bind Swift.asString) := by
  have gated := call.gated
  simp only [List.mem_cons, List.not_mem_nil, or_false] at gated
  unfold swiftAdmits Swift.FileBundle.gate Swift.gateVerb
  rw [if_neg gated]
  have resolved : Swift.resolveIngress (agent.metaValue "ingress_rule") (agent.metaValue "auth") =
      .ok (.password tokenEnv) := rule
  rw [resolved]
  have decided := @Swift.authorize_password environment tokenEnv
    { kind := .call
      target := agent.id
      verb := call.verb
      token := (agent.metaValue "auth_token").bind Swift.asString } rfl
  unfold Matches
  rw [← decided]
  simp only
  split
  case h_1 reason denied => simp [denied]
  case h_2 allowed => simp [allowed]

/-! ### The caller's credential -/

/-- A call is admitted with the secret and not without it, by each bridge whose record has a
password rule. -/
structure GatedByCaller (process : Process) (record : Dict) (debug : Value → String)
    (metadata : Dict) (agentId : String) (environment : String → Option String)
    (agent : Swift.Agent) (call : StreamCall) : Prop where
  python : ∀ tokenEnv,
    Bridge.Python.resolveIngress process.runtime record = .ok (.password tokenEnv) →
      (pythonAdmits process record call ↔ Matches (textIn process.env tokenEnv) call.token)
  rust : ∀ tokenEnv, Rust.legRule debug metadata = .ok (.password tokenEnv) →
    (rustAdmits process.env debug metadata agentId call ↔
      Matches (textIn process.env tokenEnv) call.token)
  swift : ∀ tokenEnv, Swift.legRule agent = .ok (.password tokenEnv) →
    (swiftAdmits environment agent call ↔ Matches (environment tokenEnv) call.token)
  /-- Nothing else about the call counts. -/
  alike : ∀ other : StreamCall, other.token = call.token →
    (∀ tokenEnv,
      Bridge.Python.resolveIngress process.runtime record = .ok (.password tokenEnv) →
        (pythonAdmits process record other ↔ pythonAdmits process record call)) ∧
    (∀ tokenEnv, Rust.legRule debug metadata = .ok (.password tokenEnv) →
      (rustAdmits process.env debug metadata agentId other ↔
        rustAdmits process.env debug metadata agentId call)) ∧
    ∀ tokenEnv, Swift.legRule agent = .ok (.password tokenEnv) →
      (swiftAdmits environment agent other ↔ swiftAdmits environment agent call)

/-- The caller of a Python bridge does not present the secret, and the caller of the other two
does exactly where the record of the agent holds it too. -/
structure SameAsOwn (process : Process) (record : Dict) (debug : Value → String)
    (metadata : Dict) (environment : String → Option String) (agent : Swift.Agent)
    (call : StreamCall) : Prop where
  python : ∀ tokenEnv,
    Bridge.Python.resolveIngress process.runtime record = .ok (.password tokenEnv) →
      ¬ Matches (textIn process.env tokenEnv) call.token
  rust : ∀ tokenEnv, Rust.legRule debug metadata = .ok (.password tokenEnv) →
    (Matches (textIn process.env tokenEnv) (Rust.FileBundle.textMember metadata "auth_token") ↔
      Matches (textIn process.env tokenEnv) call.token)
  swift : ∀ tokenEnv, Swift.legRule agent = .ok (.password tokenEnv) →
    (Matches (environment tokenEnv) ((agent.metaValue "auth_token").bind Swift.asString) ↔
      Matches (environment tokenEnv) call.token)

theorem gated_by_caller_iff (process : Process) (record : Dict) (debug : Value → String)
    (metadata : Dict) (agentId : String) (environment : String → Option String)
    (agent : Swift.Agent) (call : StreamCall) :
    GatedByCaller process record debug metadata agentId environment agent call ↔
      SameAsOwn process record debug metadata environment agent call := by
  constructor
  · intro gated
    constructor
    · intro tokenEnv rule presented
      exact python_admits_nobody rule call ((gated.python tokenEnv rule).mpr presented)
    · intro tokenEnv rule
      rw [← rust_admits_own_token rule agentId call]
      exact gated.rust tokenEnv rule
    · intro tokenEnv rule
      rw [← swift_admits_own_token rule call]
      exact gated.swift tokenEnv rule
  · intro same
    constructor
    · intro tokenEnv rule
      exact iff_of_false (python_admits_nobody rule call) (same.python tokenEnv rule)
    · intro tokenEnv rule
      rw [rust_admits_own_token rule agentId call]
      exact same.rust tokenEnv rule
    · intro tokenEnv rule
      rw [swift_admits_own_token rule call]
      exact same.swift tokenEnv rule
    · intro other _
      constructor
      · intro tokenEnv rule
        exact iff_of_false (python_admits_nobody rule other) (python_admits_nobody rule call)
      · constructor
        · intro tokenEnv rule
          rw [rust_admits_own_token rule, rust_admits_own_token rule]
        · intro tokenEnv rule
          rw [swift_admits_own_token rule, swift_admits_own_token rule]

/-- A record that carries the secret it is to be opened with. -/
def heldSecret : Dict :=
  (OrderedDict.empty.insert "ingress_rule" (.str "password")).insert "auth_token" (.str "hush")

def quietRead : StreamCall where
  verb := "read_stream"
  stream := List.mem_cons_self
  payload := .empty
  token := none

/-- A call without a credential is let in by an agent that holds the secret itself. -/
theorem own_token_opens_the_edge : ¬ ∀ (process : Process) (record : Dict)
    (debug : Value → String) (metadata : Dict) (agentId : String)
    (environment : String → Option String) (agent : Swift.Agent) (call : StreamCall),
    GatedByCaller process record debug metadata agentId environment agent call := by
  intro always
  let process : Process := { Python.workDir with env := fun _ => some (.text "hush") }
  let agent : Swift.Agent := .new
    { id := "files", handlerModule := none, parentId := none, metadata := .empty } []
  have gated := always process heldSecret (fun _ => "") heldSecret "files" (fun _ => none) agent
    quietRead
  have rule : Rust.legRule (fun _ => "") heldSecret = .ok (.password Bridge.defaultTokenEnv) := by
    rfl
  have admitted : rustAdmits process.env (fun _ => "") heldSecret "files" quietRead := by
    rw [rust_admits_own_token rule]
    exact ⟨"hush", by decide, rfl, rfl⟩
  obtain ⟨secret, _, _, presented⟩ := (gated.rust _ rule).mp admitted
  cases presented

end Fantastic.Parity

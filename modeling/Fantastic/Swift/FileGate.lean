import Fantastic.Bridge.SealedEdge
import Fantastic.Swift.Gate

/-!
# The gate of the Swift file bundle

`gateVerb` and the two channels of the stream verbs of `FileBundle.swift`. As in Rust, a call
is a target and a payload; what an admitted stream verb does is a parameter.
-/

namespace Fantastic.Swift

/-- `gateVerb`: `none` admits. -/
def gateVerb (environment : String → Option String) (ingressRule auth : Option Value)
    (authToken : Option String) (agentId verb : String) : Option Value :=
  if verb = "reflect" ∨ verb = "boot" ∨ verb = "shutdown" then none
  else
    match resolveIngress ingressRule auth with
    | .error failure => some (.dict [("error", .str failure)])
    | .ok rule =>
      match authorize environment rule
          { kind := .call, target := agentId, verb := verb, token := authToken } with
      | .deny reason =>
        some (.dict [("error", .str reason), ("reason", .str "unauthorized"),
          ("hint", .str "the fs edge is sealed; open it: update_agent <id> ingress_rule=allow_all")])
      | .allow => none

namespace FileBundle

/-- The gate with what `handle` and `handleBinary` hand it. -/
def gate (environment : String → Option String) (agent : Agent) (verb : String) : Option Value :=
  gateVerb environment (agent.metaValue "ingress_rule") (agent.metaValue "auth")
    ((agent.metaValue "auth_token").bind asString) agent.id verb

/-- `handleBinary` for a stream verb. -/
def handleBinary (environment : String → Option String)
    (stream : Dict → List UInt8 → Value × List UInt8) (agent : Agent) (verb : String)
    (header : Dict) (blob : List UInt8) : Value × List UInt8 :=
  match gate environment agent verb with
  | some denied => (denied, [])
  | none => stream header blob

end FileBundle

/-- A password lets a call in with the secret and with nothing else. -/
theorem authorize_password (environment : String → Option String) (tokenEnv : String)
    {action : AuthAction} (call : action.kind = .call) :
    authorize environment (.password tokenEnv) action = .allow ↔
      ∃ secret, secret ≠ "" ∧ environment tokenEnv = some secret ∧ action.token = some secret := by
  unfold authorize
  simp only [call, ne_eq, not_true_eq_false, if_false]
  cases held : environment tokenEnv with
  | none => simp
  | some secret =>
    by_cases empty : secret = ""
    · simp [empty, Option.filter]
    · cases presented : action.token with
      | none => simp [Option.filter, empty]
      | some token =>
        by_cases same : token = secret
        · subst same
          have equal := (Bridge.Rust.tokens_equal_iff token token).mpr rfl
          simp [Option.filter, empty, equal]
        · have differs : Bridge.Rust.constantTimeEq (utf8 token) (utf8 secret) = false := by
            rw [← Bool.not_eq_true, Bridge.Rust.tokens_equal_iff]
            exact same
          simp [Option.filter, empty, differs, Ne.symm same]

end Fantastic.Swift

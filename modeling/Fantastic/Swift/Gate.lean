import Fantastic.Bridge.IngressRules
import Fantastic.Swift.Frame
import Fantastic.Swift.Kernel

/-!
# Ingress rules of the Swift legs

`FantasticIoBridge`: `Authorizer.swift`, `IngressRules` and the gate of a web leg. As in
Python and Rust an absent rule is the seal, and a rule is asked about calls only.
-/

namespace Fantastic.Swift

open Bridge (ActionKind defaultTokenEnv)

structure AuthAction where
  kind : ActionKind
  target : String
  verb : String
  token : Option String

inductive AuthDecision where
  | allow
  | deny (reason : String)
  deriving DecidableEq

inductive IngressRule where
  | allowAll
  | denyInbound
  | password (tokenEnv : String)
  deriving DecidableEq

/-- `AuthPolicyError`, by its message. -/
abbrev AuthPolicyError := String

/-- `parseSpec`. -/
def parseSpec : Option Value → Except AuthPolicyError (Option String × Option String)
  | none => .ok (none, none)
  | some .null => .ok (none, none)
  | some (.str text) => if text = "" then .ok (none, none) else .ok (some text, none)
  | some (.dict members) =>
    match ((members.lookup "type").bind asString).or ((members.lookup "policy").bind asString) with
    | none => .error "rule object missing 'type'"
    | some name => .ok (some name,
        ((members.lookup "env").bind asString).or ((members.lookup "token_env").bind asString))
  | some _ => .error "unsupported rule spec"

/-- `IngressRules.resolve`. -/
def resolveRule (spec : Option Value) : Except AuthPolicyError IngressRule := do
  let (name, env) ← parseSpec spec
  match name with
  | none => return .denyInbound
  | some "deny_inbound" => return .denyInbound
  | some "allow_all" => return .allowAll
  | some "password" => return .password (env.getD defaultTokenEnv)
  | some other => throw ("unknown ingress rule type \"" ++ other ++ "\"")

/-- `resolveIngress`. -/
def resolveIngress (ingressRule auth : Option Value) : Except AuthPolicyError IngressRule :=
  resolveRule (ingressRule.or auth)

/-- `rule.authorize`. `environment` is that of the process. -/
def authorize (environment : String → Option String) (rule : IngressRule) (action : AuthAction) :
    AuthDecision :=
  match rule with
  | .allowAll => .allow
  | .denyInbound =>
    if action.kind = .call then .deny "inbound calls denied by policy" else .allow
  | .password tokenEnv =>
    if action.kind ≠ .call then .allow
    else
      match (environment tokenEnv).filter fun secret => secret ≠ "" with
      | none => .deny ("group token unset (" ++ tokenEnv ++ ")")
      | some expected =>
        match action.token with
        | some presented =>
          if Bridge.Rust.constantTimeEq (utf8 presented) (utf8 expected) then .allow
          else .deny "invalid or missing group token"
        | none => .deny "invalid or missing group token"

/-- The rule of a leg as its record has it now. -/
def legRule (leg : Agent) : Except AuthPolicyError IngressRule :=
  resolveIngress (leg.metaValue "ingress_rule") (leg.metaValue "auth")

/-- `gateWebLeg`: `none` admits. A leg that is gone admits too. -/
def gateWebLeg (environment : String → Option String) (kernel : Kernel) (legId target verb : String)
    (token : Option String) : Option Value :=
  match kernel.agent legId with
  | none => none
  | some leg =>
    match legRule leg with
    | .error failure => some (.dict [("error", .str failure)])
    | .ok rule =>
      match authorize environment rule
          { kind := .call, target := target, verb := verb, token := token } with
      | .deny reason =>
        some (.dict [("error", .str reason), ("reason", .str "unauthorized")])
      | .allow => none

/-- The leg is there and its rule is the seal. -/
def Sealed (kernel : Kernel) (legId : String) : Prop :=
  ∃ leg, kernel.agent legId = some leg ∧ legRule leg = .ok .denyInbound

theorem gateWebLeg_sealed {kernel : Kernel} {legId : String} (closed : Sealed kernel legId)
    (environment : String → Option String) (target verb : String) (token : Option String) :
    ∃ denied, gateWebLeg environment kernel legId target verb token = some denied := by
  obtain ⟨leg, found, rule⟩ := closed
  unfold gateWebLeg
  simp only [found, rule]
  exact ⟨_, rfl⟩

end Fantastic.Swift

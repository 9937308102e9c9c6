import Fantastic.Bridge.Posture
import Fantastic.Bridge.SealedEdge

/-!
# The credential between two kernels

The egress rules of `fantastic-io-bridge` and the frame that `forward` of `fantastic-bridge`
sends, before the ingress rule of the peer, which runs Rust or Python.
-/

namespace Fantastic.Bridge

open Fantastic.Python.Socket (field inboundAction)

namespace Rust

inductive EgressRule where
  | silent
  | password (tokenEnv : String)

/-- `EgressRule::credential`. -/
def credential (env : Environment) : EgressRule → Option String
  | .silent => none
  | .password tokenEnv => envToken env tokenEnv

/-- The frame of a `forward`, stamped with what the egress rule presents. -/
def forwardFrame (env : Environment) (rule : EgressRule) (corr target : String) (inner : Value) :
    List (String × Value) :=
  [("type", .str "call"), ("id", .str corr), ("target", .str target), ("payload", inner)] ++
    ((credential env rule).map fun token => ("auth_token", Value.str token)).toList

end Rust

/-- The egress rule presents a secret that the peer keeps under the name its rule gives. -/
def Shared (ours theirs : Environment) (egress : Rust.EgressRule) (tokenEnv secret : String) :
    Prop :=
  secret ≠ "" ∧ theirs tokenEnv = some (.text secret) ∧
    ∃ own, egress = .password own ∧ ours own = some (.text secret)

section Handshake

variable (ours theirs : Environment) (egress : Rust.EgressRule) (corr target : String)
  (inner : Value)

theorem stamped_token :
    (Rust.forwardFrame ours egress corr target inner).lookup "auth_token" =
      (Rust.credential ours egress).map Value.str := by
  cases presented : Rust.credential ours egress <;>
    simp [Rust.forwardFrame, presented, List.lookup_cons]

theorem credential_iff (secret : String) :
    Rust.credential ours egress = some secret ↔
      secret ≠ "" ∧ ∃ own, egress = .password own ∧ ours own = some (.text secret) := by
  cases egress with
  | silent => simp [Rust.credential]
  | password own =>
    cases held : ours own with
    | none => simp [Rust.credential, Rust.envToken, held]
    | some value =>
      cases value with
      | undecodable => simp [Rust.credential, Rust.envToken, held]
      | text text =>
        by_cases empty : text = "" <;> simp [Rust.credential, Rust.envToken, held, empty]
        exact fun same => same ▸ empty

variable {ours theirs egress} {action : Action}

theorem secretMatches_iff (token : action.token = Rust.credential ours egress)
    (tokenEnv : String) :
    SecretMatches theirs tokenEnv action ↔ ∃ secret, Shared ours theirs egress tokenEnv secret := by
  simp only [SecretMatches, Shared, token, credential_iff]
  tauto

theorem python_password_iff (token : action.token = Rust.credential ours egress)
    (tokenEnv : String) :
    Python.verdict (Python.authorizePassword theirs tokenEnv action) = some true ↔
      ∃ secret, Python.isAscii secret = true ∧ Shared ours theirs egress tokenEnv secret := by
  by_cases ascii : AsciiComparison theirs tokenEnv action
  · rw [(Python.password_compared theirs tokenEnv action ascii).1, secretMatches_iff token]
    refine exists_congr fun secret => ⟨fun shared => ⟨?_, shared⟩, And.right⟩
    have presented : action.token = some secret := by
      rw [token, credential_iff]
      exact ⟨shared.1, shared.2.2⟩
    have held : Python.envToken theirs tokenEnv = some (.text secret) := by
      simp [Python.envToken, shared.2.1, shared.1]
    exact (ascii secret presented _ held).1
  · rw [Python.password_raises theirs tokenEnv action ascii]
    simp only [reduceCtorEq, false_iff, not_exists, not_and]
    intro secret plain shared
    refine ascii fun presented found expected held => ?_
    rw [token, (credential_iff ours egress secret).mpr ⟨shared.1, shared.2.2⟩] at found
    simp only [Python.envToken, shared.2.1, shared.1, if_false, Option.some.injEq] at held found
    subst found held
    exact ⟨plain, secret, rfl, plain⟩

/-- A peer takes the call of a leg exactly if its edge is open, or both legs go by `password` and
the two kernels keep one secret under the names of their rules; for a Python peer it must be
ASCII. -/
theorem handshake_iff (ours theirs : Environment) (egress : Rust.EgressRule)
    (corr target : String) (inner : Value) :
    (∀ ingress, Rust.authorize theirs ingress
        (Rust.callAction (Rust.forwardFrame ours egress corr target inner)) = .allow ↔
      ingress = .allowAll ∨ ∃ tokenEnv, ingress = .password tokenEnv ∧
        ∃ secret, Shared ours theirs egress tokenEnv secret) ∧
    ∀ ingress, Python.verdict (Python.authorize theirs ingress (inboundAction
        .call "call" (Rust.forwardFrame ours egress corr target inner))) = some true ↔
      ingress = .allowAll ∨ ∃ tokenEnv, ingress = .password tokenEnv ∧
        ∃ secret, Python.isAscii secret = true ∧ Shared ours theirs egress tokenEnv secret := by
  have stamped := stamped_token ours egress corr target inner
  constructor
  · intro ingress
    cases ingress with
    | allowAll => simp [Rust.authorize]
    | denyInbound => simp [Rust.authorize, Rust.authorizeDenyInbound, Rust.callAction]
    | password tokenEnv =>
      have token : (Rust.callAction (Rust.forwardFrame ours egress corr target inner)).token =
          Rust.credential ours egress := by
        simp only [Rust.callAction, stamped]
        cases Rust.credential ours egress <;> rfl
      have decided := (Rust.password_call theirs tokenEnv _ rfl).1.trans
        (secretMatches_iff token tokenEnv)
      simp only [reduceCtorEq, Rust.IngressRule.password.injEq, exists_eq_left', false_or]
      rw [← decided, Rust.authorize]
      cases Rust.authorizePassword theirs tokenEnv _ <;> simp [Rust.verdict]
  · intro ingress
    cases ingress with
    | allowAll => simp [Python.authorize, Python.verdict, Python.Decision.allow]
    | denyInbound => simp [Python.authorize, Python.verdict, Python.authorizeDenyInbound]
    | password tokenEnv =>
      have token : (inboundAction .call "call"
          (Rust.forwardFrame ours egress corr target inner)).token = Rust.credential ours egress := by
        simp only [inboundAction, field, stamped]
        cases Rust.credential ours egress <;> rfl
      rw [Python.authorize, python_password_iff token]
      simp

end Handshake

end Fantastic.Bridge

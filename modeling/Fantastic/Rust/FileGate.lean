import Fantastic.Bridge.SealedEdge
import Fantastic.Rust.WebSeal

/-!
# The gate of the Rust file bridge

`gate` of `fantastic-file` and the two channels of its stream verbs. A call reaches the
bundle as a target and a payload; the header of the frame that carried it stays behind in
the leg. What a stream verb does to the disk once it is admitted is a parameter.
-/

namespace Fantastic.Rust.FileBundle

open Fantastic.Bridge (Action Environment)
open Fantastic.Bridge.Rust (Decision authorize)

/-- `meta.get(key).and_then(Value::as_str)`. -/
def textMember (metadata : Dict) (key : String) : Option String :=
  match metadata.get? key with
  | some (.str text) => some text
  | _ => none

def sealedHint : String :=
  "the fs edge is sealed; open it: update_agent <id> ingress_rule=allow_all"

/-- `gate`: `none` admits. -/
def gate (env : Environment) (debug : Value → String) (metadata : Dict) (agentId verb : String) :
    Option Value :=
  if verb ∈ ["reflect", "boot", "shutdown"] then none
  else
    match legRule debug metadata with
    | .error failure => some (.dict [("error", .str failure)])
    | .ok rule =>
      let action : Action :=
        { kind := .call
          target := agentId
          verb := verb
          payload := .empty
          token := textMember metadata "auth_token" }
      match authorize env rule action with
      | .deny reason =>
        some (.dict [("error", .str reason), ("reason", .str "unauthorized"),
          ("hint", .str sealedHint)])
      | .allow => none

/-- `handle` for a stream verb: the text channel carries no bytes. -/
def handleStream (env : Environment) (debug : Value → String) (metadata : Dict)
    (agentId verb : String) : Value :=
  match gate env debug metadata agentId verb with
  | some denied => denied
  | none => .dict [("error", .str (verb ++ " carries raw bytes — call it on the binary channel" ++
      " (send_with_binary), not text send"))]

/-- `handle_binary` for a stream verb. -/
def handleBinary (env : Environment) (debug : Value → String)
    (stream : Dict → List UInt8 → Value × List UInt8) (metadata : Dict) (agentId verb : String)
    (header : Dict) (blob : List UInt8) : Value × List UInt8 :=
  match gate env debug metadata agentId verb with
  | some denied => (denied, [])
  | none => stream header blob

/-- Under a password the gate asks for the token in the agent's own record. -/
theorem gate_password {env : Environment} {debug : Value → String} {metadata : Dict}
    {tokenEnv : String} (rule : legRule debug metadata = .ok (.password tokenEnv))
    {verb : String} (gated : verb ∉ ["reflect", "boot", "shutdown"]) (agentId : String) :
    gate env debug metadata agentId verb = none ↔
      Bridge.SecretMatches env tokenEnv
        { kind := .call
          target := agentId
          verb := verb
          payload := .empty
          token := textMember metadata "auth_token" } := by
  rw [← (Bridge.Rust.password_call env tokenEnv _ rfl).1]
  unfold gate
  rw [if_neg gated, rule]
  simp only [authorize]
  split
  case h_1 reason denied => simp [denied, Bridge.Rust.verdict]
  case h_2 allowed => simp [allowed, Bridge.Rust.verdict]

end Fantastic.Rust.FileBundle

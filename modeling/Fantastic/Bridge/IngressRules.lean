import Fantastic.Foundation.Utf8
import Fantastic.Python.Runtime

/-!
# Ingress rules, in Rust and in Python

The inbound filters of an io leg: `fantastic-io-bridge/src/authorizer` and
`io_bridge/ingress_rules`, each rule under its own name, and the registries that
resolve a rule from the spec in a record. A secret lives in the environment; a
value there that is not UTF-8 is `undecodable`: Rust sees no variable, Python sees a
text that is not ASCII.
-/

namespace Fantastic.Bridge

open Fantastic.Python (PyError Runtime getD truthy)

inductive ActionKind where
  | call
  | emit
  | watch
  | unwatch
  | stateSubscribe
  | openEdge
  deriving DecidableEq

/-- One inbound request of a peer. The Rust `Action` has no `payload`. -/
structure Action where
  kind : ActionKind
  target : String
  verb : String
  payload : Dict
  token : Option String

inductive EnvValue where
  | text (value : String)
  | undecodable
  deriving DecidableEq

abbrev Environment := String → Option EnvValue

def defaultTokenEnv : String := "FANTASTIC_GROUP_TOKEN"

/-! ### Rust -/

namespace Rust

inductive Decision where
  | allow
  | deny (reason : String)
  deriving DecidableEq

/-- `constant_time_eq`: the differences of all byte pairs, or-ed together. -/
def constantTimeEq (left right : List UInt8) : Bool :=
  if left.length ≠ right.length then false
  else (left.zip right).foldl (fun diff pair => diff ||| (pair.1 ^^^ pair.2)) 0 == 0

/-- `std::env::var(name).ok().filter(|s| !s.is_empty())`. -/
def envToken (env : Environment) (name : String) : Option String :=
  match env name with
  | some (.text value) => if value = "" then none else some value
  | _ => none

inductive IngressRule where
  | allowAll
  | denyInbound
  | password (tokenEnv : String)
  deriving DecidableEq

def authorizeDenyInbound (action : Action) : Decision :=
  if action.kind = .call then .deny "inbound calls denied by policy" else .allow

def authorizePassword (env : Environment) (tokenEnv : String) (action : Action) : Decision :=
  if action.kind ≠ .call then .allow
  else
    match envToken env tokenEnv with
    | none => .deny ("group token unset (" ++ tokenEnv ++ ")")
    | some expected =>
      match action.token with
      | some presented =>
        if constantTimeEq (utf8 presented) (utf8 expected) then .allow
        else .deny "invalid or missing group token"
      | none => .deny "invalid or missing group token"

def authorize (env : Environment) (rule : IngressRule) (action : Action) : Decision :=
  match rule with
  | .allowAll => .allow
  | .denyInbound => authorizeDenyInbound action
  | .password tokenEnv => authorizePassword env tokenEnv action

/-- `o.get(name).or_else(|| o.get(other)).and_then(Value::as_str)`. -/
def textField (members : List (String × Value)) (name other : String) : Option String :=
  match (members.lookup name).or (members.lookup other) with
  | some (.str text) => some text
  | _ => none

/-- `parse_spec`. `debug` is the `{:?}` of a JSON value. -/
def parseSpec (debug : Value → String) :
    Option Value → Except String (Option String × Option String)
  | none => .ok (none, none)
  | some .null => .ok (none, none)
  | some (.str text) => if text = "" then .ok (none, none) else .ok (some text, none)
  | some (.dict members) =>
    match textField members "type" "policy" with
    | none => .error "rule object missing 'type'"
    | some name => .ok (some name, textField members "env" "token_env")
  | some other => .error ("unsupported rule spec " ++ debug other)

/-- `ingress::resolve`: an absent spec is the seal. -/
def resolve (debug : Value → String) (spec : Option Value) : Except String IngressRule := do
  let (name, tokenEnv) ← parseSpec debug spec
  match name with
  | none => return .denyInbound
  | some "deny_inbound" => return .denyInbound
  | some "allow_all" => return .allowAll
  | some "password" => return .password (tokenEnv.getD defaultTokenEnv)
  | some other => throw ("unknown ingress rule type " ++ debug (.str other))

end Rust

/-! ### Python -/

namespace Python

structure Decision where
  allowed : Bool
  reason : String
  hint : String
  see : String
  deriving DecidableEq

/-- `ALLOW`. -/
def Decision.allow : Decision where
  allowed := true
  reason := ""
  hint := ""
  see := ""

/-- `Decision(False, reason)`. -/
def Decision.refuse (reason : String) : Decision where
  allowed := false
  reason := reason
  hint := ""
  see := ""

def isAscii (text : String) : Bool :=
  text.toList.all fun char => decide (char.toNat < 128)

/-- `hmac.compare_digest` on two texts: both have to be ASCII. -/
def compareDigest (presented : String) (expected : EnvValue) : Except PyError Bool :=
  match expected with
  | .undecodable => .error .typeError
  | .text secret =>
    if isAscii presented && isAscii secret then .ok (decide (presented = secret))
    else .error .typeError

/-- `os.environ.get(name) or None`. -/
def envToken (env : Environment) (name : String) : Option EnvValue :=
  match env name with
  | some (.text value) => if value = "" then none else some (.text value)
  | other => other

inductive IngressRule where
  | allowAll
  | denyInbound
  | password (tokenEnv : String)
  deriving DecidableEq

def authorizeDenyInbound (_ : Action) : Decision where
  allowed := false
  reason := "edge sealed by policy"
  hint := "this edge is sealed — open it: update_agent <id> ingress_rule=allow_all" ++
    " (or password); reflect readme=true on this agent for the channel model"
  see := ""

def authorizePassword (env : Environment) (tokenEnv : String) (action : Action) :
    Except PyError Decision :=
  match envToken env tokenEnv with
  | none => .ok (.refuse ("group token unset (" ++ tokenEnv ++ ")"))
  | some expected =>
    match action.token with
    | none => .ok (.refuse "invalid or missing group token")
    | some presented => do
        if ← compareDigest presented expected then return .allow
        else return .refuse "invalid or missing group token"

def authorize (env : Environment) (rule : IngressRule) (action : Action) :
    Except PyError Decision :=
  match rule with
  | .allowAll => .ok .allow
  | .denyInbound => .ok (authorizeDenyInbound action)
  | .password tokenEnv => authorizePassword env tokenEnv action

/-- `parse_spec`: the name of the rule and its configuration, `env` folded to
`token_env`. A truthy spec that is neither a text nor a dict has no `get`. -/
def parseSpec (spec : Value) : Except PyError (Value × List (String × Value)) :=
  if !truthy spec then .ok (.null, [])
  else
    match spec with
    | .str name => .ok (.str name, [])
    | .dict members =>
      let typed := (members.lookup "type").getD .null
      let name := if truthy typed then typed else (members.lookup "policy").getD .null
      .ok (name, (members.filter fun member => member.1 ∉ ["type", "policy"]).map fun member =>
        (if member.1 = "env" then "token_env" else member.1, member.2))
    | _ => .error .attributeError

/-- `construct(Password, cfg)`. A `token_env` that is no text fails when the
environment is asked for it, which every `authorize` does first. -/
def constructPassword (config : List (String × Value)) : Except PyError IngressRule :=
  match (config.filter fun member => member.1 = "token_env").getLast? with
  | none => .ok (.password defaultTokenEnv)
  | some (_, .str name) => .ok (.password name)
  | some _ => .error .typeError

/-- `resolve_ingress`: an absent rule is the seal. -/
def resolveIngress (runtime : Runtime) (record : Dict) : Except PyError IngressRule := do
  let spec :=
    if record.contains "ingress_rule" then getD record "ingress_rule" else getD record "auth"
  let (name, config) ← parseSpec spec
  match name with
  | .null => return .denyInbound
  | .str "allow_all" => return .allowAll
  | .str "deny_inbound" => return .denyInbound
  | .str "password" => constructPassword config
  | .list _ => throw .typeError
  | .dict _ => throw .typeError
  | other => throw (.valueError ("unknown ingress rule type " ++ runtime.repr other))

end Python

end Fantastic.Bridge

import Fantastic.Python.SocketProxy
import Fantastic.Rust.WebSeal

/-!
# The posture of a bridge leg

What decides whether a bridge dispatches an inbound call, in `io_bridge/_engine.py` and in
`fantastic-bridge`. The record is read by `reflect` and by `boot`; the read loop asks a rule
that a boot resolved. In Python that rule is one field of the bridge, in Rust each read loop
has its own. Boots, shutdowns and reconnects are cut at their awaits and appear by what they
do to the rules. They may come in any order, also in orders the engines exclude.
-/

namespace Fantastic.Bridge

/-! ### Python -/

namespace Python

open Fantastic.Python (PyError Runtime getD truthy)
open Fantastic.Python.Socket (inboundAction)

/-- `_ingress_name`, which `reflect` answers under `ingress_rule`. -/
def ingressName (record : Dict) : Except PyError Value := do
  let spec :=
    if record.contains "ingress_rule" then getD record "ingress_rule" else getD record "auth"
  let (name, _) ← parseSpec spec
  return if truthy name then name else .str "deny_inbound"

/-- One bridge agent. `connected` is what the check of `boot` asks, `rule` is `st.ingress`,
`boots` holds the record each boot under way has read, and `loops` counts the read loops that
run. `dispatched` lists the calls handed to the kernel, each with the record of that moment. -/
structure Leg where
  record : Dict
  connected : Bool
  rule : IngressRule
  boots : Nat → Option Dict
  begun : Nat
  loops : Nat
  dispatched : List (Dict × Action)

def Leg.fresh (record : Dict) : Leg where
  record := record
  connected := false
  rule := .denyInbound
  boots := fun _ => none
  begun := 0
  loops := 0
  dispatched := []

/-- `egressFine` says whether `resolve_egress` returns. `dropped` is a transport that says it
is closed, `torn` the end of a `_teardown`. -/
inductive Move where
  | update (patch : Dict)
  | boot
  | dialed (boot : Nat) (egressFine : Bool)
  | dialFailed (boot : Nat)
  | dropped
  | torn
  | loopEnded
  | call (frame : List (String × Value))

namespace Leg

variable (runtime : Runtime) (env : Environment) (leg : Leg)

/-- The transport of a boot is installed, and the rules of the record it read are resolved. A
rule that does not resolve leads into a teardown. -/
def install (boot : Nat) (record : Dict) (egressFine : Bool) : Leg :=
  let placed := { leg with boots := Function.update leg.boots boot none, connected := true }
  match resolveIngress runtime record with
  | .ok rule => { placed with rule := rule, loops := if egressFine then leg.loops + 1 else leg.loops }
  | .error _ => placed

/-- An inbound `call` in a read loop, which ends when the rule raises. -/
def call (frame : List (String × Value)) : Leg :=
  let action := inboundAction .call "call" frame
  match authorize env leg.rule action with
  | .ok decision =>
    if decision.allowed then { leg with dispatched := (leg.record, action) :: leg.dispatched }
    else leg
  | .error _ => { leg with loops := leg.loops - 1 }

def step (leg : Leg) : Move → Leg
  | .update patch => { leg with record := leg.record.update patch }
  | .boot =>
    if leg.connected then leg
    else { leg with
      boots := Function.update leg.boots leg.begun (some leg.record)
      begun := leg.begun + 1 }
  | .dialed boot egressFine =>
    match leg.boots boot with
    | some record => leg.install runtime boot record egressFine
    | none => leg
  | .dialFailed boot => { leg with boots := Function.update leg.boots boot none }
  | .dropped => { leg with connected := false }
  | .torn => { leg with connected := false, rule := .denyInbound }
  | .loopEnded => { leg with loops := leg.loops - 1 }
  | .call frame => if leg.loops = 0 then leg else leg.call env frame

end Leg

end Python

/-! ### Rust -/

namespace Rust

open Fantastic.Rust (legRule)

/-- `rule_name`. -/
def ruleName (spec : Option Value) (default : String) : String :=
  match spec with
  | some (.str text) => if text = "" then default else text
  | some (.dict members) => (textField members "type" "policy").getD default
  | _ => default

/-- What `reflect` answers under `ingress_rule`. -/
def ingressName (record : Dict) : String :=
  ruleName ((record.get? "ingress_rule").or (record.get? "auth")) "deny_inbound"

def frameText : Option Value → String
  | some (.str text) => text
  | _ => ""

/-- The `Action` that `read_loop` makes of a `call` frame. -/
def callAction (frame : List (String × Value)) : Action where
  kind := .call
  target := frameText (frame.lookup "target")
  verb :=
    match frame.lookup "payload" with
    | some (.dict members) => frameText (members.lookup "type")
    | _ => ""
  payload := .empty
  token :=
    match frame.lookup "auth_token" with
    | some (.str token) => some token
    | _ => none

/-- Where a boot is: in `connect`, or past its rules, with its read loop not spawned yet. -/
inductive Boot where
  | connecting
  | resolved (rule : IngressRule)
  deriving DecidableEq

/-- One bridge agent. `published` is the entry of `BRIDGES`; a read loop carries the number of
its boot, and `loops` holds the rule of each that runs. -/
structure Leg where
  record : Dict
  published : Option Nat
  boots : Nat → Option Boot
  begun : Nat
  loops : Nat → Option IngressRule
  dispatched : List (Dict × Action)

def Leg.fresh (record : Dict) : Leg where
  record := record
  published := none
  boots := fun _ => none
  begun := 0
  loops := fun _ => none
  dispatched := []

/-- `connected` is a boot whose `connect` returns and which goes on to resolve its rules. A
loop ends after an abort, or with its transport. -/
inductive Move where
  | update (patch : Dict)
  | boot
  | connected (boot : Nat) (egressFine : Bool)
  | connectFailed (boot : Nat)
  | spawned (boot : Nat)
  | inserted (boot : Nat)
  | shutdown
  | loopEnded (loop : Nat)
  | call (loop : Nat) (frame : List (String × Value))

namespace Leg

variable (debug : Value → String) (env : Environment) (leg : Leg)

def setBoot (boot : Nat) (next : Option Boot) : Leg :=
  { leg with boots := Function.update leg.boots boot next }

/-- The rules of a boot, resolved from the record as it is after the dial. -/
def resolveRules (boot : Nat) (egressFine : Bool) : Leg :=
  match legRule debug leg.record with
  | .ok rule => leg.setBoot boot (if egressFine then some (.resolved rule) else none)
  | .error _ => leg.setBoot boot none

/-- An inbound `call` in a read loop: an empty target is answered, whatever the rule says. -/
def call (rule : IngressRule) (frame : List (String × Value)) : Leg :=
  let action := callAction frame
  if action.target = "" then leg
  else match authorize env rule action with
    | .deny _ => leg
    | .allow => { leg with dispatched := (leg.record, action) :: leg.dispatched }

def step (leg : Leg) : Move → Leg
  | .update patch => { leg with record := leg.record.update patch }
  | .boot =>
    if leg.published.isSome then leg
    else { leg.setBoot leg.begun (some .connecting) with begun := leg.begun + 1 }
  | .connected boot egressFine =>
    if leg.boots boot = some .connecting then leg.resolveRules debug boot egressFine else leg
  | .connectFailed boot =>
    if leg.boots boot = some .connecting then leg.setBoot boot none else leg
  | .spawned boot =>
    match leg.boots boot with
    | some (.resolved rule) =>
      { leg.setBoot boot none with loops := Function.update leg.loops boot (some rule) }
    | _ => leg
  | .inserted boot => { leg with published := some boot }
  | .shutdown => { leg with published := none }
  | .loopEnded loop => { leg with loops := Function.update leg.loops loop none }
  | .call loop frame =>
    match leg.loops loop with
    | some rule => leg.call env rule frame
    | none => leg

end Leg

end Rust

end Fantastic.Bridge

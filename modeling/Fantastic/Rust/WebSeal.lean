import Fantastic.Rust.WebSurface

/-!
# Which inputs a sealed web leg lets through

No handler of the surface consults an ingress rule. A peer that connects is watching
the host at once, and a REST request that parses is sent, so the surface is silent
exactly on the inputs that hold neither.
-/

namespace Fantastic.Rust

open Fantastic.Bridge.Rust (IngressRule resolve)

variable {extractors : Extractors}

/-- The rule a leg's record resolves to: `ingress_rule`, else the `auth` shorthand. -/
def legRule (debug : Value → String) (record : Dict) : Except String IngressRule :=
  resolve debug ((record.get? "ingress_rule").or (record.get? "auth"))

/-- Everything but the surface's own error and acknowledgement frames. -/
def Effect.crosses : Effect → Bool
  | .notice _ _ => false
  | _ => true

/-- The surface neither touches the kernel for a peer nor hands it kernel data. -/
def Silent (serde : Serde) (extractors : Extractors) (inputs : List Input) : Prop :=
  ∀ effect ∈ (Surface.fresh.run serde extractors inputs).2, effect.crosses = false

/-- A leg whose record resolves to `deny_inbound` stays silent. -/
def SealHolds (debug : Value → String) (serde : Serde) (extractors : Extractors) (record : Dict)
    (inputs : List Input) : Prop :=
  legRule debug record = .ok .denyInbound → Silent serde extractors inputs

/-- A connection, or a request the framework hands to a REST handler. -/
def Opens (extractors : Extractors) : Input → Prop
  | .connect _ => True
  | .restPost _ _ body => (extractors.json body).isSome
  | .restReflectRoot _ query => (extractors.readme query).isSome
  | .restReflect _ _ query => (extractors.readme query).isSome
  | _ => False

/-- An absent spec is the seal. -/
theorem legRule_bare (debug : Value → String) {record : Dict}
    (noRule : record.get? "ingress_rule" = none) (noAuth : record.get? "auth" = none) :
    legRule debug record = .ok .denyInbound := by
  rw [legRule, noRule, noAuth]
  rfl

/-- An opening input crosses the edge whatever the surface went through before. -/
theorem opens_crosses (serde : Serde) {input : Input} (opening : Opens extractors input) (surface : Surface) :
    ∃ effect ∈ (surface.step serde extractors input).2, effect.crosses = true := by
  cases input with
  | connect host => exact ⟨.watch host surface.nextClient, by simp [Surface.step], rfl⟩
  | restPost owner target body =>
    rcases Option.isSome_iff_exists.mp opening with ⟨payload, parsed⟩
    exact ⟨.send owner target payload, by simp [Surface.step, parsed], rfl⟩
  | restReflectRoot owner query =>
    rcases Option.isSome_iff_exists.mp opening with ⟨readme, parsed⟩
    exact ⟨.send owner "kernel" (reflectPayload readme), by simp [Surface.step, parsed], rfl⟩
  | restReflect owner target query =>
    rcases Option.isSome_iff_exists.mp opening with ⟨readme, parsed⟩
    exact ⟨.send owner target (reflectPayload readme), by simp [Surface.step, parsed], rfl⟩
  | text client text => exact opening.elim
  | binary client bytes => exact opening.elim
  | disconnect client => exact opening.elim
  | traffic src payload => exact opening.elim
  | telemetry payload => exact opening.elim

/-- Without a connection, an input that opens nothing does nothing. -/
theorem step_unconnected (serde : Serde) {input : Input} (closed : ¬ Opens extractors input) {surface : Surface}
    (unconnected : surface.connections = .empty) :
    surface.step serde extractors input = (surface, []) := by
  cases input with
  | connect host => exact absurd trivial closed
  | restPost owner target body =>
    have rejected : extractors.json body = none := by simpa [Opens] using closed
    simp [Surface.step, rejected]
  | restReflectRoot owner query =>
    have rejected : extractors.readme query = none := by simpa [Opens] using closed
    simp [Surface.step, rejected]
  | restReflect owner target query =>
    have rejected : extractors.readme query = none := by simpa [Opens] using closed
    simp [Surface.step, rejected]
  | text client text => simp [Surface.step, Surface.onConnection, unconnected]
  | binary client bytes => simp [Surface.step, Surface.onConnection, unconnected]
  | disconnect client => simp [Surface.step, unconnected]
  | traffic src payload => simp [Surface.step, unconnected, OrderedDict.empty]
  | telemetry payload => simp [Surface.step, unconnected, OrderedDict.empty]

theorem run_unconnected (serde : Serde) {inputs : List Input}
    (closed : ∀ input ∈ inputs, ¬ Opens extractors input)
    {surface : Surface} (unconnected : surface.connections = .empty) :
    surface.run serde extractors inputs = (surface, []) := by
  induction inputs with
  | nil => rfl
  | cons input rest ih =>
    have quiet := step_unconnected serde (closed input List.mem_cons_self) unconnected
    have later := ih fun other member => closed other (List.mem_cons_of_mem _ member)
    simp [Surface.run, quiet, later]

theorem run_crosses (serde : Serde) {inputs : List Input} {input : Input} (member : input ∈ inputs)
    (opening : Opens extractors input) (surface : Surface) :
    ∃ effect ∈ (surface.run serde extractors inputs).2, effect.crosses = true := by
  induction inputs generalizing surface with
  | nil => exact absurd member (by simp)
  | cons first rest ih =>
    simp only [Surface.run, List.mem_append]
    rcases List.mem_cons.mp member with rfl | later
    · rcases opens_crosses serde opening surface with ⟨effect, performed, crosses⟩
      exact ⟨effect, .inl performed, crosses⟩
    · rcases ih later (surface.step serde extractors first).1 with ⟨effect, performed, crosses⟩
      exact ⟨effect, .inr performed, crosses⟩

/-- A web leg keeps its seal exactly on the inputs without a connection and without a
REST request that parses. -/
theorem sealHolds_iff (debug : Value → String) (serde : Serde) (extractors : Extractors)
    (record : Dict) (inputs : List Input) :
    SealHolds debug serde extractors record inputs ↔
      (legRule debug record = .ok .denyInbound → ∀ input ∈ inputs, ¬ Opens extractors input) := by
  refine imp_congr_right fun _ => ?_
  constructor
  · intro silent input member opening
    rcases run_crosses serde member opening Surface.fresh with ⟨effect, performed, crosses⟩
    rw [silent effect performed] at crosses
    exact absurd crosses (by simp)
  · intro closed effect performed
    rw [run_unconnected serde closed rfl] at performed
    exact absurd performed (by simp)

/-- A bare leg, one connection: the surface watches the host for the peer. -/
theorem connection_breaks_seal :
    ¬ SealHolds (fun _ => "") ⟨fun _ => [], fun _ => none⟩ ⟨fun _ => none, fun _ => none⟩ .empty
      [.connect "chat"] := by
  intro holds
  have silent := holds (legRule_bare _ rfl rfl) (.watch "chat" 0) (by simp [Surface.run, Surface.step,
    Surface.fresh])
  exact absurd silent (by simp [Effect.crosses])

end Fantastic.Rust

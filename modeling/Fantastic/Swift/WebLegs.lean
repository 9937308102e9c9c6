import Fantastic.Bridge.SealedEdge
import Fantastic.Swift.WebSocket
import Mathlib.Data.List.Infix

/-!
# The legs of a Swift web host

`HTTPServer.swift` with its mounted routes, `WebRestBundle` and the WebSocket connections of one
host, over one kernel. A request or a frame becomes a task, and tasks run when they like: a request
is first sent to the agent of its route and handled later, and between any two steps legs may be
made, changed and deleted. What a host serves by itself (pages and assets) is left out.

A call of the network reaches the kernel when `send` or `sendWithBinary` gets it. The gate asks the
leg's record each time, but a leg that is gone has no record and admits, and the reflect shortcuts
of REST do not ask at all.
-/

namespace Fantastic.Swift.Legs

open Bridge (ActionKind)

inductive RouteKind where
  | websocket
  | http
  deriving DecidableEq

structure RouteSpec where
  kind : RouteKind
  method : String
  template : List String
  ownerId : String

/-- `path.split(separator:)` and `RouteSpec.segments`: empty parts are left out. -/
def split (separator : Char) (text : List Char) : List (List Char) :=
  (text.splitOn separator).filter (· ≠ [])

def segments (path : String) : List String :=
  (split '/' path.toList).map String.ofList

/-- `uppercased()`, of a method. -/
def uppercased (method : String) : String :=
  String.ofList (method.toList.map Char.toUpper)

/-- `RouteSpec.init`. -/
def RouteSpec.make (kind : RouteKind) (method path ownerId : String) : RouteSpec where
  kind := kind
  method := uppercased method
  template := segments path
  ownerId := ownerId

/-- A segment in braces, without them. -/
def captured (segment : String) : Option String :=
  let chars := segment.toList
  if chars.head? = some '\x7b' ∧ chars.getLast? = some '\x7d' then
    some (String.ofList chars.tail.dropLast)
  else none

/-- The loop of `RouteSpec.match`; a later value of a name comes first. -/
def capture : List (String × String) → List (String × String) → Option (List (String × String))
  | params, [] => some params
  | params, (part, segment) :: rest =>
    match captured part with
    | some name => capture ((name, segment) :: params) rest
    | none => if part = segment then capture params rest else none

def RouteSpec.matches (spec : RouteSpec) (method : String) (segments : List String) :
    Option (List (String × String)) :=
  if spec.method = uppercased method ∧ spec.template.length = segments.length then
    capture [] (spec.template.zip segments)
  else none

/-- `matchRoute`: the first one. -/
def matchRoute (routes : List RouteSpec) (method : String) (segments : List String) :
    Option (RouteSpec × List (String × String)) :=
  routes.findSome? fun spec => (spec.matches method segments).map fun params => (spec, params)

/-- What a bundle answers to `get_routes`. -/
def getRoutes (leg : Agent) (childId : String) : List RouteSpec :=
  match leg.handlerModule with
  | some "web_rest.tools" =>
    [.make .http "POST" ("/" ++ leg.id ++ "/\x7btarget\x7d") childId,
      .make .http "GET" ("/" ++ leg.id ++ "/_reflect") childId,
      .make .http "GET" ("/" ++ leg.id ++ "/_reflect/\x7btarget\x7d") childId]
  | some "web_ws.tools" => [.make .websocket "GET" "/\x7bhost_id\x7d/ws" childId]
  | _ => []

/-- The credential is what the caller presents, in its `X-Fantastic-Auth` header. -/
structure HTTPRequest where
  method : String
  path : String
  credential : Option String
  body : Option Bytes

/-- What the legs take from elsewhere, besides what a connection does. -/
structure Host extends Proxy.Host where
  removingPercentEncoding : String → Option String

/-- One pair of `splitQuery`. -/
def Host.queryPair (host : Host) (pair : List Char) : Option (String × String) :=
  let trimmed := pair.dropWhile (· = '=')
  let key := trimmed.takeWhile (· ≠ '=')
  let value := String.ofList ((trimmed.drop key.length).drop 1)
  if key = [] then none
  else
    some (String.ofList key,
      if value = "" then "" else (host.removingPercentEncoding value).getD value)

/-- `splitQuery`; a later value of a name comes first. -/
def Host.splitQuery (host : Host) (path : String) : String × List (String × String) :=
  let before := path.toList.takeWhile (· ≠ '?')
  let query := path.toList.drop (before.length + 1)
  (String.ofList before, ((split '&' query).filterMap host.queryPair).reverse)

/-- A request under way: not routed yet, or in `handle_route` of the leg it was sent to. -/
inductive RestTask where
  | arrived (request : HTTPRequest)
  | handling (leg : Nat) (payload : Value) (credential : Option String)

structure Site where
  kernel : Kernel
  routes : List RouteSpec
  sockets : List Proxy.Connection
  requests : List RestTask

/-- Legs are made, changed, deleted and mounted; peers open connections and send requests; and
connections and requests go on. -/
inductive Step where
  | create (record : AgentRecord) (rootPath : FileUrl)
  | update (id : String) (patch : Dict)
  | delete (id : String)
  | mount (childId : String)
  | unmount (childId : String)
  | upgrade (uri clientId : String)
  | socket (index : Nat) (event : Proxy.Step)
  | request (request : HTTPRequest)
  | proceed (index : Nat)

/-- What the kernel is handed. -/
structure Delivery where
  target : String
  payload : Value

def delivery : Proxy.Effect → Option Delivery
  | .send target payload => some ⟨target, payload⟩
  | .sendWithBinary target payload _ => some ⟨target, payload⟩
  | _ => none

/-- The agent a `send` finds. -/
def resolve (kernel : Kernel) (id : String) : Option Nat :=
  if id = "kernel" then kernel.root else kernel.agents.get? id

def strings (pairs : List (String × String)) : Value :=
  .dict (pairs.map fun pair => (pair.1, .str pair.2))

/-- The reflect shortcuts build their own call. -/
def reflectCall (payload : Value) : Delivery where
  target := (asString (member (member payload "params") "target")).getD "kernel"
  payload :=
    let readme := asString (member (member payload "query") "readme")
    .dict (("type", .str "reflect") ::
      if readme = some "true" ∨ readme = some "1" then [("readme", .bool true)] else [])

/-- The call of a `POST`, if it has a target and its body is an object. -/
def Host.postCall (host : Host) (payload : Value) : Option Delivery :=
  match asString (member (member payload "params") "target") with
  | none => none
  | some target =>
    match host.parse ((asString (member payload "body")).getD "") with
    | some (.dict members) => some ⟨target, .dict members⟩
    | _ => none

def verb (payload : Value) : String :=
  (asString (member payload "type")).getD ""

/-- `handleRoute` up to its response. -/
def Host.handleRoute (host : Host) (kernel : Kernel) (legId : String) (payload : Value) :
    Kernel × List Delivery :=
  if (asString (member payload "method")).getD "GET" = "POST" then
    match host.postCall payload with
    | none => (kernel, [])
    | some call =>
      match gateWebLeg host.environment kernel legId call.target (verb call.payload)
          (asString (member payload "auth_token")) with
      | some _ => (kernel, [])
      | none => ((host.send kernel call.target call.payload).1, [call])
  else
    let call := reflectCall payload
    ((host.send kernel call.target call.payload).1, [call])

namespace Site

/-- The host's own routes come first. -/
def builtIn (method path : String) : Bool :=
  method = "GET" && (path = "/" || path = "/_fantastic/transport.js" || path = "/favicon.png" ||
    "/_assets/".toList.isPrefixOf path.toList)

/-- `dispatchHTTPRoute`: what the owner of the route is sent. -/
def handleRoutePayload (host : Host) (params query : List (String × String))
    (request : HTTPRequest) : Value :=
  .dict [("type", .str "handle_route"), ("method", .str request.method),
    ("path", .str request.path), ("params", strings params), ("query", strings query),
    ("body", .str ((request.body.bind host.decode).getD ""))]

/-- `handle(request:)` until a bundle of a leg has the request. An owner of another bundle answers
at once. -/
def routed (host : Host) (site : Site) (request : HTTPRequest) : Kernel × Option RestTask :=
  let (path, query) := host.splitQuery request.path
  if builtIn request.method path then (site.kernel, none)
  else
    match matchRoute site.routes request.method (segments path) with
    | some (spec, params) =>
      let payload := handleRoutePayload host params query request
      match spec.kind, resolve site.kernel spec.ownerId with
      | .http, some leg =>
        if (site.kernel.heap leg).handlerModule = some "web_rest.tools" then
          (site.kernel, some (.handling leg payload request.credential))
        else ((host.send site.kernel spec.ownerId payload).1, none)
      | _, _ => (site.kernel, none)
    | none => (site.kernel, none)

/-- One step of a request; a handled one ends with the fan-out to the leg's watchers. -/
def proceed (host : Host) (site : Site) (index : Nat) : Site × List Delivery :=
  match site.requests[index]? with
  | none => (site, [])
  | some (.arrived request) =>
    match site.routed host request with
    | (kernel, none) =>
      ({ site with kernel := kernel, requests := site.requests.eraseIdx index }, [])
    | (kernel, some task) =>
      ({ site with kernel := kernel, requests := site.requests.set index task }, [])
  | some (.handling leg payload _) =>
    let (kernel, calls) := host.handleRoute site.kernel (site.kernel.heap leg).id payload
    ({ site with
        kernel := kernel.fanoutToWatchers (kernel.heap leg) payload
        requests := site.requests.eraseIdx index }, calls)

/-- A connection sees the kernel as it is now. -/
def attached (site : Site) (connection : Proxy.Connection) : Proxy.Connection :=
  { connection with kernel := site.kernel, effects := [] }

def socket (host : Host) (site : Site) (index : Nat) (event : Proxy.Step) : Site × List Delivery :=
  match site.sockets[index]? with
  | none => (site, [])
  | some connection =>
    let after := (site.attached connection).step host.toHost event
    ({ site with kernel := after.kernel, sockets := site.sockets.set index after },
      after.effects.filterMap delivery)

/-- The upgrade of a `GET` on a mounted WebSocket route. -/
def upgrade (host : Host) (site : Site) (uri clientId : String) : Site :=
  match matchRoute site.routes "GET" (segments (host.splitQuery uri).1) with
  | some (spec, params) =>
    match spec.kind, params.lookup "host_id" with
    | .websocket, some hostId =>
      let opened := (Proxy.Connection.fresh site.kernel hostId spec.ownerId clientId).handlerAdded
      { site with kernel := opened.kernel, sockets := site.sockets ++ [opened] }
    | _, _ => site
  | none => site

/-- `mountSurface`: the child is sent `get_routes`, and only one with routes replaces its own. -/
def mount (site : Site) (childId : String) : Site :=
  match resolve site.kernel childId with
  | none => site
  | some leg =>
    let agent := site.kernel.heap leg
    let asked := site.kernel.fanoutToWatchers agent (.dict [("type", .str "get_routes")])
    match getRoutes agent childId with
    | [] => { site with kernel := asked }
    | specs => { site with
        kernel := asked
        routes := site.routes.filter (fun spec => spec.ownerId ≠ childId) ++ specs }

def advance (host : Host) (site : Site) : Step → Site × List Delivery
  | .create record rootPath =>
    let kernel := site.kernel
    ({ site with
        kernel := (kernel.allocate (Agent.new record rootPath)).register kernel.allocated }, [])
  | .update id patch =>
    match site.kernel.agents.get? id with
    | none => (site, [])
    | some ref =>
      ({ site with kernel := site.kernel.modify ref fun agent =>
          { agent with metadata := agent.metadata.update patch } }, [])
  | .delete id => ({ site with kernel := site.kernel.unregister id }, [])
  | .mount childId => (site.mount childId, [])
  | .unmount childId =>
    ({ site with routes := site.routes.filter fun spec => spec.ownerId ≠ childId }, [])
  | .upgrade uri clientId => (site.upgrade host uri clientId, [])
  | .socket index event => site.socket host index event
  | .request request => ({ site with requests := site.requests ++ [.arrived request] }, [])
  | .proceed index => site.proceed host index

def run (host : Host) (site : Site) (steps : List Step) : Site :=
  steps.foldl (fun current step => (current.advance host step).1) site

/-- A host that has just started. -/
def start (kernel : Kernel) : Site where
  kernel := kernel
  routes := []
  sockets := []
  requests := []

end Site

/-! ### What a leg lets through -/

/-- A call of the network, with the leg it came through and the token its caller presented. -/
structure NetworkCall where
  legId : String
  call : Delivery
  token : Option String

/-- The leg is registered, and the rule of its record allows the call. -/
def Admitted (environment : String → Option String) (kernel : Kernel) (network : NetworkCall) :
    Prop :=
  ∃ leg rule, kernel.agent network.legId = some leg ∧ legRule leg = .ok rule ∧
    authorize environment rule
      { kind := .call
        target := network.call.target
        verb := verb network.call.payload
        token := network.token } = .allow

/-- The call of a frame's task. -/
def taskCall (legId : String) : Proxy.PeerTask → Option NetworkCall
  | .call target payload _ token => some ⟨legId, ⟨target, payload⟩, token⟩
  | .emit _ _ => none
  | .binaryCall target inner _ token _ => some ⟨legId, ⟨target, inner⟩, token⟩

/-- The call of a request that a leg handles. -/
def Host.restCall (host : Host) (payload : Value) : Option Delivery :=
  if (asString (member payload "method")).getD "GET" = "POST" then host.postCall payload
  else some (reflectCall payload)

/-- The call a step is about, before any gate. -/
def processed (host : Host) (site : Site) : Step → Option NetworkCall
  | .socket index (.runTask task) =>
    (site.sockets[index]?).bind fun connection =>
      (connection.tasks[task]?).bind (taskCall connection.legId)
  | .proceed index =>
    match site.requests[index]? with
    | some (.handling leg payload credential) =>
      (host.restCall payload).map fun call => ⟨(site.kernel.heap leg).id, call, credential⟩
    | _ => none
  | _ => none

/-- What a step hands to the kernel is the call it is about, and the leg admits that now. -/
def Closed (host : Host) (site : Site) (step : Step) : Prop :=
  ∀ call ∈ (site.advance host step).2, ∃ network, processed host site step = some network ∧
    network.call = call ∧ Admitted host.environment site.kernel network

/-- The rule of a record lets a caller with this token in. -/
def Opened (environment : String → Option String) (leg : Agent) (token : Option String) : Prop :=
  legRule leg = .ok .allowAll ∨ ∃ tokenEnv secret, legRule leg = .ok (.password tokenEnv) ∧
    environment tokenEnv = some secret ∧ secret ≠ "" ∧ token = some secret

/-- A gate finds its leg registered, and a request for a reflect shortcut finds it open. -/
def Attended (host : Host) (site : Site) : Step → Prop
  | .socket index (.runTask task) =>
    ∀ connection, site.sockets[index]? = some connection →
      ∀ network, (connection.tasks[task]?).bind (taskCall connection.legId) = some network →
        (site.kernel.agent connection.legId).isSome
  | .proceed index =>
    ∀ leg payload credential, site.requests[index]? = some (.handling leg payload credential) →
      if (asString (member payload "method")).getD "GET" = "POST" then
        (host.postCall payload).isSome →
          (site.kernel.agent (site.kernel.heap leg).id).isSome
      else
        ∃ agent, site.kernel.agent (site.kernel.heap leg).id = some agent ∧
          Opened host.environment agent credential
  | _ => True

/-! ### The gate -/

variable {host : Host} {site : Site}

/-- A rule allows a call exactly when it is open to the token. -/
theorem authorize_call_iff {environment : String → Option String} {leg : Agent}
    {rule : IngressRule} (resolved : legRule leg = .ok rule) (target verb : String)
    (token : Option String) :
    authorize environment rule { kind := .call, target := target, verb := verb, token := token } =
      .allow ↔ Opened environment leg token := by
  unfold authorize Opened
  rw [resolved]
  cases rule with
  | allowAll => simp
  | denyInbound => simp
  | password tokenEnv =>
    cases secret : environment tokenEnv with
    | none => simp [secret]
    | some expected =>
      by_cases blank : expected = ""
      · simp [secret, blank, Option.filter]
      · cases token with
        | none => simp [secret, blank, Option.filter]
        | some presented =>
          have compared := Bridge.Rust.tokens_equal_iff presented expected
          by_cases same : presented = expected
          · simp [secret, blank, same, Option.filter,
              (Bridge.Rust.tokens_equal_iff expected expected).mpr]
          · have differs : ¬ Bridge.Rust.constantTimeEq (utf8 presented) (utf8 expected) :=
              fun equal => same (compared.mp equal)
            simp [secret, blank, differs, Ne.symm same, Option.filter]

theorem admitted_iff {environment : String → Option String} {kernel : Kernel}
    (network : NetworkCall) :
    Admitted environment kernel network ↔
      ∃ leg, kernel.agent network.legId = some leg ∧ Opened environment leg network.token := by
  unfold Admitted
  constructor
  · intro ⟨leg, rule, found, resolved, allowed⟩
    exact ⟨leg, found, (authorize_call_iff resolved _ _ _).mp allowed⟩
  · intro ⟨leg, found, opened⟩
    obtain ⟨rule, resolved⟩ : ∃ rule, legRule leg = .ok rule := by
      obtain open_ | ⟨tokenEnv, _, open_, _⟩ := opened
      · exact ⟨_, open_⟩
      · exact ⟨_, open_⟩
    exact ⟨leg, rule, found, resolved, (authorize_call_iff resolved _ _ _).mpr opened⟩

/-- The gate of a registered leg admits what its rule opens to; that of a missing leg everything. -/
theorem gateWebLeg_none_iff {environment : String → Option String} {kernel : Kernel}
    {legId target verb : String} {token : Option String} :
    gateWebLeg environment kernel legId target verb token = none ↔
      ∀ leg, kernel.agent legId = some leg → Opened environment leg token := by
  unfold gateWebLeg
  cases found : kernel.agent legId with
  | none => simp
  | some leg =>
    cases resolved : legRule leg with
    | error failure =>
      simp [Opened, resolved]
    | ok rule =>
      simp only [Option.some.injEq, forall_eq']
      rw [← authorize_call_iff resolved target verb token]
      cases decision : authorize environment rule
          { kind := .call, target := target, verb := verb, token := token } with
      | allow => simp [resolved, decision]
      | deny reason => simp [resolved, decision]

/-! ### One step -/

/-- A frame that is read, and all else but a task, hands nothing to the kernel. -/
theorem socket_quiet (connection : Proxy.Connection) (event : Proxy.Step)
    (quiet : ∀ task, event ≠ .runTask task) :
    ((site.attached connection).step host.toHost event).effects.filterMap delivery = [] := by
  cases event with
  | runTask task => exact absurd rfl (quiet task)
  | handlerAdded =>
    simp only [Proxy.Connection.step, Proxy.Connection.handlerAdded, Proxy.Connection.watchFor]
    repeat' split
    all_goals simp [Site.attached, delivery]
  | text text =>
    simp only [Proxy.Connection.step, Proxy.Connection.handleText, Proxy.Connection.watchFor,
      Proxy.Connection.start]
    repeat' split
    all_goals simp [Site.attached, delivery]
  | binary data =>
    simp only [Proxy.Connection.step, Proxy.Connection.handleBinary, Proxy.Connection.start]
    split <;> simp [Site.attached]
  | drain =>
    simp only [Proxy.Connection.step, Proxy.Connection.drain]
    split <;> simp [Site.attached, Proxy.Connection.perform, delivery]
  | _ => simp [Proxy.Connection.step, Proxy.Connection.teardown, Proxy.Connection.elsewhere,
      Site.attached]

/-- A task hands over its own call, where the gate is silent. -/
theorem execute_deliveries {connection : Proxy.Connection} (task : Proxy.PeerTask)
    (silent : connection.effects = []) :
    (connection.execute host.toHost task).effects.filterMap delivery =
      match taskCall connection.legId task with
      | none => []
      | some network =>
        if gateWebLeg host.environment connection.kernel connection.legId network.call.target
          (verb network.call.payload) network.token = none then [network.call] else [] := by
  cases task with
  | call target payload id token =>
    simp only [Proxy.Connection.execute, Proxy.Connection.gate, taskCall]
    split
    case h_1 denied gated => simp [Proxy.Connection.perform, silent, delivery, verb, gated]
    case h_2 gated => simp [Proxy.Connection.perform, silent, delivery, verb, gated]
  | emit target payload =>
    simp [Proxy.Connection.execute, Proxy.Connection.perform, silent, delivery, taskCall]
  | binaryCall target inner id token blob =>
    simp only [Proxy.Connection.execute, Proxy.Connection.gate, taskCall]
    split
    case h_1 denied gated => simp [Proxy.Connection.perform, silent, delivery, verb, gated]
    case h_2 gated =>
      simp only [Proxy.Connection.perform, silent]
      split <;> simp [delivery, verb, gated]

/-- Where a gate without a leg admits, what passes it is right exactly when the leg is there. -/
theorem gate_sound_iff {environment : String → Option String} {kernel : Kernel}
    {presented : Option String} {network : NetworkCall}
    (same : presented = none ∨ presented = network.token) :
    (gateWebLeg environment kernel network.legId network.call.target (verb network.call.payload)
        presented = none → Admitted environment kernel network) ↔
      (kernel.agent network.legId).isSome := by
  rw [gateWebLeg_none_iff, admitted_iff]
  cases found : kernel.agent network.legId with
  | none => simp
  | some leg =>
    simp only [Option.some.injEq, forall_eq', exists_eq_left', Option.isSome_some, iff_true]
    intro opened
    obtain absent | present := same
    · -- a rule that asks no token is open to every token
      obtain everybody | ⟨_, secret, _, _, _, shown⟩ := opened
      · exact .inl everybody
      · rw [absent] at shown
        cases shown
    · rw [← present]
      exact opened

theorem closed_of_silent {step : Step} (silent : (site.advance host step).2 = []) :
    Closed host site step := by
  intro call handed
  rw [silent] at handed
  cases handed

theorem closed_iff_of_handed {step : Step} {network : NetworkCall} {passes : Prop}
    [Decidable passes] (about : processed host site step = some network)
    (handed : (site.advance host step).2 = if passes then [network.call] else []) :
    Closed host site step ↔ (passes → Admitted host.environment site.kernel network) := by
  unfold Closed
  rw [about, handed]
  by_cases through : passes
  · simp [through]
  · simp [through]

theorem closed_socket_iff (index : Nat) (event : Proxy.Step) :
    Closed host site (.socket index event) ↔ Attended host site (.socket index event) := by
  cases found : site.sockets[index]? with
  | none =>
    have silent : (site.advance host (.socket index event)).2 = [] := by
      simp [Site.advance, Site.socket, found]
    refine iff_of_true (closed_of_silent silent) ?_
    cases event <;> simp [Attended, found]
  | some connection =>
    have handed : (site.advance host (.socket index event)).2 =
        ((site.attached connection).step host.toHost event).effects.filterMap delivery := by
      simp [Site.advance, Site.socket, found]
    by_cases isTask : ∃ task, event = .runTask task
    · obtain ⟨task, rfl⟩ := isTask
      simp only [Attended, found, Option.some.injEq, forall_eq']
      simp only [Proxy.Connection.step, Proxy.Connection.runTask] at handed
      cases pending : connection.tasks[task]? with
      | none =>
        refine iff_of_true (closed_of_silent ?_) (by simp)
        simp only [handed, Site.attached, pending, List.filterMap_nil]
      | some work =>
        simp only [Site.attached, pending] at handed
        rw [execute_deliveries work rfl] at handed
        cases carried : taskCall connection.legId work with
        | none =>
          refine iff_of_true (closed_of_silent ?_) (by simp [carried])
          simp only [handed, carried]
        | some network =>
          have through : network.legId = connection.legId := by
            cases work <;> cases carried <;> rfl
          have about : processed host site (.socket index (.runTask task)) = some network := by
            simp [processed, found, pending, carried]
          simp only [carried] at handed
          rw [← through] at handed
          rw [closed_iff_of_handed about handed, gate_sound_iff (.inr rfl), through]
          simp [carried]
    · have quiet : ∀ task, event ≠ .runTask task := fun task same => isTask ⟨task, same⟩
      refine iff_of_true (closed_of_silent ?_) ?_
      · rw [handed, socket_quiet connection event quiet]
      · cases event with
        | runTask task => exact absurd rfl (quiet task)
        | _ => trivial

/-- No header of a request gets to the leg. -/
def Tokenless (site : Site) : Prop :=
  ∀ leg payload credential, .handling leg payload credential ∈ site.requests →
    member payload "auth_token" = .null

theorem closed_proceed_iff (tokenless : Tokenless site) (index : Nat) :
    Closed host site (.proceed index) ↔ Attended host site (.proceed index) := by
  cases found : site.requests[index]? with
  | none =>
    refine iff_of_true (closed_of_silent ?_) (by simp [Attended, found])
    simp [Site.advance, Site.proceed, found]
  | some work =>
    cases work with
    | arrived request =>
      refine iff_of_true (closed_of_silent ?_) (by simp [Attended, found])
      simp only [Site.advance, Site.proceed, found]
      split <;> rfl
    | handling leg payload credential =>
      have handed : (site.advance host (.proceed index)).2 =
          (host.handleRoute site.kernel (site.kernel.heap leg).id payload).2 := by
        simp [Site.advance, Site.proceed, found]
      have stands : Attended host site (.proceed index) ↔
          if (asString (member payload "method")).getD "GET" = "POST" then
            (host.postCall payload).isSome →
              (site.kernel.agent (site.kernel.heap leg).id).isSome
          else
            ∃ agent, site.kernel.agent (site.kernel.heap leg).id = some agent ∧
              Opened host.environment agent credential := by
        simp [Attended, found]
      rw [stands]
      unfold Host.handleRoute at handed
      by_cases isPost : (asString (member payload "method")).getD "GET" = "POST"
      · rw [if_pos isPost] at handed ⊢
        cases posted : host.postCall payload with
        | none =>
          refine iff_of_true (closed_of_silent ?_) (by simp)
          simp only [handed, posted]
        | some call =>
          let network : NetworkCall := ⟨(site.kernel.heap leg).id, call, credential⟩
          have about : processed host site (.proceed index) = some network := by
            simp [processed, found, Host.restCall, isPost, posted, network]
          have gated : (site.advance host (.proceed index)).2 =
              if gateWebLeg host.environment site.kernel network.legId network.call.target
                (verb network.call.payload) (asString (member payload "auth_token")) = none
              then [network.call] else [] := by
            simp only [handed, posted, network]
            split
            case h_1 gated => simp [gated]
            case h_2 gated => simp [gated]
          have unsent : asString (member payload "auth_token") = none := by
            rw [tokenless leg payload credential (List.mem_of_getElem? found)]
            rfl
          rw [closed_iff_of_handed about gated, gate_sound_iff (.inl unsent)]
          simp [network]
      · rw [if_neg isPost] at handed ⊢
        let network : NetworkCall := ⟨(site.kernel.heap leg).id, reflectCall payload, credential⟩
        have about : processed host site (.proceed index) = some network := by
          simp [processed, found, Host.restCall, isPost, network]
        have always : (site.advance host (.proceed index)).2 =
            if True then [network.call] else [] := by
          rw [handed, if_pos trivial]
        rw [closed_iff_of_handed about always, admitted_iff]
        simp [network]

/-! ### Runs -/

theorem Tokenless.of_requests {after : Site} (tokenless : Tokenless site)
    (kept : ∀ task ∈ after.requests, task ∈ site.requests ∨
      ∀ leg payload credential, task = .handling leg payload credential →
        member payload "auth_token" = .null) : Tokenless after := by
  intro leg payload credential pending
  obtain old | fresh := kept _ pending
  · exact tokenless leg payload credential old
  · exact fresh leg payload credential rfl

theorem routed_tokenless {request : HTTPRequest} {leg : Nat} {payload : Value}
    {credential : Option String}
    (routed : (site.routed host request).2 = some (.handling leg payload credential)) :
    member payload "auth_token" = .null := by
  unfold Site.routed at routed
  simp only at routed
  split at routed
  · cases routed
  · split at routed
    · split at routed
      · split at routed
        · cases routed
          simp [Site.handleRoutePayload, member, List.lookup_cons]
        · cases routed
      · cases routed
    · cases routed

theorem Tokenless.proceed (tokenless : Tokenless site) (index : Nat) :
    Tokenless (site.proceed host index).1 := by
  unfold Site.proceed
  split
  · exact tokenless
  · split
    · exact tokenless.of_requests fun task pending => .inl (List.mem_of_mem_eraseIdx pending)
    case h_2 request found kernel task routed =>
      apply tokenless.of_requests
      intro other pending
      obtain old | fresh := List.mem_or_eq_of_mem_set pending
      · exact .inl old
      · right
        intro leg payload credential same
        rw [fresh] at same
        subst same
        exact routed_tokenless (congrArg Prod.snd routed)
  · exact tokenless.of_requests fun task pending => .inl (List.mem_of_mem_eraseIdx pending)

theorem Tokenless.advance (tokenless : Tokenless site) (step : Step) :
    Tokenless (site.advance host step).1 := by
  have same : ∀ after : Site, after.requests = site.requests → Tokenless after := by
    intro after kept
    apply tokenless.of_requests
    intro task pending
    rw [kept] at pending
    exact .inl pending
  cases step with
  | create record rootPath => exact same _ rfl
  | update id patch =>
    apply same
    simp only [Site.advance]
    split <;> rfl
  | delete id => exact same _ rfl
  | mount childId =>
    apply same
    simp only [Site.advance, Site.mount]
    split
    · rfl
    · split <;> rfl
  | unmount childId => exact same _ rfl
  | upgrade uri clientId =>
    apply same
    simp only [Site.advance, Site.upgrade]
    split
    · split <;> rfl
    · rfl
  | socket index event =>
    apply same
    simp only [Site.advance, Site.socket]
    split <;> rfl
  | request request =>
    apply tokenless.of_requests
    intro task pending
    obtain old | fresh := List.mem_append.mp pending
    · exact .inl old
    · right
      intro leg payload credential isHandling
      rw [isHandling] at fresh
      cases List.mem_singleton.mp fresh
  | proceed index => exact tokenless.proceed index

theorem Tokenless.run (tokenless : Tokenless site) (steps : List Step) :
    Tokenless (site.run host steps) := by
  induction steps generalizing site with
  | nil => exact tokenless
  | cons step rest ih => exact ih (tokenless.advance step)

theorem closed_step_iff (tokenless : Tokenless site) (step : Step) :
    Closed host site step ↔ Attended host site step := by
  cases step with
  | socket index event => exact closed_socket_iff index event
  | proceed index => exact closed_proceed_iff tokenless index
  | update id patch =>
    refine iff_of_true (closed_of_silent ?_) trivial
    simp only [Site.advance]
    split <;> rfl
  | _ => exact iff_of_true (closed_of_silent rfl) trivial

/-- In a run of a host every call that reaches the kernel is one that its leg admits at that moment
exactly when every gate finds its leg registered and the reflect shortcuts are asked of open legs
only. -/
theorem web_legs_closed_iff (host : Host) (kernel : Kernel) (steps : List Step) :
    (∀ done step, done ++ [step] <+: steps →
        Closed host ((Site.start kernel).run host done) step) ↔
      ∀ done step, done ++ [step] <+: steps →
        Attended host ((Site.start kernel).run host done) step := by
  have tokenless : Tokenless (Site.start kernel) := by
    intro leg payload credential pending
    cases pending
  constructor
  · intro closed done step upTo
    exact (closed_step_iff (tokenless.run done) step).mp (closed done step upTo)
  · intro attended done step upTo
    exact (closed_step_iff (tokenless.run done) step).mpr (attended done step upTo)

/-! ### A leg that is gone -/

/-- A text frame, `callFrame` as text. -/
def callText : String :=
  "call"

def callFrame : Value :=
  .dict [("type", .str "call"), ("id", .str "1"), ("target", .str "core"),
    ("payload", .dict [("type", .str "delete_agent"), ("id", .str "notes")])]

def readingHost : Host where
  parse := fun text => if text = callText then some callFrame else none
  decode := fun _ => none
  environment := fun _ => none
  send := fun kernel _ _ => (kernel, .null)
  sendWithBinary := fun kernel _ _ _ => (kernel, .null, [])
  removingPercentEncoding := some

/-- A sealed leg is mounted, a peer connects and sends a call, and the leg is deleted. -/
def abandoned : List Step :=
  [.create ⟨"ws", some "web_ws.tools", some "web", .empty⟩ [], .mount "ws",
    .upgrade "/core/ws" "ws_client_1", .socket 0 (.text callText), .delete "ws"]

theorem abandoned_leg_admits :
    ¬ Closed readingHost ((Site.start (.fresh none 8)).run readingHost abandoned)
      (.socket 0 (.runTask 0)) := by
  intro closed
  have attended := (closed_socket_iff 0 (.runTask 0)).mp closed
  have registered := attended _ rfl _ rfl
  revert registered
  decide

end Fantastic.Swift.Legs

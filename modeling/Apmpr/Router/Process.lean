import Apmpr.Router.Engine
import Mathlib.Data.Finset.Dedup

/-!
# The router process

`RouterProcess::start` and `execute` of the crate `apmpr-router`: the engine, the TCP
listeners with the target each holds, the transparent proxies with their members, and
the administration commands. `apply` updates the engine first and the listeners
afterwards, from a lookup computed again.

What the process asks of its surroundings — credential files, sockets, the probes of
the providers — is an `Environment`, given anew with every command, so a run meets any
sequence of answers. Events and counters are written and never read by the commands
that change something; they are left out.

## What is proved

`Follows` — every TCP listener holds the target the active snapshot gives its slot, and
the transparent members are the active snapshot's. It holds when the process starts
(`start_follows`) and is kept by every command (`execute_follows`); a candidate that
validation accepts can always be reloaded (`reloadTcp_ok`), so an apply never stops half
way.
-/

namespace Apmpr.Router

/-! ### Errors -/

/-- What building the HTTP data plane fails with. -/
inductive BuildErrorCode where
  | unsupportedListener
  | missingDestination
  | invalidTlsIdentity
  | invalidProxyAuthentication
  | serverInitialization
  deriving DecidableEq, Repr

/-- A failure to build the HTTP data plane. -/
structure BuildError where
  code : BuildErrorCode
  message : String
  deriving DecidableEq, Repr

/-- Why a process fails. -/
inductive ProcessError where
  | io (error : String)
  | configuration (message : String)
  | http (error : BuildError)
  deriving DecidableEq, Repr

/-- The name a code is printed with. -/
def BuildErrorCode.debug : BuildErrorCode → String
  | .unsupportedListener => "UnsupportedListener"
  | .missingDestination => "MissingDestination"
  | .invalidTlsIdentity => "InvalidTlsIdentity"
  | .invalidProxyAuthentication => "InvalidProxyAuthentication"
  | .serverInitialization => "ServerInitialization"

/-- The text of a process error. -/
def ProcessError.display : ProcessError → String
  | .io error => s!"router I/O failed: {error}"
  | .configuration message => s!"router configuration failed: {message}"
  | .http error => s!"HTTP data plane failed: {error.code.debug}: {error.message}"

/-- The text of an apply error. -/
def ApplyError.display : ApplyError → String
  | .decode => "configuration could not be decoded"
  | .invalid errors => s!"configuration is invalid ({errors.length} error(s))"
  | .panicked key => key

/-! ### The data planes -/

/-- Where a TCP listener forwards to. -/
structure TcpTarget where
  host : String
  port : U16
  deriving DecidableEq, Repr

/-- A TCP listener and the target it holds. -/
structure TcpBinding where
  listener : Listener
  target : TcpTarget
  deriving DecidableEq

/-- A candidate of transparent forwarding. -/
structure TransparentTarget where
  component : String
  host : String
  isLocal : Bool
  declaredPorts : Option (Finset U16)
  deriving DecidableEq

/-- The target of one member of a transparent proxy. -/
def transparentTarget (consumer : InstanceId) (member : TransparentMember) : TransparentTarget where
  component := member.component
  host := member.host
  isLocal :=
    match Text.splitOnce '/' member.component with
    | some (inst, _) => inst = consumer
    | none => member.component = consumer
  declaredPorts := member.ports.map List.toFinset

/-- `transparent_targets`. -/
def transparentTargets (proxy : TransparentProxy) : List TransparentTarget :=
  proxy.members.map (transparentTarget proxy.consumer)

/-- What the route of a TCP listener is looked up as. -/
def tcpRoute (snapshot : CompiledSnapshot) (listener : Listener) (slot : RouteSlotId) : Option RouteTarget :=
  match listener.consumer with
  | some consumer => snapshot.lookupConsumer consumer slot
  | none => (snapshot.lookupBrowser ⟨slot, none, none, listener.proxyIdentity⟩).toOption

/-- `tcp_target`. -/
def tcpTarget (snapshot : CompiledSnapshot) (listener : Listener) : Except ProcessError TcpTarget :=
  match listener.destinations with
  | [destination] =>
    match tcpRoute snapshot listener destination.slot with
    | none => .error (.configuration s!"TCP listener route for slot {destination.slot} is unresolved")
    | some target =>
      if target.endpoint.protocol ≠ .tcp then
        .error (.configuration s!"TCP slot {destination.slot} selected a non-TCP provider")
      else .ok ⟨target.endpoint.host, target.endpoint.port⟩
  | _ => .error (.configuration "a TCP listener must declare exactly one destination")

/-- The listeners of the HTTP data plane. -/
def httpListeners (spec : RouterSpec) : List Listener :=
  spec.listeners.filter fun l => l.protocol ≠ .tcp && l.proxyIdentity.isNone

/-- The TCP listeners. -/
def tcpListeners (listeners : List Listener) : List Listener := listeners.filter fun l => l.protocol = .tcp

/-- What one command asks of its surroundings: the credential file of a listener, and the
probe of a provider. `none` is success. -/
structure Environment where
  loadProxyCredential : Listener → ProxyAuthentication → Option BuildError
  probe : ComponentId → UpstreamEndpoint → HealthCheck → Option String

/-- What `HttpDataPlane::new` checks of one listener. -/
def buildListener (env : Environment) (l : Listener) : Except BuildError Unit :=
  if l.protocol = .tcp then
    .error ⟨.unsupportedListener, s!"{l.bind.host.display}:{l.bind.port} is not an HTTP-family listener"⟩
  else if l.destinations.isEmpty then
    .error ⟨.missingDestination, s!"{l.bind.host.display}:{l.bind.port} has no destinations"⟩
  else if decide (l.protocol = .https) != l.tls.isSome then
    .error ⟨.unsupportedListener,
      "HTTPS listeners require a TLS identity and non-HTTPS listeners must not declare one"⟩
  else
    match l.proxyAuthentication.bind (env.loadProxyCredential l) with
    | some error => .error error
    | none => .ok ()

/-- Go through a list, stopping at the first failure. -/
def checkAll {α ε : Type} (check : α → Except ε Unit) : List α → Except ε Unit
  | [] => .ok ()
  | a :: rest =>
    match check a with
    | .error e => .error e
    | .ok () => checkAll check rest

/-- Drop a result. -/
def discard {α ε : Type} : Except ε α → Except ε Unit
  | .error e => .error e
  | .ok _ => .ok ()

section

variable (checksum : RouterConfig → String)

/-- `validate_runtime_config`: the configuration compiles, its HTTP listeners can be built
and its TCP listeners have targets. -/
def validateRuntimeConfig (env : Environment) (config : RouterConfig) : Except ProcessError Unit :=
  match RouteEngine.new checksum config with
  | .error error => .error (.configuration error.display)
  | .ok engine =>
    match checkAll (buildListener env) (httpListeners config.spec) with
    | .error error => .error (.http error)
    | .ok () => checkAll (fun l => discard (tcpTarget engine.current l)) (tcpListeners config.spec.listeners)

/-! ### Starting -/

/-- What identifies the transparent interception of a configuration. -/
def transparentKey (spec : RouterSpec) : Option (InstanceId × U16 × U64) :=
  spec.transparentProxy.map fun proxy => (proxy.consumer, proxy.port, proxy.connectTimeoutMs)

/-- `ControlState`: what the commands read and change. -/
structure ControlState where
  engine : RouteEngine
  initialListeners : List Listener
  initialIdentity : IdentityPolicy
  initialTransparentProxy : Option (InstanceId × U16 × U64)
  tcp : List TcpBinding
  /-- The members of the transparent proxies, one for IPv4 and one for IPv6. -/
  transparentTcp : List (List TransparentTarget)
  shutdown : Bool
  deriving DecidableEq

/-- What starting asks of its surroundings. The credential files are read a second time when
the HTTP data plane is built; `none` is success. -/
structure StartEnvironment where
  validation : Environment
  building : Environment
  spawnHttp : Option BuildError
  bindForward : Listener → Option String
  bindTcp : Listener → Option String
  bindTransparent : TransparentProxy → Option String
  bindAdmin : Option String

/-- Bind one TCP listener to the target it starts with. -/
def startTcp (env : StartEnvironment) (snapshot : CompiledSnapshot) (l : Listener) :
    Except ProcessError TcpBinding := do
  let target ← tcpTarget snapshot l
  match env.bindTcp l with
  | some error => .error (.io error)
  | none => return ⟨l, target⟩

/-- Bind the transparent proxies. -/
def startTransparent (env : StartEnvironment) : Option TransparentProxy →
    Except ProcessError (List (List TransparentTarget))
  | none => .ok []
  | some proxy =>
    match env.bindTransparent proxy with
    | some error => .error (.io error)
    | none => .ok [transparentTargets proxy, transparentTargets proxy]

/-- Fail with an I/O error, if there is one. -/
def ioFailure : Option String → Except ProcessError Unit
  | some error => .error (.io error)
  | none => .ok ()

/-- Build and start the HTTP data plane, unless it has no listeners. -/
def startHttp (env : StartEnvironment) (listeners : List Listener) : Except ProcessError Unit :=
  if listeners.isEmpty then .ok ()
  else
    match checkAll (buildListener env.building) listeners with
    | .error error => .error (.http error)
    | .ok () =>
      match env.spawnHttp with
      | some error => .error (.http error)
      | none => .ok ()

/-- The administration token must not be empty. -/
def requireToken (token : String) : Except ProcessError Unit :=
  if token = "" then .error (.configuration "administration token must not be empty") else .ok ()

/-- Construct the engine. -/
def startEngine (config : RouterConfig) : Except ProcessError RouteEngine :=
  match RouteEngine.new checksum config with
  | .error error => .error (.configuration error.display)
  | .ok engine => .ok engine

/-- `RouterProcess::start`. -/
def start (env : StartEnvironment) (config : RouterConfig) (token : String) :
    Except ProcessError ControlState := do
  requireToken token
  validateRuntimeConfig checksum env.validation config
  let engine ← startEngine checksum config
  startHttp env (httpListeners config.spec)
  checkAll (fun l => ioFailure (env.bindForward l)) (config.spec.listeners.filter fun l => l.proxyIdentity.isSome)
  let tcp ← (tcpListeners config.spec.listeners).mapM (startTcp env engine.current)
  let transparentTcp ← startTransparent env config.spec.transparentProxy
  ioFailure env.bindAdmin
  return {
    engine, tcp, transparentTcp
    initialListeners := config.spec.listeners
    initialIdentity := config.spec.identity
    initialTransparentProxy := transparentKey config.spec
    shutdown := false }

/-! ### Commands -/

/-- An administration command. -/
inductive AdminCommand where
  | validate (config : RouterConfig)
  | apply (config : RouterConfig)
  | currentVersion
  | routes
  | health
  | drain
  | counters
  | events

/-- One consumer route shown by `routes`. -/
structure InspectedRoute where
  consumer : InstanceId
  slot : RouteSlotId
  target : RouteTarget

/-- How a command is answered. -/
inductive Answer where
  | identity (id : RouteSnapshotId) (version : U64) (checksum : String)
  | invalidConfiguration (message : String)
  | providerUnhealthy (activeVersion candidateVersion : U64) (providers : SortedMap ComponentId String)
  | tcpReloadFailed (message : String)
  | applyFailed (message : String)
  | applied (ack : ApplyAck)
  | routes (version : U64) (checksum : String) (consumerRoutes : List InspectedRoute)
      (transparentProxy : Option TransparentProxy) (browserRoutes : List BrowserRoute)
  | health (healthy : Bool) (providers : SortedMap ComponentId (Option String))
  | draining
  | counters (activeSnapshotVersion : U64)
  | events

/-- `validate_candidate`: nothing that needs a restart may change, and the candidate must be
able to run. -/
def validateCandidate (env : Environment) (s : ControlState) (config : RouterConfig) :
    Except String RouteEngine :=
  if config.spec.listeners != s.initialListeners || config.spec.identity ≠ s.initialIdentity ||
      transparentKey config.spec ≠ s.initialTransparentProxy then
    .error "listener, identity, and transparent interception changes require a process restart"
  else
    match validateRuntimeConfig checksum env config with
    | .error error => .error error.display
    | .ok () =>
      match RouteEngine.new checksum config with
      | .error error => .error error.display
      | .ok engine => .ok engine

/-- `readiness`: the outcome of each provider's probe; a provider without one is ready. -/
def readiness (env : Environment) (providers : List Provider) : SortedMap ComponentId (Option String) :=
  .ofList (providers.map fun p => (p.id, p.healthCheck.bind (env.probe p.id p.endpoint)))

/-- The providers that are not ready, with their messages. -/
def failedProviders (env : Environment) (providers : List Provider) : SortedMap ComponentId String :=
  .ofList ((readiness env providers).entries.filterMap fun e => e.2.map fun message => (e.1, message))

/-- Reload the TCP listeners one after the other, stopping at the first that has no target. -/
def reloadTcp (snapshot : CompiledSnapshot) : List TcpBinding → List TcpBinding × Option ProcessError
  | [] => ([], none)
  | b :: rest =>
    match tcpTarget snapshot b.listener with
    | .error error => (b :: rest, some error)
    | .ok target => ({ b with target } :: (reloadTcp snapshot rest).1, (reloadTcp snapshot rest).2)

/-- Reload the transparent proxies, where the snapshot has one. -/
def reloadTransparent (snapshot : CompiledSnapshot) (proxies : List (List TransparentTarget)) :
    List (List TransparentTarget) :=
  match snapshot.config.spec.transparentProxy with
  | some proxy => proxies.map fun _ => transparentTargets proxy
  | none => proxies

/-- What `apply` does once the engine has answered. -/
def follow (s : ControlState) (engine : RouteEngine) (ack : ApplyAck) : ControlState × Answer :=
  match ack.status with
  | .rejectedStale => ({ s with engine }, .applied ack)
  | .activated =>
    match reloadTcp engine.current s.tcp with
    | (tcp, some error) => ({ s with engine, tcp }, .tcpReloadFailed error.display)
    | (tcp, none) =>
      ({ s with engine, tcp, transparentTcp := reloadTransparent engine.current s.transparentTcp }, .applied ack)

/-- The `apply` command, under the apply lock. -/
def executeApply (env : Environment) (s : ControlState) (config : RouterConfig) : ControlState × Answer :=
  match validateCandidate checksum env s config with
  | .error message => (s, .invalidConfiguration message)
  | .ok candidate =>
    let failed := failedProviders env candidate.current.config.spec.providers
    if s.engine.current.version < candidate.current.version ∧ failed.entries ≠ [] then
      (s, .providerUnhealthy s.engine.current.version candidate.current.version failed)
    else
      match s.engine.apply checksum config with
      | (_, .error error) => (s, .applyFailed error.display)
      | (engine, .ok ack) => follow s engine ack

/-- `inspect_routes`: the routes of the listeners that have a consumer. -/
def inspectRoutes (snapshot : CompiledSnapshot) : List InspectedRoute :=
  snapshot.config.spec.listeners.flatMap fun l =>
    match l.consumer with
    | none => []
    | some consumer => l.destinations.filterMap fun d =>
        (snapshot.lookupConsumer consumer d.slot).map fun target => ⟨consumer, d.slot, target⟩

/-- `snapshot_identity`. -/
def snapshotIdentity (engine : RouteEngine) : Answer :=
  .identity engine.current.config.spec.snapshot.id engine.current.version engine.current.checksum

/-- `execute`. -/
def execute (s : ControlState) : Environment × AdminCommand → ControlState × Answer
  | (env, .validate config) =>
    match validateCandidate checksum env s config with
    | .error message => (s, .invalidConfiguration message)
    | .ok engine => (s, snapshotIdentity engine)
  | (env, .apply config) => executeApply checksum env s config
  | (_, .currentVersion) => (s, snapshotIdentity s.engine)
  | (_, .routes) =>
    let snapshot := s.engine.current
    (s, .routes snapshot.version snapshot.checksum (inspectRoutes snapshot)
      snapshot.config.spec.transparentProxy snapshot.config.spec.browserRoutes)
  | (env, .health) =>
    let checks := readiness env s.engine.current.config.spec.providers
    (s, .health (checks.entries.all fun e => e.2.isNone) checks)
  | (_, .drain) => ({ s with shutdown := true }, .draining)
  | (_, .counters) => (s, .counters s.engine.current.version)
  | (_, .events) => (s, .events)

end

variable {checksum : RouterConfig → String} {config : RouterConfig} {s : ControlState} {env : Environment}

/-! ### What validation guarantees -/

theorem checkAll_ok_iff {α ε : Type} {check : α → Except ε Unit} {l : List α} :
    checkAll check l = .ok () ↔ ∀ a ∈ l, check a = .ok () := by
  induction l with
  | nil => simp [checkAll]
  | cons a rest ih =>
    rw [List.forall_mem_cons, ← ih, checkAll]
    cases check a <;> simp

theorem discard_ok_iff {α ε : Type} {x : Except ε α} : discard x = .ok () ↔ ∃ a, x = .ok a := by
  cases x <;> simp [discard]

theorem new_ok_iff {engine : RouteEngine} :
    RouteEngine.new checksum config = .ok engine ↔
      ∃ snapshot, compile checksum config = .ok snapshot ∧ engine = ⟨snapshot, none⟩ := by
  unfold RouteEngine.new
  cases compile checksum config <;> simp [eq_comm]

theorem startEngine_ok_iff {engine : RouteEngine} :
    startEngine checksum config = .ok engine ↔
      ∃ snapshot, compile checksum config = .ok snapshot ∧ engine = ⟨snapshot, none⟩ := by
  rw [← new_ok_iff, startEngine]
  cases RouteEngine.new checksum config <;> simp

/-- A configuration that can run compiles, and its TCP listeners have targets. -/
theorem validateRuntimeConfig_ok (h : validateRuntimeConfig checksum env config = .ok ()) :
    ∃ snapshot, compile checksum config = .ok snapshot ∧
      ∀ l ∈ tcpListeners config.spec.listeners, ∃ target, tcpTarget snapshot l = .ok target := by
  unfold validateRuntimeConfig at h
  cases hnew : RouteEngine.new checksum config with
  | error error => simp [hnew] at h
  | ok engine =>
    obtain ⟨snapshot, hsnapshot, rfl⟩ := new_ok_iff.mp hnew
    cases hbuild : checkAll (buildListener env) (httpListeners config.spec) with
    | error error => simp [hnew, hbuild] at h
    | ok u =>
      simp only [hnew, hbuild, checkAll_ok_iff, discard_ok_iff] at h
      exact ⟨snapshot, hsnapshot, h⟩

/-- A candidate is accepted only where nothing that needs a restart changes. -/
theorem validateCandidate_ok {candidate : RouteEngine}
    (h : validateCandidate checksum env s config = .ok candidate) :
    (config.spec.listeners == s.initialListeners) = true ∧ transparentKey config.spec = s.initialTransparentProxy ∧
      ∃ snapshot, compile checksum config = .ok snapshot ∧ candidate = ⟨snapshot, none⟩ ∧
        ∀ l ∈ tcpListeners config.spec.listeners, ∃ target, tcpTarget snapshot l = .ok target := by
  unfold validateCandidate at h
  split at h
  · cases h
  · rename_i hsame
    cases hruntime : validateRuntimeConfig checksum env config with
    | error error => simp [hruntime] at h
    | ok u =>
      obtain ⟨snapshot, hsnapshot, htcp⟩ := validateRuntimeConfig_ok hruntime
      cases hnew : RouteEngine.new checksum config with
      | error error => simp [hruntime, hnew] at h
      | ok engine =>
        simp only [hruntime, hnew, Except.ok.injEq] at h
        subst h
        obtain ⟨snapshot', hsnapshot', rfl⟩ := new_ok_iff.mp hnew
        obtain rfl := Except.ok.inj (hsnapshot.symm.trans hsnapshot')
        simp only [Bool.or_eq_true, decide_eq_true_eq, not_or, ne_eq, not_not, Bool.not_eq_true] at hsame
        exact ⟨by simpa [bne] using hsame.1.1, hsame.2, snapshot, hsnapshot, rfl, htcp⟩

/-! ### Equal listeners -/

/-- Listeners the process takes for equal differ at most in the spelling of paths. -/
theorem Listener.of_beq {l l' : Listener} (h : (l == l') = true) :
    l.consumer = l'.consumer ∧ l.protocol = l'.protocol ∧ l.destinations = l'.destinations ∧
      l.proxyIdentity = l'.proxyIdentity := by
  obtain ⟨consumer, bind, protocol, tls, destinations, proxyIdentity, proxyAuthentication⟩ := l
  obtain ⟨consumer', bind', protocol', tls', destinations', proxyIdentity', proxyAuthentication'⟩ := l'
  have hfields : (consumer == consumer' && (bind == bind' && (protocol == protocol' && (tls == tls' &&
      (destinations == destinations' && (proxyIdentity == proxyIdentity' &&
        proxyAuthentication == proxyAuthentication')))))) = true := h
  simp only [Bool.and_eq_true, beq_iff_eq] at hfields
  exact ⟨hfields.1, hfields.2.2.1, hfields.2.2.2.2.1, hfields.2.2.2.2.2.1⟩

theorem exists_mem_of_beq {ls ls' : List Listener} (h : (ls == ls') = true) {l' : Listener} (hl' : l' ∈ ls') :
    ∃ l ∈ ls, (l == l') = true := by
  induction ls generalizing ls' with
  | nil =>
    cases ls' with
    | nil => cases hl'
    | cons b rest => cases h
  | cons a rest ih =>
    cases ls' with
    | nil => cases h
    | cons b rest' =>
      rw [List.cons_beq_cons, Bool.and_eq_true] at h
      rcases List.mem_cons.mp hl' with rfl | hl'
      · exact ⟨a, List.mem_cons_self .., h.1⟩
      · obtain ⟨l, hl, heq⟩ := ih h.2 hl'
        exact ⟨l, List.mem_cons_of_mem _ hl, heq⟩

theorem tcpTarget_congr {l l' : Listener} (h : (l == l') = true) (snapshot : CompiledSnapshot) :
    tcpTarget snapshot l = tcpTarget snapshot l' := by
  obtain ⟨hconsumer, -, hdestinations, hidentity⟩ := Listener.of_beq h
  simp only [tcpTarget, tcpRoute, hconsumer, hdestinations, hidentity]

/-- A candidate's listeners give the process's own TCP listeners their targets. -/
theorem tcpTarget_of_beq {ls ls' : List Listener} {snapshot : CompiledSnapshot} (h : (ls == ls') = true)
    (htcp : ∀ l ∈ tcpListeners ls, ∃ target, tcpTarget snapshot l = .ok target) :
    ∀ l ∈ tcpListeners ls', ∃ target, tcpTarget snapshot l = .ok target := by
  intro l' hl'
  rw [tcpListeners, List.mem_filter] at hl'
  obtain ⟨l, hl, heq⟩ := exists_mem_of_beq h hl'.1
  rw [← tcpTarget_congr heq]
  refine htcp l (List.mem_filter.mpr ⟨hl, ?_⟩)
  rw [(Listener.of_beq heq).2.1]
  exact hl'.2

/-! ### Reloading -/

/-- Listeners that all have targets are all reloaded. -/
theorem reloadTcp_ok {snapshot : CompiledSnapshot} {tcp : List TcpBinding}
    (h : ∀ b ∈ tcp, ∃ target, tcpTarget snapshot b.listener = .ok target) :
    ∃ tcp', reloadTcp snapshot tcp = (tcp', none) ∧ tcp'.map TcpBinding.listener = tcp.map TcpBinding.listener ∧
      ∀ b ∈ tcp', tcpTarget snapshot b.listener = .ok b.target := by
  induction tcp with
  | nil => exact ⟨[], rfl, rfl, by simp⟩
  | cons b rest ih =>
    obtain ⟨target, htarget⟩ := h b (List.mem_cons_self ..)
    obtain ⟨rest', hreload, hlisteners, htargets⟩ := ih fun b' hb' => h b' (List.mem_cons_of_mem _ hb')
    refine ⟨{ b with target } :: rest', ?_, ?_, ?_⟩
    · simp only [reloadTcp, htarget, hreload]
    · simp only [List.map_cons, hlisteners]
    · exact List.forall_mem_cons.mpr ⟨htarget, htargets⟩

/-- The members the transparent proxies hold for a snapshot. -/
def transparentMembers (snapshot : CompiledSnapshot) : List (List TransparentTarget) :=
  match snapshot.config.spec.transparentProxy with
  | some proxy => [transparentTargets proxy, transparentTargets proxy]
  | none => []

/-- Where a transparent proxy neither comes nor goes, reloading gives the new members. -/
theorem reloadTransparent_eq {snapshot snapshot' : CompiledSnapshot}
    (h : transparentKey snapshot.config.spec = transparentKey snapshot'.config.spec) :
    reloadTransparent snapshot' (transparentMembers snapshot) = transparentMembers snapshot' := by
  simp only [transparentKey] at h
  cases hp : snapshot.config.spec.transparentProxy <;> cases hp' : snapshot'.config.spec.transparentProxy <;>
    simp_all [reloadTransparent, transparentMembers]

/-! ### The data planes follow the active snapshot -/

/-- The data planes of a process started from `config` follow its active snapshot. -/
structure Follows (checksum : RouterConfig → String) (config : RouterConfig) (s : ControlState) : Prop where
  valid : config.Valid
  initialListeners : s.initialListeners = config.spec.listeners
  transparentKey : transparentKey s.engine.current.config.spec = s.initialTransparentProxy
  bindings : s.tcp.map TcpBinding.listener = tcpListeners s.initialListeners
  targets : ∀ b ∈ s.tcp, tcpTarget s.engine.current b.listener = .ok b.target
  members : s.transparentTcp = transparentMembers s.engine.current

theorem startTcp_ok {senv : StartEnvironment} {snapshot : CompiledSnapshot} {l : Listener} {b : TcpBinding}
    (h : startTcp senv snapshot l = .ok b) : b.listener = l ∧ tcpTarget snapshot b.listener = .ok b.target := by
  rw [startTcp] at h
  obtain ⟨target, htarget, h⟩ := bind_eq_ok_iff.mp h
  split at h
  · cases h
  · obtain rfl := Except.ok.inj h
    exact ⟨rfl, htarget⟩

theorem map_listener_of_mapM {senv : StartEnvironment} {snapshot : CompiledSnapshot} {ls : List Listener}
    {tcp : List TcpBinding} (h : ls.mapM (startTcp senv snapshot) = .ok tcp) :
    tcp.map TcpBinding.listener = ls := by
  induction ls generalizing tcp with
  | nil =>
    obtain rfl := Except.ok.inj h
    rfl
  | cons l rest ih =>
    rw [List.mapM_cons] at h
    obtain ⟨b, hb, h⟩ := bind_eq_ok_iff.mp h
    obtain ⟨bs, hbs, h⟩ := bind_eq_ok_iff.mp h
    obtain rfl := Except.ok.inj h
    rw [List.map_cons, ih hbs, (startTcp_ok hb).1]

/-- **A process that starts follows its configuration.** -/
theorem start_follows {senv : StartEnvironment} {token : String}
    (h : start checksum senv config token = .ok s) : Follows checksum config s := by
  rw [start] at h
  obtain ⟨-, -, h⟩ := bind_eq_ok_iff.mp h
  obtain ⟨-, -, h⟩ := bind_eq_ok_iff.mp h
  obtain ⟨engine, hengine, h⟩ := bind_eq_ok_iff.mp h
  obtain ⟨-, -, h⟩ := bind_eq_ok_iff.mp h
  obtain ⟨-, -, h⟩ := bind_eq_ok_iff.mp h
  obtain ⟨tcp, htcp, h⟩ := bind_eq_ok_iff.mp h
  obtain ⟨transparentTcp, htransparent, h⟩ := bind_eq_ok_iff.mp h
  obtain ⟨-, -, h⟩ := bind_eq_ok_iff.mp h
  obtain rfl := Except.ok.inj h
  obtain ⟨snapshot, hsnapshot, rfl⟩ := startEngine_ok_iff.mp hengine
  obtain ⟨hvalid, hconfig, -, -⟩ := compile_identity hsnapshot
  exact {
    valid := hvalid
    initialListeners := rfl
    transparentKey := by simp only [hconfig]
    bindings := map_listener_of_mapM htcp
    targets := by
      intro b hb
      obtain ⟨l, -, hl⟩ := (mem_of_mapM_ok htcp).mp hb
      exact (startTcp_ok hl).2
    members := by
      simp only [transparentMembers, hconfig]
      cases hp : config.spec.transparentProxy with
      | none =>
        rw [hp] at htransparent
        exact (Except.ok.inj htransparent).symm
      | some proxy =>
        rw [hp, startTransparent] at htransparent
        split at htransparent
        · cases htransparent
        · exact (Except.ok.inj htransparent).symm }

/-- **All an apply can do**: refuse and change nothing, find the candidate stale and change
nothing, or activate it and reload every data plane. -/
theorem executeApply_cases (env : Environment) (h : Follows checksum config s) (candidate : RouterConfig) :
    (∃ message, executeApply checksum env s candidate = (s, .invalidConfiguration message)) ∨
    (∃ active version failed,
      executeApply checksum env s candidate = (s, .providerUnhealthy active version failed)) ∨
    (∃ ack : ApplyAck, ack.status = .rejectedStale ∧
      executeApply checksum env s candidate = (s, .applied ack)) ∨
    ∃ s' ack, ack.status = .activated ∧ Follows checksum config s' ∧
      executeApply checksum env s candidate = (s', .applied ack) := by
  unfold executeApply
  cases hc : validateCandidate checksum env s candidate with
  | error message => exact Or.inl ⟨message, rfl⟩
  | ok engine =>
    obtain ⟨hlisteners, hkey, snapshot, hsnapshot, rfl, htcp⟩ := validateCandidate_ok hc
    dsimp only
    split
    · exact Or.inr (Or.inl ⟨_, _, _, rfl⟩)
    · simp only [RouteEngine.apply, hsnapshot, RouteEngine.publish]
      split
      · exact Or.inr (Or.inr (Or.inl ⟨_, rfl, rfl⟩))
      · -- the engine is updated; the same lookups that validation made now succeed again
        have htargets : ∀ b ∈ s.tcp, ∃ target, tcpTarget snapshot b.listener = .ok target := by
          intro b hb
          refine tcpTarget_of_beq hlisteners htcp b.listener ?_
          rw [← h.bindings]
          exact List.mem_map_of_mem hb
        obtain ⟨tcp, hreload, hbindings, htargets⟩ := reloadTcp_ok htargets
        have hsame : transparentKey s.engine.current.config.spec = transparentKey snapshot.config.spec := by
          rw [h.transparentKey, ← hkey, (compile_identity hsnapshot).2.1]
        refine Or.inr (Or.inr (Or.inr ⟨{ s with
          engine := ⟨snapshot, some s.engine.current⟩
          tcp
          transparentTcp := reloadTransparent snapshot s.transparentTcp },
          ⟨snapshot.version, snapshot.checksum, .activated⟩, rfl, ?_, by simp only [follow, hreload]⟩))
        exact {
          valid := h.valid
          initialListeners := h.initialListeners
          transparentKey := hsame.symm.trans h.transparentKey
          bindings := hbindings.trans h.bindings
          targets := htargets
          members := by simp only [h.members, reloadTransparent_eq hsame] }

/-- **Every command keeps the data planes on the active snapshot.** -/
theorem execute_follows (h : Follows checksum config s) (input : Environment × AdminCommand) :
    Follows checksum config (execute checksum s input).1 := by
  obtain ⟨env, command⟩ := input
  cases command with
  | apply candidate =>
    rcases executeApply_cases env h candidate with
      ⟨_, heq⟩ | ⟨_, _, _, heq⟩ | ⟨_, -, heq⟩ | ⟨s', _, -, hs', heq⟩
    · simpa only [execute, heq] using h
    · simpa only [execute, heq] using h
    · simpa only [execute, heq] using h
    · simpa only [execute, heq] using hs'
  | validate candidate =>
    simp only [execute]
    split
    · exact h
    · exact h
  | drain => exact { h with }
  | currentVersion | routes | health | counters | events => exact h

/-- A TCP listener of a valid configuration that has a target has a consumer, whose route it is. -/
theorem tcpTarget_eq_ok (hvalid : config.Valid) {l : Listener} (hl : l ∈ tcpListeners config.spec.listeners)
    {snapshot : CompiledSnapshot} {target : TcpTarget} (h : tcpTarget snapshot l = .ok target) :
    ∃ consumer destination route, l.consumer = some consumer ∧ l.destinations = [destination] ∧
      snapshot.lookupConsumer consumer destination.slot = some route ∧
      target = ⟨route.endpoint.host, route.endpoint.port⟩ := by
  rw [tcpListeners, List.mem_filter, decide_eq_true_eq] at hl
  have hl' := hvalid.listeners l hl.1
  -- a managed proxy authenticates, and only on cleartext HTTP
  have hidentity : l.proxyIdentity = none := by
    cases hi : l.proxyIdentity with
    | none => rfl
    | some identity =>
      have := hl'.cleartext (hl'.managed (by simp [hi]))
      rw [hl.2] at this
      cases this
  unfold tcpTarget at h
  split at h
  · rename_i destination hd
    cases hc : l.consumer with
    | none => simp [tcpRoute, hc, hidentity, CompiledSnapshot.lookupBrowser, Except.toOption] at h
    | some consumer =>
      simp only [tcpRoute, hc] at h
      cases hroute : snapshot.lookupConsumer consumer destination.slot with
      | none => simp [hroute] at h
      | some route =>
        simp only [hroute] at h
        split at h
        · cases h
        · exact ⟨consumer, destination, route, rfl, hd, hroute, (Except.ok.inj h).symm⟩
  · cases h

/-- **The data planes follow the active snapshot** through every run of commands. -/
theorem process_run (checksum : RouterConfig → String) (senv : StartEnvironment) (config : RouterConfig)
    (token : String) (s₀ : ControlState) (h : start checksum senv config token = .ok s₀)
    (inputs : List (Environment × AdminCommand)) :
    let s := after (execute checksum) s₀ inputs
    -- every TCP listener of the process holds its route's target
    (s.tcp.map TcpBinding.listener = tcpListeners config.spec.listeners ∧
      ∀ b ∈ s.tcp, ∃ consumer destination route, b.listener.consumer = some consumer ∧
        b.listener.destinations = [destination] ∧
        s.engine.current.lookupConsumer consumer destination.slot = some route ∧
        b.target = ⟨route.endpoint.host, route.endpoint.port⟩) ∧
    -- the transparent proxies hold the active members
    s.transparentTcp = transparentMembers s.engine.current ∧
    -- the next command
    ∀ env command,
      (∀ message, (execute checksum s (env, command)).2 ≠ .tcpReloadFailed message) ∧
      (∀ message, (execute checksum s (env, command)).2 ≠ .applyFailed message) ∧
      ∀ candidate, command = .apply candidate →
        (∀ ack, (execute checksum s (env, command)).2 = .applied ack → ack.status ≠ .activated) →
        (execute checksum s (env, command)).1 = s := by
  intro s
  have hs : Follows checksum config s :=
    after_invariant (P := Follows checksum config) (fun _ input hs => execute_follows hs input)
      (start_follows h) inputs
  have hanswer : ∀ env command,
      (∀ message, (execute checksum s (env, command)).2 ≠ .tcpReloadFailed message) ∧
      (∀ message, (execute checksum s (env, command)).2 ≠ .applyFailed message) := by
    intro env command
    cases command with
    | apply candidate =>
      rcases executeApply_cases env hs candidate with
        ⟨_, heq⟩ | ⟨_, _, _, heq⟩ | ⟨_, -, heq⟩ | ⟨s', _, -, -, heq⟩ <;> simp [execute, heq]
    | validate candidate =>
      simp only [execute]
      split <;> simp [snapshotIdentity]
    | drain | currentVersion | routes | health | counters | events => simp [execute, snapshotIdentity]
  have hlisteners : s.tcp.map TcpBinding.listener = tcpListeners config.spec.listeners := by
    rw [hs.bindings, hs.initialListeners]
  refine ⟨⟨hlisteners, fun b hb => ?_⟩, hs.members, fun env command => ?_⟩
  · refine tcpTarget_eq_ok hs.valid ?_ (hs.targets b hb)
    rw [← hlisteners]
    exact List.mem_map_of_mem hb
  · refine ⟨(hanswer env command).1, (hanswer env command).2, ?_⟩
    rintro candidate rfl hack
    rcases executeApply_cases env hs candidate with
      ⟨_, heq⟩ | ⟨_, _, _, heq⟩ | ⟨_, -, heq⟩ | ⟨s', ack, hstatus, -, heq⟩
    · simp only [execute, heq]
    · simp only [execute, heq]
    · simp only [execute, heq]
    · exact absurd hstatus (hack ack (by simp only [execute, heq]))

/-- A sidecar with one TCP listener and a transparent proxy. -/
def sidecarConfig (version : U64) (database : ComponentId) : RouterConfig where
  apiVersion := API_VERSION
  kind := KIND
  metadata := ⟨"comparison"⟩
  spec := {
    snapshot := ⟨"sidecar", version, ⟨.close, .close, .close, .close, .pin⟩⟩
    exposure := none
    listeners := [⟨some "backend-1", ⟨.localhost, 5432⟩, .tcp, none, [.loopback "database"], none, none⟩]
    providers := [
      ⟨"services-main/database", ⟨.tcp, "main-database", 5432⟩, none, false⟩,
      ⟨"services-test/database", ⟨.tcp, "test-database", 5432⟩, none, false⟩]
    groups := []
    bindings := []
    routes := [⟨"backend-1", "database", database⟩]
    browserRoutes := []
    transparentProxy := some ⟨"backend-1", 15001, [⟨database, "database", some [5432]⟩], 3000⟩
    identity := .default }

/-- Surroundings in which everything succeeds. -/
def quietStart : StartEnvironment :=
  ⟨⟨fun _ _ => none, fun _ _ _ => none⟩, ⟨fun _ _ => none, fun _ _ _ => none⟩, none, fun _ => none, fun _ => none,
    fun _ => none, none⟩

/-- The process the sidecar's first configuration starts. -/
def sidecarState : ControlState where
  engine := {
    current := {
      config := sidecarConfig 1 "services-main/database"
      checksum := ""
      consumerRoutes := [(("backend-1", "database"),
        ⟨"services-main/database", ⟨.tcp, "main-database", 5432⟩, none, false⟩)]
      browserRoutes := [] }
    previous := none }
  initialListeners := (sidecarConfig 1 "services-main/database").spec.listeners
  initialIdentity := .default
  initialTransparentProxy := some ("backend-1", 15001, 3000)
  tcp := [⟨⟨some "backend-1", ⟨.localhost, 5432⟩, .tcp, none, [.loopback "database"], none, none⟩,
    ⟨"main-database", 5432⟩⟩]
  transparentTcp := [
    [⟨"services-main/database", "database", false, some [5432].toFinset⟩],
    [⟨"services-main/database", "database", false, some [5432].toFinset⟩]]
  shutdown := false

/-- The sidecar is switched to the other database. -/
theorem process_run_sidecar :
    start (fun _ => "") quietStart (sidecarConfig 1 "services-main/database") "token" = .ok sidecarState ∧
      let s := after (execute fun _ => "") sidecarState
        [(quietStart.validation, .apply (sidecarConfig 2 "services-test/database"))]
      s.tcp.map TcpBinding.target = [⟨"test-database", 5432⟩] ∧
        s.transparentTcp = transparentMembers s.engine.current :=
  ⟨by decide, by decide, (process_run (fun _ => "") quietStart (sidecarConfig 1 "services-main/database") "token"
    sidecarState (by decide) [(quietStart.validation, .apply (sidecarConfig 2 "services-test/database"))]).2.1⟩

end Apmpr.Router

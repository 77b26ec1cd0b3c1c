import Apmpr.Lib.Address
import Apmpr.Planner.Encoding
import Apmpr.Planner.Replan
import Apmpr.Planner.RouteOrder
import Apmpr.Router.HostGateway

/-!
# Resolving the upstreams of the host gateway

`resolve_published_upstreams` of the crate `apmpr-cli`'s `host_runtime.rs`: before the host
gateway is started, every provider that stands for a published service gets the address
Docker publishes the service at, or the address of the device it is placed on. Every provider
must then be on the loopback interface, at a port that is not zero.

## What is proved

* `resolves_iff`: where Docker publishes every local service, the upstreams of a plan are
  resolved and pass the gateway's preflight exactly if no upstream is on a device that is
  reached at an address of its own.
-/

namespace Apmpr.Host

open Planner Router

/-! ### The host runtime -/

/-- `HostRuntimeError`, as far as resolving upstreams gives them. -/
inductive HostRuntimeError where
  | io (message : String)
  | invalidPlan (message : String)
  | startup (message : String)
  deriving DecidableEq

/-- What `docker compose port` prints for a service and a port: addresses, one in a line. -/
abbrev ComposePort := String → U16 → Except HostRuntimeError (List SocketAddress)

/-- An address as it is shown. -/
def displayAddress (address : SocketAddress) : String :=
  match address.host with
  | .v4 .. => s!"{address.host.display}:{address.port}"
  | .v6 .. => s!"[{address.host.display}]:{address.port}"

/-- `published_address`, with `parse_published_address`. -/
def publishedAddress (composePort : ComposePort) (service : String) (containerPort : U16) :
    Except HostRuntimeError SocketAddress := do
  match ← composePort service containerPort with
  | [address] =>
    if !address.host.isLoopback || address.port = 0 then
      let shown := displayAddress address
      .error (.startup s!"published address for `{service}:{containerPort}` is not nonzero loopback: {shown}")
    else .ok address
  | addresses =>
    .error (.startup
      s!"expected exactly one published address for `{service}:{containerPort}`, got {addresses.length}")

/-- The host and port of a provider on a device. -/
def remoteEndpoint (provider address : String) : Except HostRuntimeError (String × U16) :=
  let invalid := HostRuntimeError.invalidPlan s!"remote provider `{provider}` has invalid address `{address}`"
  match Text.rsplitOnce ':' address with
  | none => .error invalid
  | some (host, port) =>
    match Planner.Encoding.readPort port with
    | none => .error invalid
    | some port => .ok (host, port)

/-- The host and port an upstream is reached at. -/
def upstreamEndpoint (composePort : ComposePort) (provider : String) (upstream : HostUpstreamPlan) :
    Except HostRuntimeError (String × U16) :=
  match upstream.remoteAddress with
  | some address => remoteEndpoint provider address
  | none => (publishedAddress composePort upstream.composeService upstream.containerPort).map
      fun address => (address.host.display, address.port)

/-- A provider at another host and port. -/
def moveTo (target : String × U16) (provider : Provider) : Provider :=
  { provider with endpoint := { provider.endpoint with host := target.1, port := target.2 } }

/-- Resolve one upstream. -/
def resolveUpstream (composePort : ComposePort) (config : RouterConfig) (entry : String × HostUpstreamPlan) :
    Except HostRuntimeError RouterConfig :=
  let provider := entry.1
  let count := (config.spec.providers.filter fun candidate => candidate.id = provider).length
  if count ≠ 1 then .error (.invalidPlan s!"published provider `{provider}` matched {count} host providers")
  else do
    let target ← upstreamEndpoint composePort provider entry.2
    return config.mapProviders fun candidate => if candidate.id = provider then moveTo target candidate else candidate

/-- Whether a provider is at an address the gateway may reach. -/
def atLoopback (provider : Provider) : Bool :=
  isLoopbackHost provider.endpoint.host && decide (provider.endpoint.port ≠ 0)

/-- The configuration if all its providers are. -/
def requireLoopback (config : RouterConfig) : Except HostRuntimeError RouterConfig :=
  match config.spec.providers.find? fun provider => !atLoopback provider with
  | some provider =>
    .error (.invalidPlan s!"provider `{provider.id}` did not resolve to one nonzero loopback address")
  | none => .ok config

/-- `resolve_published_upstreams`. -/
def resolvePublishedUpstreams (composePort : ComposePort) (plan : Plan) (config : RouterConfig) :
    Except HostRuntimeError RouterConfig := do
  let resolved ← plan.hostUpstreams.entries.foldlM (resolveUpstream composePort) config
  requireLoopback resolved

theorem requireLoopback_ok_iff {config result : RouterConfig} :
    requireLoopback config = .ok result ↔ (∀ p ∈ config.spec.providers, atLoopback p = true) ∧ config = result := by
  rw [requireLoopback]
  cases hfind : config.spec.providers.find? fun provider => !atLoopback provider with
  | some provider =>
    have hmem := List.mem_of_find?_eq_some hfind
    have hnot := List.find?_some hfind
    simp only [false_iff, reduceCtorEq]
    rintro ⟨hall, -⟩
    simp [hall provider hmem] at hnot
  | none =>
    have hall := List.find?_eq_none.mp hfind
    simp only [Bool.not_eq_true, Bool.not_eq_false'] at hall
    exact ⟨fun h => ⟨hall, Except.ok.inj h⟩, fun h => by rw [h.2]⟩

/-! ### Resolving one upstream after another -/

/-- The provider with the address it is found at, if it is. -/
def movedBy (targets : List (String × (String × U16))) (provider : Provider) : Provider :=
  match targets.lookup provider.id with
  | some target => moveTo target provider
  | none => provider

theorem movesProviders_movedBy (targets : List (String × (String × U16))) : MovesProviders (movedBy targets) where
  id p := by
    rw [movedBy]
    split <;> rfl
  protocol p := by
    rw [movedBy]
    split <;> rfl

theorem mapProviders_mapProviders (f g : Provider → Provider) (config : RouterConfig) :
    (config.mapProviders f).mapProviders g = config.mapProviders fun p => g (f p) := by
  simp [RouterConfig.mapProviders, List.map_map, Function.comp_def]

/-- One provider of an identifier, if the identifiers are distinct and it is one of them. -/
theorem length_filter_id {providers : List Provider} (hids : (providers.map Provider.id).Nodup) {id : String}
    (h : id ∈ providers.map Provider.id) : (providers.filter fun candidate => candidate.id = id).length = 1 := by
  have hcount : (providers.map Provider.id).count id = 1 := List.count_eq_one_of_mem hids h
  rw [← hcount, List.count_eq_countP, List.countP_map, List.countP_eq_length_filter]
  congr 1

/-- Resolving upstreams that have addresses moves their providers there. -/
theorem foldlM_resolveUpstream (composePort : ComposePort) {entries : List (String × HostUpstreamPlan)}
    (hkeys : (entries.map Prod.fst).Nodup) {target : String × HostUpstreamPlan → String × U16}
    (htarget : ∀ e ∈ entries, upstreamEndpoint composePort e.1 e.2 = .ok (target e)) {config : RouterConfig}
    (hids : (config.spec.providers.map Provider.id).Nodup)
    (hdeclared : ∀ e ∈ entries, e.1 ∈ config.spec.providers.map Provider.id) :
    entries.foldlM (resolveUpstream composePort) config =
      .ok (config.mapProviders (movedBy (entries.map fun e => (e.1, target e)))) := by
  induction entries generalizing config with
  | nil =>
    rw [List.foldlM_nil, show movedBy (([] : List (String × HostUpstreamPlan)).map fun e => (e.1, target e)) = id from rfl]
    simp [RouterConfig.mapProviders]
    rfl
  | cons e rest ih =>
    obtain ⟨hfresh, hrest⟩ := List.nodup_cons.mp hkeys
    have hstep : resolveUpstream composePort config e = .ok (config.mapProviders fun candidate =>
        if candidate.id = e.1 then moveTo (target e) candidate else candidate) := by
      rw [resolveUpstream, if_neg (by simp [length_filter_id hids (hdeclared e (List.mem_cons_self ..))]),
        htarget e (List.mem_cons_self ..)]
      rfl
    have hsame : ((config.mapProviders fun candidate =>
        if candidate.id = e.1 then moveTo (target e) candidate else candidate).spec.providers.map Provider.id) =
        config.spec.providers.map Provider.id := by
      rw [RouterConfig.mapProviders, List.map_map]
      refine List.map_congr_left fun p _ => ?_
      rw [Function.comp]
      split_ifs <;> rfl
    have hmoved : ∀ p, movedBy (rest.map fun e => (e.1, target e))
        (if p.id = e.1 then moveTo (target e) p else p) = movedBy ((e :: rest).map fun e => (e.1, target e)) p := by
      intro p
      rw [List.map_cons]
      split_ifs with hid
      · have hnone : (rest.map fun e => (e.1, target e)).lookup (moveTo (target e) p).id = none := by
          rw [List.lookup_eq_none_iff]
          intro entry hentry
          obtain ⟨other, hother, rfl⟩ := List.mem_map.mp hentry
          rw [bne_iff_ne, ne_eq]
          intro heq
          refine hfresh (List.mem_map.mpr ⟨other, hother, ?_⟩)
          rw [← hid]
          exact heq.symm
        rw [movedBy, hnone, movedBy, List.lookup_cons, hid, beq_self_eq_true]
      · rw [movedBy, movedBy, List.lookup_cons, beq_false_of_ne hid]
    rw [List.foldlM_cons, hstep]
    refine (ih hrest (fun e he => htarget e (List.mem_cons_of_mem _ he)) (hsame ▸ hids)
      (fun e he => hsame ▸ hdeclared e (List.mem_cons_of_mem _ he))).trans ?_
    rw [mapProviders_mapProviders]
    exact congrArg (fun f => Except.ok (config.mapProviders f)) (funext hmoved)

/-! ### The host router of a plan -/

/-- The address of a provider on a device is read back. -/
theorem remoteEndpoint_shown (provider host : String) (port : U16) :
    remoteEndpoint provider s!"{host}:{port}" = .ok (host, port) := by
  have hcolon : ':' ∉ (toString port.val).toList := Codec.not_mem_toString (by decide)
  have hsplit : Text.rsplitOnce ':' (host ++ ":" ++ toString port.val) = some (host, toString port.val) :=
    Text.rsplitOnce_of_toList (by simp) hcolon
  rw [show s!"{host}:{port}" = host ++ ":" ++ toString port.val from rfl, remoteEndpoint, hsplit]
  dsimp only
  rw [Planner.Encoding.readPort_toString]

theorem addProxyListeners_providers {platform : Platform} {bundle : Bundle} {profiles : List (String × ManagedProfilePlan)}
    {config result : RouterConfig} (h : addProxyListeners platform bundle profiles config = .ok result) :
    result.spec.providers = config.spec.providers := by
  induction profiles generalizing config with
  | nil =>
    cases h
    rfl
  | cons entry rest ih =>
    obtain ⟨listener, -, h⟩ := bind_eq_ok_iff.mp h
    have hrest := ih h
    exact hrest

/-- What a plan's host router has of the deployment's. -/
structure PlannedRouter (spec : DeploymentSpec) (devices : Devices) (router config : RouterConfig) : Prop where
  providers : config.spec.providers = router.spec.providers.map (placeProvider spec devices)
  valid : config.Valid
  loopback : ∀ p ∈ router.spec.providers, isLoopbackHost p.endpoint.host = true
  ports : ∀ p ∈ router.spec.providers, p.endpoint.port = 0 → spec.hostUpstreams.contains p.id = true
  upstreamPorts : ∀ e ∈ spec.hostUpstreams.entries, e.2.port ≠ 0
  declared : ∀ e ∈ spec.hostUpstreams.entries, ∃ p ∈ router.spec.providers, p.id = e.1

/-- Validation checks the addresses of the authored providers and the upstreams. -/
theorem of_hostUpstreamErrors {spec : DeploymentSpec} {config : RouterConfig} (h : hostUpstreamErrors spec config = []) :
    (∀ p ∈ config.spec.providers, isLoopbackHost p.endpoint.host = true) ∧
      (∀ p ∈ config.spec.providers, p.endpoint.port = 0 → spec.hostUpstreams.contains p.id = true) ∧
      (∀ e ∈ spec.hostUpstreams.entries, e.2.port ≠ 0) ∧
      ∀ e ∈ spec.hostUpstreams.entries, ∃ p ∈ config.spec.providers, p.id = e.1 := by
  rw [hostUpstreamErrors, List.append_eq_nil_iff, List.flatMap_eq_nil_iff, List.flatMap_eq_nil_iff] at h
  refine ⟨fun p hp => ?_, fun p hp hport => ?_, fun e he => ?_, fun e he => ?_⟩
  · have hp := h.1 p hp
    rw [hostProviderErrors, List.append_eq_nil_iff, reportIf_eq_nil, reportIf_eq_nil] at hp
    have hhost := hp.1
    rw [isLoopbackHost, Bool.or_eq_true]
    cases haddress : IpAddr.parse p.endpoint.host with
    | none => simpa [haddress] using hhost
    | some address => simpa [haddress, or_iff_not_imp_left] using hhost
  · have hp := h.1 p hp
    rw [hostProviderErrors, List.append_eq_nil_iff, reportIf_eq_nil, reportIf_eq_nil] at hp
    simpa [hport] using hp.2
  · have he := h.2 e he
    simp only [upstreamErrors, List.append_eq_nil_iff, reportIf_eq_nil] at he
    simpa using he.1.1
  · have he := h.2 e he
    simp only [upstreamErrors, List.append_eq_nil_iff, reportIf_eq_nil] at he
    simpa using he.1.2

/-- The host router of a plan. -/
theorem exists_plannedRouter {host : Planner.Host} {bundle : Bundle} {options : OverlayOptions} {devices : Devices}
    {plan : Plan} (hplan : planWithOverlaysAndDevices host bundle options devices = .ok plan) {config : RouterConfig}
    (hconfig : plan.hostRouterConfig = some config) :
    ∃ e router, effective host bundle options = .ok e ∧
      plan.hostUpstreams = hostUpstreams host.toPlatform e.bundle.document devices ∧
      PlannedRouter e.bundle.document.spec devices router config := by
  obtain ⟨e, groups, he, hvalid, hgenerate⟩ := planWithOverlaysAndDevices_ok hplan
  obtain ⟨profiles, generated, probes, outputs, remotes, -, hgenerated, -, -, -, rfl⟩ := generate_ok_iff.mp hgenerate
  obtain rfl : generated = some config := hconfig
  cases hrouter : e.bundle.document.spec.hostRouter with
  | none =>
    rw [generateHostRouterConfig, hrouter] at hgenerated
    cases hgenerated
  | some router =>
    obtain ⟨result, hresult, -, hproxied, hconfigValid⟩ := (generateHostRouterConfig_ok_iff hrouter).mp hgenerated
    obtain rfl := Option.some.inj hresult
    have hproviders : ∀ config, (applyAddresses host.toPlatform e.bundle.document.spec groups config).1.spec.providers =
        config.spec.providers := fun config =>
      congrArg (fun config => config.spec.providers) (unrouted_applyAddresses host.toPlatform e.bundle.document.spec groups config)
    obtain ⟨-, -, hdocument, rfl⟩ := Planner.validate_ok_iff.mp hvalid
    have herrors : hostUpstreamErrors e.bundle.document.spec
        (applyAddresses host.toPlatform e.bundle.document.spec (resolveGroups e.bundle.document.spec).1 router).1 = [] := by
      have hall := (List.append_eq_nil_iff.mp hdocument).2
      rw [addressedRouter, hrouter] at hall
      exact (List.append_eq_nil_iff.mp hall).2
    obtain ⟨hloopback, hports, hupstreamPorts, hdeclared⟩ := of_hostUpstreamErrors herrors
    rw [hproviders] at hloopback hports
    refine ⟨e, router, he, rfl, ?_, (Router.validate_ok_iff _).mp hconfigValid, hloopback, hports, hupstreamPorts, ?_⟩
    · rw [addProxyListeners_providers hproxied, hproviders]
      rfl
    · intro e he
      obtain ⟨p, hp, hid⟩ := hdeclared e he
      exact ⟨p, hproviders router ▸ hp, hid⟩

/-! ### What is resolved -/

/-- Docker publishes every service of the machine at one port of the loopback interface. -/
def PublishesLocal (composePort : ComposePort) (plan : Plan) : Prop :=
  ∀ provider upstream, plan.hostUpstreams.get? provider = some upstream → upstream.remoteAddress = none →
    ∃ address, composePort upstream.composeService upstream.containerPort = .ok [address] ∧
      address.host.isLoopback = true ∧ address.port ≠ 0

/-- No upstream is on a device that is reached at an address of its own. -/
def RemotesLocal (spec : DeploymentSpec) (devices : Devices) : Prop :=
  ∀ provider upstream device, spec.hostUpstreams.get? provider = some upstream →
    placedOn spec devices upstream.inst = some device → isLoopbackHost device.host = true

/-- The gateway's preflight refuses no provider: the configuration is valid, and every
provider is at an address the gateway may reach. -/
structure Passes (config : RouterConfig) : Prop where
  valid : config.validate = .ok ()
  upstreams : ∀ bind, NotUpstream (preflight bind config)

theorem isLoopbackHost_display {address : IpAddr} (h : address.isLoopback = true) :
    isLoopbackHost address.display = true := by
  rw [isLoopbackHost, IpAddr.parse_display, Option.any_some, h, Bool.or_true]

/-- The endpoint of an upstream: that of its device, or the one Docker publishes. -/
theorem upstreamEndpoint_ok {composePort : ComposePort} {platform : Platform} {document : Document} {devices : Devices}
    {upstream : PublishedUpstream} (provider : String)
    (hdocker : (hostUpstream platform document devices upstream).remoteAddress = none →
      ∃ address, composePort (hostUpstream platform document devices upstream).composeService
          (hostUpstream platform document devices upstream).containerPort = .ok [address] ∧
        address.host.isLoopback = true ∧ address.port ≠ 0) :
    ∃ target, upstreamEndpoint composePort provider (hostUpstream platform document devices upstream) = .ok target ∧
      match placedOn document.spec devices upstream.inst with
      | some device => target = (device.host, upstream.port)
      | none => isLoopbackHost target.1 = true ∧ target.2 ≠ 0 := by
  cases hplaced : placedOn document.spec devices upstream.inst with
  | some device =>
    have hremote : (hostUpstream platform document devices upstream).remoteAddress =
        some s!"{device.host}:{upstream.port}" := by
      rw [hostUpstream]
      simp [hplaced]
    refine ⟨(device.host, upstream.port), ?_, rfl⟩
    rw [upstreamEndpoint, hremote]
    exact remoteEndpoint_shown provider device.host upstream.port
  | none =>
    have hremote : (hostUpstream platform document devices upstream).remoteAddress = none := by
      rw [hostUpstream]
      simp [hplaced]
    obtain ⟨address, haddress, hloopback, hport⟩ := hdocker hremote
    refine ⟨(address.host.display, address.port), ?_, isLoopbackHost_display hloopback, hport⟩
    rw [upstreamEndpoint, hremote]
    dsimp only
    rw [publishedAddress, haddress]
    simp only [bind, Except.bind, hloopback, hport]
    rfl

section Resolved

variable {composePort : ComposePort} {platform : Platform} {document : Document} {devices : Devices}
  {router config : RouterConfig} {plan : Plan}

/-- The addresses the upstreams of a plan are found at. -/
def upstreamTargets (composePort : ComposePort) (plan : Plan) : SortedMap String (String × U16) :=
  plan.hostUpstreams.mapValues fun provider upstream =>
    (upstreamEndpoint composePort provider upstream).toOption.getD ("", 0)

/-- The target of an upstream of the plan. -/
theorem get?_upstreamTargets (hupstreams : plan.hostUpstreams = hostUpstreams platform document devices)
    (hdocker : PublishesLocal composePort plan) {provider : String} {upstream : PublishedUpstream}
    (hget : document.spec.hostUpstreams.get? provider = some upstream) :
    ∃ target, (upstreamTargets composePort plan).get? provider = some target ∧
      upstreamEndpoint composePort provider (hostUpstream platform document devices upstream) = .ok target ∧
      match placedOn document.spec devices upstream.inst with
      | some device => target = (device.host, upstream.port)
      | none => isLoopbackHost target.1 = true ∧ target.2 ≠ 0 := by
  have hplan : plan.hostUpstreams.get? provider = some (hostUpstream platform document devices upstream) := by
    rw [hupstreams, hostUpstreams, SortedMap.get?_mapValues, hget]
    rfl
  obtain ⟨target, htarget, hplaced⟩ := upstreamEndpoint_ok provider (hdocker provider _ hplan)
  refine ⟨target, ?_, htarget, hplaced⟩
  rw [upstreamTargets, SortedMap.get?_mapValues, hplan, Option.map_some, htarget]
  rfl

/-- Every upstream of the plan is resolved: its provider is moved to its address. -/
theorem foldlM_hostUpstreams (h : PlannedRouter document.spec devices router config)
    (hupstreams : plan.hostUpstreams = hostUpstreams platform document devices)
    (hdocker : PublishesLocal composePort plan) :
    plan.hostUpstreams.entries.foldlM (resolveUpstream composePort) config =
      .ok (config.mapProviders (movedBy (upstreamTargets composePort plan).entries)) := by
  have hids : config.spec.providers.map Provider.id = router.spec.providers.map Provider.id := by
    rw [h.providers, List.map_map]
    refine List.map_congr_left fun p _ => ?_
    rw [Function.comp, placeProvider]
    split
    · rfl
    · split <;> rfl
  have hentry : ∀ e ∈ plan.hostUpstreams.entries, ∃ upstream, document.spec.hostUpstreams.get? e.1 = some upstream ∧
      hostUpstream platform document devices upstream = e.2 := by
    intro e he
    have hget := (SortedMap.mem_entries_iff _).mp he
    rw [hupstreams, hostUpstreams, SortedMap.get?_mapValues, Option.map_eq_some_iff] at hget
    exact hget
  refine foldlM_resolveUpstream composePort ?_ ?_ h.valid.providerIds ?_
  · exact plan.hostUpstreams.sorted.map _ (fun _ _ hlt => ne_of_lt hlt)
  · intro e he
    obtain ⟨upstream, hget, hupstream⟩ := hentry e he
    obtain ⟨target, -, htarget, -⟩ := get?_upstreamTargets hupstreams hdocker hget
    rw [hupstream] at htarget
    dsimp only
    rw [htarget]
    rfl
  · intro e he
    obtain ⟨upstream, hget, -⟩ := hentry e he
    obtain ⟨p, hp, hid⟩ := h.declared (e.1, upstream) ((SortedMap.mem_entries_iff _).mpr hget)
    rw [hids]
    exact List.mem_map.mpr ⟨p, hp, hid⟩

/-- A provider without an upstream stays, and is at the loopback interface. -/
theorem atLoopback_authored (h : PlannedRouter document.spec devices router config)
    (hupstreams : plan.hostUpstreams = hostUpstreams platform document devices) {p : Provider}
    (hp : p ∈ router.spec.providers) (hget : document.spec.hostUpstreams.get? p.id = none) :
    atLoopback (movedBy (upstreamTargets composePort plan).entries (placeProvider document.spec devices p)) = true := by
  have hplace : placeProvider document.spec devices p = p := by rw [placeProvider, hget]
  have hnone : (upstreamTargets composePort plan).get? p.id = none := by
    rw [upstreamTargets, SortedMap.get?_mapValues, hupstreams, hostUpstreams, SortedMap.get?_mapValues, hget]
    rfl
  have hport : p.endpoint.port ≠ 0 := by
    intro hport
    have hcontains := h.ports p hp hport
    rw [SortedMap.contains, hget] at hcontains
    cases hcontains
  rw [hplace, movedBy, SortedMap.lookup_eq_lookup, show SortedMap.lookup p.id (upstreamTargets composePort plan).entries = none from hnone]
  simp [atLoopback, h.loopback p hp, hport]

/-- A provider with an upstream is where the upstream is. -/
theorem movedBy_upstream {p : Provider} {target : String × U16}
    (hget : (upstreamTargets composePort plan).get? p.id = some target) :
    movedBy (upstreamTargets composePort plan).entries (placeProvider document.spec devices p) =
      moveTo target (placeProvider document.spec devices p) := by
  have hid : (placeProvider document.spec devices p).id = p.id := by
    rw [placeProvider]
    split
    · rfl
    · split <;> rfl
  rw [movedBy, SortedMap.lookup_eq_lookup, hid,
    show SortedMap.lookup p.id (upstreamTargets composePort plan).entries = some target from hget]

/-- Every provider is at the loopback interface exactly if every device of an upstream is. -/
theorem atLoopback_iff (h : PlannedRouter document.spec devices router config)
    (hupstreams : plan.hostUpstreams = hostUpstreams platform document devices)
    (hdocker : PublishesLocal composePort plan) :
    (∀ p ∈ config.spec.providers, atLoopback (movedBy (upstreamTargets composePort plan).entries p) = true) ↔
      RemotesLocal document.spec devices := by
  rw [h.providers]
  constructor
  · intro hall provider upstream device hget hplaced
    obtain ⟨p, hp, rfl⟩ := h.declared (provider, upstream) ((SortedMap.mem_entries_iff _).mpr hget)
    obtain ⟨target, htarget, -, hwhere⟩ := get?_upstreamTargets hupstreams hdocker hget
    have hloopback := hall _ (List.mem_map_of_mem hp)
    rw [movedBy_upstream htarget, atLoopback, Bool.and_eq_true] at hloopback
    rw [hplaced] at hwhere
    obtain rfl := hwhere
    exact hloopback.1
  · intro hremotes q hq
    obtain ⟨p, hp, rfl⟩ := List.mem_map.mp hq
    cases hget : document.spec.hostUpstreams.get? p.id with
    | none => exact atLoopback_authored h hupstreams hp hget
    | some upstream =>
      obtain ⟨target, htarget, -, hwhere⟩ := get?_upstreamTargets hupstreams hdocker hget
      rw [movedBy_upstream htarget, atLoopback, Bool.and_eq_true, decide_eq_true_eq]
      cases hplaced : placedOn document.spec devices upstream.inst with
      | none =>
        rw [hplaced] at hwhere
        exact hwhere
      | some device =>
        rw [hplaced] at hwhere
        obtain rfl := hwhere
        exact ⟨hremotes p.id upstream device hget hplaced,
          h.upstreamPorts (p.id, upstream) ((SortedMap.mem_entries_iff _).mpr hget)⟩

end Resolved

/-- Where Docker publishes every local service, the upstreams of a plan are resolved and pass
the gateway's preflight exactly if no upstream is on a device with an address of its own. -/
theorem resolves_iff {host : Planner.Host} {bundle : Bundle} {options : OverlayOptions} {devices : Devices} {plan : Plan}
    (hplan : planWithOverlaysAndDevices host bundle options devices = .ok plan) {config : RouterConfig}
    (hconfig : plan.hostRouterConfig = some config) {composePort : ComposePort}
    (hdocker : PublishesLocal composePort plan) :
    ∃ e, effective host bundle options = .ok e ∧
      ((∃ resolved, resolvePublishedUpstreams composePort plan config = .ok resolved ∧ Passes resolved) ↔
        RemotesLocal e.bundle.document.spec devices) := by
  obtain ⟨e, router, he, hupstreams, h⟩ := exists_plannedRouter hplan hconfig
  refine ⟨e, he, ?_⟩
  have hfold := foldlM_hostUpstreams h hupstreams hdocker
  have hiff := atLoopback_iff h hupstreams hdocker
  have hresolve : ∀ resolved, resolvePublishedUpstreams composePort plan config = .ok resolved ↔
      (∀ p ∈ config.spec.providers, atLoopback (movedBy (upstreamTargets composePort plan).entries p) = true) ∧
        config.mapProviders (movedBy (upstreamTargets composePort plan).entries) = resolved := by
    intro resolved
    rw [resolvePublishedUpstreams, hfold]
    refine requireLoopback_ok_iff.trans (and_congr_left' ?_)
    simp [RouterConfig.mapProviders]
  constructor
  · rintro ⟨resolved, hresolved, -⟩
    exact hiff.mp ((hresolve resolved).mp hresolved).1
  · intro hremotes
    have hall := hiff.mpr hremotes
    have hsafe : ∀ p ∈ config.spec.providers,
        isLoopbackHost (movedBy (upstreamTargets composePort plan).entries p).endpoint.host = true := fun p hp =>
      (Bool.and_eq_true_iff.mp (hall p hp)).1
    refine ⟨_, (hresolve _).mpr ⟨hall, rfl⟩, ?_, fun bind => ?_⟩
    · exact (Router.validate_ok_iff _).mpr (h.valid.mapProviders (movesProviders_movedBy _) hsafe)
    · refine preflight_safe bind fun p hp => ?_
      obtain ⟨original, horiginal, rfl⟩ := List.mem_map.mp hp
      exact hsafe original horiginal

/-! ### A device -/

/-- The deployment with its first web server on a device. -/
def placedShop : Bundle :=
  shopBundle.withDocument (shopBundle.document.withSpec { shopBundle.document.spec with
    instances := [{ webInstance "front" (some "front.localhost") with device := some "builder" }, webInstance "back" none] })

/-- The device, reached at a host. -/
def builderAt (host : String) : Devices := .ofList [("builder", ⟨"dev", host, 22, none⟩)]

/-- Docker publishes every service at one port. -/
def publishAll : ComposePort := fun _ _ => .ok [⟨IpAddr.localhost, 32768⟩]

theorem publishAll_local (plan : Plan) : PublishesLocal publishAll plan := fun _ _ _ _ =>
  ⟨⟨IpAddr.localhost, 32768⟩, rfl, by decide, by decide⟩

/-- A device behind a tunnel is reached. -/
theorem resolves_tunnel :
    ∃ plan config, planWithOverlaysAndDevices shopHost placedShop OverlayOptions.none (builderAt "127.0.0.1") = .ok plan ∧
      plan.hostRouterConfig = some config ∧
      ∃ resolved, resolvePublishedUpstreams publishAll plan config = .ok resolved ∧ Passes resolved := by
  have hrun : (planWithOverlaysAndDevices shopHost placedShop OverlayOptions.none (builderAt "127.0.0.1")).toOption.map
      (fun plan => plan.hostRouterConfig.isSome) = some true := by
    decide +kernel
  obtain ⟨plan, hplan, hsome⟩ := exists_ok_of_toOption hrun
  obtain ⟨config, hconfig⟩ := Option.isSome_iff_exists.mp hsome
  obtain ⟨e, -, hiff⟩ := resolves_iff hplan hconfig (publishAll_local plan)
  refine ⟨plan, config, hplan, hconfig, hiff.mpr fun provider upstream device _ hplaced => ?_⟩
  obtain ⟨inst, -, hplaced⟩ := Option.bind_eq_some_iff.mp hplaced
  obtain ⟨name, -, hdevice⟩ := Option.bind_eq_some_iff.mp hplaced
  have hmem := List.mem_singleton.mp ((SortedMap.mem_entries_iff (builderAt "127.0.0.1")).mpr hdevice)
  rw [show device = ⟨"dev", "127.0.0.1", 22, none⟩ from congrArg Prod.snd hmem]
  decide

/-- A device at an address of its own is planned, and then refused. -/
theorem refuses_device :
    ∃ plan config, planWithOverlaysAndDevices shopHost placedShop OverlayOptions.none (builderAt "10.0.0.5") = .ok plan ∧
      plan.hostRouterConfig = some config ∧ PublishesLocal publishAll plan ∧
      resolvePublishedUpstreams publishAll plan config =
        .error (.invalidPlan "provider `front` did not resolve to one nonzero loopback address") := by
  have hrun : (planWithOverlaysAndDevices shopHost placedShop OverlayOptions.none (builderAt "10.0.0.5")).toOption.map
      (fun plan => plan.hostRouterConfig.map fun config =>
        match resolvePublishedUpstreams publishAll plan config with
        | .ok _ => none
        | .error e => some e)
      = some (some (some (.invalidPlan "provider `front` did not resolve to one nonzero loopback address"))) := by
    decide +kernel
  obtain ⟨plan, hplan, hvalue⟩ := exists_ok_of_toOption hrun
  obtain ⟨config, hconfig, hresult⟩ := Option.map_eq_some_iff.mp hvalue
  refine ⟨plan, config, hplan, hconfig, publishAll_local plan, ?_⟩
  cases hresolve : resolvePublishedUpstreams publishAll plan config with
  | ok resolved =>
    rw [hresolve] at hresult
    cases hresult
  | error e =>
    rw [hresolve] at hresult
    rw [Option.some.inj hresult]

end Apmpr.Host

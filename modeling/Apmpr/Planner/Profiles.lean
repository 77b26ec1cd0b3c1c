import Apmpr.Planner.Addresses
import Apmpr.Router.Validate

/-!
# Managed profiles

The managed browser profiles of a deployment: the local start URL of a profile
(`local_http_target`), the destinations its proxy listener offers
(`managed_profile_destinations`), the ports of the proxy listeners (`managed_profiles`), and
`generate_host_router_config`, which puts addresses and proxy listeners together into the
host router's configuration.
-/

namespace Apmpr.Planner

open Router (RouterConfig Listener ListenerDestination)

/-- Whether a lower-case host is the local machine. -/
def localHost (host : String) : Bool :=
  host = "localhost" || Text.endsWith host ".localhost" ||
    (match IpAddr.parse host with
      | some address => address.isLoopback
      | none => false)

/-- Whether an authority says a port. -/
def explicitPort (authority : String) : Bool :=
  if Text.startsWith authority "[" then
    match Text.splitOnce ']' authority with
    | some (_, rest) => Text.startsWith rest ":"
    | none => false
  else Text.contains authority ":"

/-- A host without the brackets around it. -/
def withoutBrackets (host : String) : String :=
  match Text.afterStart "[" host with
  | some inner => if Text.endsWith inner "]" then String.ofList inner.toList.dropLast else host
  | none => host

/-- `local_http_target`. -/
def localHttpTarget (platform : Platform) (value : String) : Option (String × U16) :=
  if value.toList.any Text.isWhitespace || Text.contains value "#" then none
  else do
    let uri ← platform.parseUri value
    let authority ← uri.authority
    if uri.scheme ≠ some "http" || Text.contains authority "@" ||
        (explicitPort authority && uri.port.isNone) then none
    else
      let host := Text.toAsciiLowercase (withoutBrackets uri.host)
      let port := uri.port.getD 80
      if localHost host && port ≠ 0 then some (host, port) else none

/-- `is_local_http_url`. -/
def isLocalHttpUrl (platform : Platform) (value : String) : Bool := (localHttpTarget platform value).isSome

/-- The cleartext listeners and destinations of a slot. -/
def slotSources (config : RouterConfig) (slot : Router.RouteSlotId) : List (Listener × ListenerDestination) :=
  (config.spec.listeners.filter fun listener =>
      listener.proxyIdentity.isNone && listener.protocol = .http).flatMap fun listener =>
    (listener.destinations.filter fun destination => destination.slot = slot).map fun destination =>
      (listener, destination)

/-- The host name a destination declares. -/
def declaredHost : ListenerDestination → Option String
  | .customDomain _ domain => some domain
  | .legacyLocalhost _ host => some host
  | .loopback _ => none
  | .proxyTarget _ _ _ => none

/-- The proxy destination of one browser route of a profile. -/
def proxyDestination (config : RouterConfig) (slot : Router.RouteSlotId) : Except String ListenerDestination :=
  match slotSources config slot with
  | [(listener, destination)] =>
    match declaredHost destination with
    | none => .error s!"proxy destination `{slot}` does not declare an exact local host"
    | some host =>
      let normalized := normalizedHostname host
      if localHost normalized then .ok (.proxyTarget slot normalized listener.bind.port)
      else .error s!"proxy destination `{slot}` host `{host}` is not local"
  | sources =>
    .error s!"proxy destination `{slot}` maps to {sources.length} cleartext HTTP source destinations; expected exactly one"

/-- Whether a proxy destination is this host and port. -/
def targets (host : String) (port : U16) : ListenerDestination → Bool
  | .proxyTarget _ h p => h = host && p = port
  | _ => false

/-- `managed_profile_destinations`. -/
def managedProfileDestinations (platform : Platform) (config : RouterConfig) (routeIdentity startUrl : String) :
    Except String (List ListenerDestination) := do
  let start ← match localHttpTarget platform startUrl with
    | some start => Except.ok start
    | none => .error "managed profile start URL is invalid"
  let destinations ← (config.spec.browserRoutes.filter fun route =>
      route.identity = .proxyListener routeIdentity).mapM fun route => proxyDestination config route.destination
  if destinations.isEmpty then .error "managed profile route has no proxy-listener browser routes"
  else
    let count := (destinations.filter (targets start.1 start.2)).length
    if count ≠ 1 then
      .error s!"managed profile start target `{start.1}:{start.2}` maps to {count} declared proxy destinations; expected exactly one"
    else .ok destinations

/-- `ManagedProfilePlan`; the proxy's address is `127.0.0.1` with the port. -/
structure ManagedProfilePlan where
  deployment : String
  inst : String
  route : String
  proxyPort : U16
  startUrl : String
  deriving DecidableEq

/-- The first port from an offset on that is not used; the search comes back to its start
after the last port, and goes on for ever if there is none. -/
def profilePort (used : List U16) (offset : ℕ) : Except Failure U16 :=
  match ((List.range 8000).map fun k => (Fin.ofNat 65536 (24000 + (offset + k) % 8000) : U16)).find?
      fun port => !used.contains port with
  | some port => .ok port
  | none => .error (.diverged "managed profile ports")

/-- The profiles with their ports, given the ports of the ones before. -/
def assignProfiles (platform : Platform) (deployment : String) :
    List (String × ManagedProfile) → List U16 → Except Failure (List (String × ManagedProfilePlan))
  | [], _ => .ok []
  | (inst, profile) :: rest, used => do
    let offset := digestPrefix (platform.sha256 s!"{deployment}\x00{inst}") % 8000
    let port ← profilePort used offset
    let plans ← assignProfiles platform deployment rest (port :: used)
    return (inst, ⟨deployment, inst, profile.route, port, profile.startUrl⟩) :: plans

/-- `managed_profiles`. -/
def managedProfiles (platform : Platform) (document : Document) :
    Except Failure (List (String × ManagedProfilePlan)) :=
  assignProfiles platform document.metadata.name document.spec.managedProfiles.entries []

/-- The listener of a profile's proxy. -/
def proxyListener (platform : Platform) (bundle : Bundle) (config : RouterConfig) (profile : ManagedProfilePlan) :
    Except String Listener := do
  let destinations ← managedProfileDestinations platform config profile.route profile.startUrl
  let credentials := ((bundle.workspaceRoot.join ⟨".apmpr/run"⟩).join ⟨bundle.document.metadata.name⟩).join
    ⟨"managed-profiles"⟩
  return {
    consumer := none
    bind := ⟨IpAddr.localhost, profile.proxyPort⟩
    protocol := .http
    tls := none
    destinations := destinations
    proxyIdentity := some profile.route
    proxyAuthentication := some ⟨.basic, credentials.join ⟨s!"{profile.inst}.credential"⟩⟩ }

/-- The proxy listeners, one after another. -/
def addProxyListeners (platform : Platform) (bundle : Bundle) :
    List (String × ManagedProfilePlan) → RouterConfig → Except String RouterConfig
  | [], config => .ok config
  | (_, profile) :: rest, config => do
    let listener ← proxyListener platform bundle config profile
    addProxyListeners platform bundle rest
      { config with spec := { config.spec with listeners := config.spec.listeners ++ [listener] } }

/-- The device an instance of this name is placed on, if it is a registered one. -/
def placedOn (spec : DeploymentSpec) (devices : Devices) (name : String) : Option PlanningDevice := do
  let inst ← spec.instances.find? fun inst => inst.name = name
  let device ← inst.remoteDevice
  devices.get? device

/-- A provider whose instance is on a device is reached there. -/
def placeProvider (spec : DeploymentSpec) (devices : Devices) (provider : Router.Provider) : Router.Provider :=
  match spec.hostUpstreams.get? provider.id with
  | none => provider
  | some upstream =>
    match placedOn spec devices upstream.inst with
    | none => provider
    | some device => { provider with endpoint := { provider.endpoint with host := device.host, port := upstream.port } }

/-- The host router with its providers where their instances are. -/
def placeProviders (spec : DeploymentSpec) (devices : Devices) (config : RouterConfig) : RouterConfig :=
  { config with spec := { config.spec with providers := config.spec.providers.map (placeProvider spec devices) } }

/-- The configuration if nothing was found, else the texts of what was. -/
def passOk (pass : Pass) : Except String RouterConfig :=
  if pass.2.isEmpty then .ok pass.1 else .error ("; ".intercalate (pass.2.map Diagnostic.display))

/-- A configuration that is valid. -/
def validConfig (config : RouterConfig) : Except String RouterConfig :=
  match config.validate with
  | .ok () => .ok config
  | .error errors => .error ("; ".intercalate (errors.map Router.ValidationError.display))

/-- `generate_host_router_config`. -/
def generateHostRouterConfig (platform : Platform) (bundle : Bundle) (groups : ResolvedGroups)
    (profiles : List (String × ManagedProfilePlan)) (devices : Devices) : Except String (Option RouterConfig) :=
  match bundle.document.spec.hostRouter with
  | none => .ok none
  | some config => do
    let spec := bundle.document.spec
    let addressed ← passOk (applyAddresses platform spec groups (placeProviders spec devices config))
    let proxied ← addProxyListeners platform bundle profiles addressed
    let valid ← validConfig proxied
    return some valid

end Apmpr.Planner

import Apmpr.Planner.Model

/-!
# Derived host routing

`with_derived_host_routing` and `derived_host_router` of the crate `apmpr-planner`: a
deployment with addresses and without a host router of its own is given one. Every active
member of a group, and every instance with an address, publishes the services an HTTP
probe can reach; in each group and for each published port the first active member that
serves the port wins it, and the browser identity of every active member is routed there.
-/

namespace Apmpr.Planner

open Router (RouterConfig BrowserRoute Listener)

/-- `spec.instances` or `spec.groups` has an address. -/
def DeploymentSpec.hasAddresses (spec : DeploymentSpec) : Bool :=
  spec.instances.any (·.address.isSome) || spec.groups.values.any (·.address.isSome)

/-- The members of a group that are not disabled. -/
def ServiceGroup.activeMembers (group : ServiceGroup) : List String :=
  group.instances.filter fun member => !group.disabled.contains (memberInstance member)

/-- The instances a browser may reach: those with an address, and the active members. -/
def browserMembers (spec : DeploymentSpec) : List String :=
  (spec.instances.filter (·.address.isSome)).map (·.name) ++
    spec.groups.values.flatMap fun group => group.activeMembers.map memberInstance

/-- The published HTTP port of a service with an HTTP probe on it. -/
def Service.browserPort (service : Service) : Option U16 :=
  match service.probe with
  | some (.http _ port _) => if service.publish.contains port then some port else none
  | _ => none

/-- Whether a service has an HTTP probe. -/
def Service.hasHttpProbe (service : Service) : Bool :=
  match service.probe with
  | some (.http _ _ _) => true
  | _ => false

/-- The first of `preferred`, `preferred-2`, `preferred-3`, … that is not taken. -/
def freshProvider (upstreams : SortedMap String PublishedUpstream) (preferred : String) : String :=
  let names := preferred :: (List.range upstreams.entries.length).map fun k => s!"{preferred}-{k + 2}"
  (names.find? fun name => !upstreams.contains name).getD preferred

section Derive

variable (platform : Platform)

/-- The name a service of an instance is published under, if it is free. -/
def preferredProvider (inst : Instance) (block : Block) (service : String) : String :=
  if (block.services.values.filter Service.hasHttpProbe).length = 1 then inst.name
  else resourceName platform [inst.name, service]

/-- Publish one service of an instance, unless it is published already. -/
def publishService (inst : Instance) (block : Block) (upstreams : SortedMap String PublishedUpstream)
    (candidate : String × U16) : SortedMap String PublishedUpstream :=
  if upstreams.values.any fun upstream => upstream.inst = inst.name && upstream.service = candidate.1 then upstreams
  else
    upstreams.insert (freshProvider upstreams (preferredProvider platform inst block candidate.1))
      ⟨inst.name, candidate.1, candidate.2⟩

/-- The services of a block a browser can reach, with their ports. -/
def browserServices (block : Block) : List (String × U16) :=
  block.services.entries.filterMap fun (name, service) => service.browserPort.map (name, ·)

/-- Publish the services of one instance. -/
def publishInstance (blocks : SortedMap String Block) (upstreams : SortedMap String PublishedUpstream)
    (inst : Instance) : SortedMap String PublishedUpstream :=
  match blocks.get? inst.block with
  | none => upstreams
  | some block => (browserServices block).foldl (publishService platform inst block) upstreams

/-- The upstreams of a deployment with addresses. -/
def publishedUpstreams (spec : DeploymentSpec) : SortedMap String PublishedUpstream :=
  (spec.instances.filter fun inst => !inst.isExternal && (browserMembers spec).contains inst.name).foldl
    (publishInstance platform spec.blocks) spec.hostUpstreams

/-- The service an upstream stands for. -/
def upstreamService (spec : DeploymentSpec) (upstream : PublishedUpstream) : Option Service := do
  let inst ← spec.instances.find? fun inst => inst.name = upstream.inst
  let block ← spec.blocks.get? inst.block
  block.services.get? upstream.service

/-- The provider of an upstream; its port is filled in when the service runs. -/
def upstreamProvider (spec : DeploymentSpec) (provider : String) (upstream : PublishedUpstream) : Router.Provider :=
  match (upstreamService spec upstream).bind Service.probe with
  | some (.http path _ https) => {
      id := provider
      endpoint := ⟨if https then .https else .http, "127.0.0.1", 0⟩
      healthCheck := some ⟨if https then .https else .http, some path, 1000, 500⟩
      receiveIdentityHeader := false }
  | _ => { id := provider, endpoint := ⟨.http, "127.0.0.1", 0⟩, healthCheck := none, receiveIdentityHeader := false }

/-- The instances with an address. -/
def browserTargets (spec : DeploymentSpec) : List String :=
  (spec.instances.filter (·.address.isSome)).map (·.name)

/-- The gateway's routes to the upstreams of instances with an address. -/
def gatewayRoutes (spec : DeploymentSpec) : List Router.Route :=
  spec.hostUpstreams.entries.filterMap fun (provider, upstream) =>
    if (browserTargets spec).contains upstream.inst then
      some ⟨"gateway", resourceName platform ["host", provider], provider⟩
    else none

/-- The published ports, in order. -/
def candidatePorts (spec : DeploymentSpec) : List U16 :=
  (SortedMap.ofList (spec.hostUpstreams.values.map fun upstream => (upstream.port, ()))).keys

/-- The upstream a member serves a port with. -/
def memberUpstream (upstreams : SortedMap String PublishedUpstream) (port : U16) (member : String) : Option String :=
  (upstreams.entries.find? fun (_, upstream) =>
    upstream.inst = memberInstance member && upstream.port = port && namesService member upstream.service).map Prod.fst

/-- The upstream of the first active member that serves a port. -/
def portWinner (upstreams : SortedMap String PublishedUpstream) (active : List String) (port : U16) : Option String :=
  active.findSome? (memberUpstream upstreams port)

/-- The destination of a browser port. -/
def browserSlot (port : U16) : Router.RouteSlotId := s!"browser-{port}"

/-- Add a browser route unless its identity and destination have one. -/
def addBrowserRoute (routes : List BrowserRoute) (route : BrowserRoute) : List BrowserRoute :=
  if routes.any fun existing => existing.identity = route.identity && existing.destination = route.destination then
    routes
  else routes ++ [route]

/-- The routes of a group: every port that has a winner, to every active member that is
declared. -/
def groupRoutes (spec : DeploymentSpec) (group : ServiceGroup) : List (U16 × List BrowserRoute) :=
  (candidatePorts spec).filterMap fun port =>
    (portWinner spec.hostUpstreams group.activeMembers port).map fun winner =>
      (port, (group.activeMembers.filter fun member =>
          spec.instances.any fun inst => inst.name = memberInstance member).map fun member =>
        ⟨.explicitHeader (memberInstance member), browserSlot port, winner⟩)

/-- The browser routes of all groups. -/
def derivedBrowserRoutes (spec : DeploymentSpec) : List BrowserRoute :=
  (spec.groups.values.flatMap fun group => (groupRoutes spec group).flatMap Prod.snd).foldl addBrowserRoute []

/-- The ports that have a winner, in order. -/
def browserPorts (spec : DeploymentSpec) : List U16 :=
  (SortedMap.ofList (spec.groups.values.flatMap fun group => (groupRoutes spec group).map fun r => (r.1, ()))).keys

/-- The gateway's port: the first one, from a place the deployment's name gives, that no
browser listener takes. -/
def gatewayPort (name : String) (taken : List U16) : Except String U16 :=
  let offset := digestPrefix (platform.sha256 name) % 2000
  match ((List.range 2000).map fun k => (Fin.ofNat 65536 (18000 + (offset + k) % 2000) : U16)).find?
      fun port => !taken.contains port with
  | some port => .ok port
  | none => .error "all generated host-gateway ports 18000-19999 conflict with browser listener ports"

/-- The gateway's listener, without destinations. -/
def gatewayListener (port : U16) : Listener where
  consumer := some "gateway"
  bind := ⟨IpAddr.localhost, port⟩
  protocol := .http
  tls := none
  destinations := []
  proxyIdentity := none
  proxyAuthentication := none

/-- The listener of a browser port. -/
def browserListener (port : U16) : Listener where
  consumer := none
  bind := ⟨IpAddr.localhost, port⟩
  protocol := .http
  tls := none
  destinations := [.legacyLocalhost (browserSlot port) "localhost"]
  proxyIdentity := none
  proxyAuthentication := none

/-- `derived_host_router`. -/
def derivedHostRouter (document : Document) : Except String RouterConfig := do
  let spec := document.spec
  let port ← gatewayPort platform document.metadata.name (browserPorts spec)
  return {
    apiVersion := Router.API_VERSION
    kind := Router.KIND
    metadata := ⟨document.metadata.name⟩
    spec := {
      snapshot := {
        id := resourceName platform [document.metadata.name, "host", "initial"]
        version := 1
        transitions := ⟨.drain 5000, .drain 5000, .pin, .drain 5000, .close⟩ }
      exposure := none
      listeners := gatewayListener port :: (browserPorts spec).map browserListener
      providers := spec.hostUpstreams.entries.map fun (provider, upstream) => upstreamProvider spec provider upstream
      groups := []
      bindings := []
      routes := gatewayRoutes platform spec
      browserRoutes := derivedBrowserRoutes spec
      transparentProxy := none
      identity := Router.IdentityPolicy.default } }

/-- A document with another specification. -/
def Document.withSpec (document : Document) (spec : DeploymentSpec) : Document := { document with spec := spec }

/-- The document with its services published. -/
def published (document : Document) : Document :=
  document.withSpec { document.spec with hostUpstreams := publishedUpstreams platform document.spec }

/-- `with_derived_host_routing`. -/
def withDerivedHostRouting (document : Document) : Except Failure Document :=
  if document.spec.hostRouter.isSome || !document.spec.hasAddresses then .ok document
  else
    let effective := published platform document
    match derivedHostRouter platform effective with
    | .ok config => .ok (effective.withSpec { effective.spec with hostRouter := some config })
    | .error message => .error (.diagnostics [⟨.listenerConflict, "spec.groups", message⟩])

end Derive

end Apmpr.Planner

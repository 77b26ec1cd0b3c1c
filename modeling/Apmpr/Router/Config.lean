import Apmpr.Lib.MachineInt
import Apmpr.Lib.SortedMap
import Apmpr.Lib.Text

/-!
# The router configuration

The `apmpr.dev/router/v1alpha1` schema of the crate `router-config`: the types a
router configuration is made of, as the source declares them. Identifiers are
transparent strings, ports are 16-bit and versions 64-bit unsigned numbers. The
maps of the schema iterate in key order and are ordered maps.
-/

namespace Apmpr.Router

/-- A deployment's name. -/
abbrev DeploymentId := String

/-- An instance's name. -/
abbrev InstanceId := String

/-- A provider's name. -/
abbrev ComponentId := String

/-- A group's name. -/
abbrev GroupId := String

/-- A binding's or a browser identity's name. -/
abbrev BindingId := String

/-- A destination a listener declares. -/
abbrev RouteSlotId := String

/-- A snapshot's name. -/
abbrev RouteSnapshotId := String

/-- The schema's `apiVersion`. -/
def API_VERSION : String := "apmpr.dev/router/v1alpha1"

/-- The schema's `kind`. -/
def KIND : String := "RouterConfiguration"

/-- What is spoken on a listener or to a provider. -/
inductive Protocol where
  | http
  | https
  | websocket
  | grpc
  | tcp
  deriving DecidableEq, Repr

/-- The name a protocol is printed with in a diagnostic. -/
def Protocol.debug : Protocol → String
  | .http => "Http"
  | .https => "Https"
  | .websocket => "Websocket"
  | .grpc => "Grpc"
  | .tcp => "Tcp"

/-- What happens to the connections of a replaced snapshot. -/
inductive ConnectionTransitionPolicy where
  | close
  | drain (timeoutMs : U64)
  | pin
  deriving DecidableEq, Repr

/-- The transition of each protocol. -/
structure ConnectionTransitionPolicies where
  http : ConnectionTransitionPolicy
  https : ConnectionTransitionPolicy
  websocket : ConnectionTransitionPolicy
  grpc : ConnectionTransitionPolicy
  tcp : ConnectionTransitionPolicy
  deriving DecidableEq, Repr

/-- What identifies a snapshot, and how connections move to it. -/
structure RouteSnapshot where
  id : RouteSnapshotId
  version : U64
  transitions : ConnectionTransitionPolicies
  deriving DecidableEq, Repr

/-- Where a listener binds. -/
structure SocketAddress where
  host : IpAddr
  port : U16
  deriving DecidableEq, Repr

/-- How a managed proxy authenticates. -/
inductive ProxyAuthenticationScheme where
  | basic
  deriving DecidableEq, Repr

/-- The credential of a managed proxy listener. -/
structure ProxyAuthentication where
  scheme : ProxyAuthenticationScheme
  credentialFile : PathBuf
  deriving DecidableEq, Repr, BEq

/-- A certificate and its key. -/
structure TlsIdentity where
  certificate : PathBuf
  privateKey : PathBuf
  deriving DecidableEq, Repr, BEq

/-- A destination of a listener. -/
inductive ListenerDestination where
  | customDomain (slot : RouteSlotId) (domain : String)
  | legacyLocalhost (slot : RouteSlotId) (host : String)
  | loopback (slot : RouteSlotId)
  | proxyTarget (slot : RouteSlotId) (host : String) (port : U16)
  deriving DecidableEq, Repr

/-- The slot a destination declares. -/
def ListenerDestination.slot : ListenerDestination → RouteSlotId
  | .customDomain slot _ | .legacyLocalhost slot _ | .loopback slot | .proxyTarget slot _ _ => slot

/-- A listener. A sidecar's listeners name the consumer whose namespace they are in. -/
structure Listener where
  consumer : Option InstanceId
  bind : SocketAddress
  protocol : Protocol
  tls : Option TlsIdentity
  destinations : List ListenerDestination
  proxyIdentity : Option BindingId
  proxyAuthentication : Option ProxyAuthentication
  deriving DecidableEq, Repr, BEq

/-- Where a provider is reached. -/
structure UpstreamEndpoint where
  protocol : Protocol
  host : String
  port : U16
  deriving DecidableEq, Repr

/-- How a provider's health is checked. -/
inductive HealthCheckProtocol where
  | http
  | https
  | tcp
  deriving DecidableEq, Repr

/-- A provider's health check. -/
structure HealthCheck where
  protocol : HealthCheckProtocol
  path : Option String
  intervalMs : U64
  timeoutMs : U64
  deriving DecidableEq, Repr

/-- A provider. -/
structure Provider where
  id : ComponentId
  endpoint : UpstreamEndpoint
  healthCheck : Option HealthCheck
  receiveIdentityHeader : Bool
  deriving DecidableEq, Repr

/-- A group: the provider of each slot. -/
structure ServiceGroup where
  id : GroupId
  providers : SortedMap RouteSlotId ComponentId
  deriving DecidableEq

/-- A consumer's choice of group. -/
structure Binding where
  id : BindingId
  consumer : InstanceId
  group : GroupId
  requiredSlots : List RouteSlotId
  deriving DecidableEq, Repr

/-- A direct route of one consumer. -/
structure Route where
  consumer : InstanceId
  slot : RouteSlotId
  provider : ComponentId
  deriving DecidableEq, Repr

/-- How a browser request says who it is for. -/
inductive BrowserIdentity where
  | explicitHeader (value : BindingId)
  | origin (origin : String)
  | proxyListener (listener : RouteSlotId)
  deriving DecidableEq, Repr

/-- A browser route. -/
structure BrowserRoute where
  identity : BrowserIdentity
  destination : RouteSlotId
  provider : ComponentId
  deriving DecidableEq, Repr

/-- A member of a transparent proxy's group. -/
structure TransparentMember where
  component : ComponentId
  host : String
  ports : Option (List U16)
  deriving DecidableEq, Repr

/-- The interception of a consumer's loopback connections. -/
structure TransparentProxy where
  consumer : InstanceId
  port : U16
  members : List TransparentMember
  connectTimeoutMs : U64
  deriving DecidableEq, Repr

/-- How far the gateway's listeners reach. -/
inductive GatewayExposureMode where
  | loopback
  | lan
  deriving DecidableEq, Repr

/-- The gateway's exposure and its acknowledgements. -/
structure GatewayExposure where
  mode : GatewayExposureMode
  acknowledgeLanExposureRisk : Bool
  publishTailscale : Bool
  deriving DecidableEq, Repr

/-- The header a browser names its identity with. -/
structure IdentityPolicy where
  explicitHeader : String
  stripBeforeForwarding : Bool
  deriving DecidableEq, Repr

/-- The default identity policy. -/
def IdentityPolicy.default : IdentityPolicy := ⟨"X-Apmpr-Route", true⟩

/-- The body of a router configuration. -/
structure RouterSpec where
  snapshot : RouteSnapshot
  exposure : Option GatewayExposure
  listeners : List Listener
  providers : List Provider
  groups : List ServiceGroup
  bindings : List Binding
  routes : List Route
  browserRoutes : List BrowserRoute
  transparentProxy : Option TransparentProxy
  identity : IdentityPolicy
  deriving DecidableEq, BEq

/-- What a configuration belongs to. -/
structure ConfigMetadata where
  deployment : DeploymentId
  deriving DecidableEq, Repr

/-- A router configuration. -/
structure RouterConfig where
  apiVersion : String
  kind : String
  metadata : ConfigMetadata
  spec : RouterSpec
  deriving DecidableEq, BEq

/-- `exposure_mode`: no exposure means loopback. -/
def RouterSpec.exposureMode (spec : RouterSpec) : GatewayExposureMode :=
  match spec.exposure with
  | none => .loopback
  | some exposure => exposure.mode

/-- `lan_exposure_acknowledged`. -/
def RouterSpec.lanExposureAcknowledged (spec : RouterSpec) : Bool :=
  match spec.exposure with
  | none => false
  | some exposure => exposure.mode = .lan && exposure.acknowledgeLanExposureRisk

end Apmpr.Router

import Apmpr.Lib.Address
import Apmpr.Lib.Codec
import Apmpr.Router.Config

/-!
# The JSON of a router configuration

The serialised form of the `apmpr.dev/router/v1alpha1` schema, field by field as the crate
`router-config` declares it. Every codec carries the proof that a configuration is read back
as it was written.
-/

namespace Apmpr.Router.Encoding

open Codec Fields

/-- A flag that is left out unless it is set. -/
def flag (name : String) : Fields Bool := defaulted name bool false (!·) fun _ h => by simpa using h

/-- A list that is empty where it is left out, but always written. -/
def items {α : Type} (name : String) (codec : Codec α) : Fields (List α) := withDefault name codec.list []

/-- An address is its text. -/
def ipAddr : Codec IpAddr where
  encode address := .string address.display
  decode
    | .string text => IpAddr.parse text
    | _ => none
  decode_encode := IpAddr.parse_display

/-- `Protocol`. -/
def protocol : Codec Protocol :=
  enum [.http, .https, .websocket, .grpc, .tcp]
    (fun
      | .http => "http"
      | .https => "https"
      | .websocket => "websocket"
      | .grpc => "grpc"
      | .tcp => "tcp")
    fun p => by cases p <;> decide

/-- `ConnectionTransitionPolicy`. -/
def transitionPolicy : Codec ConnectionTransitionPolicy :=
  (((Variants.one "close" Fields.empty).or ((Variants.one "drain" (required "timeoutMs" (bounded (2 ^ 64)))).or
      (Variants.one "pin" Fields.empty))).imap
    (fun
      | .inl () => ConnectionTransitionPolicy.close
      | .inr (.inl timeoutMs) => .drain timeoutMs
      | .inr (.inr ()) => .pin)
    (fun
      | .close => .inl ()
      | .drain timeoutMs => .inr (.inl timeoutMs)
      | .pin => .inr (.inr ()))
    fun p => by cases p <;> rfl).tagged "strategy"

/-- `ConnectionTransitionPolicies`. -/
def transitionPolicies : Codec ConnectionTransitionPolicies :=
  (((required "http" transitionPolicy).and ((required "https" transitionPolicy).and
    ((required "websocket" transitionPolicy).and ((required "grpc" transitionPolicy).and
      (required "tcp" transitionPolicy))))).imap
    (fun (http, https, websocket, grpc, tcp) => ConnectionTransitionPolicies.mk http https websocket grpc tcp)
    (fun p => (p.http, p.https, p.websocket, p.grpc, p.tcp)) fun _ => rfl).object

/-- `RouteSnapshot`. -/
def routeSnapshot : Codec RouteSnapshot :=
  (((required "id" string).and ((required "version" (bounded (2 ^ 64))).and (required "transitions" transitionPolicies))).imap
    (fun (id, version, transitions) => RouteSnapshot.mk id version transitions)
    (fun s => (s.id, s.version, s.transitions)) fun _ => rfl).object

/-- `SocketAddress`. -/
def socketAddress : Codec SocketAddress :=
  (((required "host" ipAddr).and (required "port" (bounded 65536))).imap
    (fun (host, port) => SocketAddress.mk host port) (fun a => (a.host, a.port)) fun _ => rfl).object

/-- `TlsIdentity`. -/
def tlsIdentity : Codec TlsIdentity :=
  (((required "certificate" path).and (required "privateKey" path)).imap
    (fun (certificate, privateKey) => TlsIdentity.mk certificate privateKey)
    (fun tls => (tls.certificate, tls.privateKey)) fun _ => rfl).object

/-- `ProxyAuthentication`. -/
def proxyAuthentication : Codec ProxyAuthentication :=
  (((required "scheme" (enum [ProxyAuthenticationScheme.basic] (fun _ => "basic") fun s => by cases s; rfl)).and
      (required "credentialFile" path)).imap
    (fun (scheme, credentialFile) => ProxyAuthentication.mk scheme credentialFile)
    (fun a => (a.scheme, a.credentialFile)) fun _ => rfl).object

/-- `ListenerDestination`. -/
def listenerDestination : Codec ListenerDestination :=
  (((Variants.one "custom_domain" ((required "slot" string).and (required "domain" string))).or
    ((Variants.one "legacy_localhost" ((required "slot" string).and (required "host" string))).or
      ((Variants.one "loopback" (required "slot" string)).or
        (Variants.one "proxy_target" ((required "slot" string).and ((required "host" string).and
          (required "port" (bounded 65536)))))))).imap
    (fun
      | .inl (slot, domain) => ListenerDestination.customDomain slot domain
      | .inr (.inl (slot, host)) => .legacyLocalhost slot host
      | .inr (.inr (.inl slot)) => .loopback slot
      | .inr (.inr (.inr (slot, host, port))) => .proxyTarget slot host port)
    (fun
      | .customDomain slot domain => .inl (slot, domain)
      | .legacyLocalhost slot host => .inr (.inl (slot, host))
      | .loopback slot => .inr (.inr (.inl slot))
      | .proxyTarget slot host port => .inr (.inr (.inr (slot, host, port))))
    fun d => by cases d <;> rfl).tagged "kind"

/-- `Listener`. -/
def listener : Codec Listener :=
  (((Fields.optional "consumer" string).and ((required "bind" socketAddress).and ((required "protocol" protocol).and
    ((Fields.optional "tls" tlsIdentity).and ((required "destinations" listenerDestination.list).and
      ((Fields.optional "proxyIdentity" string).and (Fields.optional "proxyAuthentication" proxyAuthentication))))))).imap
    (fun (consumer, bind, protocol, tls, destinations, proxyIdentity, proxyAuthentication) =>
      Listener.mk consumer bind protocol tls destinations proxyIdentity proxyAuthentication)
    (fun l => (l.consumer, l.bind, l.protocol, l.tls, l.destinations, l.proxyIdentity, l.proxyAuthentication))
    fun _ => rfl).object

/-- `UpstreamEndpoint`. -/
def upstreamEndpoint : Codec UpstreamEndpoint :=
  (((required "protocol" protocol).and ((required "host" string).and (required "port" (bounded 65536)))).imap
    (fun (protocol, host, port) => UpstreamEndpoint.mk protocol host port)
    (fun e => (e.protocol, e.host, e.port)) fun _ => rfl).object

/-- `HealthCheck`. -/
def healthCheck : Codec HealthCheck :=
  (((required "protocol" (enum [HealthCheckProtocol.http, .https, .tcp]
      (fun
        | .http => "http"
        | .https => "https"
        | .tcp => "tcp")
      fun p => by cases p <;> decide)).and
    ((Fields.optional "path" string).and ((required "intervalMs" (bounded (2 ^ 64))).and
      (required "timeoutMs" (bounded (2 ^ 64)))))).imap
    (fun (protocol, path, intervalMs, timeoutMs) => HealthCheck.mk protocol path intervalMs timeoutMs)
    (fun c => (c.protocol, c.path, c.intervalMs, c.timeoutMs)) fun _ => rfl).object

/-- `Provider`. -/
def provider : Codec Provider :=
  (((required "id" string).and ((required "endpoint" upstreamEndpoint).and
    ((Fields.optional "healthCheck" healthCheck).and (flag "receiveIdentityHeader")))).imap
    (fun (id, endpoint, healthCheck, receiveIdentityHeader) => Provider.mk id endpoint healthCheck receiveIdentityHeader)
    (fun p => (p.id, p.endpoint, p.healthCheck, p.receiveIdentityHeader)) fun _ => rfl).object

/-- `ServiceGroup`. -/
def serviceGroup : Codec ServiceGroup :=
  (((required "id" string).and (required "providers" string.map)).imap
    (fun (id, providers) => ServiceGroup.mk id providers) (fun g => (g.id, g.providers)) fun _ => rfl).object

/-- `Binding`. -/
def binding : Codec Binding :=
  (((required "id" string).and ((required "consumer" string).and ((required "group" string).and
    (required "requiredSlots" string.list)))).imap
    (fun (id, consumer, group, requiredSlots) => Binding.mk id consumer group requiredSlots)
    (fun b => (b.id, b.consumer, b.group, b.requiredSlots)) fun _ => rfl).object

/-- `Route`. -/
def route : Codec Route :=
  (((required "consumer" string).and ((required "slot" string).and (required "provider" string))).imap
    (fun (consumer, slot, provider) => Route.mk consumer slot provider)
    (fun r => (r.consumer, r.slot, r.provider)) fun _ => rfl).object

/-- `BrowserIdentity`. -/
def browserIdentity : Codec BrowserIdentity :=
  (((Variants.one "explicit_header" (required "value" string)).or ((Variants.one "origin" (required "origin" string)).or
      (Variants.one "proxy_listener" (required "listener" string)))).imap
    (fun
      | .inl value => BrowserIdentity.explicitHeader value
      | .inr (.inl origin) => .origin origin
      | .inr (.inr listener) => .proxyListener listener)
    (fun
      | .explicitHeader value => .inl value
      | .origin origin => .inr (.inl origin)
      | .proxyListener listener => .inr (.inr listener))
    fun i => by cases i <;> rfl).tagged "source"

/-- `BrowserRoute`. -/
def browserRoute : Codec BrowserRoute :=
  (((required "identity" browserIdentity).and ((required "destination" string).and (required "provider" string))).imap
    (fun (identity, destination, provider) => BrowserRoute.mk identity destination provider)
    (fun r => (r.identity, r.destination, r.provider)) fun _ => rfl).object

/-- `TransparentMember`. -/
def transparentMember : Codec TransparentMember :=
  (((required "component" string).and ((required "host" string).and (Fields.optional "ports" (bounded 65536).list))).imap
    (fun (component, host, ports) => TransparentMember.mk component host ports)
    (fun m => (m.component, m.host, m.ports)) fun _ => rfl).object

/-- `TransparentProxy`. -/
def transparentProxy : Codec TransparentProxy :=
  (((required "consumer" string).and ((required "port" (bounded 65536)).and
    ((required "members" transparentMember.list).and (withDefault "connectTimeoutMs" (bounded (2 ^ 64)) 250)))).imap
    (fun (consumer, port, members, connectTimeoutMs) => TransparentProxy.mk consumer port members connectTimeoutMs)
    (fun p => (p.consumer, p.port, p.members, p.connectTimeoutMs)) fun _ => rfl).object

/-- `GatewayExposure`. -/
def gatewayExposure : Codec GatewayExposure :=
  (((required "mode" (enum [GatewayExposureMode.loopback, .lan]
      (fun
        | .loopback => "loopback"
        | .lan => "lan")
      fun m => by cases m <;> decide)).and
    ((flag "acknowledgeLanExposureRisk").and (flag "publishTailscale"))).imap
    (fun (mode, acknowledge, publish) => GatewayExposure.mk mode acknowledge publish)
    (fun e => (e.mode, e.acknowledgeLanExposureRisk, e.publishTailscale)) fun _ => rfl).object

/-- `IdentityPolicy`. -/
def identityPolicy : Codec IdentityPolicy :=
  (((required "explicitHeader" string).and (required "stripBeforeForwarding" bool)).imap
    (fun (explicitHeader, strip) => IdentityPolicy.mk explicitHeader strip)
    (fun p => (p.explicitHeader, p.stripBeforeForwarding)) fun _ => rfl).object

/-- `RouterSpec`. -/
def routerSpec : Codec RouterSpec :=
  (((required "snapshot" routeSnapshot).and ((Fields.optional "exposure" gatewayExposure).and
    ((items "listeners" listener).and ((items "providers" provider).and ((items "groups" serviceGroup).and
      ((items "bindings" binding).and ((items "routes" route).and ((items "browserRoutes" browserRoute).and
        ((Fields.optional "transparentProxy" transparentProxy).and
          (withDefault "identity" identityPolicy IdentityPolicy.default)))))))))).imap
    (fun (snapshot, exposure, listeners, providers, groups, bindings, routes, browserRoutes, transparentProxy, identity) =>
      RouterSpec.mk snapshot exposure listeners providers groups bindings routes browserRoutes transparentProxy identity)
    (fun s => (s.snapshot, s.exposure, s.listeners, s.providers, s.groups, s.bindings, s.routes, s.browserRoutes,
      s.transparentProxy, s.identity))
    fun _ => rfl).object

/-- `RouterConfig`. -/
def routerConfig : Codec RouterConfig :=
  (((required "apiVersion" string).and ((required "kind" string).and
    ((required "metadata" ((required "deployment" string).imap ConfigMetadata.mk (·.deployment) fun _ => rfl).object).and
      (required "spec" routerSpec)))).imap
    (fun (apiVersion, kind, metadata, spec) => RouterConfig.mk apiVersion kind metadata spec)
    (fun c => (c.apiVersion, c.kind, c.metadata, c.spec)) fun _ => rfl).object

end Apmpr.Router.Encoding

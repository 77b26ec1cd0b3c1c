import Apmpr.Lib.Registry
import Apmpr.Router.Config

/-!
# Validating a router configuration

`RouterConfig::validate` of the crate `router-config`: a list of checks in one
fixed order, each adding its errors, the configuration accepted when there are
none. Every error carries its code, the path of the field it is about, its
message and its context, as the source has them.

## What is proved

`validate_ok_iff` — the checks accept a configuration exactly when it is `Valid`,
a statement about the configuration with no order in it: identifiers are well
formed, keys are distinct, and every route names a declared slot and a declared
provider that speaks its protocol. `Reordered.valid` — so the order of the
configuration's lists does not matter.
-/

namespace Apmpr.Router

/-! ### Errors -/

/-- What an error is about. -/
inductive ValidationCode where
  | unsupportedSchema
  | invalidIdentifier
  | invalidListener
  | duplicateIdentifier
  | duplicateListener
  | missingProvider
  | missingGroup
  | missingRouteSlot
  | incompatibleProtocol
  | incompleteGroup
  | ambiguousRoute
  | lanExposureNotEnabled
  | lanExposureRiskNotAcknowledged
  | tailscalePublicationRequiresLanExposure
  | unsafeLanProvider
  deriving DecidableEq, Repr

/-- A validation error. -/
structure ValidationError where
  code : ValidationCode
  path : String
  message : String
  context : SortedMap String String
  deriving DecidableEq

/-- An error without context. -/
def ValidationError.new (code : ValidationCode) (path message : String) : ValidationError :=
  ⟨code, path, message, ∅⟩

/-- The name a code is printed with. -/
def ValidationCode.debug : ValidationCode → String
  | .unsupportedSchema => "UnsupportedSchema"
  | .invalidIdentifier => "InvalidIdentifier"
  | .invalidListener => "InvalidListener"
  | .duplicateIdentifier => "DuplicateIdentifier"
  | .duplicateListener => "DuplicateListener"
  | .missingProvider => "MissingProvider"
  | .missingGroup => "MissingGroup"
  | .missingRouteSlot => "MissingRouteSlot"
  | .incompatibleProtocol => "IncompatibleProtocol"
  | .incompleteGroup => "IncompleteGroup"
  | .ambiguousRoute => "AmbiguousRoute"
  | .lanExposureNotEnabled => "LanExposureNotEnabled"
  | .lanExposureRiskNotAcknowledged => "LanExposureRiskNotAcknowledged"
  | .tailscalePublicationRequiresLanExposure => "TailscalePublicationRequiresLanExposure"
  | .unsafeLanProvider => "UnsafeLanProvider"

/-- The text of an error. -/
def ValidationError.display (e : ValidationError) : String := s!"{e.code.debug} at {e.path}: {e.message}"

/-- Add one entry of context. -/
def ValidationError.addContext (e : ValidationError) (key value : String) : ValidationError :=
  { e with context := e.context.insert key value }

/-- One error where a condition holds. -/
def errorIf (b : Bool) (e : ValidationError) : List ValidationError := if b then [e] else []

@[simp] theorem errorIf_eq_nil (b : Bool) (e : ValidationError) : errorIf b e = [] ↔ b = false := by
  cases b <;> simp [errorIf]

/-! ### The checks of single fields -/

/-- `valid_segment`: 1 to 63 lower-case letters, digits and interior hyphens. -/
def validSegment (segment : String) : Bool :=
  segment ≠ "" && decide (segment.utf8ByteSize ≤ 63) &&
    segment.toList.all (fun c => Text.isAsciiLower c || Text.isAsciiDigit c || c = '-') &&
    (segment.toList.head?.any Text.isAsciiAlphanumeric) &&
    (segment.toList.getLast?.any Text.isAsciiAlphanumeric)

/-- A segment, or with `allowPath` two of them with a slash between. -/
def validIdentifier (allowPath : Bool) (value : String) : Bool :=
  if allowPath then
    (Text.split '/' value).all validSegment && decide (value.toList.count '/' ≤ 1)
  else validSegment value

/-- `validate_identifier`. -/
def validateIdentifier (value : String) (allowPath : Bool) (path : String) : List ValidationError :=
  errorIf (!validIdentifier allowPath value)
    ((ValidationError.new .invalidIdentifier path
      "identifier must contain lowercase letters, digits, or interior hyphens").addContext "value" value)

/-- The characters of a route header value, and its length. -/
def validRouteHeaderValue (value : String) : Bool :=
  decide (1 ≤ value.utf8ByteSize) && decide (value.utf8ByteSize ≤ 128) &&
    (value.toList.head?.any fun c => Text.isAsciiLower c || Text.isAsciiDigit c) &&
    value.toList.tail.all fun c =>
      Text.isAsciiLower c || Text.isAsciiDigit c || c = '.' || c = '_' || c = ':' || c = '-'

/-- `validate_route_header_value`. -/
def validateRouteHeaderValue (value path : String) : List ValidationError :=
  errorIf (!validRouteHeaderValue value)
    (.new .invalidIdentifier path
      "route header value must be 1-128 lowercase ASCII letters, digits, `.`, `_`, `:`, or `-`, starting with a letter or digit")

/-- `is_local_host`. -/
def isLocalHost (host : String) : Bool :=
  let normalized := Text.toAsciiLowercase (Text.trimEndMatches '.' host)
  normalized = "localhost" || Text.endsWith normalized ".localhost" ||
    (IpAddr.parse normalized).any IpAddr.isLoopback

/-- `is_loopback_host`. -/
def isLoopbackHost (host : String) : Bool :=
  Text.toAsciiLowercase host = "localhost" || (IpAddr.parse host).any IpAddr.isLoopback

/-- `protocols_compatible`. -/
def protocolsCompatible (listener provider : Protocol) : Bool :=
  listener = provider ||
    match listener, provider with
    | .http, .http | .http, .https | .https, .http | .https, .https => true
    | _, _ => false

/-! ### Listeners -/

/-- The slots declared so far, newest first: each with its protocol and where. -/
abbrev Slots := List (RouteSlotId × Protocol × String)

/-- What must be distinct for listeners of one namespace. -/
def Listener.key (l : Listener) : Option InstanceId × SocketAddress := (l.consumer, l.bind)

/-- The check of the consumer a listener names. -/
def consumerErrors (path : String) : Option InstanceId → List ValidationError
  | some consumer => validateIdentifier consumer false s!"{path}.consumer"
  | none => []

/-- The checks of a listener's own fields. -/
def listenerErrors (spec : RouterSpec) (path : String) (l : Listener) : List ValidationError :=
  errorIf (!l.bind.host.isLoopback && !spec.lanExposureAcknowledged)
      (.new .lanExposureNotEnabled s!"{path}.bind.host"
        "non-loopback listener binds require acknowledged LAN exposure") ++
    errorIf (l.bind.port = 0)
      (.new .invalidListener s!"{path}.bind.port" "listener port must be nonzero") ++
    errorIf l.destinations.isEmpty
      (.new .invalidListener s!"{path}.destinations" "listener must declare at least one destination") ++
    errorIf (decide (l.protocol = .https) != l.tls.isSome)
      (.new .invalidListener s!"{path}.tls"
        "HTTPS listeners require TLS and non-HTTPS listeners must not declare TLS") ++
    errorIf (l.tls.any fun tls => tls.certificate.isEmpty || tls.privateKey.isEmpty)
      (.new .invalidListener s!"{path}.tls" "TLS certificate and private-key paths must be nonempty") ++
    errorIf (l.proxyAuthentication.any fun authentication => authentication.credentialFile.isEmpty)
      (.new .invalidListener s!"{path}.proxyAuthentication.credentialFile"
        "proxy credential path must be nonempty") ++
    errorIf (l.proxyAuthentication.isSome && decide (l.protocol ≠ .http))
      (.new .invalidListener s!"{path}.proxyAuthentication"
        "proxy authentication requires a cleartext HTTP listener") ++
    errorIf (l.proxyIdentity.isSome && l.proxyAuthentication.isNone)
      (.new .invalidListener s!"{path}.proxyAuthentication"
        "managed proxy listeners require proxy authentication") ++
    consumerErrors path l.consumer

/-- The checks of a destination that depend on its listener being a managed proxy. -/
def proxyDestinationErrors (l : Listener) (path : String) (d : ListenerDestination) :
    List ValidationError :=
  match l.proxyIdentity.isSome, d with
  | true, .proxyTarget _ host port =>
    errorIf (decide (port = 0) || !isLocalHost host)
      (.new .invalidListener s!"{path}.destinations"
        "managed proxy targets require a nonzero port and local host")
  | true, _ =>
    [.new .invalidListener s!"{path}.destinations"
      "managed proxy listeners require exact host-and-port proxy targets"]
  | false, .proxyTarget _ _ _ =>
    [.new .invalidListener s!"{path}.destinations"
      "proxy targets are valid only on managed proxy listeners"]
  | false, _ => []

/-- A slot may be declared again only with the same protocol. -/
def slotConflictErrors (l : Listener) (path : String) (slot : RouteSlotId) :
    Option (Protocol × String) → List ValidationError
  | some (protocol, first) =>
    errorIf (decide (protocol ≠ l.protocol))
      (((ValidationError.new .duplicateIdentifier path
        "route slot is declared with conflicting protocols").addContext "slot" slot).addContext
          "first" first)
  | none => []

/-- The loop over a listener's destinations: its errors, and the slots after it. -/
def validateDestinations (l : Listener) (path : String) :
    Slots → List ListenerDestination → List ValidationError × Slots
  | slots, [] => ([], slots)
  | slots, d :: rest =>
    let r := validateDestinations l path ((d.slot, l.protocol, path) :: slots) rest
    (validateIdentifier d.slot false s!"{path}.destinations" ++
      slotConflictErrors l path d.slot (slots.lookup d.slot) ++
      proxyDestinationErrors l path d ++ r.1, r.2)

/-- The complaint about an address that another listener has. -/
def listenerKeyErrors (path : String) : Option String → List ValidationError
  | some first =>
    [(ValidationError.new .duplicateListener path
      "listener address is already in use in this network namespace").addContext "first" first]
  | none => []

/-- The loop over the listeners: its errors, and the slots after it. -/
def validateListeners (spec : RouterSpec) :
    ℕ → List ((Option InstanceId × SocketAddress) × String) → Slots → List Listener →
      List ValidationError × Slots
  | _, _, slots, [] => ([], slots)
  | index, keys, slots, l :: rest =>
    let path := s!"spec.listeners[{index}]"
    let destinations := validateDestinations l path slots l.destinations
    let r := validateListeners spec (index + 1) ((l.key, path) :: keys) destinations.2 rest
    (listenerErrors spec path l ++ listenerKeyErrors path (keys.lookup l.key) ++ destinations.1 ++ r.1, r.2)

/-! ### The transparent proxy -/

/-- The checks of the ports a transparent member declares. -/
def memberPortErrors (path : String) : Option (List U16) → List ValidationError
  | some ports =>
    errorIf (ports.isEmpty || ports.contains 0)
      (.new .invalidListener s!"{path}.ports"
        "declared transparent member ports must be nonempty and nonzero") ++
    errorIf (decide (¬ ports.Nodup))
      (.new .duplicateIdentifier s!"{path}.ports" "declared transparent member ports must be unique")
  | none => []

/-- The checks of one transparent member. -/
def transparentMemberErrors (index : ℕ) (member : TransparentMember) (seen : Option Unit) :
    List ValidationError :=
  let path := s!"spec.transparentProxy.members[{index}]"
  validateIdentifier member.component true s!"{path}.component" ++
    errorIf (member.host = "")
      (.new .missingProvider s!"{path}.host" "transparent group member host must be nonempty") ++
    memberPortErrors path member.ports ++
    errorIf seen.isSome
      (.new .duplicateIdentifier s!"{path}.component" "transparent group member is already listed")

/-- The checks of the transparent proxy. -/
def transparentProxyErrors (proxy : TransparentProxy) : List ValidationError :=
  validateIdentifier proxy.consumer false "spec.transparentProxy.consumer" ++
    errorIf (proxy.port = 0)
      (.new .invalidListener "spec.transparentProxy.port" "transparent interception port must be nonzero") ++
    errorIf (proxy.connectTimeoutMs = 0)
      (.new .invalidListener "spec.transparentProxy.connectTimeoutMs"
        "transparent connection timeout must be nonzero") ++
    registerAll TransparentMember.component (fun _ _ => ()) transparentMemberErrors 0 [] proxy.members

/-! ### Providers, groups, bindings and routes -/

/-- The checks of one provider. -/
def providerErrors (spec : RouterSpec) (index : ℕ) (provider : Provider) (seen : Option Unit) :
    List ValidationError :=
  let path := s!"spec.providers[{index}]"
  errorIf (decide (spec.exposureMode = .lan) && !isLoopbackHost provider.endpoint.host)
      (.new .unsafeLanProvider s!"{path}.endpoint.host"
        "LAN exposure does not permit non-loopback provider upstreams") ++
    validateIdentifier provider.id true s!"{path}.id" ++
    errorIf seen.isSome
      (.new .duplicateIdentifier s!"{path}.id" "provider identifier is declared more than once")

/-- `validate_provider_reference`: the slot is declared, the provider is declared, and
they speak compatible protocols. -/
def validateProviderReference (path : String) (slot : RouteSlotId) (providerId : ComponentId)
    (slots : Slots) (providers : List (ComponentId × Provider)) : List ValidationError :=
  match slots.lookup slot with
  | none =>
    [(ValidationError.new .missingRouteSlot path
      "route refers to an unknown listener destination").addContext "slot" slot]
  | some (listenerProtocol, _) =>
    match providers.lookup providerId with
    | none =>
      [(ValidationError.new .missingProvider path
        "route refers to an unknown provider").addContext "provider" providerId]
    | some provider =>
      errorIf (!protocolsCompatible listenerProtocol provider.endpoint.protocol)
        (((ValidationError.new .incompatibleProtocol path
          "listener and provider protocols are incompatible").addContext
            "listenerProtocol" listenerProtocol.debug).addContext
            "providerProtocol" provider.endpoint.protocol.debug)

/-- The checks of one group. -/
def groupErrors (slots : Slots) (providers : List (ComponentId × Provider)) (index : ℕ)
    (group : ServiceGroup) (seen : Option Unit) : List ValidationError :=
  let path := s!"spec.groups[{index}]"
  validateIdentifier group.id false s!"{path}.id" ++
    errorIf seen.isSome
      (.new .duplicateIdentifier s!"{path}.id" "group identifier is declared more than once") ++
    group.providers.entries.flatMap fun e => validateProviderReference path e.1 e.2 slots providers

/-- The required slots a group does not provide. -/
def missingSlots (group : ServiceGroup) (binding : Binding) : List RouteSlotId :=
  binding.requiredSlots.filter fun slot => !group.providers.contains slot

/-- The checks of one binding. -/
def bindingErrors (groups : List (GroupId × ServiceGroup)) (index : ℕ) (binding : Binding)
    (seen : Option String) : List ValidationError :=
  let path := s!"spec.bindings[{index}]"
  validateIdentifier binding.id false s!"{path}.id" ++
    validateIdentifier binding.consumer false s!"{path}.consumer" ++
    (match seen with
      | some first =>
        [((ValidationError.new .ambiguousRoute path
          "consumer has more than one selected service group").addContext
            "consumer" binding.consumer).addContext "first" first]
      | none => []) ++
    match groups.lookup binding.group with
    | none =>
      [(ValidationError.new .missingGroup s!"{path}.group"
        "binding refers to an unknown group").addContext "group" binding.group]
    | some group =>
      errorIf (!(missingSlots group binding).isEmpty)
        (((ValidationError.new .incompleteGroup s!"{path}.requiredSlots"
          "selected group does not provide every required slot").addContext
            "group" binding.group).addContext
            "missingSlots" (",".intercalate (missingSlots group binding)))

/-- The checks of one direct route. -/
def routeErrors (slots : Slots) (providers : List (ComponentId × Provider)) (index : ℕ)
    (route : Route) (seen : Option String) : List ValidationError :=
  let path := s!"spec.routes[{index}]"
  (match seen with
    | some first =>
      [(((ValidationError.new .ambiguousRoute path
        "consumer route is declared more than once").addContext "consumer" route.consumer).addContext
          "slot" route.slot).addContext "first" first]
    | none => []) ++
    validateProviderReference path route.slot route.provider slots providers

/-- The text a browser identity is registered under. -/
def BrowserIdentity.text : BrowserIdentity → String
  | .explicitHeader value => "header:" ++ value
  | .origin value => "origin:" ++ value
  | .proxyListener listener => "proxy:" ++ listener

/-- The check of the identity a browser route is for. -/
def identityErrors (path : String) : BrowserIdentity → List ValidationError
  | .explicitHeader value => validateRouteHeaderValue value s!"{path}.identity.value"
  | _ => []

/-- The checks of one browser route. -/
def browserRouteErrors (slots : Slots) (providers : List (ComponentId × Provider)) (index : ℕ)
    (route : BrowserRoute) (seen : Option String) : List ValidationError :=
  let path := s!"spec.browserRoutes[{index}]"
  identityErrors path route.identity ++
    (match seen with
      | some first =>
        [(((ValidationError.new .ambiguousRoute path
          "browser identity route is declared more than once").addContext
            "destination" route.destination).addContext
            "identity" route.identity.text).addContext "first" first]
      | none => []) ++
    validateProviderReference path route.destination route.provider slots providers

/-! ### The whole configuration -/

/-- The checks of the schema, the names and the exposure. -/
def headerErrors (config : RouterConfig) : List ValidationError :=
  errorIf (config.apiVersion ≠ API_VERSION || config.kind ≠ KIND)
      (.new .unsupportedSchema "apiVersion" "configuration must use the supported router schema") ++
    validateIdentifier config.metadata.deployment false "metadata.deployment" ++
    validateIdentifier config.spec.snapshot.id false "spec.snapshot.id" ++
    errorIf (config.spec.exposure.any fun exposure =>
        decide (exposure.mode = .lan) && !exposure.acknowledgeLanExposureRisk)
      (.new .lanExposureRiskNotAcknowledged "spec.exposure.acknowledgeLanExposureRisk"
        "LAN exposure requires acknowledgeLanExposureRisk: true") ++
    errorIf (config.spec.exposure.any fun exposure =>
        exposure.publishTailscale &&
          (decide (exposure.mode ≠ .lan) || !exposure.acknowledgeLanExposureRisk))
      (.new .tailscalePublicationRequiresLanExposure "spec.exposure.publishTailscale"
        "Tailscale publication requires mode: lan and acknowledgeLanExposureRisk: true")

/-- The slots the listeners declare, as validation registers them. -/
def RouterSpec.slots (spec : RouterSpec) : Slots := (validateListeners spec 0 [] [] spec.listeners).2

/-- Providers by identifier. -/
def RouterSpec.providersById (spec : RouterSpec) : List (ComponentId × Provider) :=
  index Provider.id spec.providers

/-- Groups by identifier. -/
def RouterSpec.groupsById (spec : RouterSpec) : List (GroupId × ServiceGroup) :=
  index ServiceGroup.id spec.groups

/-- The errors of a configuration, in the order the source finds them. -/
def validationErrors (config : RouterConfig) : List ValidationError :=
  let spec := config.spec
  headerErrors config ++
    (validateListeners spec 0 [] [] spec.listeners).1 ++
    (match spec.transparentProxy with
      | some proxy => transparentProxyErrors proxy
      | none => []) ++
    registerAll Provider.id (fun _ _ => ()) (providerErrors spec) 0 [] spec.providers ++
    registerAll ServiceGroup.id (fun _ _ => ()) (groupErrors spec.slots spec.providersById) 0 []
      spec.groups ++
    registerAll Binding.consumer (fun i _ => s!"spec.bindings[{i}]") (bindingErrors spec.groupsById)
      0 [] spec.bindings ++
    registerAll (fun route : Route => (route.consumer, route.slot)) (fun i _ => s!"spec.routes[{i}]")
      (routeErrors spec.slots spec.providersById) 0 [] spec.routes ++
    registerAll (fun route : BrowserRoute => (route.destination, route.identity.text))
      (fun i _ => s!"spec.browserRoutes[{i}]")
      (browserRouteErrors spec.slots spec.providersById) 0 [] spec.browserRoutes

/-- `RouterConfig::validate`. -/
def RouterConfig.validate (config : RouterConfig) : Except (List ValidationError) Unit :=
  if (validationErrors config).isEmpty then .ok () else .error (validationErrors config)

/-! ### What the checks accept -/

/-- A destination fits its listener: a managed proxy has exact local targets, and only a
managed proxy has them. -/
def ListenerDestination.Fits (l : Listener) : ListenerDestination → Prop
  | .proxyTarget _ host port => l.proxyIdentity.isSome ∧ port ≠ 0 ∧ isLocalHost host = true
  | _ => l.proxyIdentity = none

/-- What a listener must satisfy by itself. -/
structure Listener.Valid (spec : RouterSpec) (l : Listener) : Prop where
  bindHost : l.bind.host.isLoopback = true ∨ spec.lanExposureAcknowledged = true
  bindPort : l.bind.port ≠ 0
  nonempty : l.destinations ≠ []
  tls : l.protocol = .https ↔ l.tls.isSome
  tlsPaths : ∀ tls ∈ l.tls, tls.certificate.isEmpty = false ∧ tls.privateKey.isEmpty = false
  credential : ∀ a ∈ l.proxyAuthentication, a.credentialFile.isEmpty = false
  cleartext : l.proxyAuthentication.isSome → l.protocol = .http
  managed : l.proxyIdentity.isSome → l.proxyAuthentication.isSome
  consumer : ∀ c ∈ l.consumer, validIdentifier false c = true
  slots : ∀ d ∈ l.destinations, validIdentifier false d.slot = true
  fits : ∀ d ∈ l.destinations, d.Fits l

/-- A listener declares a slot. -/
def Listener.Declares (l : Listener) (slot : RouteSlotId) : Prop := ∃ d ∈ l.destinations, d.slot = slot

/-- What a transparent member must satisfy by itself. -/
structure TransparentMember.Valid (member : TransparentMember) : Prop where
  component : validIdentifier true member.component = true
  host : member.host ≠ ""
  ports : ∀ ports ∈ member.ports, ports ≠ [] ∧ 0 ∉ ports ∧ ports.Nodup

/-- What the transparent proxy must satisfy. -/
structure TransparentProxy.Valid (proxy : TransparentProxy) : Prop where
  consumer : validIdentifier false proxy.consumer = true
  port : proxy.port ≠ 0
  connectTimeoutMs : proxy.connectTimeoutMs ≠ 0
  members : ∀ member ∈ proxy.members, member.Valid
  distinct : (proxy.members.map TransparentMember.component).Nodup

/-- A route from `slot` to `providerId` makes sense: some listener declares the slot, and
the provider is declared and compatible with every listener that does. -/
structure RouterSpec.Refers (spec : RouterSpec) (slot : RouteSlotId) (providerId : ComponentId) : Prop where
  declared : ∃ l ∈ spec.listeners, l.Declares slot
  compatible : ∃ p ∈ spec.providers, p.id = providerId ∧
    ∀ l ∈ spec.listeners, l.Declares slot → protocolsCompatible l.protocol p.endpoint.protocol = true

/-- What a configuration must satisfy, with no order in it. -/
structure RouterConfig.Valid (config : RouterConfig) : Prop where
  schema : config.apiVersion = API_VERSION ∧ config.kind = KIND
  deployment : validIdentifier false config.metadata.deployment = true
  snapshotId : validIdentifier false config.spec.snapshot.id = true
  exposure : ∀ e ∈ config.spec.exposure, (e.mode = .lan → e.acknowledgeLanExposureRisk = true) ∧
    (e.publishTailscale = true → e.mode = .lan ∧ e.acknowledgeLanExposureRisk = true)
  listeners : ∀ l ∈ config.spec.listeners, l.Valid config.spec
  listenerKeys : (config.spec.listeners.map Listener.key).Nodup
  slotProtocol : ∀ l₁ ∈ config.spec.listeners, ∀ l₂ ∈ config.spec.listeners, ∀ slot,
    l₁.Declares slot → l₂.Declares slot → l₁.protocol = l₂.protocol
  transparentProxy : ∀ proxy ∈ config.spec.transparentProxy, proxy.Valid
  providerIds : (config.spec.providers.map Provider.id).Nodup
  providers : ∀ p ∈ config.spec.providers, validIdentifier true p.id = true ∧
    (config.spec.exposureMode = .lan → isLoopbackHost p.endpoint.host = true)
  groupIds : (config.spec.groups.map ServiceGroup.id).Nodup
  groups : ∀ g ∈ config.spec.groups, validIdentifier false g.id = true ∧
    ∀ e ∈ g.providers.entries, config.spec.Refers e.1 e.2
  bindingConsumers : (config.spec.bindings.map Binding.consumer).Nodup
  bindings : ∀ b ∈ config.spec.bindings, validIdentifier false b.id = true ∧
    validIdentifier false b.consumer = true ∧
    ∃ g ∈ config.spec.groups, g.id = b.group ∧ ∀ slot ∈ b.requiredSlots, g.providers.contains slot = true
  routeKeys : (config.spec.routes.map fun r => (r.consumer, r.slot)).Nodup
  routes : ∀ r ∈ config.spec.routes, config.spec.Refers r.slot r.provider
  browserRouteKeys : (config.spec.browserRoutes.map fun r => (r.destination, r.identity)).Nodup
  browserRoutes : ∀ r ∈ config.spec.browserRoutes, config.spec.Refers r.destination r.provider ∧
    ∀ value, r.identity = .explicitHeader value → validRouteHeaderValue value = true

@[simp] theorem validateIdentifier_eq_nil (value : String) (allowPath : Bool) (path : String) :
    validateIdentifier value allowPath path = [] ↔ validIdentifier allowPath value = true := by
  simp [validateIdentifier]

@[simp] theorem validateRouteHeaderValue_eq_nil (value path : String) :
    validateRouteHeaderValue value path = [] ↔ validRouteHeaderValue value = true := by
  simp [validateRouteHeaderValue]

theorem proxyDestinationErrors_eq_nil (l : Listener) (path : String) (d : ListenerDestination) :
    proxyDestinationErrors l path d = [] ↔ d.Fits l := by
  cases h : l.proxyIdentity <;> cases d <;> simp [proxyDestinationErrors, ListenerDestination.Fits, h]

theorem headerErrors_eq_nil (config : RouterConfig) :
    headerErrors config = [] ↔
      (config.apiVersion = API_VERSION ∧ config.kind = KIND) ∧
      validIdentifier false config.metadata.deployment = true ∧
      validIdentifier false config.spec.snapshot.id = true ∧
      ∀ e ∈ config.spec.exposure, (e.mode = .lan → e.acknowledgeLanExposureRisk = true) ∧
        (e.publishTailscale = true → e.mode = .lan ∧ e.acknowledgeLanExposureRisk = true) := by
  cases h : config.spec.exposure with
  | none => simp [headerErrors, h, and_assoc]
  | some e => simp [headerErrors, h, and_assoc]

theorem listenerErrors_eq_nil (spec : RouterSpec) (path : String) (l : Listener) :
    (listenerErrors spec path l = [] ∧
      ∀ d ∈ l.destinations, validIdentifier false d.slot = true ∧ d.Fits l) ↔ l.Valid spec := by
  have hconsumer : consumerErrors path l.consumer = [] ↔ ∀ c ∈ l.consumer, validIdentifier false c = true := by
    cases l.consumer <;> simp [consumerErrors]
  have htls : (decide (l.protocol = .https) != l.tls.isSome) = false ↔
      (l.protocol = .https ↔ l.tls.isSome) := by
    cases l.tls.isSome <;> simp
  simp only [listenerErrors, List.append_eq_nil_iff, errorIf_eq_nil, hconsumer, htls]
  constructor
  · rintro ⟨⟨⟨⟨⟨⟨⟨⟨⟨h₁, h₂⟩, h₃⟩, h₄⟩, h₅⟩, h₆⟩, h₇⟩, h₈⟩, h₉⟩, hd⟩
    exact {
      bindHost := by simpa [or_iff_not_imp_left] using h₁
      bindPort := by simpa using h₂
      nonempty := by simpa using h₃
      tls := h₄
      tlsPaths := by cases h : l.tls <;> simp_all
      credential := by cases h : l.proxyAuthentication <;> simp_all
      cleartext := by simpa using h₇
      managed := by
        intro hi
        cases ha : l.proxyAuthentication <;> simp_all
      consumer := h₉
      slots := fun d hd' => (hd d hd').1
      fits := fun d hd' => (hd d hd').2 }
  · intro h
    refine ⟨⟨⟨⟨⟨⟨⟨⟨⟨?_, ?_⟩, ?_⟩, h.tls⟩, ?_⟩, ?_⟩, ?_⟩, ?_⟩, h.consumer⟩,
      fun d hd => ⟨h.slots d hd, h.fits d hd⟩⟩
    · simpa [or_iff_not_imp_left] using h.bindHost
    · simpa using h.bindPort
    · simpa using h.nonempty
    · have := h.tlsPaths
      cases ht : l.tls <;> simp_all
    · have := h.credential
      cases ha : l.proxyAuthentication <;> simp_all
    · simpa using h.cleartext
    · have := h.managed
      cases ha : l.proxyAuthentication <;> simp_all

/-! ### The slots -/

/-- Every declaration of a slot has the same protocol. -/
def Slots.Consistent (slots : Slots) : Prop :=
  ∀ e₁ ∈ slots, ∀ e₂ ∈ slots, e₁.1 = e₂.1 → e₁.2.1 = e₂.2.1

/-- Adding a declaration keeps the slots consistent exactly when it is not complained about. -/
theorem slotConflictErrors_eq_nil {slots : Slots} (h : slots.Consistent) (l : Listener) (path : String)
    (slot : RouteSlotId) :
    slotConflictErrors l path slot (slots.lookup slot) = [] ↔
      Slots.Consistent ((slot, l.protocol, path) :: slots) := by
  have hcons : Slots.Consistent ((slot, l.protocol, path) :: slots) ↔
      ∀ e ∈ slots, e.1 = slot → e.2.1 = l.protocol := by
    constructor
    · intro hc e he hslot
      exact hc e (List.mem_cons_of_mem _ he) _ (List.mem_cons_self ..) hslot
    · intro hc e₁ he₁ e₂ he₂ heq
      rcases List.mem_cons.mp he₁ with rfl | he₁ <;> rcases List.mem_cons.mp he₂ with rfl | he₂
      · rfl
      · exact (hc e₂ he₂ heq.symm).symm
      · exact hc e₁ he₁ heq
      · exact h e₁ he₁ e₂ he₂ heq
  rw [hcons]
  cases hl : slots.lookup slot with
  | none =>
    rw [List.lookup_eq_none_iff] at hl
    simp only [slotConflictErrors, true_iff]
    intro e he heq
    simpa [heq] using hl e he
  | some first =>
    have hmem := mem_of_lookup hl
    obtain ⟨protocol, origin⟩ := first
    simp only [slotConflictErrors, errorIf_eq_nil, decide_eq_false_iff_not, not_not]
    constructor
    · rintro rfl e he heq
      exact h e he _ hmem heq
    · intro hall
      exact hall _ hmem rfl

theorem validateDestinations_slots (l : Listener) (path : String) (slots : Slots)
    (ds : List ListenerDestination) :
    (validateDestinations l path slots ds).2 =
      (ds.map fun d => (d.slot, l.protocol, path)).reverse ++ slots := by
  induction ds generalizing slots with
  | nil => rfl
  | cons d rest ih => simp [validateDestinations, ih]

/-- Consistent slots stay so when entries are taken away. -/
theorem Slots.Consistent.mono {slots slots' : Slots} (h : slots.Consistent) (hsub : ∀ e ∈ slots', e ∈ slots) :
    slots'.Consistent :=
  fun e₁ he₁ e₂ he₂ => h e₁ (hsub e₁ he₁) e₂ (hsub e₂ he₂)

theorem validateDestinations_eq_nil {l : Listener} {path : String} {slots : Slots}
    (h : slots.Consistent) (ds : List ListenerDestination) :
    (validateDestinations l path slots ds).1 = [] ↔
      (∀ d ∈ ds, validIdentifier false d.slot = true ∧ d.Fits l) ∧
        (validateDestinations l path slots ds).2.Consistent := by
  induction ds generalizing slots with
  | nil => simpa [validateDestinations] using h
  | cons d rest ih =>
    simp only [validateDestinations, List.append_eq_nil_iff, validateIdentifier_eq_nil,
      slotConflictErrors_eq_nil h, proxyDestinationErrors_eq_nil, List.forall_mem_cons]
    constructor
    · rintro ⟨⟨⟨hid, hcons⟩, hfits⟩, hrest⟩
      obtain ⟨hall, hc⟩ := (ih hcons).mp hrest
      exact ⟨⟨⟨hid, hfits⟩, hall⟩, hc⟩
    · rintro ⟨⟨⟨hid, hfits⟩, hall⟩, hc⟩
      have hcons : Slots.Consistent ((d.slot, l.protocol, path) :: slots) := by
        refine hc.mono fun e he => ?_
        rw [validateDestinations_slots]
        exact List.mem_append_right _ he
      exact ⟨⟨⟨hid, hcons⟩, hfits⟩, (ih hcons).mpr ⟨hall, hc⟩⟩

/-- The entries the listeners add, before the index of the first one. -/
theorem mem_validateListeners_slots (spec : RouterSpec) (i : ℕ)
    (keys : List ((Option InstanceId × SocketAddress) × String)) (slots : Slots) (ls : List Listener)
    (slot : RouteSlotId) (protocol : Protocol) :
    (∃ path, (slot, protocol, path) ∈ (validateListeners spec i keys slots ls).2) ↔
      (∃ l ∈ ls, l.Declares slot ∧ l.protocol = protocol) ∨ ∃ path, (slot, protocol, path) ∈ slots := by
  induction ls generalizing i keys slots with
  | nil => simp [validateListeners]
  | cons l rest ih =>
    simp only [validateListeners, ih, validateDestinations_slots, List.mem_append, List.mem_reverse,
      List.mem_map, Prod.mk.injEq, List.mem_cons, Listener.Declares]
    constructor
    · rintro (⟨l', hl', hd⟩ | ⟨path, ⟨d, hd, rfl, rfl, -⟩ | hs⟩)
      · exact Or.inl ⟨l', Or.inr hl', hd⟩
      · exact Or.inl ⟨l, Or.inl rfl, ⟨d, hd, rfl⟩, rfl⟩
      · exact Or.inr ⟨path, hs⟩
    · rintro (⟨l', rfl | hl', hd, rfl⟩ | ⟨path, hs⟩)
      · obtain ⟨d, hd, rfl⟩ := hd
        exact Or.inr ⟨_, Or.inl ⟨d, hd, rfl, rfl, rfl⟩⟩
      · exact Or.inl ⟨l', hl', hd, rfl⟩
      · exact Or.inr ⟨path, Or.inr hs⟩

theorem subset_validateListeners_slots (spec : RouterSpec) (i : ℕ)
    (keys : List ((Option InstanceId × SocketAddress) × String)) (slots : Slots) (ls : List Listener) :
    ∀ e ∈ slots, e ∈ (validateListeners spec i keys slots ls).2 := by
  induction ls generalizing i keys slots with
  | nil => exact fun e he => he
  | cons l rest ih =>
    intro e he
    refine ih _ _ _ e ?_
    rw [validateDestinations_slots]
    exact List.mem_append_right _ he

theorem listenerKeyErrors_eq_nil {keys : List ((Option InstanceId × SocketAddress) × String)} {l : Listener}
    {path : String} : listenerKeyErrors path (keys.lookup l.key) = [] ↔ ∀ e ∈ keys, e.1 ≠ l.key := by
  cases h : keys.lookup l.key with
  | none =>
    rw [List.lookup_eq_none_iff] at h
    simp only [listenerKeyErrors, true_iff]
    intro e he heq
    simpa [heq] using h e he
  | some first =>
    simp only [listenerKeyErrors, List.cons_ne_nil, false_iff, not_forall, not_not]
    exact ⟨_, mem_of_lookup h, rfl⟩

theorem validateListeners_eq_nil (spec : RouterSpec) (i : ℕ)
    (keys : List ((Option InstanceId × SocketAddress) × String)) {slots : Slots} (h : slots.Consistent)
    (ls : List Listener) :
    (validateListeners spec i keys slots ls).1 = [] ↔
      (∀ l ∈ ls, l.Valid spec) ∧ ((ls.map Listener.key).Nodup ∧ ∀ l ∈ ls, ∀ e ∈ keys, e.1 ≠ l.key) ∧
        (validateListeners spec i keys slots ls).2.Consistent := by
  induction ls generalizing i keys slots with
  | nil => simpa [validateListeners] using h
  | cons l rest ih =>
    simp only [validateListeners, List.append_eq_nil_iff, listenerKeyErrors_eq_nil,
      validateDestinations_eq_nil h, List.forall_mem_cons, List.map_cons, List.nodup_cons, List.mem_map]
    rw [← listenerErrors_eq_nil spec s!"spec.listeners[{i}]" l]
    constructor
    · rintro ⟨⟨⟨hl, hkey⟩, hds, hc⟩, hrest⟩
      obtain ⟨hvalid, ⟨hnodup, hsep⟩, hc'⟩ := (ih (i + 1) _ hc).mp hrest
      refine ⟨⟨⟨hl, hds⟩, hvalid⟩, ⟨⟨?_, hnodup⟩, hkey, fun l' hl' e he => ?_⟩, hc'⟩
      · rintro ⟨l', hl', heq⟩
        exact hsep l' hl' _ (List.mem_cons_self ..) heq.symm
      · exact hsep l' hl' e (List.mem_cons_of_mem _ he)
    · rintro ⟨⟨⟨hl, hds⟩, hvalid⟩, ⟨⟨hnew, hnodup⟩, hkey, hsep⟩, hc'⟩
      have hc : (validateDestinations l s!"spec.listeners[{i}]" slots l.destinations).2.Consistent :=
        hc'.mono (subset_validateListeners_slots _ _ _ _ _)
      refine ⟨⟨⟨hl, hkey⟩, hds, hc⟩, (ih (i + 1) _ hc).mpr ⟨hvalid, ⟨hnodup, ?_⟩, hc'⟩⟩
      intro l' hl' e he
      rcases List.mem_cons.mp he with rfl | he
      · exact fun heq => hnew ⟨l', hl', heq.symm⟩
      · exact hsep l' hl' e he

/-- The slots validation registers are those the listeners declare. -/
theorem mem_slots_iff (spec : RouterSpec) (slot : RouteSlotId) (protocol : Protocol) :
    (∃ path, (slot, protocol, path) ∈ spec.slots) ↔
      ∃ l ∈ spec.listeners, l.Declares slot ∧ l.protocol = protocol := by
  rw [RouterSpec.slots, mem_validateListeners_slots]
  simp

theorem slots_consistent_iff (spec : RouterSpec) :
    spec.slots.Consistent ↔ ∀ l₁ ∈ spec.listeners, ∀ l₂ ∈ spec.listeners, ∀ slot,
      l₁.Declares slot → l₂.Declares slot → l₁.protocol = l₂.protocol := by
  constructor
  · intro h l₁ hl₁ l₂ hl₂ slot hd₁ hd₂
    obtain ⟨p₁, h₁⟩ := (mem_slots_iff spec slot l₁.protocol).mpr ⟨l₁, hl₁, hd₁, rfl⟩
    obtain ⟨p₂, h₂⟩ := (mem_slots_iff spec slot l₂.protocol).mpr ⟨l₂, hl₂, hd₂, rfl⟩
    exact h _ h₁ _ h₂ rfl
  · rintro h ⟨slot, protocol₁, p₁⟩ h₁ ⟨slot', protocol₂, p₂⟩ h₂ heq
    obtain rfl : slot = slot' := heq
    obtain ⟨l₁, hl₁, hd₁, rfl⟩ := (mem_slots_iff spec slot protocol₁).mp ⟨p₁, h₁⟩
    obtain ⟨l₂, hl₂, hd₂, rfl⟩ := (mem_slots_iff spec slot protocol₂).mp ⟨p₂, h₂⟩
    exact h l₁ hl₁ l₂ hl₂ slot hd₁ hd₂

/-! ### References -/

/-- A reference is not complained about exactly when it makes sense, given that slots and
providers are declared without conflict. -/
theorem validateProviderReference_eq_nil {spec : RouterSpec} (hslots : spec.slots.Consistent)
    (hids : (spec.providers.map Provider.id).Nodup) (path : String) (slot : RouteSlotId)
    (providerId : ComponentId) :
    validateProviderReference path slot providerId spec.slots spec.providersById = [] ↔
      spec.Refers slot providerId := by
  unfold validateProviderReference
  cases hs : spec.slots.lookup slot with
  | none =>
    simp only [List.cons_ne_nil, false_iff]
    rintro ⟨⟨l, hl, hd⟩, -⟩
    obtain ⟨p, hp⟩ := (mem_slots_iff spec slot l.protocol).mpr ⟨l, hl, hd, rfl⟩
    obtain ⟨z, hz⟩ := exists_lookup_of_mem hp
    rw [hs] at hz
    cases hz
  | some first =>
    obtain ⟨protocol, origin⟩ := first
    obtain ⟨l, hl, hd, rfl⟩ := (mem_slots_iff spec slot protocol).mp ⟨origin, mem_of_lookup hs⟩
    cases hp : spec.providersById.lookup providerId with
    | none =>
      simp only [List.cons_ne_nil, false_iff]
      rintro ⟨-, p, hmem, rfl, -⟩
      rw [RouterSpec.providersById, lookup_index_of_mem hids hmem] at hp
      cases hp
    | some provider =>
      obtain ⟨hmem, rfl⟩ := of_lookup_index hp
      simp only [errorIf_eq_nil, Bool.not_eq_false']
      constructor
      · intro hcompat
        refine ⟨⟨l, hl, hd⟩, provider, hmem, rfl, fun l' hl' hd' => ?_⟩
        rwa [(slots_consistent_iff spec).mp hslots l' hl' l hl slot hd' hd]
      · rintro ⟨-, p, hmem', hid, hcompat⟩
        rw [← List.inj_on_of_nodup_map hids hmem' hmem hid]
        exact hcompat l hl hd

/-! ### Each loop -/

theorem transparentProxyErrors_eq_nil (proxy : TransparentProxy) :
    transparentProxyErrors proxy = [] ↔ proxy.Valid := by
  have hmembers : registerAll TransparentMember.component (fun _ _ => ()) transparentMemberErrors 0 []
      proxy.members = [] ↔ (proxy.members.map TransparentMember.component).Nodup ∧
        ∀ member ∈ proxy.members, member.Valid := by
    refine registerAll_eq_nil_iff (fun i member => ?_) (fun i member y => ?_) 0 _
    · have hports (path : String) : memberPortErrors path member.ports = [] ↔
          ∀ ports ∈ member.ports, ports ≠ [] ∧ 0 ∉ ports ∧ ports.Nodup := by
        cases member.ports <;> simp [memberPortErrors, and_assoc]
      simp only [transparentMemberErrors, List.append_eq_nil_iff, hports, validateIdentifier_eq_nil,
        errorIf_eq_nil, decide_eq_false_iff_not, Option.isSome_none, and_true, and_assoc]
      constructor
      · rintro ⟨h₁, h₂, h₃⟩
        exact ⟨h₁, h₂, h₃⟩
      · exact fun h => ⟨h.component, h.host, h.ports⟩
    · simp [transparentMemberErrors]
  simp only [transparentProxyErrors, List.append_eq_nil_iff, hmembers, validateIdentifier_eq_nil,
    errorIf_eq_nil, decide_eq_false_iff_not]
  constructor
  · rintro ⟨⟨⟨h₁, h₂⟩, h₃⟩, h₄, h₅⟩
    exact ⟨h₁, h₂, h₃, h₅, h₄⟩
  · intro h
    exact ⟨⟨⟨h.consumer, h.port⟩, h.connectTimeoutMs⟩, h.distinct, h.members⟩

theorem providers_eq_nil (spec : RouterSpec) :
    registerAll Provider.id (fun _ _ => ()) (providerErrors spec) 0 [] spec.providers = [] ↔
      (spec.providers.map Provider.id).Nodup ∧ ∀ p ∈ spec.providers, validIdentifier true p.id = true ∧
        (spec.exposureMode = .lan → isLoopbackHost p.endpoint.host = true) := by
  refine registerAll_eq_nil_iff (fun i p => ?_) (fun i p y => ?_) 0 _
  · simp [providerErrors, and_comm]
  · simp [providerErrors]

theorem groups_eq_nil {spec : RouterSpec} (hslots : spec.slots.Consistent)
    (hids : (spec.providers.map Provider.id).Nodup) :
    registerAll ServiceGroup.id (fun _ _ => ()) (groupErrors spec.slots spec.providersById) 0 [] spec.groups = [] ↔
      (spec.groups.map ServiceGroup.id).Nodup ∧ ∀ g ∈ spec.groups, validIdentifier false g.id = true ∧
        ∀ e ∈ g.providers.entries, spec.Refers e.1 e.2 := by
  refine registerAll_eq_nil_iff (fun i g => ?_) (fun i g y => ?_) 0 _
  · simp [groupErrors, validateProviderReference_eq_nil hslots hids]
  · simp [groupErrors]

theorem bindings_eq_nil {spec : RouterSpec} (hids : (spec.groups.map ServiceGroup.id).Nodup) :
    registerAll Binding.consumer (fun i _ => s!"spec.bindings[{i}]") (bindingErrors spec.groupsById) 0 []
        spec.bindings = [] ↔
      (spec.bindings.map Binding.consumer).Nodup ∧ ∀ b ∈ spec.bindings, validIdentifier false b.id = true ∧
        validIdentifier false b.consumer = true ∧
        ∃ g ∈ spec.groups, g.id = b.group ∧ ∀ slot ∈ b.requiredSlots, g.providers.contains slot = true := by
  refine registerAll_eq_nil_iff (fun i b => ?_) (fun i b y => ?_) 0 _
  · simp only [bindingErrors, List.append_eq_nil_iff, validateIdentifier_eq_nil, and_true, and_assoc]
    refine and_congr_right fun _ => and_congr_right fun _ => ?_
    cases hg : spec.groupsById.lookup b.group with
    | none =>
      simp only [List.cons_ne_nil, false_iff]
      rintro ⟨g, hmem, hid, -⟩
      rw [RouterSpec.groupsById, ← hid, lookup_index_of_mem hids hmem] at hg
      cases hg
    | some group =>
      obtain ⟨hmem, hid⟩ := of_lookup_index hg
      simp only [errorIf_eq_nil, missingSlots, Bool.not_eq_false', List.isEmpty_iff, List.filter_eq_nil_iff,
        Bool.not_eq_true']
      constructor
      · intro h
        exact ⟨group, hmem, hid, fun slot hslot => by simpa using h slot hslot⟩
      · rintro ⟨g, hmem', hid', h⟩ slot hslot
        rw [← List.inj_on_of_nodup_map hids hmem' hmem (hid'.trans hid.symm)]
        simpa using h slot hslot
  · simp [bindingErrors]

theorem routes_eq_nil {spec : RouterSpec} (hslots : spec.slots.Consistent)
    (hids : (spec.providers.map Provider.id).Nodup) :
    registerAll (fun route : Route => (route.consumer, route.slot)) (fun i _ => s!"spec.routes[{i}]")
        (routeErrors spec.slots spec.providersById) 0 [] spec.routes = [] ↔
      (spec.routes.map fun r => (r.consumer, r.slot)).Nodup ∧
        ∀ r ∈ spec.routes, spec.Refers r.slot r.provider := by
  refine registerAll_eq_nil_iff (fun i r => ?_) (fun i r y => ?_) 0 _
  · simp [routeErrors, validateProviderReference_eq_nil hslots hids]
  · simp [routeErrors]

/-- The text of a browser identity names it: the three kinds begin differently. -/
theorem BrowserIdentity.text_injective : Function.Injective BrowserIdentity.text := by
  intro a b h
  have hchars := congrArg String.toList h
  cases a <;> cases b <;>
    simp only [BrowserIdentity.text, String.toList_append, String.toList_inj, String.reduceToList,
      List.cons_append, List.cons.injEq, List.nil_append, true_and, Char.reduceEq, false_and] at hchars
  all_goals rw [hchars]

theorem browserRoutes_eq_nil {spec : RouterSpec} (hslots : spec.slots.Consistent)
    (hids : (spec.providers.map Provider.id).Nodup) :
    registerAll (fun route : BrowserRoute => (route.destination, route.identity.text))
        (fun i _ => s!"spec.browserRoutes[{i}]")
        (browserRouteErrors spec.slots spec.providersById) 0 [] spec.browserRoutes = [] ↔
      (spec.browserRoutes.map fun r => (r.destination, r.identity)).Nodup ∧
        ∀ r ∈ spec.browserRoutes, spec.Refers r.destination r.provider ∧
          ∀ value, r.identity = .explicitHeader value → validRouteHeaderValue value = true := by
  have hkeys : (spec.browserRoutes.map fun r => (r.destination, r.identity.text)).Nodup ↔
      (spec.browserRoutes.map fun r => (r.destination, r.identity)).Nodup := by
    have hinj : Function.Injective (fun k : RouteSlotId × BrowserIdentity => (k.1, k.2.text)) := by
      rintro ⟨d₁, i₁⟩ ⟨d₂, i₂⟩ h
      simp only [Prod.mk.injEq] at h
      rw [h.1, BrowserIdentity.text_injective h.2]
    rw [← List.nodup_map_iff hinj, List.map_map]
    rfl
  rw [← hkeys]
  refine registerAll_eq_nil_iff (fun i r => ?_) (fun i r y => ?_) 0 _
  · have hheader (path : String) : identityErrors path r.identity = [] ↔
        ∀ value, r.identity = .explicitHeader value → validRouteHeaderValue value = true := by
      cases r.identity <;> simp [identityErrors]
    simp only [browserRouteErrors, List.append_eq_nil_iff, hheader, and_true,
      validateProviderReference_eq_nil hslots hids]
    exact and_comm
  · simp [browserRouteErrors]

/-! ### The whole configuration -/

theorem validationErrors_eq_nil (config : RouterConfig) : validationErrors config = [] ↔ config.Valid := by
  have hempty : Slots.Consistent [] := by
    intro e he
    cases he
  have hlisteners := validateListeners_eq_nil config.spec 0 [] hempty config.spec.listeners
  have hproxy : (match config.spec.transparentProxy with
      | some proxy => transparentProxyErrors proxy
      | none => []) = [] ↔ ∀ proxy ∈ config.spec.transparentProxy, proxy.Valid := by
    cases config.spec.transparentProxy <;> simp [transparentProxyErrors_eq_nil]
  simp only [validationErrors, List.append_eq_nil_iff, headerErrors_eq_nil, hlisteners, hproxy,
    providers_eq_nil]
  rw [show (validateListeners config.spec 0 [] [] config.spec.listeners).2 = config.spec.slots from rfl]
  constructor
  · rintro ⟨⟨⟨⟨⟨⟨⟨⟨h₁, h₂, h₃, h₄⟩, hl, ⟨hkeys, -⟩, hcons⟩, hp⟩, hids, hprov⟩, hg⟩, hb⟩, hr⟩, hbr⟩
    rw [groups_eq_nil hcons hids] at hg
    rw [bindings_eq_nil hg.1] at hb
    rw [routes_eq_nil hcons hids] at hr
    rw [browserRoutes_eq_nil hcons hids] at hbr
    exact {
      schema := h₁
      deployment := h₂
      snapshotId := h₃
      exposure := h₄
      listeners := hl
      listenerKeys := hkeys
      slotProtocol := (slots_consistent_iff _).mp hcons
      transparentProxy := hp
      providerIds := hids
      providers := hprov
      groupIds := hg.1
      groups := hg.2
      bindingConsumers := hb.1
      bindings := hb.2
      routeKeys := hr.1
      routes := hr.2
      browserRouteKeys := hbr.1
      browserRoutes := hbr.2 }
  · intro h
    have hcons := (slots_consistent_iff config.spec).mpr h.slotProtocol
    refine ⟨⟨⟨⟨⟨⟨⟨⟨h.schema, h.deployment, h.snapshotId, h.exposure⟩, h.listeners,
      ⟨h.listenerKeys, by simp⟩, hcons⟩, h.transparentProxy⟩, h.providerIds, h.providers⟩, ?_⟩, ?_⟩, ?_⟩, ?_⟩
    · exact (groups_eq_nil hcons h.providerIds).mpr ⟨h.groupIds, h.groups⟩
    · exact (bindings_eq_nil h.groupIds).mpr ⟨h.bindingConsumers, h.bindings⟩
    · exact (routes_eq_nil hcons h.providerIds).mpr ⟨h.routeKeys, h.routes⟩
    · exact (browserRoutes_eq_nil hcons h.providerIds).mpr ⟨h.browserRouteKeys, h.browserRoutes⟩

/-- **Validation accepts exactly the valid configurations.** -/
theorem validate_ok_iff (config : RouterConfig) : config.validate = .ok () ↔ config.Valid := by
  rw [← validationErrors_eq_nil, RouterConfig.validate]
  cases h : validationErrors config <;> simp

/-! ### The order of the lists -/

/-- The same configuration with its lists in another order. -/
structure RouterConfig.Reordered (config config' : RouterConfig) : Prop where
  apiVersion : config.apiVersion = config'.apiVersion
  kind : config.kind = config'.kind
  metadata : config.metadata = config'.metadata
  snapshot : config.spec.snapshot = config'.spec.snapshot
  exposure : config.spec.exposure = config'.spec.exposure
  transparentProxy : config.spec.transparentProxy = config'.spec.transparentProxy
  identity : config.spec.identity = config'.spec.identity
  listeners : config.spec.listeners.Perm config'.spec.listeners
  providers : config.spec.providers.Perm config'.spec.providers
  groups : config.spec.groups.Perm config'.spec.groups
  bindings : config.spec.bindings.Perm config'.spec.bindings
  routes : config.spec.routes.Perm config'.spec.routes
  browserRoutes : config.spec.browserRoutes.Perm config'.spec.browserRoutes

namespace RouterConfig.Reordered

variable {config config' : RouterConfig}

theorem refers (h : config.Reordered config') {slot : RouteSlotId} {providerId : ComponentId}
    (hrefers : config.spec.Refers slot providerId) : config'.spec.Refers slot providerId := by
  obtain ⟨⟨l, hl, hd⟩, p, hp, hid, hcompat⟩ := hrefers
  exact ⟨⟨l, h.listeners.mem_iff.mp hl, hd⟩, p, h.providers.mem_iff.mp hp, hid,
    fun l' hl' => hcompat l' (h.listeners.mem_iff.mpr hl')⟩

/-- **The order of the lists does not matter** to what is accepted. -/
theorem valid (h : config.Reordered config') (hvalid : config.Valid) : config'.Valid := by
  have hmode : config'.spec.exposureMode = config.spec.exposureMode := by
    rw [RouterSpec.exposureMode, RouterSpec.exposureMode, h.exposure]
  have hack : config'.spec.lanExposureAcknowledged = config.spec.lanExposureAcknowledged := by
    rw [RouterSpec.lanExposureAcknowledged, RouterSpec.lanExposureAcknowledged, h.exposure]
  exact {
    schema := by
      rw [← h.apiVersion, ← h.kind]
      exact hvalid.schema
    deployment := by
      rw [← h.metadata]
      exact hvalid.deployment
    snapshotId := by
      rw [← h.snapshot]
      exact hvalid.snapshotId
    exposure := by
      rw [← h.exposure]
      exact hvalid.exposure
    listeners := by
      intro l hl
      have hl := hvalid.listeners l (h.listeners.mem_iff.mpr hl)
      exact { hl with bindHost := by rw [hack]; exact hl.bindHost }
    listenerKeys := (h.listeners.map _).nodup_iff.mp hvalid.listenerKeys
    slotProtocol := fun l₁ hl₁ l₂ hl₂ =>
      hvalid.slotProtocol l₁ (h.listeners.mem_iff.mpr hl₁) l₂ (h.listeners.mem_iff.mpr hl₂)
    transparentProxy := by
      rw [← h.transparentProxy]
      exact hvalid.transparentProxy
    providerIds := (h.providers.map _).nodup_iff.mp hvalid.providerIds
    providers := by
      intro p hp
      rw [hmode]
      exact hvalid.providers p (h.providers.mem_iff.mpr hp)
    groupIds := (h.groups.map _).nodup_iff.mp hvalid.groupIds
    groups := by
      intro g hg
      obtain ⟨hid, hrefers⟩ := hvalid.groups g (h.groups.mem_iff.mpr hg)
      exact ⟨hid, fun e he => h.refers (hrefers e he)⟩
    bindingConsumers := (h.bindings.map _).nodup_iff.mp hvalid.bindingConsumers
    bindings := by
      intro b hb
      obtain ⟨hid, hconsumer, g, hg, hgroup⟩ := hvalid.bindings b (h.bindings.mem_iff.mpr hb)
      exact ⟨hid, hconsumer, g, h.groups.mem_iff.mp hg, hgroup⟩
    routeKeys := (h.routes.map _).nodup_iff.mp hvalid.routeKeys
    routes := fun r hr => h.refers (hvalid.routes r (h.routes.mem_iff.mpr hr))
    browserRouteKeys := (h.browserRoutes.map _).nodup_iff.mp hvalid.browserRouteKeys
    browserRoutes := by
      intro r hr
      obtain ⟨hrefers, hheader⟩ := hvalid.browserRoutes r (h.browserRoutes.mem_iff.mpr hr)
      exact ⟨h.refers hrefers, hheader⟩ }

end RouterConfig.Reordered

end Apmpr.Router
